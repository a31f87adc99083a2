import Backtrace.Proofs.Encoding
import Backtrace.Proofs.Movement

/-!
# Functions as compilers write them

Compilers for MIPS machines open a function with an allocation and a store of the link register, and
close it with a load of the link register, a return, and the release of the stack in its delay slot.
In between the stack pointer stays where it is.  The start of such a function is found from every
one of its instructions, its own return and delay slot included, no matter which of the two guesses
the search gets to see.

Main results:

- Theorem `StandardFunction.code_cases`: what stands at each place of a standard function.
- Theorems `StandardFunction.located` and `StandardFunction.locate?_eq_none`: a standard function is
  located from each of its instructions, unless its start is out of reach.
-/

namespace Backtrace

/-- An instruction that does nothing a walk follows, a call apart. -/
def Instruction.Plain : Instruction → Prop
  | .unknown => True
  | .call _ => True
  | .ret => False
  | .stackAdjust _ => False
  | .saveLink _ => False

/-- `words` stand in memory from `base` upwards, without passing the top of the address space. -/
def MemoryView.Holds (memory : MemoryView) (base : Address) (words : List Word) : Prop :=
  ∀ i (hi : i < words.length), ∃ place : Address,
    place.toNat = base.toNat + 4 * i ∧ memory place = some words[i]

theorem MemoryView.holds_iff {memory : MemoryView} {base : Address} {words : List Word} :
    memory.Holds base words ↔ ∀ i : Fin words.length, base.toNat + 4 * i < 0x100000000 ∧
      memory (UInt32.ofNat (base.toNat + 4 * i)) = some words[i] := by
  constructor
  · intro hholds i
    rcases hholds i i.isLt with ⟨place, hplace, hword⟩
    have hbound := place.toNat_lt
    have hsame : UInt32.ofNat (base.toNat + 4 * i) = place := by
      rw [← hplace, UInt32.ofNat_toNat]
    rw [hsame]
    exact ⟨by omega, hword⟩
  · intro hwords i hi
    rcases hwords ⟨i, hi⟩ with ⟨hbound, hword⟩
    refine ⟨_, ?_, hword⟩
    rw [UInt32.toNat_ofNat']
    exact Nat.mod_eq_of_lt hbound

instance (memory : MemoryView) (base : Address) (words : List Word) :
    Decidable (memory.Holds base words) :=
  decidable_of_iff _ MemoryView.holds_iff.symm

namespace Mips

/-- The machine with a memory that holds MIPS code. -/
def machine (memory : MemoryView) : Machine := ⟨memory, classifier⟩

theorem instruction?_of_word {memory : MemoryView} {place : Address} {word : Word}
    (hword : memory place = some word) :
    (machine memory).instruction? place = some (classify word) := by
  simp [machine, Machine.instruction?, hword, classifier]

/-- A function with the usual opening and closing: it takes `frameSize` bytes from the stack and
stores the link register `saveOffset` bytes above its stack pointer, and `body` is what stands
between the opening and the closing. -/
structure StandardFunction where
  entry : Address
  frameSize : Int16
  saveOffset : Int16
  body : List Word
  frameSize_pos : 0 < frameSize.toInt
  body_plain : ∀ word ∈ body, (classify word).Plain

namespace StandardFunction

variable {function : StandardFunction}

/-- The words of the function, from its first to the delay slot of its return. -/
def words (function : StandardFunction) : List Word :=
  Assembly.encode (.addiuSp (-function.frameSize)) ::
    Assembly.encode (.swRa function.saveOffset) ::
      (function.body ++ [Assembly.encode (.lwRa function.saveOffset), Assembly.encode .jrRa,
        Assembly.encode (.addiuSp function.frameSize)])

/-- The function stands in `memory`, behind the return of another function or at the bottom of a
mapped stretch. -/
structure StandsIn (function : StandardFunction) (memory : MemoryView) : Prop where
  holds : memory.Holds function.entry function.words
  apart :
    (∃ (place gap : Address) (word : Word),
      place.toNat + 8 = function.entry.toNat ∧ memory place = some (Assembly.encode .jrRa) ∧
      gap.toNat + 4 = function.entry.toNat ∧ memory gap = some word ∧ classify word ≠ .ret) ∨
    ∀ gap : Address, gap.toNat + 4 = function.entry.toNat → memory gap = none

/-! ## The code of a standard function -/

/-- What the words of the function mean. -/
def code (function : StandardFunction) : List Instruction := function.words.map classify

theorem toInt_neg_frameSize (function : StandardFunction) :
    (-function.frameSize).toInt = -function.frameSize.toInt := by
  have hpos := function.frameSize_pos
  have hupper := function.frameSize.toInt_lt
  rw [Int16.toInt_neg]
  apply Int.bmod_eq_of_le
  · omega
  · omega

theorem code_eq (function : StandardFunction) :
    function.code = .stackAdjust (some (-function.frameSize).toInt32) ::
      .saveLink function.saveOffset.toInt32 ::
        (function.body.map classify ++
          [.unknown, .ret, .stackAdjust (some function.frameSize.toInt32)]) := by
  simp [code, words, Assembly.classify_encode, Assembly.meaning]

/-- What stands at each place of the function: its opening, its return and release, and in between
nothing that a walk follows. -/
theorem code_cases {i : Nat} {instruction : Instruction}
    (hi : function.code[i]? = some instruction) :
    (i = 0 ∧ instruction = .stackAdjust (some (-function.frameSize).toInt32)) ∨
      (i = 1 ∧ instruction = .saveLink function.saveOffset.toInt32) ∨
      (i + 2 = function.code.length ∧ instruction = .ret) ∨
      (i + 1 = function.code.length ∧
        instruction = .stackAdjust (some function.frameSize.toInt32)) ∨
      (2 ≤ i ∧ i + 2 < function.code.length ∧ instruction.Plain) := by
  have hlength : function.code.length = function.body.length + 5 := by
    simp [code_eq]
  rw [hlength]
  rw [code_eq] at hi
  rcases i with _ | _ | i
  · simp only [List.getElem?_cons_zero, Option.some.injEq] at hi
    exact Or.inl ⟨rfl, hi.symm⟩
  · simp only [List.getElem?_cons_succ, List.getElem?_cons_zero, Option.some.injEq] at hi
    exact Or.inr (Or.inl ⟨rfl, hi.symm⟩)
  · simp only [List.getElem?_cons_succ] at hi
    right
    right
    by_cases hbody : i < function.body.length
    · rw [List.getElem?_append_left (by simpa using hbody), List.getElem?_map,
        Option.map_eq_some_iff] at hi
      rcases hi with ⟨word, hword, rfl⟩
      have hplain := function.body_plain word (List.mem_of_getElem? hword)
      exact Or.inr (Or.inr ⟨by omega, by omega, hplain⟩)
    · rw [List.getElem?_append_right (by simpa using hbody), List.length_map] at hi
      generalize hj : i - function.body.length = j at hi
      rcases j with _ | _ | _ | j
      · simp only [List.getElem?_cons_zero, Option.some.injEq] at hi
        refine Or.inr (Or.inr ⟨by omega, by omega, ?_⟩)
        rw [← hi]
        trivial
      · simp only [List.getElem?_cons_succ, List.getElem?_cons_zero, Option.some.injEq] at hi
        exact Or.inl ⟨by omega, hi.symm⟩
      · simp only [List.getElem?_cons_succ, List.getElem?_cons_zero, Option.some.injEq] at hi
        exact Or.inr (Or.inl ⟨by omega, hi.symm⟩)
      · simp at hi

/-! ## Finding its start -/

variable {memory : MemoryView}

/-- What a walk sees in memory is the code of the function. -/
theorem StandsIn.instruction?_eq (hstands : function.StandsIn memory) {i : Nat} {place : Address}
    (hi : i < function.code.length) (hplace : place.toNat = function.entry.toNat + 4 * i) :
    (machine memory).instruction? place = function.code[i]? := by
  have hi' : i < function.words.length := by simpa [code] using hi
  rcases hstands.holds i hi' with ⟨other, hother, hword⟩
  have hsame : place = other := UInt32.toNat_inj.mp (by omega)
  rw [hsame, instruction?_of_word hword, code, List.getElem?_map, List.getElem?_eq_getElem hi',
    Option.map_some]

theorem StandsIn.isSome (hstands : function.StandsIn memory) {i : Nat} {place : Address}
    (hi : i < function.code.length) (hplace : place.toNat = function.entry.toNat + 4 * i) :
    (memory place).isSome = true := by
  have hmapped := (machine memory).isSome_instruction? place
  rw [hstands.instruction?_eq hi hplace, List.getElem?_eq_getElem hi] at hmapped
  exact hmapped.symm

/-- Slot number `k` of a function is seen from there, and all slots before it too. -/
structure Inside (function : StandardFunction) (k : Nat) (programCounter : Address) : Prop where
  lt_length : k < function.code.length
  sum_eq : programCounter.toNat = function.entry.toNat + 4 * k

/-- A search from inside the function that may look far enough reaches its start. -/
theorem StandsIn.entry_mem_window (hstands : function.StandsIn memory) {scanDistance k : Nat}
    {programCounter : Address} (hinside : function.Inside k programCounter)
    (hscan : k < scanDistance) :
    function.entry ∈ (machine memory).window scanDistance programCounter := by
  have hsum := hinside.sum_eq
  have hlength := hinside.lt_length
  apply Machine.mem_window_iff.mpr
  refine ⟨k, hscan, by omega, ?_⟩
  intro j hj above habove
  exact hstands.isSome (i := k - j) (by omega) (by omega)

/-- No return at or behind the start of the function counts for one of its own instructions, and
neither does what stands in the delay slot in front of it. -/
theorem StandsIn.countedStart?_eq_none (hstands : function.StandsIn memory) {scanDistance k : Nat}
    {programCounter place : Address} (hinside : function.Inside k programCounter)
    (hplace : place ∈ (machine memory).window scanDistance programCounter)
    (hlow : function.entry.toNat ≤ place.toNat + 4) :
    (machine memory).countedStart? programCounter place = none := by
  have hsum := hinside.sum_eq
  have hlength := hinside.lt_length
  have hwidth : (machine memory).classifier.returnBytes = 8 := rfl
  rcases Machine.mem_window_iff.mp hplace with ⟨j, -, hdistance, -⟩
  apply Option.eq_none_iff_forall_ne_some.mpr
  intro start hcounted
  rcases Machine.countedStart?_eq_some_iff.mp hcounted with ⟨hreturn, hstart, hle⟩
  rw [UInt32.le_iff_toNat_le] at hle
  by_cases hgap : place.toNat + 4 = function.entry.toNat
  · rcases hstands.apart with ⟨other, gap, word, -, -, hgap', hword, hnotReturn⟩ | hunmapped
    · have hsame : place = gap := UInt32.toNat_inj.mp (by omega)
      rw [hsame, instruction?_of_word hword, Option.some.injEq] at hreturn
      exact hnotReturn hreturn
    · have hmapped : (memory place).isSome = true := Machine.isSome_of_mem_window hplace
      simp [hunmapped place hgap] at hmapped
  · rw [hstands.instruction?_eq (i := k - j) (by omega) (by omega)] at hreturn
    rcases code_cases hreturn with ⟨-, hkind⟩ | ⟨-, hkind⟩ | ⟨hlast, -⟩ | ⟨-, hkind⟩ |
      ⟨-, -, hplain⟩
    · cases hkind
    · cases hkind
    · omega
    · cases hkind
    · exact hplain

/-- Within the function nothing but its first instruction allocates. -/
theorem StandsIn.allocatesAt_iff (hstands : function.StandsIn memory) {k : Nat}
    {place : Address} (hinside : function.Inside k place) :
    (machine memory).allocatesAt place = true ↔ k = 0 := by
  have hnegative := function.toInt_neg_frameSize
  have hpos := function.frameSize_pos
  have hlength : function.code.length = function.body.length + 5 := by simp [code_eq]
  have hcode : ∃ instruction, function.code[k]? = some instruction :=
    ⟨_, List.getElem?_eq_getElem hinside.lt_length⟩
  rcases hcode with ⟨instruction, hcode⟩
  rw [Machine.allocatesAt, hstands.instruction?_eq hinside.lt_length hinside.sum_eq, hcode,
    Option.any_some, Instruction.allocates_iff]
  constructor
  · intro hallocates
    rcases hallocates with ⟨delta, rfl, hdelta⟩
    rcases code_cases hcode with ⟨hk, -⟩ | ⟨-, hkind⟩ | ⟨-, hkind⟩ | ⟨-, hkind⟩ | ⟨-, -, hplain⟩
    · exact hk
    · cases hkind
    · cases hkind
    · cases hkind
      rw [Int16.toInt_toInt32] at hdelta
      omega
    · exact hplain.elim
  · intro hk
    rcases code_cases hcode with ⟨-, hkind⟩ | ⟨hk', -⟩ | ⟨hk', -⟩ | ⟨hk', -⟩ | ⟨hk', -, -⟩
    · refine ⟨_, hkind, ?_⟩
      rw [Int16.toInt_toInt32]
      omega
    · omega
    · omega
    · omega
    · omega

/-- The function is located from each of its instructions, as far as the search may look. -/
theorem StandsIn.located (hstands : function.StandsIn memory) {scanDistance k : Nat}
    {programCounter : Address} (hinside : function.Inside k programCounter)
    (hscan : k < scanDistance) :
    ∃ heuristic, (machine memory).locate? scanDistance programCounter =
      some ⟨function.entry, heuristic⟩ := by
  have hsum := hinside.sum_eq
  have hlength := hinside.lt_length
  have hentry := hstands.entry_mem_window hinside hscan
  by_cases hreturn : ∃ place ∈ (machine memory).window scanDistance programCounter,
      place.toNat + 8 = function.entry.toNat ∧ memory place = some (Assembly.encode .jrRa)
  · -- The return in front of the function is in sight, and nothing behind it counts.
    rcases hreturn with ⟨place, hplace, hfront, hword⟩
    refine ⟨.afterReturn, Machine.locate?_eq_afterReturn_iff.mpr ⟨place, hplace, ?_, ?_⟩⟩
    · apply Machine.countedStart?_eq_some_iff.mpr
      refine ⟨?_, hfront.symm, ?_⟩
      · rw [instruction?_of_word hword, Assembly.classify_encode]
        rfl
      · rw [UInt32.le_iff_toNat_le]
        omega
    · intro above habove hlt
      rw [UInt32.lt_iff_toNat_lt] at hlt
      rcases Machine.mem_window_iff.mp hplace with ⟨i, -, hi, -⟩
      rcases Machine.mem_window_iff.mp habove with ⟨j, -, hj, -⟩
      exact hstands.countedStart?_eq_none hinside habove (by omega)
  · -- Nothing in front of the function is in sight but the delay slot of that return.
    have hlow : ∀ place ∈ (machine memory).window scanDistance programCounter,
        function.entry.toNat ≤ place.toNat + 4 := by
      intro place hplace
      by_cases hlow : function.entry.toNat ≤ place.toNat + 4
      · exact hlow
      · rcases Machine.mem_window_iff.mp hplace with ⟨j, -, hj, -⟩
        rcases hstands.apart with ⟨other, gap, word, hfront, hword, -⟩ | hunmapped
        · have habove : other.toNat =
              place.toNat + 4 * ((function.entry.toNat - 8 - place.toNat) / 4) := by
            omega
          have hle : other ≤ programCounter := by
            rw [UInt32.le_iff_toNat_le]
            omega
          have hother := Machine.mem_window_of_le hplace habove hle
          exact absurd ⟨other, hother, hfront, hword⟩ hreturn
        · have hbound := function.entry.toNat_lt
          have hgap : (UInt32.ofNat (function.entry.toNat - 4)).toNat =
              place.toNat + 4 * ((function.entry.toNat - 4 - place.toNat) / 4) := by
            rw [UInt32.toNat_ofNat']
            omega
          have hle : UInt32.ofNat (function.entry.toNat - 4) ≤ programCounter := by
            rw [UInt32.le_iff_toNat_le]
            omega
          have hmapped : (memory (UInt32.ofNat (function.entry.toNat - 4))).isSome = true :=
            Machine.isSome_of_mem_window (Machine.mem_window_of_le hplace hgap hle)
          have hnone := hunmapped (UInt32.ofNat (function.entry.toNat - 4)) (by omega)
          simp [hnone] at hmapped
    refine ⟨.prologue, Machine.locate?_eq_prologue_iff.mpr ⟨?_, hentry, ?_, ?_⟩⟩
    · intro place hplace
      exact hstands.countedStart?_eq_none hinside hplace (hlow place hplace)
    · exact (hstands.allocatesAt_iff ⟨by omega, by omega⟩).mpr rfl
    · intro above habove hlt
      rw [UInt32.lt_iff_toNat_lt] at hlt
      rcases Machine.mem_window_iff.mp habove with ⟨j, -, hj, -⟩
      have hk : function.Inside (k - j) above := ⟨by omega, by omega⟩
      rw [Bool.eq_false_iff, Ne, hstands.allocatesAt_iff hk]
      omega

/-- A search from inside the function that may not look as far as its start finds nothing. -/
theorem StandsIn.locate?_eq_none (hstands : function.StandsIn memory) {scanDistance k : Nat}
    {programCounter : Address} (hinside : function.Inside k programCounter)
    (hscan : scanDistance ≤ k) :
    (machine memory).locate? scanDistance programCounter = none := by
  have hsum := hinside.sum_eq
  have hlength := hinside.lt_length
  apply Machine.locate?_eq_none_iff.mpr
  intro place hplace
  rcases Machine.mem_window_iff.mp hplace with ⟨j, hj, hdistance, -⟩
  refine ⟨hstands.countedStart?_eq_none hinside hplace (by omega), ?_⟩
  have hk : function.Inside (k - j) place := ⟨by omega, by omega⟩
  rw [Bool.eq_false_iff, Ne, hstands.allocatesAt_iff hk]
  omega

end StandardFunction

end Mips

end Backtrace
