import Backtrace.Debugger.Sample
import Backtrace.Proofs.Inspection
import Backtrace.Proofs.StandardFunction
import Backtrace.Walk

/-!
# Recovering nested calls

Standard functions call one another, and the machine stops somewhere in the innermost one.  The walk
then recovers every call exactly: it produces a frame for each activation, with the start of its
function and the place in its caller, and it ends where the outermost caller is not mapped.

Main results:

- Theorems `StandsIn.inspect_opened` and `StandsIn.inspect_unopened`: what a look at one activation
  finds, once the function has stored its link register and before.
- Theorem `StandsIn.inspect_eq_ite`: a look finds this as soon as the start of the function is in
  reach, and nothing before.
- Theorem `NestedCalls.walk_eq`: the walk from any activation outwards.
- Theorem `unwind_nestedCalls`: the whole call stack, wherever the machine stopped.
-/

namespace Backtrace

/-- Slots up to an address a whole number of slots away are numbered by their distance. -/
theorem slots_eq {start stop : Address} {k : Nat} (hstop : stop.toNat = start.toNat + 4 * k) :
    slots start stop = (List.range k).map fun i => UInt32.ofNat (start.toNat + 4 * i) := by
  have hcount : (stop.toNat - start.toNat + 3) / 4 = k := by omega
  rw [slots, hcount]

/-- Code that never moves the stack pointer does not move it in all. -/
theorem exactMovement_eq_zero {code : List Instruction}
    (hstill : ∀ instruction ∈ code, instruction.delta = 0) : exactMovement code = 0 := by
  induction code with
  | nil => rfl
  | cons instruction code ih =>
    rw [exactMovement_cons, hstill instruction List.mem_cons_self,
      ih fun other hother => hstill other (List.mem_cons_of_mem _ hother), Int.add_zero]

namespace Mips

namespace StandardFunction

variable {function : StandardFunction} {memory : MemoryView} {scanDistance k : Nat}
  {programCounter : Address}

/-! ## One activation -/

/-- The code that an activation has executed is the code of the function up to its instruction. -/
theorem StandsIn.executed (hstands : function.StandsIn memory)
    (hinside : function.Inside k programCounter) (hscan : k < scanDistance) :
    (machine memory).Executed scanDistance programCounter function.entry
      (function.code.take k) := by
  have hlength := hinside.lt_length
  refine ⟨hstands.isSome hlength hinside.sum_eq, hstands.located hinside hscan, ?_⟩
  rw [slots_eq hinside.sum_eq]
  apply List.ext_getElem
  · simp
    omega
  · intro i hi hi'
    simp only [List.length_map, List.length_range] at hi
    have hbound := programCounter.toNat_lt
    have hsum := hinside.sum_eq
    have hplace : (UInt32.ofNat (function.entry.toNat + 4 * i)).toNat =
        function.entry.toNat + 4 * i := by
      rw [UInt32.toNat_ofNat']
      omega
    have hcode := hstands.instruction?_eq (i := i) (by omega) hplace
    rw [List.getElem?_eq_getElem (by omega)] at hcode
    simpa using hcode

/-- Behind its opening a function does nothing to the stack pointer or the slot of its return
address until its delay slot. -/
theorem exists_take_code (function : StandardFunction) (hk : k + 2 < function.code.length) :
    ∃ rest, function.code.take (k + 2) =
        .stackAdjust (some (-function.frameSize).toInt32) ::
          .saveLink function.saveOffset.toInt32 :: rest ∧
      ∀ instruction ∈ rest, instruction = .ret ∨ instruction.Plain := by
  have htake : function.code.take (k + 2) =
      .stackAdjust (some (-function.frameSize).toInt32) ::
        .saveLink function.saveOffset.toInt32 :: (function.code.drop 2).take k := by
    rw [code_eq]
    rfl
  refine ⟨(function.code.drop 2).take k, htake, ?_⟩
  intro instruction hmem
  rcases List.mem_iff_getElem?.mp hmem with ⟨i, hi⟩
  have hik : i < k := by
    have hlength := (List.getElem?_eq_some_iff.mp hi).1
    rw [List.length_take] at hlength
    omega
  rw [List.getElem?_take_of_lt hik, List.getElem?_drop] at hi
  rcases code_cases hi with ⟨hfirst, -⟩ | ⟨hsecond, -⟩ | ⟨-, hreturn⟩ | ⟨hlast, -⟩ | ⟨-, -, hplain⟩
  · omega
  · omega
  · exact Or.inl hreturn
  · omega
  · exact Or.inr hplain

/-- An activation that has opened its frame is recovered: its return address is the word in its
slot, and its caller's stack pointer the one it was entered with. -/
theorem StandsIn.inspect_opened {stackPointer base slot returnAddress : Address}
    (hstands : function.StandsIn memory) (hinside : function.Inside k programCounter)
    (hscan : k < scanDistance) (hopened : 2 ≤ k)
    (hpointer : (stackPointer.toNat : Int) = base.toNat - function.frameSize.toInt)
    (hslot : (slot.toNat : Int) = stackPointer.toNat + function.saveOffset.toInt)
    (hword : memory slot = some returnAddress) :
    (machine memory).inspect scanDistance programCounter stackPointer =
      .ok (.saved ⟨function.entry, returnAddress⟩ (some base)) := by
  have hexecuted := hstands.executed hinside hscan
  have hnegative := function.toInt_neg_frameSize
  rcases Nat.exists_eq_add_of_le' hopened with ⟨k, rfl⟩
  rcases function.exists_take_code hinside.lt_length with ⟨rest, htake, hrest⟩
  rw [htake] at hexecuted
  have htold : .stackAdjust none ∉ rest := by
    intro hmem
    rcases hrest _ hmem with hreturn | hplain
    · cases hreturn
    · exact hplain
  have hstill : exactMovement rest = 0 := by
    apply exactMovement_eq_zero
    intro instruction hmem
    rcases hrest _ hmem with rfl | hplain
    · rfl
    · cases instruction <;> first | rfl | exact hplain.elim
  apply Machine.inspect_of_finds
  refine .caller ⟨hexecuted, slot, ⟨_, rest, ⟨[_], rfl, by simp⟩, htold, ?_⟩, hword⟩ ⟨?_, ?_⟩
  · rw [hstill, Int16.toInt_toInt32]
    omega
  · simpa using htold
  · simp only [exactMovement_cons, hstill, Instruction.delta, Int16.toInt_toInt32]
    omega

/-- An activation that has not stored its link register yet is seen as such. -/
theorem StandsIn.inspect_unopened (hstands : function.StandsIn memory)
    (hinside : function.Inside k programCounter) (hscan : k < scanDistance) (hunopened : k < 2)
    (stackPointer : Address) :
    (machine memory).inspect scanDistance programCounter stackPointer =
      .ok (.unsaved function.entry) := by
  apply Machine.inspect_of_finds
  refine .unsaved (hstands.executed hinside hscan) ?_
  intro offset hmem
  rw [code_eq] at hmem
  rcases k with _ | _ | k
  · simp at hmem
  · simp at hmem
  · omega

/-- Nothing is seen of an activation when the start of its function is out of reach. -/
theorem StandsIn.inspect_outOfReach (hstands : function.StandsIn memory)
    (hinside : function.Inside k programCounter) (hscan : scanDistance ≤ k)
    (stackPointer : Address) :
    (machine memory).inspect scanDistance programCounter stackPointer =
      .error .boundaryNotFound := by
  apply Machine.inspect_of_finds
  exact .notLocated (hstands.isSome hinside.lt_length hinside.sum_eq)
    (hstands.locate?_eq_none hinside hscan)

/-- What is seen of an activation is seen as soon as the start of its function is in reach. -/
theorem StandsIn.inspect_eq_ite {stackPointer : Address} {activation : Activation}
    (hstands : function.StandsIn memory) (hinside : function.Inside k programCounter)
    (hreached : k < scanDistance →
      (machine memory).inspect scanDistance programCounter stackPointer = .ok activation) :
    (machine memory).inspect scanDistance programCounter stackPointer =
      if k + 1 ≤ scanDistance then .ok activation else .error .boundaryNotFound := by
  by_cases hscan : k + 1 ≤ scanDistance
  · rw [if_pos hscan]
    exact hreached hscan
  · rw [if_neg hscan]
    exact hstands.inspect_outOfReach hinside (by omega) stackPointer

end StandardFunction

/-! ## Activations within one another -/

/-- The machine stopped in activation number zero of `n`, each entered by a call from the next.
Activation `i` is one of the standard function `f i`, at the program counter `p i`; the stack
pointer is `s i` there, and was `b i` when the function was entered.  The last one was called from
`p n`. -/
structure NestedCalls (memory : MemoryView) (n : Nat) (f : Nat → StandardFunction)
    (p b s : Nat → Address) : Prop where
  stands : ∀ i < n, (f i).StandsIn memory
  inside : ∀ i < n, ∃ k, (f i).Inside k (p i)
  /-- Only a function that has opened its frame calls another one. -/
  opened : ∀ i < n, 0 < i → (f i).entry.toNat + 8 ≤ (p i).toNat
  /-- The first instruction of a function takes its frame from the stack. -/
  pointer : ∀ i < n, ((s i).toNat : Int) =
    if p i = (f i).entry then ((b i).toNat : Int) else (b i).toNat - (f i).frameSize.toInt
  /-- A call leaves the stack pointer where it is. -/
  nested : ∀ i, i + 1 < n → s (i + 1) = b i
  /-- A function that has opened its frame holds its return address there. -/
  saved : ∀ i < n, (f i).entry.toNat + 8 ≤ (p i).toNat → ∃ slot : Address,
    (slot.toNat : Int) = (b i).toNat - (f i).frameSize.toInt + (f i).saveOffset.toInt ∧
      memory slot = some (p (i + 1))
  distinct : ∀ i < n, ∀ j < n, p i = p j → i = j
  /-- Whatever called the outermost function is not mapped. -/
  outside : memory (p n) = none

namespace NestedCalls

variable {memory : MemoryView} {n scanDistance : Nat} {f : Nat → StandardFunction}
  {p b s : Nat → Address}

/-- Every activation is at mapped memory. -/
theorem mapped (hcalls : NestedCalls memory n f p b s) {i : Nat} (hi : i < n) :
    (memory (p i)).isSome = true := by
  rcases hcalls.inside i hi with ⟨k, hinside⟩
  exact (hcalls.stands i hi).isSome hinside.lt_length hinside.sum_eq

/-- No program counter is that of an activation further in. -/
theorem ne_of_lt (hcalls : NestedCalls memory n f p b s) {i j : Nat} (hij : i < j) (hj : j ≤ n) :
    p j ≠ p i := by
  intro hsame
  rcases Nat.lt_or_eq_of_le hj with hj | rfl
  · have hji := hcalls.distinct j hj i (Nat.lt_trans hij hj) hsame
    omega
  · have hmapped := hcalls.mapped hij
    rw [← hsame, hcalls.outside] at hmapped
    cases hmapped

/-- An activation that has opened its frame is found with its caller. -/
theorem inspect_opened (hcalls : NestedCalls memory n f p b s)
    (hscan : ∀ i < n, ((p i).toNat - (f i).entry.toNat) / 4 < scanDistance) {i : Nat} (hi : i < n)
    (hopened : (f i).entry.toNat + 8 ≤ (p i).toNat) :
    (machine memory).inspect scanDistance (p i) (s i) =
      .ok (.saved ⟨(f i).entry, p (i + 1)⟩ (some (b i))) := by
  rcases hcalls.inside i hi with ⟨k, hinside⟩
  rcases hcalls.saved i hi hopened with ⟨slot, hslot, hword⟩
  have hsum := hinside.sum_eq
  have hdistance := hscan i hi
  have hnotEntry : p i ≠ (f i).entry := by
    intro hentry
    rw [hentry] at hopened
    omega
  have hpointer := hcalls.pointer i hi
  rw [if_neg hnotEntry] at hpointer
  apply (hcalls.stands i hi).inspect_opened hinside (by omega) (by omega) hpointer _ hword
  rw [hpointer]
  exact hslot

/-- An activation that has not opened its frame is seen as such. -/
theorem inspect_unopened (hcalls : NestedCalls memory n f p b s)
    (hscan : ∀ i < n, ((p i).toNat - (f i).entry.toNat) / 4 < scanDistance) {i : Nat} (hi : i < n)
    (hunopened : (p i).toNat < (f i).entry.toNat + 8) :
    (machine memory).inspect scanDistance (p i) (s i) = .ok (.unsaved (f i).entry) := by
  rcases hcalls.inside i hi with ⟨k, hinside⟩
  have hsum := hinside.sum_eq
  have hdistance := hscan i hi
  exact (hcalls.stands i hi).inspect_unopened hinside (by omega) (by omega) (s i)

/-- Nothing can be told about whatever called the outermost function. -/
theorem inspect_outside (hcalls : NestedCalls memory n f p b s) (stackPointer : Address) :
    (machine memory).inspect scanDistance (p n) stackPointer = .error (.unmappedRead (p n)) :=
  Machine.inspect_of_finds (.unmapped hcalls.outside)

/-- The walk from an activation outwards recovers it and every activation around it, as far as it
may go. -/
theorem walk_eq (hcalls : NestedCalls memory n f p b s)
    (hscan : ∀ i < n, ((p i).toNat - (f i).entry.toNat) / 4 < scanDistance) (depth : Nat) {i : Nat}
    (hi : i ≤ n) {visited : List Address} {stackPointer : Address}
    (hopened : i < n → (f i).entry.toNat + 8 ≤ (p i).toNat)
    (hpointer : i < n → stackPointer = s i)
    (hvisited : ∀ place ∈ visited, ∃ j ≤ i, place = p j) :
    (machine memory).walk scanDistance depth visited (p i) stackPointer =
      ⟨(List.range' i (min depth (n - i))).map fun j => ⟨(f j).entry, p (j + 1)⟩,
        if depth ≤ n - i then .maxDepthReached else .unmappedRead (p n)⟩ := by
  induction depth generalizing i visited stackPointer with
  | zero => simp [Machine.walk, CallStack.ended]
  | succ depth ih =>
    rcases Nat.lt_or_eq_of_le hi with hlt | rfl
    · -- The record holds activations further in only, so the caller is not on it.
      have hnew : p (i + 1) ∉ visited := by
        intro hmem
        rcases hvisited _ hmem with ⟨j, hj, hsame⟩
        exact hcalls.ne_of_lt (Nat.lt_succ_of_le hj) hlt hsame
      have hvisited' : ∀ place ∈ p (i + 1) :: visited, ∃ j ≤ i + 1, place = p j := by
        intro place hmem
        rcases List.mem_cons.mp hmem with rfl | hmem
        · exact ⟨i + 1, Nat.le_refl (i + 1), rfl⟩
        · rcases hvisited place hmem with ⟨j, hj, hsame⟩
          exact ⟨j, Nat.le_succ_of_le hj, hsame⟩
      have hrest := ih hlt (fun hinner => hcalls.opened (i + 1) hinner (Nat.succ_pos i))
        (fun hinner => (hcalls.nested i hinner).symm) hvisited'
      have hleft : n - i = n - (i + 1) + 1 := by omega
      simp only [Machine.walk, hpointer hlt, hcalls.inspect_opened hscan hlt (hopened hlt), hnew,
        if_false, hrest]
      rw [hleft, Nat.add_min_add_right, List.range'_succ]
      simp [CallStack.push]
    · simp [Machine.walk, hcalls.inspect_outside, CallStack.ended]

end NestedCalls

/-- A machine that stopped in nested calls of standard functions has exactly their call stack: a
frame for each activation, with the start of its function and the place in its caller.  Before the
innermost function has stored its return address, the link register is all there is. -/
theorem unwind_nestedCalls {memory : MemoryView} {n : Nat} {f : Nat → StandardFunction}
    {p b s : Nat → Address} {limits : Limits} (hcalls : NestedCalls memory n f p b s) (hn : 0 < n)
    (hscan : ∀ i < n, ((p i).toNat - (f i).entry.toNat) / 4 < limits.scanDistance)
    (linkRegister : Address) :
    (machine memory).unwind limits ⟨p 0, s 0, linkRegister⟩ =
      if (p 0).toNat < (f 0).entry.toNat + 8 then ⟨[⟨(f 0).entry, linkRegister⟩], .leafFrame⟩
      else ⟨(List.range (min limits.frameDepth n)).map fun i => ⟨(f i).entry, p (i + 1)⟩,
        if limits.frameDepth ≤ n then .maxDepthReached else .unmappedRead (p n)⟩ := by
  by_cases hopened : (p 0).toNat < (f 0).entry.toNat + 8
  · rw [if_pos hopened]
    exact Machine.unwind_of_leaf (hcalls.inspect_unopened hscan hn hopened)
  · rw [if_neg hopened, List.range_eq_range']
    have hinspect := hcalls.inspect_opened hscan hn (Nat.le_of_not_lt hopened)
    have hnotLeaf : ∀ entry, (machine memory).inspect limits.scanDistance (p 0) (s 0) ≠
        .ok (.unsaved entry) := by
      intro entry
      rw [hinspect]
      simp
    rw [Machine.unwind_of_not_leaf hnotLeaf]
    refine hcalls.walk_eq hscan limits.frameDepth (Nat.zero_le n) ?_ ?_ ?_
    · exact fun _ => Nat.le_of_not_lt hopened
    · exact fun _ => rfl
    · intro place hmem
      exact ⟨0, Nat.le_refl 0, List.mem_singleton.mp hmem⟩

end Mips

/-! ## The sample image -/

namespace Debugger

namespace Sample

/-- The `helper` of the sample image. -/
def helper : Mips.StandardFunction where
  entry := helperEntry
  frameSize := 16
  saveOffset := 12
  body := [Mips.Assembly.nop, .nop].map Mips.Assembly.encode
  frameSize_pos := by decide
  body_plain := by simp [Mips.Assembly.classify_encode, Mips.Assembly.meaning, Instruction.Plain]

/-- The `main` of the sample image. -/
def main : Mips.StandardFunction where
  entry := mainEntry
  frameSize := 32
  saveOffset := 28
  body := [Mips.Assembly.nop, .jal helperEntry, .nop, .nop].map Mips.Assembly.encode
  frameSize_pos := by decide
  body_plain := by simp [Mips.Assembly.classify_encode, Mips.Assembly.meaning, Instruction.Plain]

/-- The functions of the calls that the sample image runs, the inner one first. -/
def callee (i : Nat) : Mips.StandardFunction := if i = 0 then helper else main

theorem helper_standsIn : helper.StandsIn running.read where
  holds := by decide
  apart := Or.inl ⟨0x0010001C, 0x00100020, Mips.Assembly.encode (.addiuSp 32), by decide⟩

theorem main_standsIn : main.StandsIn running.read where
  holds := by decide
  apart := Or.inl ⟨0x000FFFF8, 0x000FFFFC, Mips.Assembly.encode .nop, by decide⟩

/-- Where the calls of the sample image are, and where `main` was called from. -/
def counters (i : Nat) : Address := [0x00100030, 0x00100014, 0x00400000].getD i 0

/-- The stack pointers with which the functions of the sample image were entered. -/
def bases (i : Nat) : Address := [0x001FFFE0, 0x00200000].getD i 0

/-- The stack pointers that the functions of the sample image have set. -/
def pointers (i : Nat) : Address := [0x001FFFD0, 0x001FFFE0].getD i 0

/-- The image has stopped in `helper`, which `main` has called. -/
theorem nestedCalls_running :
    Mips.NestedCalls running.read 2 callee counters bases pointers where
  stands := by
    intro i hi
    rcases i with _ | _ | i
    · exact helper_standsIn
    · exact main_standsIn
    · omega
  inside := by
    intro i hi
    rcases i with _ | _ | i
    · exact ⟨3, by decide, by decide⟩
    · exact ⟨5, by decide, by decide⟩
    · omega
  opened := by decide
  pointer := by decide
  nested := by
    intro i hi
    rcases i with _ | i
    · rfl
    · omega
  saved := by
    intro i hi hopened
    rcases i with _ | _ | i
    · exact ⟨0x001FFFDC, by decide, by decide⟩
    · exact ⟨0x001FFFFC, by decide, by decide⟩
    · omega
  distinct := by decide
  outside := by decide

end Sample

end Debugger

/-- The sample image has the call stack of `helper` within `main`. -/
theorem Mips.unwind_nestedCalls_running :
    Mips.NestedCalls Debugger.Sample.running.read 2 Debugger.Sample.callee
        Debugger.Sample.counters Debugger.Sample.bases Debugger.Sample.pointers ∧
      (∀ i < 2, ((Debugger.Sample.counters i).toNat -
        (Debugger.Sample.callee i).entry.toNat) / 4 < Limits.default.scanDistance) ∧
      (machine Debugger.Sample.running.read).unwind .default
          ⟨0x00100030, 0x001FFFD0, 0x00100014⟩ =
        ⟨[⟨0x00100024, 0x00100014⟩, ⟨0x00100000, 0x00400000⟩], .unmappedRead 0x00400000⟩ := by
  have hcalls := Debugger.Sample.nestedCalls_running
  have hscan : ∀ i < 2, ((Debugger.Sample.counters i).toNat -
      (Debugger.Sample.callee i).entry.toNat) / 4 < Limits.default.scanDistance := by
    decide
  refine ⟨hcalls, hscan, ?_⟩
  exact unwind_nestedCalls hcalls (by decide) hscan 0x00100014

end Backtrace
