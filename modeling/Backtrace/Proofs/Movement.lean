import Backtrace.Proofs.Window
import Backtrace.Replay

/-!
# A replay in exact numbers

A replay adds up stack pointer movements with checked sixty-four bit arithmetic.  The code between
the start of a function and its program counter is never long enough for a sum to leave that range,
so a movement is unknown only when some instruction moves the stack pointer by an amount that its
word does not tell.  Everything else is an exact integer sum.

Main results:

- Theorem `fetch_eq_ok_iff`: a replay reads exactly the instructions at its slots.
- Theorem `fetch_of_located`: the replay of a function that was located never meets an unmapped
  slot.
- Theorem `movement_eq_some_iff`: a movement is known exactly when every instruction tells its own,
  and then it is their exact sum.
- Theorem `callerStackPointer?_movement`: the caller's stack pointer is known exactly when the
  movement is and leads to an address.
- Theorem `linkSave?_eq_some_iff`: the store that counts is the first one.
-/

namespace Backtrace

/-! ## Reading the code -/

namespace Machine

variable {machine : Machine}

/-- A replay succeeds exactly with the instructions that stand at its slots. -/
theorem fetch_eq_ok_iff {start stop : Address} {code : List Instruction} :
    machine.fetch start stop = .ok code ↔
      (slots start stop).map machine.instruction? = code.map some := by
  have hread : ∃ read : Address → Except Address Instruction,
      machine.fetch start stop = (slots start stop).mapM read ∧
        (∀ place instruction, machine.instruction? place = some instruction →
          read place = .ok instruction) ∧
        ∀ place, machine.instruction? place = none → read place = .error place := by
    refine ⟨_, rfl, ?_, ?_⟩
    · intro place instruction hplace
      simp only [hplace]
    · intro place hplace
      simp only [hplace]
  rcases hread with ⟨read, hfetch, hok, herror⟩
  rw [hfetch]
  generalize slots start stop = places
  induction places generalizing code with
  | nil => cases code <;> simp [pure, Except.pure]
  | cons place places ih =>
    rw [List.mapM_cons]
    cases hplace : machine.instruction? place with
    | none => cases code <;> simp [bind, Except.bind, hplace, herror place hplace]
    | some instruction =>
      rw [hok place instruction hplace]
      cases hrest : places.mapM read with
      | error unmapped => cases code <;> simp [bind, Except.bind, hplace, ← ih, hrest]
      | ok rest => cases code <;> simp [bind, Except.bind, pure, Except.pure, hplace, ← ih, hrest]

/-- Code that was read has one instruction a slot. -/
theorem length_of_fetch {start stop : Address} {code : List Instruction}
    (hcode : (slots start stop).map machine.instruction? = code.map some) :
    code.length = (stop.toNat - start.toNat + 3) / 4 := by
  have hlength := congrArg List.length hcode
  simpa using hlength.symm

/-- Code in an address space of thirty-two bits is short. -/
theorem length_of_fetch_le {start stop : Address} {code : List Instruction}
    (hcode : (slots start stop).map machine.instruction? = code.map some) :
    code.length ≤ 0x40000000 := by
  have := stop.toNat_lt
  rw [length_of_fetch hcode]
  omega

/-- All slots from the start of a function up to the address it was located from are mapped. -/
theorem isSome_of_mem_slots {scanDistance : Nat} {address place : Address} {start : FunctionStart}
    (hstart : machine.locate? scanDistance address = some start)
    (hplace : place ∈ slots start.address address) : (machine.memory place).isSome = true := by
  have hwindow := locate?_mem_window hstart
  rcases mem_slots_iff.mp hplace with ⟨hlt, i, hsum⟩
  exact isSome_of_mem_window (mem_window_of_le hwindow hsum (UInt32.le_of_lt hlt))

/-- The replay of a function that was located never meets an unmapped slot. -/
theorem fetch_of_located {scanDistance : Nat} {address : Address} {start : FunctionStart}
    (hstart : machine.locate? scanDistance address = some start) :
    ∃ code, machine.fetch start.address address = .ok code := by
  have hmapped : ∀ place ∈ slots start.address address,
      (machine.instruction? place).isSome = true := by
    intro place hplace
    rw [isSome_instruction?]
    exact isSome_of_mem_slots hstart hplace
  refine ⟨((slots start.address address).filterMap machine.instruction?), ?_⟩
  rw [fetch_eq_ok_iff]
  generalize slots start.address address = places at hmapped
  induction places with
  | nil => rfl
  | cons place places ih =>
    rcases Option.isSome_iff_exists.mp (hmapped place List.mem_cons_self) with ⟨instruction, hplace⟩
    have hrest := ih fun other hother => hmapped other (List.mem_cons_of_mem _ hother)
    simp [hplace, hrest]

end Machine

/-! ## Exact movements -/

/-- How many bytes an instruction moves the stack pointer by, as far as its word tells. -/
def Instruction.delta : Instruction → Int
  | .stackAdjust (some delta) => delta.toInt
  | _ => 0

/-- The exact sum of all movements in a stretch of code. -/
def exactMovement : List Instruction → Int
  | [] => 0
  | instruction :: code => instruction.delta + exactMovement code

@[simp] theorem exactMovement_nil : exactMovement [] = 0 := rfl

@[simp] theorem exactMovement_cons (instruction : Instruction) (code : List Instruction) :
    exactMovement (instruction :: code) = instruction.delta + exactMovement code := rfl

/-- One instruction moves the stack pointer by a thirty-two bit distance. -/
theorem Instruction.delta_bounds (instruction : Instruction) :
    -0x80000000 ≤ instruction.delta ∧ instruction.delta < 0x80000000 := by
  unfold Instruction.delta
  split
  · next delta =>
    have hlower := delta.le_toInt
    have hupper := delta.toInt_lt
    omega
  · decide

/-- Once unknown, a movement stays unknown. -/
theorem foldl_after_none (code : List Instruction) : code.foldl Movement.after none = none := by
  induction code with
  | nil => rfl
  | cons instruction code ih => rw [List.foldl_cons, Movement.after_none, ih]

/-- As long as there is room for every further instruction, adding up loses nothing: a known total
is the exact one, and the total is known unless some instruction does not tell. -/
theorem foldl_after_eq_some_iff {code : List Instruction} {moved total : Displacement}
    (hlower : -0x8000000000000000 + 0x80000000 * (code.length : Int) ≤ moved.toInt)
    (hupper : moved.toInt + 0x80000000 * (code.length : Int) < 0x8000000000000000) :
    code.foldl Movement.after (some moved) = some total ↔
      .stackAdjust none ∉ code ∧ total.toInt = moved.toInt + exactMovement code := by
  induction code generalizing moved with
  | nil =>
    simp only [List.foldl_nil, Option.some.injEq, List.not_mem_nil, not_false_eq_true,
      exactMovement_nil, Int.add_zero, true_and]
    exact ⟨fun h => by rw [h], fun h => Displacement.ext h.symm⟩
  | cons instruction code ih =>
    rw [List.length_cons] at hlower hupper
    have hbounds := instruction.delta_bounds
    rw [List.foldl_cons, List.mem_cons, not_or, exactMovement_cons]
    by_cases htells : instruction = .stackAdjust none
    · subst htells
      have hunknown : Movement.after (some moved) (.stackAdjust none) = none := rfl
      rw [hunknown, foldl_after_none]
      simp
    · have hstep : ∃ next : Displacement, Movement.after (some moved) instruction = some next ∧
          next.toInt = moved.toInt + instruction.delta := by
        cases instruction with
        | stackAdjust delta =>
          cases delta with
          | none => exact absurd rfl htells
          | some delta =>
            refine ⟨⟨moved.toInt + delta.toInt, ?_, ?_⟩, ?_, rfl⟩
            · simp only [Instruction.delta] at hbounds
              omega
            · simp only [Instruction.delta] at hbounds
              omega
            · exact Displacement.add?_eq_some_iff.mpr rfl
        | _ => exact ⟨moved, rfl, by simp [Instruction.delta]⟩
      rcases hstep with ⟨next, hafter, hnext⟩
      rw [hafter, ih (by omega) (by omega), hnext, Int.add_assoc]
      simp [Ne.symm htells]

/-- In code as long as an address space allows, a movement is known exactly when every instruction
tells its own, and then it is the exact sum. -/
theorem movement_eq_some_iff {code : List Instruction} {total : Displacement}
    (hshort : code.length ≤ 0x40000000) :
    movement code = some total ↔
      .stackAdjust none ∉ code ∧ total.toInt = exactMovement code := by
  have hzero := Displacement.toInt_zero
  unfold movement
  rw [foldl_after_eq_some_iff (by omega) (by omega), hzero, Int.zero_add]

/-! ## Places that a movement leads to -/

/-- Every instruction of `code` tells its movement, and `target` is the address that the exact
integer `sum` names. -/
structure Resolves (code : List Instruction) (sum : Int) (target : Address) : Prop where
  told : .stackAdjust none ∉ code
  sum_eq : (target.toNat : Int) = sum

/-- An instruction of `code` does not tell its movement, or `sum` names no address. -/
def Unresolved (code : List Instruction) (sum : Int) : Prop :=
  .stackAdjust none ∈ code ∨ sum < 0 ∨ 0x100000000 ≤ sum

/-- There is an address for a sum unless there can be none. -/
theorem unresolved_iff {code : List Instruction} {sum : Int} :
    Unresolved code sum ↔ ∀ target, ¬ Resolves code sum target := by
  constructor
  · intro hunresolved target hresolves
    have hbound := target.toNat_lt
    have hsum := hresolves.sum_eq
    rcases hunresolved with huntold | hlower | hupper
    · exact hresolves.told huntold
    · omega
    · omega
  · intro hnever
    by_cases htold : .stackAdjust none ∈ code
    · exact Or.inl htold
    · by_cases hinside : 0 ≤ sum ∧ sum < 0x100000000
      · have hsum : ((UInt32.ofNat sum.toNat).toNat : Int) = sum := by
          rw [UInt32.toNat_ofNat']
          omega
        exact absurd ⟨htold, hsum⟩ (hnever (UInt32.ofNat sum.toNat))
      · exact Or.inr (by omega)

/-- A checked computation that succeeds exactly at the resolved address fails exactly where the sum
is unresolved. -/
theorem eq_none_iff_unresolved {code : List Instruction} {sum : Int} {result : Option Address}
    (hresult : ∀ target, result = some target ↔ Resolves code sum target) :
    result = none ↔ Unresolved code sum := by
  rw [unresolved_iff, Option.eq_none_iff_forall_ne_some]
  exact forall_congr' fun target => not_congr (hresult target)

/-- The caller's stack pointer is computed without any loss. -/
theorem callerStackPointer?_movement {code : List Instruction} {stackPointer : Address}
    (hshort : code.length ≤ 0x40000000) (caller : Address) :
    callerStackPointer? (movement code) stackPointer = some caller ↔
      Resolves code (stackPointer.toNat - exactMovement code) caller := by
  rw [callerStackPointer?_eq_some_iff]
  constructor
  · intro hcaller
    rcases hcaller with ⟨total, hmoved, hsum⟩
    rcases (movement_eq_some_iff hshort).mp hmoved with ⟨htold, hexact⟩
    exact ⟨htold, by omega⟩
  · intro hresolves
    have hsum := hresolves.sum_eq
    have hpointer := stackPointer.toNat_lt
    have hcaller := caller.toNat_lt
    refine ⟨⟨exactMovement code, by omega, by omega⟩, ?_, hsum⟩
    exact (movement_eq_some_iff hshort).mpr ⟨hresolves.told, rfl⟩

/-- The caller's stack pointer is missing only where there is none to be had. -/
theorem callerStackPointer?_movement_eq_none_iff {code : List Instruction}
    {stackPointer : Address} (hshort : code.length ≤ 0x40000000) :
    callerStackPointer? (movement code) stackPointer = none ↔
      Unresolved code (stackPointer.toNat - exactMovement code) :=
  eq_none_iff_unresolved (callerStackPointer?_movement hshort)

/-- The slot of a store is computed without any loss. -/
theorem slot?_movement {after : List Instruction} {offset : Int32} {stackPointer : Address}
    (hshort : after.length ≤ 0x40000000) (slot : Address) :
    LinkSave.slot? ⟨offset, movement after⟩ stackPointer = some slot ↔
      Resolves after (stackPointer.toNat - exactMovement after + offset.toInt) slot := by
  constructor
  · intro hslot
    cases hmoved : movement after with
    | none => simp [hmoved] at hslot
    | some since =>
      rw [hmoved, LinkSave.slot?_eq_some_iff] at hslot
      rcases (movement_eq_some_iff hshort).mp hmoved with ⟨htold, hexact⟩
      exact ⟨htold, by omega⟩
  · intro hresolves
    have hsum := hresolves.sum_eq
    have hpointer := stackPointer.toNat_lt
    have hbound := slot.toNat_lt
    have hlower := offset.le_toInt
    have hupper := offset.toInt_lt
    have hmoved : movement after = some ⟨exactMovement after, by omega, by omega⟩ :=
      (movement_eq_some_iff hshort).mpr ⟨hresolves.told, rfl⟩
    rw [hmoved, LinkSave.slot?_eq_some_iff]
    dsimp only
    omega

/-! ## The first store -/

/-- The first store of the link register in `code` goes `offset` bytes from the stack pointer of
that moment, and `after` is the code behind it. -/
def FirstSave (code : List Instruction) (offset : Int32) (after : List Instruction) : Prop :=
  ∃ before, code = before ++ .saveLink offset :: after ∧ ∀ other, .saveLink other ∉ before

/-- Code behind a store is no longer than the whole may be. -/
theorem FirstSave.length_le {code after : List Instruction} {offset : Int32} {bound : Nat}
    (hfirst : FirstSave code offset after) (hbound : code.length ≤ bound) :
    after.length ≤ bound := by
  rcases hfirst with ⟨before, hcode, -⟩
  rw [hcode, List.length_append, List.length_cons] at hbound
  omega

/-- The first store of the link register is the one that counts. -/
theorem linkSave?_eq_some_iff {code : List Instruction} {save : LinkSave} :
    linkSave? code = some save ↔
      ∃ offset after, FirstSave code offset after ∧ save = ⟨offset, movement after⟩ := by
  constructor
  · intro hsave
    fun_induction linkSave? code with
    | case1 => simp at hsave
    | case2 offset after =>
      exact ⟨offset, after, ⟨[], rfl, by simp⟩, (Option.some.inj hsave).symm⟩
    | case3 instruction rest hother ih =>
      rcases ih hsave with ⟨offset, after, ⟨before, rfl, hbefore⟩, hshape⟩
      refine ⟨offset, after, ⟨instruction :: before, rfl, ?_⟩, hshape⟩
      intro other hmem
      rcases List.mem_cons.mp hmem with hhead | htail
      · exact hother other hhead.symm
      · exact hbefore other htail
  · intro hfirst
    rcases hfirst with ⟨offset, after, ⟨before, rfl, hbefore⟩, rfl⟩
    induction before with
    | nil => rfl
    | cons instruction before ih =>
      have hrest := ih fun other hother => hbefore other (List.mem_cons_of_mem _ hother)
      cases instruction with
      | saveLink other => exact absurd List.mem_cons_self (hbefore other)
      | _ => simpa [linkSave?] using hrest

/-- `code` stored the link register in `slot` first: from the stack pointer that it left behind,
that is the way back to the store and on by the offset of the store. -/
def SavesAt (code : List Instruction) (stackPointer slot : Address) : Prop :=
  ∃ offset after, FirstSave code offset after ∧
    Resolves after (stackPointer.toNat - exactMovement after + offset.toInt) slot

/-- `code` stored the link register, but the slot of the first store is not to be had. -/
def SaveUnresolved (code : List Instruction) (stackPointer : Address) : Prop :=
  ∃ offset after, FirstSave code offset after ∧
    Unresolved after (stackPointer.toNat - exactMovement after + offset.toInt)

/-- The slot that a replay computes is the slot of the first store. -/
theorem savesAt_iff {code : List Instruction} {stackPointer slot : Address}
    (hshort : code.length ≤ 0x40000000) :
    SavesAt code stackPointer slot ↔
      ∃ save, linkSave? code = some save ∧ save.slot? stackPointer = some slot := by
  constructor
  · intro hsaves
    rcases hsaves with ⟨offset, after, hfirst, hslot⟩
    have hafter := hfirst.length_le hshort
    refine ⟨⟨offset, movement after⟩, ?_, (slot?_movement hafter slot).mpr hslot⟩
    exact linkSave?_eq_some_iff.mpr ⟨offset, after, hfirst, rfl⟩
  · intro hsave
    rcases hsave with ⟨save, hsave, hslot⟩
    rcases linkSave?_eq_some_iff.mp hsave with ⟨offset, after, hfirst, rfl⟩
    have hafter := hfirst.length_le hshort
    exact ⟨offset, after, hfirst, (slot?_movement hafter slot).mp hslot⟩

/-- A replay that finds a store computes no slot only where there is none to be had. -/
theorem saveUnresolved_iff {code : List Instruction} {stackPointer : Address}
    (hshort : code.length ≤ 0x40000000) :
    SaveUnresolved code stackPointer ↔
      ∃ save, linkSave? code = some save ∧ save.slot? stackPointer = none := by
  constructor
  · intro hunresolved
    rcases hunresolved with ⟨offset, after, hfirst, hslot⟩
    have hafter := hfirst.length_le hshort
    refine ⟨⟨offset, movement after⟩, ?_, ?_⟩
    · exact linkSave?_eq_some_iff.mpr ⟨offset, after, hfirst, rfl⟩
    · exact (eq_none_iff_unresolved (slot?_movement hafter)).mpr hslot
  · intro hsave
    rcases hsave with ⟨save, hsave, hslot⟩
    rcases linkSave?_eq_some_iff.mp hsave with ⟨offset, after, hfirst, rfl⟩
    have hafter := hfirst.length_le hshort
    exact ⟨offset, after, hfirst, (eq_none_iff_unresolved (slot?_movement hafter)).mp hslot⟩

end Backtrace
