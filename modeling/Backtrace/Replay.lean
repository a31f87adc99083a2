import Backtrace.Displacement
import Backtrace.Machine

/-!
# Replaying a function

From the start of a function up to the program counter, its instructions tell two things: how far
the stack pointer has moved, and where the link register was stored, if it was.  The first store
counts.  A stack pointer that got a value the code does not tell makes every movement across it
unknown.

Main results:

- Theorem `mem_slots_iff`: the slots of a stretch of code lie four bytes apart, from its start,
  below its end.
- Theorem `linkSave?_eq_none_iff`: a store is found unless there is none.
- Theorems `LinkSave.slot?_eq_some_iff` and `callerStackPointer?_eq_some_iff`: the slot of a store
  and the caller's stack pointer are exact integer sums inside the address space.
-/

namespace Backtrace

/-! ## Stretches of code -/

/-- The slots from `start` up to, and without, `stop`. -/
def slots (start stop : Address) : List Address :=
  (List.range ((stop.toNat - start.toNat + 3) / 4)).map fun i => UInt32.ofNat (start.toNat + 4 * i)

@[simp] theorem length_slots (start stop : Address) :
    (slots start stop).length = (stop.toNat - start.toNat + 3) / 4 := by
  simp [slots]

/-- The slots lie four bytes apart, from the start, below the end. -/
theorem mem_slots_iff {start stop place : Address} :
    place ∈ slots start stop ↔
      place < stop ∧ ∃ i : Nat, place.toNat = start.toNat + 4 * i := by
  have hbound := stop.toNat_lt
  unfold slots
  rw [List.mem_map, UInt32.lt_iff_toNat_lt]
  constructor
  · rintro ⟨i, hinside, rfl⟩
    rw [List.mem_range] at hinside
    rw [UInt32.toNat_ofNat', Nat.mod_eq_of_lt (by omega)]
    exact ⟨by omega, i, rfl⟩
  · rintro ⟨hbelow, i, hsum⟩
    refine ⟨i, List.mem_range.mpr (by omega), ?_⟩
    rw [← hsum, UInt32.ofNat_toNat]

namespace Machine

/-- The instructions from `start` up to, and without, `stop`, or the first slot that is not
mapped. -/
def fetch (machine : Machine) (start stop : Address) : Except Address (List Instruction) :=
  (slots start stop).mapM fun place =>
    match machine.instruction? place with
    | some instruction => .ok instruction
    | none => .error place

end Machine

/-! ## Stack pointer movement -/

/-- How far the stack pointer has moved, or `none` when the code does not tell. -/
abbrev Movement := Option Displacement

namespace Movement

/-- The movement once one more instruction has been executed. -/
def after (moved : Movement) : Instruction → Movement
  | .stackAdjust delta => do (← moved).add? (.ofInt32 (← delta))
  | _ => moved

@[simp] theorem after_none (instruction : Instruction) : after none instruction = none := by
  cases instruction <;> rfl

end Movement

/-- How far the stack pointer moves over a stretch of code. -/
def movement (code : List Instruction) : Movement := code.foldl Movement.after (some .zero)

/-! ## The saved link register -/

/-- The first store of the link register in a stretch of code: the distance of its slot from the
stack pointer of that moment, and the movement of the stack pointer since. -/
structure LinkSave where
  offset : Int32
  movementSince : Movement
deriving DecidableEq, Repr

namespace LinkSave

/-- Where the link register was stored, seen from the stack pointer as it is now. -/
def slot? (save : LinkSave) (stackPointer : Address) : Option Address := do
  let distance ← (Displacement.ofInt32 save.offset).sub? (← save.movementSince)
  stackPointer.shift? distance.toInt

/-- The slot is the stack pointer as it is now, less what it moved since the store, plus the
offset. -/
theorem slot?_eq_some_iff {offset : Int32} {since : Displacement} {stackPointer slot : Address} :
    slot? ⟨offset, some since⟩ stackPointer = some slot ↔
      (slot.toNat : Int) = stackPointer.toNat + (offset.toInt - since.toInt) := by
  simp only [slot?, Option.bind_eq_bind, Option.bind_some, Option.bind_eq_some_iff,
    Displacement.sub?_eq_some_iff, Address.shift?_eq_some_iff, Displacement.toInt_ofInt32]
  constructor
  · rintro ⟨d, hexact, hsum⟩
    omega
  · intro hsum
    have hpointer := stackPointer.toNat_lt
    have hslot := slot.toNat_lt
    exact ⟨⟨offset.toInt - since.toInt, by omega, by omega⟩, rfl, by dsimp only; omega⟩

@[simp] theorem slot?_of_unknown (offset : Int32) (stackPointer : Address) :
    slot? ⟨offset, none⟩ stackPointer = none := rfl

end LinkSave

/-- The first store of the link register in a stretch of code, if there is one. -/
def linkSave? : List Instruction → Option LinkSave
  | [] => none
  | .saveLink offset :: rest => some ⟨offset, movement rest⟩
  | _ :: rest => linkSave? rest

/-- The link register is never stored exactly when no instruction stores it. -/
theorem linkSave?_eq_none_iff {code : List Instruction} :
    linkSave? code = none ↔ ∀ offset, .saveLink offset ∉ code := by
  fun_induction linkSave? code with
  | case1 => simp
  | case2 offset rest =>
    simp only [reduceCtorEq, false_iff]
    intro hnever
    exact hnever offset List.mem_cons_self
  | case3 instruction rest hother ih =>
    simp only [ih, List.mem_cons, not_or]
    constructor
    · intro hnever offset
      exact ⟨fun hsame => hother offset hsame.symm, hnever offset⟩
    · intro hnever offset
      exact (hnever offset).2

/-- The stack pointer of the caller: what it was before the function moved it. -/
def callerStackPointer? (moved : Movement) (stackPointer : Address) : Option Address := do
  let back ← (← moved).neg?
  stackPointer.shift? back.toInt

/-- Moving back undoes a known movement exactly. -/
theorem callerStackPointer?_eq_some_iff {moved : Movement} {stackPointer caller : Address} :
    callerStackPointer? moved stackPointer = some caller ↔
      ∃ d : Displacement, moved = some d ∧
        (caller.toNat : Int) = stackPointer.toNat - d.toInt := by
  rcases moved with _ | d
  · simp [callerStackPointer?]
  · simp only [callerStackPointer?, Option.bind_eq_bind, Option.bind_some, Option.bind_eq_some_iff,
      Displacement.neg?_eq_some_iff, Address.shift?_eq_some_iff, Option.some.injEq, exists_eq_left']
    constructor
    · rintro ⟨back, hexact, hsum⟩
      omega
    · intro hsum
      have hpointer := stackPointer.toNat_lt
      have hcaller := caller.toNat_lt
      exact ⟨⟨-d.toInt, by omega, by omega⟩, rfl, by dsimp only; omega⟩

end Backtrace
