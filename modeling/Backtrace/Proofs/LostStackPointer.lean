import Backtrace.Debugger.Tour
import Backtrace.Proofs.Trail

/-!
# Where the stack pointer is lost

A walk ends with an unresolved stack delta when the stack pointer of an activation does not lead to
the slot of its return address, or does not lead on to the caller.  Sums of sixty-four bits are not
the reason: the code between the start of a function and the program counter is so short that no sum
or difference of a replay leaves them.  What remains is an instruction that does not tell how far it
moves the stack pointer, and an exact sum that is no address.

Main results:

- Theorem `lossless_of_length_le`: no checked operation of a replay fails.
- Theorem `Stopped.unresolved_iff`: a walk ends with an unresolved stack delta where the stack
  pointer is lost.
- Theorem `unwind_unresolvedStackDelta`: both together, and the frames that there are in each case.
-/

namespace Backtrace

/-! ## Room for every sum -/

/-- A number makes a displacement when sixty-four bits hold it. -/
theorem Displacement.isSome_ofInt?_iff {bytes : Int} :
    (Displacement.ofInt? bytes).isSome = true ↔
      -0x8000000000000000 ≤ bytes ∧ bytes < 0x8000000000000000 := by
  rw [Option.isSome_iff_ne_none, ne_eq, Displacement.ofInt?_eq_none_iff]
  omega

/-- Adding up the movement of `code` never fails: whenever there is a sum so far and the next
instruction tells its own movement, there is a sum of both. -/
def AddsUp (code : List Instruction) : Prop :=
  ∀ earlier delta later moved, code = earlier ++ .stackAdjust (some delta) :: later →
    movement earlier = some moved → (moved.add? (.ofInt32 delta)).isSome = true

/-- No checked operation fails between the replay of `code` and the two addresses that are computed
from it and `stackPointer`: not a sum, not a difference, not a change of direction, and not the last
sum, which is an address if it is not negative or too great for one.  The movement is added up
twice, since the start of the function and since the first store. -/
structure Lossless (code : List Instruction) (stackPointer : Address) : Prop where
  total : AddsUp code
  since : ∀ offset after, FirstSave code offset after → AddsUp after
  slot : ∀ offset after moved, FirstSave code offset after → movement after = some moved →
    ∃ distance, (Displacement.ofInt32 offset).sub? moved = some distance ∧
      (Displacement.ofInt? (stackPointer.toNat + distance.toInt)).isSome = true
  caller : ∀ moved, movement code = some moved →
    ∃ back, moved.neg? = some back ∧
      (Displacement.ofInt? (stackPointer.toNat + back.toInt)).isSome = true

/-- A stretch of code moves the stack pointer by no more than `2 ^ 31` bytes an instruction. -/
theorem exactMovement_bounds (code : List Instruction) :
    -0x80000000 * (code.length : Int) ≤ exactMovement code ∧
      exactMovement code ≤ 0x80000000 * (code.length : Int) := by
  induction code with
  | nil => simp
  | cons instruction code ih =>
    have hbounds := instruction.delta_bounds
    rw [exactMovement_cons, List.length_cons]
    omega

/-- Known movements of code as long as an address space allows take no more than sixty-two bits. -/
theorem toInt_bounds_of_movement {code : List Instruction} {moved : Displacement}
    (hshort : code.length ≤ 0x40000000) (hmoved : movement code = some moved) :
    -0x2000000000000000 ≤ moved.toInt ∧ moved.toInt ≤ 0x2000000000000000 := by
  have hexact := ((movement_eq_some_iff hshort).mp hmoved).2
  have hbounds := exactMovement_bounds code
  omega

/-- In code as long as an address space allows, every movement adds up. -/
theorem addsUp_of_length_le {code : List Instruction} (hshort : code.length ≤ 0x40000000) :
    AddsUp code := by
  intro earlier delta later moved hcode hmoved
  have hearlier : earlier.length ≤ 0x40000000 := by
    rw [hcode, List.length_append] at hshort
    omega
  have hbounds := toInt_bounds_of_movement hearlier hmoved
  have hlower := delta.le_toInt
  have hupper := delta.toInt_lt
  refine Displacement.isSome_ofInt?_iff.mpr ?_
  rw [Displacement.toInt_ofInt32]
  omega

/-- In code as long as an address space allows, no checked operation of a replay fails. -/
theorem lossless_of_length_le {code : List Instruction} (hshort : code.length ≤ 0x40000000)
    (stackPointer : Address) : Lossless code stackPointer where
  total := addsUp_of_length_le hshort
  since := fun _ _ hfirst => addsUp_of_length_le (hfirst.length_le hshort)
  slot := by
    intro offset after moved hfirst hmoved
    have hbounds := toInt_bounds_of_movement (hfirst.length_le hshort) hmoved
    have hlower := offset.le_toInt
    have hupper := offset.toInt_lt
    have hpointer := stackPointer.toNat_lt
    refine ⟨⟨offset.toInt - moved.toInt, by omega, by omega⟩,
      Displacement.sub?_eq_some_iff.mpr rfl, Displacement.isSome_ofInt?_iff.mpr ?_⟩
    dsimp only
    omega
  caller := by
    intro moved hmoved
    have hbounds := toInt_bounds_of_movement hshort hmoved
    have hpointer := stackPointer.toNat_lt
    refine ⟨⟨-moved.toInt, by omega, by omega⟩, Displacement.neg?_eq_some_iff.mpr rfl,
      Displacement.isSome_ofInt?_iff.mpr ?_⟩
    dsimp only
    omega

namespace Machine

variable {machine : Machine} {scanDistance : Nat}

/-! ## Where the stack pointer is lost -/

/-- The function at `position` has stored its return address, but the stack pointer there does not
lead to the slot: behind the first store an instruction does not tell its movement, or the exact sum
is no address. -/
def SlotLost (machine : Machine) (scanDistance : Nat) (position : Position) : Prop :=
  ∃ entry code, machine.Executed scanDistance position.programCounter entry code ∧
    SaveUnresolved code position.stackPointer

/-- The function at `position` returns through `frame`, but the stack pointer there does not lead on
to the caller: an instruction of the function does not tell its movement, or the exact difference is
no address. -/
def CallerLost (machine : Machine) (scanDistance : Nat) (position : Position) (frame : Frame) :
    Prop :=
  ∃ code, machine.Recovers scanDistance position.programCounter position.stackPointer frame code ∧
    Unresolved code (position.stackPointer.toNat - exactMovement code)

/-- A look at an activation fails for its stack pointer exactly where the slot is lost. -/
theorem slotLost_iff {position : Position} :
    machine.SlotLost scanDistance position ↔
      machine.inspect scanDistance position.programCounter position.stackPointer =
        .error .unresolvedStackDelta := by
  constructor
  · intro hlost
    rcases hlost with ⟨entry, code, hexecuted, hslot⟩
    exact inspect_eq_iff.mpr (.slotUnresolved hexecuted hslot)
  · intro hinspect
    cases inspect_eq_iff.mp hinspect with
    | slotUnresolved hexecuted hslot => exact ⟨_, _, hexecuted, hslot⟩

/-- A look at an activation finds a frame without a caller exactly where the caller is lost. -/
theorem callerLost_iff {position : Position} {frame : Frame} :
    machine.CallerLost scanDistance position frame ↔
      machine.inspect scanDistance position.programCounter position.stackPointer =
        .ok (.saved frame none) := by
  constructor
  · intro hlost
    rcases hlost with ⟨code, hframe, hcaller⟩
    exact inspect_eq_iff.mpr (.callerUnresolved hframe hcaller)
  · intro hinspect
    cases inspect_eq_iff.mp hinspect with
    | callerUnresolved hframe hcaller => exact ⟨_, hframe, hcaller⟩

/-- The stack pointer at `position` is lost: for the slot, or for the caller. -/
def Lost (machine : Machine) (scanDistance : Nat) (position : Position) : Prop :=
  machine.SlotLost scanDistance position ∨
    ∃ frame, machine.CallerLost scanDistance position frame

/-- A walk goes on only where the stack pointer is not lost. -/
theorem not_lost_of_caller {position : Position} {frame : Frame} {caller : Address}
    (hinspect : machine.inspect scanDistance position.programCounter position.stackPointer =
      .ok (.saved frame (some caller))) :
    ¬ machine.Lost scanDistance position := by
  simp [Lost, slotLost_iff, callerLost_iff, hinspect]

/-- At its last position a walk ends with an unresolved stack delta exactly where the stack pointer
is lost.  Whether the walk has been at the caller, and whether it may produce a further frame, does
not matter then. -/
theorem Stops.unresolved_iff {position : Position} {last : List Frame} {reason : Termination}
    (hstops : machine.Stops scanDistance position last reason) :
    reason = .unresolvedStackDelta ↔ machine.Lost scanDistance position := by
  unfold Lost
  simp only [slotLost_iff, callerLost_iff]
  cases hstops with
  | failed hinspect => simp [hinspect]
  | leaf hinspect => simp [hinspect]
  | unsaved hinspect => simp [hinspect]
  | callerUnresolved hinspect => simp [hinspect]
  | caller hinspect hreason => rcases hreason with rfl | rfl <;> simp [hinspect]

/-- A walk ends with an unresolved stack delta at a position exactly if it looks there and the stack
pointer is lost. -/
theorem Stopped.unresolved_iff {start position : Position} {positions : List Position}
    {stack : CallStack} (hstopped : machine.Stopped scanDistance start positions stack) :
    stack.termination = .unresolvedStackDelta ∧ positions.getLast? = some position ↔
      position ∈ positions ∧ machine.Lost scanDistance position := by
  induction hstopped with
  | @here start last reason hstops =>
    rw [List.getLast?_singleton, List.mem_singleton, Option.some.injEq]
    constructor
    · intro hends
      rcases hends with ⟨hreason, rfl⟩
      exact ⟨rfl, hstops.unresolved_iff.mp hreason⟩
    · intro hlost
      rcases hlost with ⟨rfl, hlost⟩
      exact ⟨hstops.unresolved_iff.mpr hlost, rfl⟩
  | @outwards start frame caller outer stack hinspect hrest ih =>
    rcases hrest.exists_getLast? with ⟨last, hlast⟩
    rw [CallStack.termination_push, List.getLast?_cons, hlast, Option.getD_some, ← hlast, ih,
      List.mem_cons]
    constructor
    · intro hlost
      exact ⟨Or.inr hlost.1, hlost.2⟩
    · intro hlost
      rcases hlost with ⟨rfl | hposition, hlost⟩
      · exact absurd hlost (not_lost_of_caller hinspect)
      · exact ⟨hposition, hlost⟩

/-- Where the slot is lost, the walk produces no further frame. -/
theorem Stops.eq_nil_of_slotLost {position : Position} {last : List Frame} {reason : Termination}
    (hstops : machine.Stops scanDistance position last reason)
    (hlost : machine.SlotLost scanDistance position) : last = [] := by
  rw [slotLost_iff] at hlost
  cases hstops with
  | failed hinspect => rfl
  | leaf hinspect => simp [hinspect] at hlost
  | unsaved hinspect => simp [hinspect] at hlost
  | callerUnresolved hinspect => simp [hinspect] at hlost
  | caller hinspect hreason => simp [hinspect] at hlost

/-- Where the caller is lost, the walk still produces the frame. -/
theorem Stops.eq_singleton_of_callerLost {position : Position} {frame : Frame} {last : List Frame}
    {reason : Termination} (hstops : machine.Stops scanDistance position last reason)
    (hlost : machine.CallerLost scanDistance position frame) : last = [frame] := by
  rw [callerLost_iff] at hlost
  cases hstops with
  | failed hinspect => simp [hinspect] at hlost
  | leaf hinspect => simp [hinspect] at hlost
  | unsaved hinspect => simp [hinspect] at hlost
  | callerUnresolved hinspect =>
    rw [hinspect] at hlost
    cases hlost
    rfl
  | caller hinspect hreason => simp [hinspect] at hlost

/-- An unresolved stack delta is never a matter of sixty-four bits: at no position of a walk does a
checked operation fail.  So a walk ends with it at a position exactly if it looks there and the
stack pointer is lost, whether or not the walk has been at the caller, and whether or not it may
produce a further frame.  If it is the slot that is lost, the frames are those of the way there; if
it is the caller, the frame of that position comes on top. -/
theorem unwind_unresolvedStackDelta (machine : Machine) (limits : Limits) (registers : Registers) :
    let stack := machine.unwind limits registers
    let positions := machine.positions limits registers
    let WayTo := fun frames (position : Position) =>
      machine.Trail limits.scanDistance registers.programCounter registers.stackPointer frames
        position.programCounter position.stackPointer
    (∀ position ∈ positions, ∀ entry code,
      machine.Executed limits.scanDistance position.programCounter entry code →
        Lossless code position.stackPointer) ∧
    (∀ position, stack.termination = .unresolvedStackDelta ∧ positions.getLast? = some position ↔
      position ∈ positions ∧
        (machine.SlotLost limits.scanDistance position ∨
          ∃ frame, machine.CallerLost limits.scanDistance position frame)) ∧
    ∀ position ∈ positions,
      (machine.SlotLost limits.scanDistance position → WayTo stack.frames position) ∧
      ∀ frame, machine.CallerLost limits.scanDistance position frame →
        ∃ inner, stack.frames = inner ++ [frame] ∧ WayTo inner position := by
  intro stack positions WayTo
  have hstopped := machine.stopped_unwind limits registers
  refine ⟨?_, fun position => hstopped.unresolved_iff, ?_⟩
  · intro position hposition entry code hexecuted
    exact lossless_of_length_le hexecuted.length_le _
  · intro position hposition
    have htrail : machine.Lost limits.scanDistance position → ∃ inner last,
        stack.frames = inner ++ last ∧ WayTo inner position ∧
          machine.Stops limits.scanDistance position last stack.termination := by
      intro hlost
      exact hstopped.exists_trail (hstopped.unresolved_iff.mpr ⟨hposition, hlost⟩).2
    constructor
    · intro hlost
      rcases htrail (Or.inl hlost) with ⟨inner, last, hframes, hway, hstops⟩
      rw [hframes, hstops.eq_nil_of_slotLost hlost, List.append_nil]
      exact hway
    · intro frame hlost
      rcases htrail (Or.inr ⟨frame, hlost⟩) with ⟨inner, last, hframes, hway, hstops⟩
      rw [hstops.eq_singleton_of_callerLost hlost] at hframes
      exact ⟨inner, hframes, hway⟩

/-- With the stack of `helper` at the top of the address space, the slot of its return address would
lie above the top, and nothing is found.  Eight bytes further down there is a slot, but no stack
pointer for the caller.  Then the frame is found and the walk ends for that reason, even though the
caller would be where the walk has started and there may be one frame only. -/
theorem unwind_unresolvedStackDelta_running :
    let machine : Machine :=
      ⟨(Debugger.Sample.running.map 0xFFFFFFFC [0x00100030]).read, Mips.classifier⟩
    let one : Limits := ⟨512, 1, by decide, by decide⟩
    let above : Position := ⟨0x00100030, 0xFFFFFFF8⟩
    let top : Position := ⟨0x00100030, 0xFFFFFFF0⟩
    let frame : Frame := ⟨0x00100024, 0x00100030⟩
    (above ∈ machine.positions one ⟨0x00100030, 0xFFFFFFF8, 0⟩ ∧ machine.SlotLost 512 above ∧
      (machine.unwind one ⟨0x00100030, 0xFFFFFFF8, 0⟩).termination = .unresolvedStackDelta ∧
      machine.Trail 512 0x00100030 0xFFFFFFF8
        (machine.unwind one ⟨0x00100030, 0xFFFFFFF8, 0⟩).frames 0x00100030 0xFFFFFFF8) ∧
      top ∈ machine.positions one ⟨0x00100030, 0xFFFFFFF0, 0⟩ ∧ machine.CallerLost 512 top frame ∧
        (machine.unwind one ⟨0x00100030, 0xFFFFFFF0, 0⟩).termination = .unresolvedStackDelta ∧
        ∃ inner, (machine.unwind one ⟨0x00100030, 0xFFFFFFF0, 0⟩).frames = inner ++ [frame] ∧
          machine.Trail 512 0x00100030 0xFFFFFFF0 inner 0x00100030 0xFFFFFFF0 := by
  intro machine one above top frame
  have habove : above ∈ machine.positions one ⟨0x00100030, 0xFFFFFFF8, 0⟩ := by decide +kernel
  have htop : top ∈ machine.positions one ⟨0x00100030, 0xFFFFFFF0, 0⟩ := by decide +kernel
  have hslot : machine.SlotLost 512 above := slotLost_iff.mpr (by decide +kernel)
  have hcaller : machine.CallerLost 512 top frame := callerLost_iff.mpr (by decide +kernel)
  rcases machine.unwind_unresolvedStackDelta one ⟨0x00100030, 0xFFFFFFF8, 0⟩ with
    ⟨-, hends, hframes⟩
  rcases machine.unwind_unresolvedStackDelta one ⟨0x00100030, 0xFFFFFFF0, 0⟩ with
    ⟨-, hends', hframes'⟩
  exact ⟨⟨habove, hslot, ((hends above).mpr ⟨habove, Or.inl hslot⟩).1,
      (hframes above habove).1 hslot⟩,
    htop, hcaller, ((hends' top).mpr ⟨htop, Or.inr ⟨frame, hcaller⟩⟩).1,
    (hframes' top htop).2 frame hcaller⟩

end Machine

end Backtrace
