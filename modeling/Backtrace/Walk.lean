import Backtrace.Activation
import Backtrace.Limits

/-!
# Walking the stack

A walk looks at the innermost activation, then at its caller's, and so on outwards.  It ends when an
activation tells too little, when it would come back to a program counter it has been at, or when it
has produced as many frames as it may.

Main results:

- Theorem `Machine.walk_of_caller`: a walk goes on to a caller that it has not been at.
- Theorems `Machine.unwind_of_leaf` and `Machine.unwind_of_not_leaf`: the link register is used for
  a leaf function only.
-/

namespace Backtrace

namespace Machine

/-- The call stack from the activation at `programCounter` and `stackPointer` outwards, with at most
`depth` frames, where `visited` are the program counters the walk has been at.

The bounds are looked at only once a frame is there: first whether the caller's stack pointer is
known, then whether the caller was visited, then whether there may be another frame. -/
def walk (machine : Machine) (scanDistance : Nat) :
    (depth : Nat) → (visited : List Address) → (programCounter stackPointer : Address) → CallStack
  | 0, _, _, _ => .ended .maxDepthReached
  | depth + 1, visited, programCounter, stackPointer =>
    match machine.inspect scanDistance programCounter stackPointer with
    | .error reason => .ended reason
    | .ok (.unsaved _) => .ended .returnAddressNotSaved
    | .ok (.saved frame none) => (CallStack.ended .unresolvedStackDelta).push frame
    | .ok (.saved frame (some caller)) =>
      if frame.returnAddress ∈ visited then
        (CallStack.ended (.cycle frame.returnAddress)).push frame
      else
        (machine.walk scanDistance depth (frame.returnAddress :: visited) frame.returnAddress
          caller).push frame

/-- The call stack of a stopped machine.

The innermost function may be a leaf that never stored its return address.  Then the link register
still holds it, and nothing is known beyond. -/
def unwind (machine : Machine) (limits : Limits) (registers : Registers) : CallStack :=
  match machine.inspect limits.scanDistance registers.programCounter registers.stackPointer with
  | .ok (.unsaved entry) => (CallStack.ended .leafFrame).push ⟨entry, registers.linkRegister⟩
  | _ =>
    machine.walk limits.scanDistance limits.frameDepth [registers.programCounter]
      registers.programCounter registers.stackPointer

/-- A walk ends at an activation about which nothing can be told. -/
theorem walk_of_error {machine : Machine} {scanDistance : Nat}
    {programCounter stackPointer : Address} {reason : Termination}
    (hfailed : machine.inspect scanDistance programCounter stackPointer = .error reason)
    (depth : Nat) (visited : List Address) :
    machine.walk scanDistance (depth + 1) visited programCounter stackPointer = .ended reason := by
  simp only [walk, hfailed]

/-- A walk goes on to a caller that it has not been at. -/
theorem walk_of_caller {machine : Machine} {scanDistance : Nat}
    {programCounter stackPointer caller : Address} {frame : Frame} {visited : List Address}
    (hfound : machine.inspect scanDistance programCounter stackPointer =
      .ok (.saved frame (some caller)))
    (hfresh : frame.returnAddress ∉ visited) (depth : Nat) :
    machine.walk scanDistance (depth + 1) visited programCounter stackPointer =
      (machine.walk scanDistance depth (frame.returnAddress :: visited) frame.returnAddress
        caller).push frame := by
  simp only [walk, hfound, hfresh, if_false]

/-- The link register is the return address of a leaf. -/
theorem unwind_of_leaf {machine : Machine} {limits : Limits} {registers : Registers}
    {entry : Address}
    (hleaf : machine.inspect limits.scanDistance registers.programCounter registers.stackPointer =
      .ok (.unsaved entry)) :
    machine.unwind limits registers = ⟨[⟨entry, registers.linkRegister⟩], .leafFrame⟩ := by
  simp only [unwind, hleaf]
  rfl

/-- Any other innermost function starts a walk that the link register has no part in. -/
theorem unwind_of_not_leaf {machine : Machine} {limits : Limits} {registers : Registers}
    (hnotLeaf : ∀ entry, machine.inspect limits.scanDistance registers.programCounter
      registers.stackPointer ≠ .ok (.unsaved entry)) :
    machine.unwind limits registers =
      machine.walk limits.scanDistance limits.frameDepth [registers.programCounter]
        registers.programCounter registers.stackPointer := by
  unfold unwind
  split
  next entry hleaf => exact absurd hleaf (hnotLeaf entry)
  next => rfl

/-- There is no call stack when nothing can be told about the innermost activation. -/
theorem unwind_of_error {machine : Machine} {limits : Limits} {registers : Registers}
    {reason : Termination}
    (hfailed : machine.inspect limits.scanDistance registers.programCounter registers.stackPointer =
      .error reason) :
    machine.unwind limits registers = .ended reason := by
  obtain ⟨depth, hdepth⟩ := Nat.exists_eq_succ_of_ne_zero (Nat.ne_of_gt limits.frameDepth_pos)
  rw [unwind_of_not_leaf (by simp [hfailed]), hdepth]
  exact walk_of_error hfailed depth _

end Machine

end Backtrace
