import Backtrace.Hex

/-!
# Call stacks

What a walk starts from and what it yields: the registers of a stopped machine, and a list of frames
with the reason why the list ends.  No reason is an error; every walk ends for one of them.

Main results:

- Theorem `CallStack.unavailable_iff`: a call stack is unavailable exactly when it has no frame.
-/

namespace Backtrace

/-- The registers a walk starts from, captured while the machine is stopped.  The link register
holds where the innermost function returns to, as long as that has called none. -/
structure Registers where
  programCounter : Address
  stackPointer : Address
  linkRegister : Address
deriving DecidableEq, Repr

/-- One function that has been entered and has not returned: where it most likely starts, and where
its caller goes on once it returns. -/
structure Frame where
  entry : Address
  returnAddress : Address
deriving DecidableEq, Repr

/-! ## Why a walk ends -/

/-- Why a walk yields no further frame. -/
inductive Termination where
  /-- No start was found for the function around the program counter. -/
  | boundaryNotFound
  /-- Nothing is mapped at an address that has to be read. -/
  | unmappedRead (address : Address)
  /-- A change of the stack pointer is not known, or leads out of the address space. -/
  | unresolvedStackDelta
  /-- The caller would be at a program counter the walk has been at. -/
  | cycle (programCounter : Address)
  /-- As many frames were produced as may be. -/
  | maxDepthReached
  /-- The innermost function never stored its return address, and the link register was used. -/
  | leafFrame
  /-- A function that made a call never stored its return address. -/
  | returnAddressNotSaved
deriving DecidableEq, Repr

namespace Termination

/-- What is said about the end of a walk. -/
def message : Termination → String
  | .boundaryNotFound => "no function boundary found"
  | .unmappedRead address => "read of unmapped address " ++ Hex.ofWord .lower address
  | .unresolvedStackDelta => "stack pointer change is unknown"
  | .cycle programCounter => "pc " ++ Hex.ofWord .lower programCounter ++ " was already visited"
  | .maxDepthReached => "maximum frame depth reached"
  | .leafFrame => "innermost function is a leaf"
  | .returnAddressNotSaved => "return address was never saved"

end Termination

/-! ## Stacks of frames -/

/-- A call stack as far as it could be rebuilt: its frames, innermost first, and why there are no
more of them. -/
structure CallStack where
  frames : List Frame
  termination : Termination
deriving DecidableEq, Repr

namespace CallStack

/-- A call stack without any frame, which says nothing about the machine but why. -/
def ended (reason : Termination) : CallStack := ⟨[], reason⟩

/-- The call stack with one more frame on its inner end. -/
def push (frame : Frame) (stack : CallStack) : CallStack :=
  { stack with frames := frame :: stack.frames }

/-- Whether no frame could be rebuilt. -/
def unavailable (stack : CallStack) : Bool := stack.frames.isEmpty

@[simp] theorem frames_ended (reason : Termination) : (ended reason).frames = [] := rfl

@[simp] theorem termination_ended (reason : Termination) : (ended reason).termination = reason :=
  rfl

@[simp] theorem frames_push (frame : Frame) (stack : CallStack) :
    (push frame stack).frames = frame :: stack.frames := rfl

@[simp] theorem termination_push (frame : Frame) (stack : CallStack) :
    (push frame stack).termination = stack.termination := rfl

/-- A call stack is unavailable exactly when it has no frame. -/
theorem unavailable_iff {stack : CallStack} : stack.unavailable = true ↔ stack.frames = [] := by
  simp [unavailable]

end CallStack

end Backtrace
