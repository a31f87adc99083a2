import Backtrace.CallStack
import Backtrace.FunctionStart
import Backtrace.Replay

/-!
# Activations

An activation is one function that has been entered, seen from its program counter and stack
pointer.  Looking at the code from the start of the function to the program counter tells where it
returns to and what the stack pointer of its caller is.  What was looked at before does not matter.

Main results:

- Theorem `Machine.inspect_of_unsaved`: without a store of the link register only the start of the
  function is known.
- Theorem `Machine.inspect_of_saved`: with one, its slot tells the return address.
-/

namespace Backtrace

/-- A function from its start up to the program counter: where it starts, and the instructions that
have been executed since. -/
structure Body where
  entry : Address
  code : List Instruction
deriving DecidableEq, Repr

/-- What can be told about one activation. -/
inductive Activation where
  /-- The function has not stored its return address. -/
  | unsaved (entry : Address)
  /-- The function has stored its return address; its caller's stack pointer, if it is known. -/
  | saved (frame : Frame) (callerStackPointer : Option Address)
deriving DecidableEq, Repr

namespace Machine

/-- The function around `programCounter`, as far as it has been executed. -/
def body (machine : Machine) (scanDistance : Nat) (programCounter : Address) :
    Except Termination Body :=
  if (machine.memory programCounter).isNone then .error (.unmappedRead programCounter)
  else
    match machine.locate? scanDistance programCounter with
    | none => .error .boundaryNotFound
    | some start =>
      match machine.fetch start.address programCounter with
      | .error place => .error (.unmappedRead place)
      | .ok code => .ok ⟨start.address, code⟩

/-- What can be told about the activation at `programCounter` and `stackPointer`. -/
def inspect (machine : Machine) (scanDistance : Nat) (programCounter stackPointer : Address) :
    Except Termination Activation :=
  match machine.body scanDistance programCounter with
  | .error reason => .error reason
  | .ok ⟨entry, code⟩ =>
    match linkSave? code with
    | none => .ok (.unsaved entry)
    | some save =>
      match save.slot? stackPointer with
      | none => .error .unresolvedStackDelta
      | some slot =>
        match machine.memory slot with
        | none => .error (.unmappedRead slot)
        | some returnAddress =>
          .ok (.saved ⟨entry, returnAddress⟩ (callerStackPointer? (movement code) stackPointer))

/-- Without a store of the link register only the start of the function is known. -/
theorem inspect_of_unsaved {machine : Machine} {scanDistance : Nat} {programCounter : Address}
    {body : Body} (stackPointer : Address)
    (hfound : machine.body scanDistance programCounter = .ok body)
    (hnever : linkSave? body.code = none) :
    machine.inspect scanDistance programCounter stackPointer = .ok (.unsaved body.entry) := by
  simp only [inspect, hfound, hnever]

/-- With a store of the link register, the word in its slot is the return address. -/
theorem inspect_of_saved {machine : Machine} {scanDistance : Nat}
    {programCounter stackPointer slot returnAddress : Address} {body : Body} {save : LinkSave}
    (hfound : machine.body scanDistance programCounter = .ok body)
    (hstored : linkSave? body.code = some save) (hplace : save.slot? stackPointer = some slot)
    (hword : machine.memory slot = some returnAddress) :
    machine.inspect scanDistance programCounter stackPointer =
      .ok (.saved ⟨body.entry, returnAddress⟩
        (callerStackPointer? (movement body.code) stackPointer)) := by
  simp only [inspect, hfound, hstored, hplace, hword]

end Machine

end Backtrace
