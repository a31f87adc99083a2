import Backtrace.Instruction
import Backtrace.Memory

/-!
# Machines

A stopped machine, as the walk sees it: memory that can be read and a classifier for its words.  The
walk never writes, and the machine does not run while it is looked at.
-/

namespace Backtrace

/-- Memory and the classifier that reads its words as instructions. -/
structure Machine where
  memory : MemoryView
  classifier : Classifier

namespace Machine

/-- The instruction at `address`, if anything is mapped there. -/
def instruction? (machine : Machine) (address : Address) : Option Instruction :=
  (machine.memory address).map machine.classifier.classify

/-- There is an instruction exactly where memory is mapped. -/
theorem isSome_instruction? (machine : Machine) (address : Address) :
    (machine.instruction? address).isSome = (machine.memory address).isSome := by
  simp [instruction?]

end Machine

end Backtrace
