import Backtrace.Address

/-!
# Instructions as the walk sees them

Rebuilding a call stack needs no instruction set.  It only needs to know what a word does to control
flow and to the stack pointer, and a classifier says that of every word.

Main results:

- Theorem `Instruction.allocates_iff`: an instruction allocates exactly when it is a known negative
  move.
-/

namespace Backtrace

/-- What one instruction word does, as far as a stack walk cares. -/
inductive Instruction where
  /-- Anything that moves neither control nor the stack pointer in a way the walk follows. -/
  | unknown
  /-- A call, which writes the link register; with its target when the word encodes one. -/
  | call (target : Option Address)
  /-- A return to the address in the link register. -/
  | ret
  /-- The stack pointer moves by `delta` bytes, and a negative move allocates.  It is `none` when
  the new value comes from somewhere the word does not tell. -/
  | stackAdjust (delta : Option Int32)
  /-- The link register is stored to the stack, `offset` bytes from the stack pointer of that
  moment. -/
  | saveLink (offset : Int32)
deriving DecidableEq, Repr

namespace Instruction

/-- A stack allocation moves the stack pointer down by a known amount. -/
def allocates : Instruction → Bool
  | .stackAdjust (some delta) => decide (delta < 0)
  | _ => false

/-- An instruction allocates exactly when it is a known negative move. -/
theorem allocates_iff {instruction : Instruction} :
    instruction.allocates = true ↔
      ∃ delta : Int32, instruction = .stackAdjust (some delta) ∧ delta.toInt < 0 := by
  cases instruction with
  | stackAdjust delta =>
    cases delta with
    | none => simp [allocates]
    | some delta => simp [allocates, Int32.lt_iff_toInt_lt]
  | _ => simp [allocates]

end Instruction

/-- A reader of instruction words.  Every word has one meaning, and a return may take more slots
than its own: where a return has a delay slot, the slot after it is executed too. -/
structure Classifier where
  classify : Word → Instruction
  returnWidth : UInt32 := 1

namespace Classifier

/-- The number of bytes that a return takes, at most the greatest address. -/
def returnBytes (classifier : Classifier) : Nat :=
  min (4 * classifier.returnWidth.toNat) 0xFFFFFFFF

end Classifier

end Backtrace
