import Backtrace.Proofs.Trail

/-!
# Why a call stack ends

The reason that comes with a call stack is a statement about the machine.  It is always true.  It
speaks of the last program counter: the return address of the last frame, or where the machine
stopped when there is no frame.

Main results:

- Theorem `unwind_truthful`: whatever reason a call stack gives, it is true.
-/

namespace Backtrace

namespace Machine

variable {machine : Machine} {scanDistance : Nat}

/-- No code between the start of a function and the address it was located from is unmapped. -/
theorem not_mem_slots_of_unmapped {programCounter address : Address} {start : FunctionStart}
    (hstart : machine.locate? scanDistance programCounter = some start)
    (hunmapped : machine.memory address = none) :
    address ∉ slots start.address programCounter := by
  intro hmem
  have hmapped := isSome_of_mem_slots hstart hmem
  simp [hunmapped] at hmapped

/-- What the reason of a call stack says about the machine, where the walk that started at
`registers` has arrived at the program counter `arrived`. -/
def Truthful (machine : Machine) (limits : Limits) (registers : Registers) (stack : CallStack) :
    Prop :=
  let arrived := lastCounter registers.programCounter stack.frames
  let ArrivedWith := machine.Trail limits.scanDistance registers.programCounter
    registers.stackPointer stack.frames arrived
  match stack.termination with
  | .unmappedRead address =>
    -- This is where the walk arrived, or the slot of the return address of the function there.  It
    -- is never the code of that function.
    machine.memory address = none ∧
      (address = arrived ∨
        ∃ stackPointer entry code, ArrivedWith stackPointer ∧
          machine.Executed limits.scanDistance arrived entry code ∧
          SavesAt code stackPointer address) ∧
      ∀ start, machine.locate? limits.scanDistance arrived = some start →
        address ∉ slots start.address arrived
  | .boundaryNotFound =>
    (machine.memory arrived).isSome = true ∧ machine.locate? limits.scanDistance arrived = none
  | .unresolvedStackDelta =>
    -- There is no slot for the return address of the function there, or no stack pointer to go with
    -- the last return address.
    (∃ stackPointer entry code, ArrivedWith stackPointer ∧
      machine.Executed limits.scanDistance arrived entry code ∧ SaveUnresolved code stackPointer) ∨
    ∃ inner frame programCounter stackPointer code, stack.frames = inner ++ [frame] ∧
      machine.Trail limits.scanDistance registers.programCounter registers.stackPointer inner
        programCounter stackPointer ∧
      machine.Recovers limits.scanDistance programCounter stackPointer frame code ∧
      Unresolved code (stackPointer.toNat - exactMovement code)
  | .cycle programCounter =>
    ∃ inner frame, stack.frames = inner ++ [frame] ∧ programCounter = frame.returnAddress ∧
      (programCounter = registers.programCounter ∨
        ∃ earlier ∈ inner, programCounter = earlier.returnAddress)
  | .maxDepthReached =>
    -- The walk could have gone on: the program counter is a new one, and its stack pointer known.
    stack.frames.length = limits.frameDepth ∧
      (path registers.programCounter stack.frames).Nodup ∧
      ∃ stackPointer, ArrivedWith stackPointer
  | .leafFrame =>
    ∃ entry code, stack.frames = [⟨entry, registers.linkRegister⟩] ∧
      machine.Executed limits.scanDistance registers.programCounter entry code ∧
      ∀ offset, .saveLink offset ∉ code
  | .returnAddressNotSaved =>
    stack.frames ≠ [] ∧
      ∃ entry code, machine.Executed limits.scanDistance arrived entry code ∧
        ∀ offset, .saveLink offset ∉ code

/-- Whatever reason a call stack gives, it is true. -/
theorem unwind_truthful (machine : Machine) (limits : Limits) (registers : Registers) :
    machine.Truthful limits registers (machine.unwind limits registers) := by
  have hunwinds := machine.unwinds_unwind limits registers
  generalize machine.unwind limits registers = stack at hunwinds ⊢
  cases hunwinds with
  | leaf hexecuted hnever => exact ⟨_, _, rfl, hexecuted, hnever⟩
  | @chain frames last outerCounter outerPointer left reason htrail hlength hnodup hends hcaller =>
    have houter := htrail.outerCounter_eq
    subst houter
    cases hends with
    | exhausted =>
      rw [List.append_nil]
      exact ⟨hlength, hnodup, outerPointer, htrail⟩
    | failed hfinds =>
      rw [List.append_nil]
      cases hfinds with
      | unmapped hunmapped =>
        refine ⟨hunmapped, Or.inl rfl, ?_⟩
        intro start hstart
        exact not_mem_slots_of_unmapped hstart hunmapped
      | notLocated hmapped hlocated => exact ⟨hmapped, hlocated⟩
      | slotUnresolved hexecuted hslot => exact Or.inl ⟨_, _, _, htrail, hexecuted, hslot⟩
      | slotUnmapped hexecuted hslot hunmapped =>
        refine ⟨hunmapped, Or.inr ⟨_, _, _, htrail, hexecuted, hslot⟩, ?_⟩
        intro start hstart
        exact not_mem_slots_of_unmapped hstart hunmapped
    | unsaved hfinds =>
      rw [List.append_nil]
      cases hfinds with
      | unsaved hexecuted hnever => exact ⟨hcaller rfl, _, _, hexecuted, hnever⟩
    | callerUnresolved hfinds =>
      cases hfinds with
      | callerUnresolved hframe hpointer =>
        exact Or.inr ⟨_, _, _, _, _, rfl, htrail, hframe, hpointer⟩
    | cycle hfinds hvisited =>
      refine ⟨_, _, rfl, rfl, ?_⟩
      rw [List.mem_reverse, path, List.mem_cons, List.mem_map] at hvisited
      rcases hvisited with hfirst | ⟨earlier, hearlier, hsame⟩
      · exact Or.inl hfirst
      · exact Or.inr ⟨earlier, hearlier, hsame.symm⟩

end Machine

end Backtrace
