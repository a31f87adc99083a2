import Backtrace.Activation
import Backtrace.Proofs.Movement

/-!
# What can be told about one activation

One turn of a walk looks at the function around a program counter.  This module lists everything
that such a look can find, each with what it says about memory and code in exact numbers, and shows
that the list is complete and that its cases exclude each other.

Main results:

- Theorem `body_eq_ok_iff`: the code of a function is what stands between its located start and the
  program counter.
- Theorem `inspect_eq_iff`: a look finds exactly what the list says.
-/

namespace Backtrace

namespace Machine

variable {machine : Machine} {scanDistance : Nat}

/-! ## The function around a program counter -/

/-- The function around `programCounter` starts at `entry` and has executed `code` since. -/
structure Executed (machine : Machine) (scanDistance : Nat) (programCounter entry : Address)
    (code : List Instruction) : Prop where
  mapped : (machine.memory programCounter).isSome = true
  located : ∃ heuristic, machine.locate? scanDistance programCounter = some ⟨entry, heuristic⟩
  read : (slots entry programCounter).map machine.instruction? = code.map some

/-- The code of a function is what stands between its start and the program counter. -/
theorem body_eq_ok_iff {programCounter entry : Address} {code : List Instruction} :
    machine.body scanDistance programCounter = .ok ⟨entry, code⟩ ↔
      machine.Executed scanDistance programCounter entry code := by
  unfold Machine.body
  constructor
  · intro hbody
    split at hbody
    · cases hbody
    · next hmapped =>
      split at hbody
      · cases hbody
      · next start hstart =>
        split at hbody
        · cases hbody
        · next code hcode =>
          cases hbody
          refine ⟨?_, ⟨start.heuristic, hstart⟩, fetch_eq_ok_iff.mp hcode⟩
          simpa [Option.isSome_iff_ne_none] using hmapped
  · intro hexecuted
    rcases hexecuted with ⟨hmapped, ⟨heuristic, hstart⟩, hread⟩
    have hnotNone : ¬ (machine.memory programCounter).isNone = true := by
      simpa [Option.isSome_iff_ne_none] using hmapped
    rw [if_neg hnotNone, hstart]
    simp only
    rw [fetch_eq_ok_iff.mpr hread]

/-- Looking for the code of a function fails only for its program counter: that is unmapped, or no
start is found for it. -/
theorem body_eq_error_iff {programCounter : Address} {reason : Termination} :
    machine.body scanDistance programCounter = .error reason ↔
      (machine.memory programCounter = none ∧ reason = .unmappedRead programCounter) ∨
        ((machine.memory programCounter).isSome = true ∧
          machine.locate? scanDistance programCounter = none ∧ reason = .boundaryNotFound) := by
  unfold Machine.body
  cases hmemory : machine.memory programCounter with
  | none => simp [eq_comm]
  | some word =>
    cases hstart : machine.locate? scanDistance programCounter with
    | none => simp [eq_comm]
    | some start =>
      rcases fetch_of_located hstart with ⟨code, hcode⟩
      simp [hcode]

theorem Executed.length_le {programCounter entry : Address} {code : List Instruction}
    (hexecuted : machine.Executed scanDistance programCounter entry code) :
    code.length ≤ 0x40000000 :=
  length_of_fetch_le hexecuted.read

/-! ## Everything a look can find -/

/-- The activation at `programCounter` and `stackPointer` returns through `frame`: the function
starts at its entry, has executed `code`, and the slot where `code` stored the link register first
holds its return address. -/
structure Recovers (machine : Machine) (scanDistance : Nat) (programCounter stackPointer : Address)
    (frame : Frame) (code : List Instruction) : Prop where
  executed : machine.Executed scanDistance programCounter frame.entry code
  saved : ∃ slot, SavesAt code stackPointer slot ∧ machine.memory slot = some frame.returnAddress

/-- What a look at the activation at `programCounter` and `stackPointer` finds. -/
inductive Finds (machine : Machine) (scanDistance : Nat) (programCounter stackPointer : Address) :
    Except Termination Activation → Prop
  /-- The program counter is unmapped. -/
  | unmapped (hunmapped : machine.memory programCounter = none) :
    Finds machine scanDistance programCounter stackPointer (.error (.unmappedRead programCounter))
  /-- The program counter is mapped, but no start is found for it. -/
  | notLocated (hmapped : (machine.memory programCounter).isSome = true)
      (hlocated : machine.locate? scanDistance programCounter = none) :
    Finds machine scanDistance programCounter stackPointer (.error .boundaryNotFound)
  /-- The function has not stored its return address. -/
  | unsaved {entry : Address} {code : List Instruction}
      (hexecuted : machine.Executed scanDistance programCounter entry code)
      (hnever : ∀ offset, .saveLink offset ∉ code) :
    Finds machine scanDistance programCounter stackPointer (.ok (.unsaved entry))
  /-- The function has stored its return address, but where is not known. -/
  | slotUnresolved {entry : Address} {code : List Instruction}
      (hexecuted : machine.Executed scanDistance programCounter entry code)
      (hslot : SaveUnresolved code stackPointer) :
    Finds machine scanDistance programCounter stackPointer (.error .unresolvedStackDelta)
  /-- The slot of the return address is unmapped. -/
  | slotUnmapped {entry slot : Address} {code : List Instruction}
      (hexecuted : machine.Executed scanDistance programCounter entry code)
      (hslot : SavesAt code stackPointer slot) (hunmapped : machine.memory slot = none) :
    Finds machine scanDistance programCounter stackPointer (.error (.unmappedRead slot))
  /-- The return address is known, the caller's stack pointer is not. -/
  | callerUnresolved {frame : Frame} {code : List Instruction}
      (hframe : machine.Recovers scanDistance programCounter stackPointer frame code)
      (hcaller : Unresolved code (stackPointer.toNat - exactMovement code)) :
    Finds machine scanDistance programCounter stackPointer (.ok (.saved frame none))
  /-- The return address and the caller's stack pointer are known. -/
  | caller {frame : Frame} {caller : Address} {code : List Instruction}
      (hframe : machine.Recovers scanDistance programCounter stackPointer frame code)
      (hcaller : Resolves code (stackPointer.toNat - exactMovement code) caller) :
    Finds machine scanDistance programCounter stackPointer (.ok (.saved frame (some caller)))

/-- Every look finds something on the list. -/
theorem finds_inspect (machine : Machine) (scanDistance : Nat)
    (programCounter stackPointer : Address) :
    machine.Finds scanDistance programCounter stackPointer
      (machine.inspect scanDistance programCounter stackPointer) := by
  unfold inspect
  split
  · next reason hbody =>
    rcases body_eq_error_iff.mp hbody with ⟨hunmapped, rfl⟩ | ⟨hmapped, hlocated, rfl⟩
    · exact .unmapped hunmapped
    · exact .notLocated hmapped hlocated
  · next entry code hbody =>
    have hexecuted := body_eq_ok_iff.mp hbody
    have hshort := hexecuted.length_le
    split
    · next hsave => exact .unsaved hexecuted (linkSave?_eq_none_iff.mp hsave)
    · next save hsave =>
      split
      · next hnone =>
        exact .slotUnresolved hexecuted ((saveUnresolved_iff hshort).mpr ⟨save, hsave, hnone⟩)
      · next slot hslot =>
        have hsaves := (savesAt_iff hshort).mpr ⟨save, hsave, hslot⟩
        split
        · next hunmapped => exact .slotUnmapped hexecuted hsaves hunmapped
        · next returnAddress hword =>
          have hframe : machine.Recovers scanDistance programCounter stackPointer
              ⟨entry, returnAddress⟩ code := ⟨hexecuted, slot, hsaves, hword⟩
          cases hfound : callerStackPointer? (movement code) stackPointer with
          | none =>
            have hcaller := (callerStackPointer?_movement_eq_none_iff hshort).mp hfound
            exact .callerUnresolved hframe hcaller
          | some caller =>
            exact .caller hframe ((callerStackPointer?_movement hshort caller).mp hfound)

/-- A frame that can be recovered is found, with whatever is computed for the caller. -/
theorem inspect_of_recovers {programCounter stackPointer : Address} {frame : Frame}
    {code : List Instruction}
    (hframe : machine.Recovers scanDistance programCounter stackPointer frame code) :
    machine.inspect scanDistance programCounter stackPointer =
      .ok (.saved frame (callerStackPointer? (movement code) stackPointer)) := by
  rcases hframe with ⟨hexecuted, slot, hsaves, hword⟩
  have hbody := body_eq_ok_iff.mpr hexecuted
  rcases (savesAt_iff hexecuted.length_le).mp hsaves with ⟨save, hsave, hslot⟩
  exact inspect_of_saved hbody hsave hslot hword

/-- The list excludes all answers but one. -/
theorem inspect_of_finds {programCounter stackPointer : Address}
    {result : Except Termination Activation}
    (hfinds : machine.Finds scanDistance programCounter stackPointer result) :
    machine.inspect scanDistance programCounter stackPointer = result := by
  cases hfinds with
  | unmapped hunmapped =>
    have hbody : machine.body scanDistance programCounter =
        .error (.unmappedRead programCounter) := body_eq_error_iff.mpr (Or.inl ⟨hunmapped, rfl⟩)
    simp only [inspect, hbody]
  | notLocated hmapped hlocated =>
    have hbody := body_eq_error_iff.mpr (Or.inr ⟨hmapped, hlocated, rfl⟩)
    simp only [inspect, hbody]
  | unsaved hexecuted hnever =>
    have hbody := body_eq_ok_iff.mpr hexecuted
    exact inspect_of_unsaved stackPointer hbody (linkSave?_eq_none_iff.mpr hnever)
  | slotUnresolved hexecuted hslot =>
    have hbody := body_eq_ok_iff.mpr hexecuted
    rcases (saveUnresolved_iff hexecuted.length_le).mp hslot with ⟨save, hsave, hnone⟩
    simp only [inspect, hbody, hsave, hnone]
  | slotUnmapped hexecuted hsaves hunmapped =>
    have hbody := body_eq_ok_iff.mpr hexecuted
    rcases (savesAt_iff hexecuted.length_le).mp hsaves with ⟨save, hsave, hslot⟩
    simp only [inspect, hbody, hsave, hslot, hunmapped]
  | callerUnresolved hframe hcaller =>
    have hnone := (callerStackPointer?_movement_eq_none_iff
      hframe.executed.length_le).mpr hcaller
    rw [inspect_of_recovers hframe, hnone]
  | caller hframe hcaller =>
    have hsome := (callerStackPointer?_movement hframe.executed.length_le _).mpr hcaller
    rw [inspect_of_recovers hframe, hsome]

/-- A look finds exactly what the list says. -/
theorem inspect_eq_iff {programCounter stackPointer : Address}
    {result : Except Termination Activation} :
    machine.inspect scanDistance programCounter stackPointer = result ↔
      machine.Finds scanDistance programCounter stackPointer result := by
  constructor
  · intro hinspect
    exact hinspect ▸ finds_inspect machine scanDistance programCounter stackPointer
  · exact inspect_of_finds

end Machine

end Backtrace
