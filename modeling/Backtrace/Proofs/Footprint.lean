import Backtrace.Debugger.Tour
import Backtrace.Proofs.Trail
import Mathlib.Data.Set.Operations

/-!
# What a walk reads

At each of its positions a walk reads the slots from the program counter downwards, as far as the
search may look, and the slot in which the function stored its return address.  The replay of the
function reads nothing that the search has not read before.  All these addresses together are the
footprint of the walk, and nothing outside of it matters.  The footprint comes out of the walk
itself, because return addresses that were read decide where it reads next.

Main results:

- Theorem `inspect_withMemory`: what is found at one position depends on what is read there.
- Theorem `walk_withMemory`: so does a walk, position by position.
- Theorem `unwind_footprint`: the call stack is the same in every memory that agrees on the
  footprint, and so it is after a write anywhere else.
-/

namespace Backtrace

namespace Machine

variable {machine : Machine} {other : MemoryView} {scanDistance : Nat}

/-! ## The footprint -/

/-- The slot of the return address that is computed at a position, if one is. -/
def saveSlot? (machine : Machine) (scanDistance : Nat) (position : Position) : Option Address :=
  match machine.body scanDistance position.programCounter with
  | .error _ => none
  | .ok body => (linkSave? body.code).bind (·.slot? position.stackPointer)

/-- The addresses that are read at a position. -/
def reads (machine : Machine) (scanDistance : Nat) (position : Position) : Set Address :=
  {address | Within scanDistance position.programCounter address ∨
    machine.saveSlot? scanDistance position = some address}

/-- The addresses that are read for the call stack of a stopped machine. -/
def footprint (machine : Machine) (limits : Limits) (registers : Registers) : Set Address :=
  {address | ∃ position ∈ machine.positions limits registers,
    address ∈ machine.reads limits.scanDistance position}

instance (machine : Machine) (limits : Limits) (registers : Registers) (address : Address) :
    Decidable (address ∈ machine.footprint limits registers) :=
  inferInstanceAs (Decidable (∃ position ∈ machine.positions limits registers,
    Within limits.scanDistance position.programCounter address ∨
      machine.saveSlot? limits.scanDistance position = some address))

/-- The slot that is computed at a position is the one of the first store. -/
theorem saveSlot?_of_saved {position : Position} {body : Body} {save : LinkSave}
    (hbody : machine.body scanDistance position.programCounter = .ok body)
    (hsave : linkSave? body.code = some save) :
    machine.saveSlot? scanDistance position = save.slot? position.stackPointer := by
  simp only [saveSlot?, hbody, hsave, Option.bind_some]

/-! ## One position in two memories -/

/-- The machine with another memory. -/
def withMemory (machine : Machine) (memory : MemoryView) : Machine := ⟨memory, machine.classifier⟩

/-- A slot on which two memories agree holds the same instruction in both. -/
theorem instruction?_withMemory {place : Address} (hplace : other place = machine.memory place) :
    (machine.withMemory other).instruction? place = machine.instruction? place := by
  simp only [instruction?, withMemory, hplace]

/-- A search depends on the slots that it may read. -/
theorem search_withMemory {address place : Address} {budget : Nat} (nearest : Option Address)
    (hagree : Set.EqOn other machine.memory {slot | Within budget place slot}) :
    (machine.withMemory other).search address budget place nearest =
      machine.search address budget place nearest := by
  induction budget generalizing place nearest with
  | zero => rfl
  | succ budget ih =>
    have hhere : other place = machine.memory place := hagree ⟨0, Nat.succ_pos budget, rfl⟩
    have hinstruction := instruction?_withMemory hhere
    cases hmapped : machine.instruction? place with
    | none =>
      rw [search_of_unmapped _ _ hmapped, search_of_unmapped _ _ (hinstruction.trans hmapped)]
    | some instruction =>
      have hmapped' := hinstruction.trans hmapped
      cases hreturn : machine.startAfterReturn? address place instruction with
      | some start =>
        rw [search_of_return _ _ hmapped hreturn, search_of_return _ _ hmapped' hreturn]
      | none =>
        cases hbelow : place.shift? (-4) with
        | none =>
          rw [search_of_bottom _ _ hmapped hreturn hbelow,
            search_of_bottom _ _ hmapped' hreturn hbelow]
        | some below =>
          have hstep := Address.shift?_eq_some_iff.mp hbelow
          rw [search_of_below _ _ hmapped hreturn hbelow,
              search_of_below _ _ hmapped' hreturn hbelow]
          apply ih
          rintro slot ⟨k, hk, hsum⟩
          exact hagree ⟨k + 1, Nat.succ_lt_succ hk, by omega⟩

/-- So does the start of a function. -/
theorem locate?_withMemory {address : Address}
    (hagree : Set.EqOn other machine.memory {slot | Within scanDistance address slot}) :
    (machine.withMemory other).locate? scanDistance address =
      machine.locate? scanDistance address :=
  search_withMemory none hagree

/-- The code of a function that was located lies where the search looked for its start. -/
theorem within_of_mem_slots {address place : Address} {start : FunctionStart}
    (hstart : machine.locate? scanDistance address = some start)
    (hplace : place ∈ slots start.address address) : Within scanDistance address place := by
  rcases mem_slots_iff.mp hplace with ⟨hlt, i, hsum⟩
  have hwindow := locate?_mem_window hstart
  exact within_of_mem_window (mem_window_of_le hwindow hsum (UInt32.le_of_lt hlt))

/-- The function around a program counter depends on the slots that the search for its start may
read. -/
theorem body_withMemory {programCounter : Address} (hpositive : 0 < scanDistance)
    (hagree : Set.EqOn other machine.memory {slot | Within scanDistance programCounter slot}) :
    (machine.withMemory other).body scanDistance programCounter =
      machine.body scanDistance programCounter := by
  have hhere : other programCounter = machine.memory programCounter := hagree ⟨0, hpositive, rfl⟩
  have hlocated := locate?_withMemory hagree
  cases hbody : machine.body scanDistance programCounter with
  | error reason =>
    rw [body_eq_error_iff] at hbody ⊢
    rw [hlocated]
    simpa only [withMemory, hhere] using hbody
  | ok body =>
    rcases body with ⟨entry, code⟩
    rcases body_eq_ok_iff.mp hbody with ⟨hmapped, ⟨heuristic, hstart⟩, hread⟩
    refine body_eq_ok_iff.mpr ⟨?_, ⟨heuristic, hlocated.trans hstart⟩, ?_⟩
    · simpa only [withMemory, hhere] using hmapped
    · rw [← hread]
      apply List.map_congr_left
      intro place hplace
      exact instruction?_withMemory (hagree (within_of_mem_slots hstart hplace))

/-- What is found at a position depends on what is read there. -/
theorem inspect_withMemory {position : Position} (hpositive : 0 < scanDistance)
    (hagree : Set.EqOn other machine.memory (machine.reads scanDistance position)) :
    (machine.withMemory other).inspect scanDistance position.programCounter
        position.stackPointer =
      machine.inspect scanDistance position.programCounter position.stackPointer := by
  have hbody := body_withMemory hpositive fun slot hslot => hagree (Or.inl hslot)
  unfold inspect
  rw [hbody]
  cases hfound : machine.body scanDistance position.programCounter with
  | error reason => rfl
  | ok body =>
    simp only
    cases hsave : linkSave? body.code with
    | none => rfl
    | some save =>
      simp only
      cases hslot : save.slot? position.stackPointer with
      | none => rfl
      | some slot =>
        have hread := (saveSlot?_of_saved hfound hsave).trans hslot
        have hword : (machine.withMemory other).memory slot = machine.memory slot :=
          hagree (Or.inr hread)
        simp only [hword]

/-! ## A walk in two memories -/

/-- A walk that may produce a frame looks at the position it starts from. -/
theorem mem_positionsFrom_start (machine : Machine) (scanDistance depth : Nat)
    (visited : List Address) (programCounter stackPointer : Address) :
    ⟨programCounter, stackPointer⟩ ∈
      machine.positionsFrom scanDistance (depth + 1) visited programCounter stackPointer := by
  unfold positionsFrom
  split
  · split
    · exact List.mem_singleton.mpr rfl
    · exact List.mem_cons_self
  · exact List.mem_singleton.mpr rfl

/-- A walk depends on what is read at its positions. -/
theorem walk_withMemory (hpositive : 0 < scanDistance) {depth : Nat} {visited : List Address}
    {programCounter stackPointer : Address}
    (hagree : ∀ position ∈
        machine.positionsFrom scanDistance depth visited programCounter stackPointer,
      Set.EqOn other machine.memory (machine.reads scanDistance position)) :
    (machine.withMemory other).walk scanDistance depth visited programCounter stackPointer =
      machine.walk scanDistance depth visited programCounter stackPointer := by
  induction depth generalizing visited programCounter stackPointer with
  | zero => rfl
  | succ depth ih =>
    have hstart := machine.mem_positionsFrom_start scanDistance depth visited programCounter
      stackPointer
    have hinspect : (machine.withMemory other).inspect scanDistance programCounter stackPointer =
        machine.inspect scanDistance programCounter stackPointer :=
      inspect_withMemory hpositive (hagree _ hstart)
    unfold walk
    rw [hinspect]
    split
    · rfl
    · rfl
    · rfl
    next frame caller hfound =>
      by_cases hvisited : frame.returnAddress ∈ visited
      · rw [if_pos hvisited, if_pos hvisited]
      · -- The positions behind this one are those of the walk from the caller.
        simp only [positionsFrom, hfound, hvisited, if_false, List.forall_mem_cons] at hagree
        rw [if_neg hvisited, if_neg hvisited, ih hagree.2]

/-- So does the call stack of a stopped machine. -/
theorem unwind_withMemory {limits : Limits} {registers : Registers}
    (hagree : Set.EqOn other machine.memory (machine.footprint limits registers)) :
    (machine.withMemory other).unwind limits registers = machine.unwind limits registers := by
  have hpositions : ∀ position ∈ machine.positions limits registers,
      Set.EqOn other machine.memory (machine.reads limits.scanDistance position) := by
    intro position hposition address haddress
    exact hagree ⟨position, hposition, haddress⟩
  have hwalk := walk_withMemory limits.scanDistance_pos hpositions
  have hinspect : (machine.withMemory other).inspect limits.scanDistance registers.programCounter
      registers.stackPointer =
        machine.inspect limits.scanDistance registers.programCounter registers.stackPointer := by
    obtain ⟨left, hleft⟩ := Nat.exists_eq_succ_of_ne_zero (Nat.ne_of_gt limits.frameDepth_pos)
    rw [positions, hleft] at hpositions
    exact inspect_withMemory limits.scanDistance_pos
      (hpositions _ (machine.mem_positionsFrom_start _ _ _ _ _))
  unfold unwind
  rw [hinspect, hwalk]

/-- The call stack of a stopped machine is the same in every memory that agrees with its own on the
footprint.  So a write to any mapped address outside the footprint does not change it. -/
theorem unwind_footprint (machine : Machine) (limits : Limits) (registers : Registers) :
    (∀ memory : MemoryView,
      (∀ address ∈ machine.footprint limits registers, memory address = machine.memory address) →
        (machine.withMemory memory).unwind limits registers = machine.unwind limits registers) ∧
    ∀ (memory written : MappedMemory) (address : Address) (value : Word),
      memory.read = machine.memory → memory.write? address value = some written →
        address ∉ machine.footprint limits registers →
          (machine.withMemory written.read).unwind limits registers =
            machine.unwind limits registers := by
  refine ⟨fun memory hagree => unwind_withMemory hagree, ?_⟩
  intro memory written address value hmemory hwrite houtside
  apply unwind_withMemory
  intro place hplace
  have hne : place ≠ address := by
    rintro rfl
    exact houtside hplace
  rw [MappedMemory.read_write? hwrite, if_neg hne, hmemory]

/-- While `helper` of the sample image runs, the word behind its return address is not in the
footprint.  The call stack is the same whatever is written there, and even if nothing at all is
mapped outside the footprint. -/
theorem unwind_footprint_running :
    let machine : Machine := ⟨Debugger.Sample.running.read, Mips.classifier⟩
    let footprint := machine.footprint .default Debugger.Tour.inHelper
    let rest : MemoryView := fun address =>
      if address ∈ footprint then machine.memory address else none
    let stack : CallStack :=
      ⟨[⟨0x00100024, 0x00100014⟩, ⟨0x00100000, 0x00400000⟩], .unmappedRead 0x00400000⟩
    (0x001FFFDC ∈ footprint ∧ 0x001FFFE0 ∉ footprint) ∧
      (machine.withMemory rest).unwind .default Debugger.Tour.inHelper = stack ∧
      ∃ written, Debugger.Sample.running.write? 0x001FFFE0 0xFFFFFFFF = some written ∧
        (machine.withMemory written.read).unwind .default Debugger.Tour.inHelper = stack := by
  intro machine footprint rest stack
  have hinside : 0x001FFFDC ∈ footprint := by decide +kernel
  have houtside : 0x001FFFE0 ∉ footprint := by decide +kernel
  have hstack : machine.unwind .default Debugger.Tour.inHelper = stack := by decide +kernel
  have hmapped : (Debugger.Sample.running.write? 0x001FFFE0 0xFFFFFFFF).isSome = true := by
    decide +kernel
  rcases Option.isSome_iff_exists.mp hmapped with ⟨written, hwrite⟩
  rcases machine.unwind_footprint .default Debugger.Tour.inHelper with ⟨hagree, houtsideWrite⟩
  have hrest := hagree rest fun address haddress => if_pos haddress
  have hwritten := houtsideWrite _ written _ _ rfl hwrite houtside
  exact ⟨⟨hinside, houtside⟩, hrest.trans hstack, written, hwrite, hwritten.trans hstack⟩

end Machine

end Backtrace
