import Backtrace.Debugger.Sample
import Backtrace.Proofs.Trail

/-!
# Replaying with a cursor

A replay reads a function upwards from its start.  Its cursor moves on by one slot for each
instruction, until it is no longer below the program counter.  Two things could stop it before: a
slot that is not mapped, and the top of the address space, where there is no next slot.  And it
could miss the program counter, if that were no whole number of slots away.  None of this happens to
a function whose start was located, because a start is a slot of the window it was found in.

Main results:

- Theorem `fetch_eq_result`: reading the slots of a stretch of code one by one is what a replay
  does.
- Theorem `encloses_of_mem_window`: where a located start lies.
- Theorem `runsThrough_of_mapped`: a replay of mapped slots arrives.
- Theorem `located_replay`: both together, and what it means for every walk.
-/

namespace Backtrace

/-! ## Slots one by one -/

/-- A stretch that is empty has no slots. -/
theorem slots_of_not_lt {start stop : Address} (hnot : ¬ start < stop) : slots start stop = [] := by
  rw [UInt32.lt_iff_toNat_lt] at hnot
  rw [← List.length_eq_zero_iff, length_slots]
  omega

/-- Where there is room for it, the next slot is four bytes on. -/
theorem toNat_add_four {place : Address} (hroom : place.toNat + 4 < 0x100000000) :
    (place + 4).toNat = place.toNat + 4 :=
  Address.toNat_add hroom

/-- A stretch begins with the slot at its start and goes on with the next one. -/
theorem slots_of_room {start stop : Address} (hlt : start < stop)
    (hroom : start.toNat + 4 < 0x100000000) :
    slots start stop = start :: slots (start + 4) stop := by
  rw [UInt32.lt_iff_toNat_lt] at hlt
  have hnext := toNat_add_four hroom
  have hcount : (stop.toNat - start.toNat + 3) / 4 =
      (stop.toNat - (start + 4).toNat + 3) / 4 + 1 := by
    omega
  have hfirst : UInt32.ofNat (start.toNat + 4 * 0) = start := by
    rw [Nat.mul_zero, Nat.add_zero, UInt32.ofNat_toNat]
  unfold slots
  rw [hcount, List.range_succ_eq_map, List.map_cons, List.map_map, hfirst]
  refine congrArg (start :: ·) (List.map_congr_left ?_)
  intro i hi
  have hplace : start.toNat + 4 * i.succ = (start + 4).toNat + 4 * i := by omega
  simp only [Function.comp_apply, hplace]

/-- A stretch that starts at the top of the address space has one slot. -/
theorem slots_of_top {start stop : Address} (hlt : start < stop)
    (htop : ¬ start.toNat + 4 < 0x100000000) : slots start stop = [start] := by
  rw [UInt32.lt_iff_toNat_lt] at hlt
  have hbound := stop.toNat_lt
  have hcount : (stop.toNat - start.toNat + 3) / 4 = 1 := by omega
  simp [slots, hcount]

/-- A stretch that is not empty begins with its start. -/
theorem exists_slots_eq_cons {start stop : Address} (hlt : start < stop) :
    ∃ rest, slots start stop = start :: rest := by
  by_cases hroom : start.toNat + 4 < 0x100000000
  · exact ⟨_, slots_of_room hlt hroom⟩
  · exact ⟨_, slots_of_top hlt hroom⟩

/-! ## The cursor -/

/-- Why a replay stops, and where its cursor is then. -/
inductive ReplayEnd where
  /-- The cursor is no longer below the program counter. -/
  | arrived (cursor : Address)
  /-- Nothing is mapped at the cursor. -/
  | unmapped (cursor : Address)
  /-- The address space has no slot above the cursor. -/
  | topReached (cursor : Address)
deriving DecidableEq, Repr

/-- A replay as it went: the slots that were read, lowest first, the instructions that stand there,
and why it stopped. -/
structure Replay where
  places : List Address
  code : List Instruction
  ending : ReplayEnd
deriving DecidableEq, Repr

namespace Replay

/-- A replay that stops before it has read anything. -/
def ended (reason : ReplayEnd) : Replay := ⟨[], [], reason⟩

/-- The replay with one more slot in front. -/
def push (place : Address) (instruction : Instruction) (replay : Replay) : Replay :=
  { replay with places := place :: replay.places, code := instruction :: replay.code }

/-- The code that a replay has read, if no slot was unmapped. -/
def result (replay : Replay) : Except Address (List Instruction) :=
  match replay.ending with
  | .unmapped place => .error place
  | .arrived _ => .ok replay.code
  | .topReached _ => .ok replay.code

/-- One more slot in front is one more instruction read. -/
theorem result_push (place : Address) (instruction : Instruction) (replay : Replay) :
    (replay.push place instruction).result = replay.result.map (instruction :: ·) := by
  rcases replay with ⟨places, code, ending⟩
  cases ending <;> rfl

end Replay

namespace Machine

variable {machine : Machine} {scanDistance : Nat}

/-- Replays the code from `cursor` up to, and without, `stop`. -/
def replay (machine : Machine) (stop cursor : Address) : Replay :=
  if _hlt : cursor < stop then
    match machine.instruction? cursor with
    | none => .ended (.unmapped cursor)
    | some instruction =>
      if _hroom : cursor.toNat + 4 < 0x100000000 then
        (machine.replay stop (cursor + 4)).push cursor instruction
      else (Replay.ended (.topReached cursor)).push cursor instruction
  else .ended (.arrived cursor)
termination_by stop.toNat - cursor.toNat
decreasing_by
  have hnext := toNat_add_four _hroom
  have hlt := UInt32.lt_iff_toNat_lt.mp _hlt
  omega

/-- Reading the slots of a stretch of code one by one is what a replay does. -/
theorem fetch_eq_result (machine : Machine) (start stop : Address) :
    machine.fetch start stop = (machine.replay stop start).result := by
  fun_induction machine.replay stop start with
  | case1 cursor hlt hunmapped =>
    rcases exists_slots_eq_cons hlt with ⟨rest, hslots⟩
    simp [fetch, hslots, List.mapM_cons, hunmapped, bind, Except.bind, Replay.result,
      Replay.ended]
  | case2 cursor hlt instruction hmapped hroom ih =>
    rw [Replay.result_push, ← ih]
    simp only [fetch, slots_of_room hlt hroom, List.mapM_cons, hmapped]
    rfl
  | case3 cursor hlt instruction hmapped htop =>
    simp [fetch, slots_of_top hlt htop, hmapped, bind, Except.bind, pure, Except.pure,
      Replay.result, Replay.push, Replay.ended]
  | case4 cursor hnot =>
    simp [fetch, slots_of_not_lt hnot, pure, Except.pure, Replay.result, Replay.ended]

/-! ## Where a located start lies -/

/-- `entry` is a whole number of slots below `address`, fewer than may be read, and all slots from
there up to `address` are mapped. -/
structure Encloses (machine : Machine) (scanDistance : Nat) (entry address : Address) : Prop where
  le : entry ≤ address
  aligned : entry.toNat % 4 = address.toNat % 4
  near : (address.toNat - entry.toNat) / 4 < scanDistance
  mapped : ∀ (i : Nat) (place : Address), place.toNat = entry.toNat + 4 * i → place ≤ address →
    (machine.memory place).isSome = true

/-- A slot of the window encloses the address that the window belongs to. -/
theorem encloses_of_mem_window {entry address : Address}
    (hentry : entry ∈ machine.window scanDistance address) :
    machine.Encloses scanDistance entry address := by
  rcases within_of_mem_window hentry with ⟨k, hk, hsum⟩
  refine ⟨le_of_mem_window hentry, by omega, by omega, ?_⟩
  intro i place hplace hle
  exact isSome_of_mem_window (mem_window_of_le hentry hplace hle)

/-- The address itself is mapped. -/
theorem Encloses.isSome {entry address : Address}
    (hencloses : machine.Encloses scanDistance entry address) :
    (machine.memory address).isSome = true := by
  have hle := UInt32.le_iff_toNat_le.mp hencloses.le
  have haligned := hencloses.aligned
  exact hencloses.mapped ((address.toNat - entry.toNat) / 4) address (by omega)
    (UInt32.le_refl address)

/-! ## A replay of mapped slots -/

/-- The replay from `entry` reads every slot up to `address`, and its cursor ends there. -/
structure RunsThrough (machine : Machine) (entry address : Address) : Prop where
  ending : (machine.replay address entry).ending = .arrived address
  places : (machine.replay address entry).places.map UInt32.toNat =
    (List.range ((address.toNat - entry.toNat) / 4)).map (entry.toNat + 4 * ·)

/-- A replay of mapped slots arrives, one slot after the other. -/
theorem runsThrough_of_mapped {count : Nat} {entry address : Address}
    (hcount : entry.toNat + 4 * count = address.toNat)
    (hmapped : ∀ i < count, ∀ place : Address, place.toNat = entry.toNat + 4 * i →
      (machine.memory place).isSome = true) :
    machine.RunsThrough entry address := by
  induction count generalizing entry with
  | zero =>
    have hsame : entry = address := UInt32.toNat_inj.mp (by omega)
    have hreplay : machine.replay address entry = .ended (.arrived address) := by
      rw [hsame, replay, dif_neg (UInt32.lt_irrefl address)]
    have hslots : (address.toNat - entry.toNat) / 4 = 0 := by omega
    refine ⟨?_, ?_⟩
    · rw [hreplay]
      rfl
    · rw [hreplay, hslots]
      rfl
  | succ count ih =>
    have hbound := address.toNat_lt
    have hroom : entry.toNat + 4 < 0x100000000 := by omega
    have hnext := toNat_add_four hroom
    have hlt : entry < address := by
      rw [UInt32.lt_iff_toNat_lt]
      omega
    have hhere := hmapped 0 (Nat.succ_pos count) entry (by omega)
    rw [← isSome_instruction?] at hhere
    rcases Option.isSome_iff_exists.mp hhere with ⟨instruction, hinstruction⟩
    have hreplay : machine.replay address entry =
        (machine.replay address (entry + 4)).push entry instruction := by
      rw [replay, dif_pos hlt, hinstruction]
      simp only [dif_pos hroom]
    have hrest : machine.RunsThrough (entry + 4) address := by
      apply ih
      · omega
      · intro i hi place hplace
        exact hmapped (i + 1) (Nat.succ_lt_succ hi) place (by omega)
    have hslots : (address.toNat - entry.toNat) / 4 =
        (address.toNat - (entry + 4).toNat) / 4 + 1 := by
      omega
    refine ⟨?_, ?_⟩
    · rw [hreplay]
      exact hrest.ending
    · have hplaces := hrest.places
      rw [hreplay, hslots, List.range_succ_eq_map, List.map_cons, List.map_map]
      simp only [Replay.push, List.map_cons, hplaces]
      refine congrArg (entry.toNat :: ·) (List.map_congr_left ?_)
      intro i hi
      simp only [Function.comp_apply]
      omega

/-- The replay from a start that encloses an address arrives there. -/
theorem Encloses.runsThrough {entry address : Address}
    (hencloses : machine.Encloses scanDistance entry address) :
    machine.RunsThrough entry address := by
  have hle := UInt32.le_iff_toNat_le.mp hencloses.le
  have haligned := hencloses.aligned
  have hcount : entry.toNat + 4 * ((address.toNat - entry.toNat) / 4) = address.toNat := by omega
  apply runsThrough_of_mapped hcount
  intro i hi place hplace
  apply hencloses.mapped i place hplace
  rw [UInt32.le_iff_toNat_le]
  omega

/-- A replay that arrives has read the code of the function. -/
theorem RunsThrough.result_eq {entry address : Address}
    (hruns : machine.RunsThrough entry address) :
    (machine.replay address entry).result = .ok (machine.replay address entry).code := by
  rw [Replay.result, hruns.ending]

/-- A located start lies at or below its address, a whole number of slots away and fewer than may be
read, and everything in between is mapped.  The replay from there reads exactly the slots up to the
address and stops there, never at an unmapped slot and never at the top of the address space.  So
whatever address a function is looked for from, an unmapped slot is reported for that address only,
and the program counters that a walk looks at are such addresses: where it starts, and the return
addresses that it follows. -/
theorem located_replay (machine : Machine) (limits : Limits) :
    (∀ address start, machine.locate? limits.scanDistance address = some start →
      machine.Encloses limits.scanDistance start.address address ∧
        machine.RunsThrough start.address address ∧
        machine.body limits.scanDistance address =
          .ok ⟨start.address, (machine.replay address start.address).code⟩) ∧
    (∀ address place, machine.body limits.scanDistance address = .error (.unmappedRead place) →
      place = address) ∧
    ∀ registers,
      let frames := (machine.unwind limits registers).frames
      let counters := (machine.positions limits registers).map Position.programCounter
      counters = origins registers.programCounter frames ∨
        counters = path registers.programCounter frames := by
  have hlocated : ∀ address start, machine.locate? limits.scanDistance address = some start →
      machine.Encloses limits.scanDistance start.address address ∧
        machine.RunsThrough start.address address ∧
        machine.body limits.scanDistance address =
          .ok ⟨start.address, (machine.replay address start.address).code⟩ := by
    intro address start hstart
    have hencloses := encloses_of_mem_window (locate?_mem_window hstart)
    have hruns := hencloses.runsThrough
    have hfetch := (machine.fetch_eq_result start.address address).trans hruns.result_eq
    exact ⟨hencloses, hruns, body_eq_ok_iff.mpr
      ⟨hencloses.isSome, ⟨start.heuristic, hstart⟩, fetch_eq_ok_iff.mp hfetch⟩⟩
  refine ⟨hlocated, ?_, machine.programCounters_positions limits⟩
  intro address place hbody
  rcases body_eq_error_iff.mp hbody with ⟨-, hreason⟩ | ⟨-, -, hreason⟩
  · injection hreason
  · cases hreason

/-- While `helper` of the sample image runs, the walk is first in `helper` and then in `main`, and
it replays both up to where they were left. -/
theorem located_replay_running :
    let machine : Machine := ⟨Debugger.Sample.running.read, Mips.classifier⟩
    (machine.Encloses Limits.default.scanDistance 0x00100024 0x00100030 ∧
        machine.RunsThrough 0x00100024 0x00100030) ∧
      (machine.Encloses Limits.default.scanDistance 0x00100000 0x00100014 ∧
        machine.RunsThrough 0x00100000 0x00100014) ∧
      ∃ place, machine.body Limits.default.scanDistance 0x00400000 =
        .error (.unmappedRead place) ∧ place = 0x00400000 := by
  intro machine
  have hstart : machine.locate? Limits.default.scanDistance 0x00100030 =
      some ⟨0x00100024, .afterReturn⟩ := by
    decide +kernel
  have hstart' : machine.locate? Limits.default.scanDistance 0x00100014 =
      some ⟨0x00100000, .afterReturn⟩ := by
    decide +kernel
  have hbody : machine.body Limits.default.scanDistance 0x00400000 =
      .error (.unmappedRead 0x00400000) := by
    decide +kernel
  rcases machine.located_replay .default with ⟨hlocated, hunmapped, -⟩
  rcases hlocated _ _ hstart with ⟨hencloses, hruns, -⟩
  rcases hlocated _ _ hstart' with ⟨hencloses', hruns', -⟩
  exact ⟨⟨hencloses, hruns⟩, ⟨hencloses', hruns'⟩, _, hbody, hunmapped _ _ hbody⟩

end Machine

end Backtrace
