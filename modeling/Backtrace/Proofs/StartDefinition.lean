import Backtrace.Limits
import Backtrace.Proofs.Window
import Mathlib.Order.Bounds.Defs

/-!
# The start of a function, without a search

What the start of a function is taken to be can be said without the steps of a search.  From the
address downwards there is a greatest number of slots that may be read, exist and are mapped.  If a
return among them ends at or below the address, the highest such return ends where the function
starts.  Otherwise the highest allocation among them is the start, and otherwise there is none.  All
sums are those of exact integers: nothing is cut off and nothing wraps.

Main results:

- Theorem `exists_isGreatest_reach`: there is such a number of slots.
- Theorem `mem_window_iff_within`: the window of a search is made of that many slots.
- Theorem `locate?_eq_iff_isStart`: the search answers what this definition says.
-/

namespace Backtrace

namespace Machine

variable {machine : Machine}

/-! ## How far down the slots are mapped -/

/-- The numbers of slots from `address` downwards that are no more than may be read, all in the
address space and all mapped. -/
def reach (machine : Machine) (scanDistance : Nat) (address : Address) : Set Nat :=
  {count | count ≤ scanDistance ∧ ∀ k < count, ∃ place : Address,
    place.toNat + 4 * k = address.toNat ∧ (machine.memory place).isSome = true}

/-- One of the numbers is the greatest. -/
theorem exists_isGreatest_reach (machine : Machine) (scanDistance : Nat) (address : Address) :
    ∃ count, IsGreatest (machine.reach scanDistance address) count := by
  induction scanDistance with
  | zero =>
    refine ⟨0, ⟨Nat.le_refl 0, ?_⟩, fun count hcount => hcount.1⟩
    intro k hk
    exact absurd hk (Nat.not_lt_zero k)
  | succ scanDistance ih =>
    rcases ih with ⟨count, hcount, hgreatest⟩
    by_cases hall : scanDistance + 1 ∈ machine.reach (scanDistance + 1) address
    · exact ⟨scanDistance + 1, hall, fun other hother => hother.1⟩
    · refine ⟨count, ⟨Nat.le_succ_of_le hcount.1, hcount.2⟩, ?_⟩
      intro other hother
      have hne : other ≠ scanDistance + 1 := by
        rintro rfl
        exact hall hother
      have hle := hother.1
      exact hgreatest ⟨by omega, hother.2⟩

/-- The window of a search has all the slots there are to read, and no others. -/
theorem mem_window_iff_within {scanDistance count : Nat} {address place : Address}
    (hcount : IsGreatest (machine.reach scanDistance address) count) :
    place ∈ machine.window scanDistance address ↔ Within count address place := by
  rw [mem_window_iff]
  constructor
  · intro hslot
    rcases hslot with ⟨k, hk, hplace, hall⟩
    have hreach : k + 1 ∈ machine.reach scanDistance address := by
      refine ⟨hk, ?_⟩
      intro j hj
      have hinside : 4 * j ≤ address.toNat := by omega
      rcases Address.exists_below hinside with ⟨above, habove⟩
      exact ⟨above, habove, hall j (Nat.le_of_lt_succ hj) above habove⟩
    exact ⟨k, hcount.2 hreach, hplace⟩
  · intro hslot
    rcases hslot with ⟨k, hk, hplace⟩
    refine ⟨k, Nat.lt_of_lt_of_le hk hcount.1.1, hplace, ?_⟩
    intro j hj above habove
    rcases hcount.1.2 j (Nat.lt_of_le_of_lt hj hk) with ⟨other, hother, hmapped⟩
    have hsame : other = above := UInt32.toNat_inj.mp (by omega)
    exact hsame ▸ hmapped

/-! ## What makes a start -/

/-- A return stands at `place` and ends, delay slots included, at or below `address`. -/
def ReturnsBelow (machine : Machine) (address place : Address) : Prop :=
  machine.instruction? place = some .ret ∧
    place.toNat + 4 * machine.classifier.returnWidth.toNat ≤ address.toNat

/-- The stack pointer moves down at `place` by a known amount. -/
def Allocates (machine : Machine) (place : Address) : Prop :=
  ∃ delta : Int32, machine.instruction? place = some (.stackAdjust (some delta)) ∧ delta.toInt < 0

/-- `result` is where the function around `address` starts, when `count` slots can be read from
there downwards. -/
def IsStart (machine : Machine) (count : Nat) (address : Address) :
    (result : Option FunctionStart) → Prop
  | some ⟨start, .afterReturn⟩ =>
    ∃ place,
      IsGreatest {slot | Within count address slot ∧ machine.ReturnsBelow address slot} place ∧
      start.toNat = place.toNat + 4 * machine.classifier.returnWidth.toNat
  | some ⟨start, .prologue⟩ =>
    (∀ slot, Within count address slot → ¬ machine.ReturnsBelow address slot) ∧
      IsGreatest {slot | Within count address slot ∧ machine.Allocates slot} start
  | none =>
    ∀ slot, Within count address slot →
      ¬ machine.ReturnsBelow address slot ∧ ¬ machine.Allocates slot

/-- A return counts for a search exactly when it ends at or below the address, and then the start is
its exact end. -/
theorem countedStart?_eq_some_iff_of_within {count : Nat} {address place start : Address}
    (hplace : Within count address place) :
    machine.countedStart? address place = some start ↔
      machine.ReturnsBelow address place ∧
        start.toNat = place.toNat + 4 * machine.classifier.returnWidth.toNat := by
  constructor
  · intro hcounted
    have hwhole := returnBytes_of_countedStart? hplace hcounted
    rcases countedStart?_eq_some_iff.mp hcounted with ⟨hreturn, hsum, hle⟩
    rw [UInt32.le_iff_toNat_le] at hle
    exact ⟨⟨hreturn, by omega⟩, by omega⟩
  · intro hexact
    rcases hexact with ⟨⟨hreturn, hbelow⟩, hsum⟩
    have hbound := address.toNat_lt
    have hwidth : machine.classifier.returnBytes =
        min (4 * machine.classifier.returnWidth.toNat) 0xFFFFFFFF := rfl
    refine countedStart?_eq_some_iff.mpr ⟨hreturn, by omega, ?_⟩
    rw [UInt32.le_iff_toNat_le]
    omega

/-- A return does not count for a search exactly when it does not end at or below the address. -/
theorem countedStart?_eq_none_iff_of_within {count : Nat} {address place : Address}
    (hplace : Within count address place) :
    machine.countedStart? address place = none ↔ ¬ machine.ReturnsBelow address place := by
  rw [Option.eq_none_iff_forall_ne_some]
  constructor
  · intro hnone hreturns
    have hbound := address.toNat_lt
    have hsum : (UInt32.ofNat (place.toNat + 4 * machine.classifier.returnWidth.toNat)).toNat =
        place.toNat + 4 * machine.classifier.returnWidth.toNat := by
      have hbelow := hreturns.2
      rw [UInt32.toNat_ofNat']
      omega
    exact hnone _ ((countedStart?_eq_some_iff_of_within hplace).mpr ⟨hreturns, hsum⟩)
  · intro hnot start hcounted
    exact hnot ((countedStart?_eq_some_iff_of_within hplace).mp hcounted).1

/-- The search looks for the same allocations. -/
theorem allocatesAt_iff {place : Address} :
    machine.allocatesAt place = true ↔ machine.Allocates place := by
  unfold allocatesAt Allocates
  rw [Option.any_eq_true]
  constructor
  · intro hany
    rcases hany with ⟨instruction, hmapped, hallocates⟩
    rcases Instruction.allocates_iff.mp hallocates with ⟨delta, rfl, hdelta⟩
    exact ⟨delta, hmapped, hdelta⟩
  · intro hallocates
    rcases hallocates with ⟨delta, hmapped, hdelta⟩
    exact ⟨_, hmapped, Instruction.allocates_iff.mpr ⟨delta, rfl, hdelta⟩⟩

/-! ## The search answers the definition -/

section Window

variable {scanDistance count : Nat} {address start : Address}
  (hcount : IsGreatest (machine.reach scanDistance address) count)

include hcount

/-- The highest slot of its kind is the one of the window that has none of its kind above. -/
theorem isGreatest_within_iff {kind : Address → Prop} {place : Address} :
    IsGreatest {slot | Within count address slot ∧ kind slot} place ↔
      place ∈ machine.window scanDistance address ∧ kind place ∧
        ∀ above ∈ machine.window scanDistance address, place < above → ¬ kind above := by
  constructor
  · intro hhighest
    rcases hhighest with ⟨⟨hplace, hkind⟩, hupper⟩
    refine ⟨(mem_window_iff_within hcount).mpr hplace, hkind, ?_⟩
    intro above habove hlt hkind'
    have hle := hupper ⟨(mem_window_iff_within hcount).mp habove, hkind'⟩
    exact UInt32.not_lt.mpr hle hlt
  · intro hhighest
    rcases hhighest with ⟨hplace, hkind, hnone⟩
    refine ⟨⟨(mem_window_iff_within hcount).mp hplace, hkind⟩, ?_⟩
    intro above habove
    rcases habove with ⟨hwithin, hkind'⟩
    refine UInt32.not_lt.mp fun hlt => ?_
    exact hnone above ((mem_window_iff_within hcount).mpr hwithin) hlt hkind'

/-- The search finds a start behind a return where the definition says so. -/
theorem locate?_eq_afterReturn_iff_isStart :
    machine.locate? scanDistance address = some ⟨start, .afterReturn⟩ ↔
      machine.IsStart count address (some ⟨start, .afterReturn⟩) := by
  rw [locate?_eq_afterReturn_iff, IsStart]
  apply exists_congr
  intro place
  rw [isGreatest_within_iff hcount]
  constructor
  · intro hfound
    rcases hfound with ⟨hplace, hcounted, hnone⟩
    have hwithin := (mem_window_iff_within hcount).mp hplace
    rcases (countedStart?_eq_some_iff_of_within hwithin).mp hcounted with ⟨hreturns, hsum⟩
    refine ⟨⟨hplace, hreturns, ?_⟩, hsum⟩
    intro above habove hlt
    have hwithin' := (mem_window_iff_within hcount).mp habove
    exact (countedStart?_eq_none_iff_of_within hwithin').mp (hnone above habove hlt)
  · intro hstart
    rcases hstart with ⟨⟨hplace, hreturns, hnone⟩, hsum⟩
    have hwithin := (mem_window_iff_within hcount).mp hplace
    refine ⟨hplace, (countedStart?_eq_some_iff_of_within hwithin).mpr ⟨hreturns, hsum⟩, ?_⟩
    intro above habove hlt
    have hwithin' := (mem_window_iff_within hcount).mp habove
    exact (countedStart?_eq_none_iff_of_within hwithin').mpr (hnone above habove hlt)

/-- No return counts in the window exactly when the definition knows of none. -/
theorem forall_countedStart?_eq_none_iff :
    (∀ place ∈ machine.window scanDistance address, machine.countedStart? address place = none) ↔
      ∀ slot, Within count address slot → ¬ machine.ReturnsBelow address slot := by
  apply forall_congr'
  intro place
  rw [mem_window_iff_within hcount]
  exact forall_congr' fun hplace => countedStart?_eq_none_iff_of_within hplace

/-- The search finds a start at an allocation where the definition says so. -/
theorem locate?_eq_prologue_iff_isStart :
    machine.locate? scanDistance address = some ⟨start, .prologue⟩ ↔
      machine.IsStart count address (some ⟨start, .prologue⟩) := by
  rw [locate?_eq_prologue_iff, forall_countedStart?_eq_none_iff hcount, IsStart,
    isGreatest_within_iff hcount]
  simp only [allocatesAt_iff, Bool.eq_false_iff, ne_eq]

/-- The search finds no start where the definition says that there is none. -/
theorem locate?_eq_none_iff_isStart :
    machine.locate? scanDistance address = none ↔ machine.IsStart count address none := by
  rw [locate?_eq_none_iff, IsStart]
  apply forall_congr'
  intro place
  rw [mem_window_iff_within hcount]
  refine forall_congr' fun hplace => ?_
  rw [countedStart?_eq_none_iff_of_within hplace, ← allocatesAt_iff, Bool.not_eq_true]

end Window

/-- The search for the start of a function answers what the definition says, for the greatest number
of slots that can be read. -/
theorem locate?_eq_iff_isStart (machine : Machine) (limits : Limits) (address : Address) :
    ∃ count, IsGreatest (machine.reach limits.scanDistance address) count ∧
      ∀ result, machine.locate? limits.scanDistance address = result ↔
        machine.IsStart count address result := by
  rcases machine.exists_isGreatest_reach limits.scanDistance address with ⟨count, hcount⟩
  refine ⟨count, hcount, ?_⟩
  intro result
  match result with
  | none => exact locate?_eq_none_iff_isStart hcount
  | some ⟨start, .afterReturn⟩ => exact locate?_eq_afterReturn_iff_isStart hcount
  | some ⟨start, .prologue⟩ => exact locate?_eq_prologue_iff_isStart hcount

end Machine

end Backtrace
