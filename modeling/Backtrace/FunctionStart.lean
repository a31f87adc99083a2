import Backtrace.Machine

/-!
# Where a function starts

Without symbols the start of a function has to be guessed.  The search looks backwards from an
address for one of two things: a return, behind which the next function most likely starts, or a
stack allocation, most likely the opening of the function itself.  A return wins over an allocation,
even over a nearer one, because it is much less likely to lie.

The search ends at the first unmapped slot, at the bottom of the address space, or when it has
looked at as many slots as it may.

Main results:

- Theorem `Machine.startAfterReturn?_eq_some_iff`: a return counts only when it ends at or below the
  address that is asked about, so that the function's own return does not.
- Theorems `Machine.search_of_return`, `Machine.search_of_bottom` and `Machine.search_of_below`:
  what one mapped slot adds to the search.
-/

namespace Backtrace

/-- Which guess found the start of a function. -/
inductive Heuristic where
  /-- The slot after the return of the function before. -/
  | afterReturn
  /-- The nearest stack allocation. -/
  | prologue
deriving DecidableEq, Repr

/-- A guess at where a function starts, and what makes it look like a start. -/
structure FunctionStart where
  address : Address
  heuristic : Heuristic
deriving DecidableEq, Repr

namespace Machine

/-! ## What one slot says -/

/-- The start of the function behind a return at `place`.

A return that `address` lies in, its delay slots included, ends the function around `address` and
not the one before it. -/
def startAfterReturn? (machine : Machine) (address place : Address) (instruction : Instruction) :
    Option Address :=
  if instruction = .ret then
    (place.shift? machine.classifier.returnBytes).filter (· ≤ address)
  else none

/-- The allocation nearest to where the search began, once `place` has been looked at. -/
def nearestAllocation (nearest : Option Address) (place : Address) (instruction : Instruction) :
    Option Address :=
  nearest.or (if instruction.allocates then some place else none)

/-- A return counts when its exact end is at or below the address. -/
theorem startAfterReturn?_eq_some_iff {machine : Machine} {address place start : Address}
    {instruction : Instruction} :
    machine.startAfterReturn? address place instruction = some start ↔
      instruction = .ret ∧ start.toNat = place.toNat + machine.classifier.returnBytes ∧
        start ≤ address := by
  unfold startAfterReturn?
  by_cases hreturn : instruction = .ret
  · rw [if_pos hreturn, Option.filter_eq_some_iff, Address.shift?_eq_some_iff]
    simp only [hreturn, true_and, decide_eq_true_eq]
    constructor
    · rintro ⟨hsum, hbelow⟩
      exact ⟨by omega, hbelow⟩
    · rintro ⟨hsum, hbelow⟩
      exact ⟨by omega, hbelow⟩
  · simp [hreturn]

/-! ## The search -/

/-- Looks at `budget` slots from `place` downwards for the start of the function that `address` is
in, where `nearest` is the allocation to fall back on. -/
def search (machine : Machine) (address : Address) :
    (budget : Nat) → (place : Address) → (nearest : Option Address) → Option FunctionStart
  | 0, _, nearest => nearest.map (⟨·, .prologue⟩)
  | budget + 1, place, nearest =>
    match machine.instruction? place with
    | none => nearest.map (⟨·, .prologue⟩)
    | some instruction =>
      match machine.startAfterReturn? address place instruction with
      | some start => some ⟨start, .afterReturn⟩
      | none =>
        match place.shift? (-4) with
        | none => (nearestAllocation nearest place instruction).map (⟨·, .prologue⟩)
        | some below =>
          machine.search address budget below (nearestAllocation nearest place instruction)

/-- The start of the function that `address` is in, as far as `scanDistance` slots tell. -/
def locate? (machine : Machine) (scanDistance : Nat) (address : Address) : Option FunctionStart :=
  machine.search address scanDistance address none

/-- A search falls back on the nearest allocation at an unmapped slot. -/
theorem search_of_unmapped {machine : Machine} {address place : Address} (budget : Nat)
    (nearest : Option Address) (hunmapped : machine.instruction? place = none) :
    machine.search address budget place nearest = nearest.map (⟨·, .prologue⟩) := by
  cases budget with
  | zero => rfl
  | succ budget => rw [search, hunmapped]

/-- A return that counts ends the search. -/
theorem search_of_return {machine : Machine} {address place start : Address} (budget : Nat)
    (nearest : Option Address) {instruction : Instruction}
    (hmapped : machine.instruction? place = some instruction)
    (hcounts : machine.startAfterReturn? address place instruction = some start) :
    machine.search address (budget + 1) place nearest = some ⟨start, .afterReturn⟩ := by
  simp only [search, hmapped, hcounts]

/-- At the bottom of the address space the search falls back on the nearest allocation, the bottom
slot included. -/
theorem search_of_bottom {machine : Machine} {address place : Address} (budget : Nat)
    (nearest : Option Address) {instruction : Instruction}
    (hmapped : machine.instruction? place = some instruction)
    (hgoesOn : machine.startAfterReturn? address place instruction = none)
    (hbottom : place.shift? (-4) = none) :
    machine.search address (budget + 1) place nearest =
      (nearestAllocation nearest place instruction).map (⟨·, .prologue⟩) := by
  simp only [search, hmapped, hgoesOn, hbottom]

/-- Anywhere else the search goes on below, with the allocation remembered. -/
theorem search_of_below {machine : Machine} {address place below : Address} (budget : Nat)
    (nearest : Option Address) {instruction : Instruction}
    (hmapped : machine.instruction? place = some instruction)
    (hgoesOn : machine.startAfterReturn? address place instruction = none)
    (hstep : place.shift? (-4) = some below) :
    machine.search address (budget + 1) place nearest =
      machine.search address budget below (nearestAllocation nearest place instruction) := by
  simp only [search, hmapped, hgoesOn, hstep]

end Machine

end Backtrace
