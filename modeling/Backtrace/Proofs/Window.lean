import Backtrace.FunctionStart

/-!
# What a search for the start of a function looks at

The search for a function's start reads slots downwards until one of three things stops it.  The
slots it may read, its window, do not depend on what the search is looking for.  Written with the
window, the search is two questions to one list: the first return in it that counts, and otherwise
the first allocation.

Main results:

- Theorem `mem_window_iff`: a slot is in the window when it and all slots above it are mapped, and
  fewer slots lie above it than may be read.
- Theorems `locate?_eq_afterReturn_iff`, `locate?_eq_prologue_iff` and `locate?_eq_none_iff`: what
  a search answers, in terms of its window alone.
- Theorem `locate?_mem_window`: the start of a function is itself a slot of the window.
-/

namespace Backtrace

namespace Machine

variable {machine : Machine}

/-! ## The window -/

/-- The slots from `place` downwards, as far as they are mapped, at most `budget` of them. -/
def window (machine : Machine) : (budget : Nat) → (place : Address) → List Address
  | 0, _ => []
  | budget + 1, place =>
    if (machine.memory place).isNone then []
    else
      match place.shift? (-4) with
      | none => [place]
      | some below => place :: machine.window budget below

theorem window_of_unmapped {place : Address} (budget : Nat)
    (hunmapped : machine.instruction? place = none) : machine.window budget place = [] := by
  have hnone : (machine.memory place).isNone = true := by
    simpa [instruction?] using hunmapped
  cases budget with
  | zero => rfl
  | succ budget => rw [window, if_pos hnone]

theorem window_of_bottom {place : Address} {instruction : Instruction} (budget : Nat)
    (hmapped : machine.instruction? place = some instruction)
    (hbottom : place.shift? (-4) = none) : machine.window (budget + 1) place = [place] := by
  have hsome : ¬ (machine.memory place).isNone = true := by
    intro hnone
    simp [instruction?, Option.isNone_iff_eq_none.mp hnone] at hmapped
  rw [window, if_neg hsome, hbottom]

theorem window_of_below {place below : Address} {instruction : Instruction} (budget : Nat)
    (hmapped : machine.instruction? place = some instruction)
    (hbelow : place.shift? (-4) = some below) :
    machine.window (budget + 1) place = place :: machine.window budget below := by
  have hsome : ¬ (machine.memory place).isNone = true := by
    intro hnone
    simp [instruction?, Option.isNone_iff_eq_none.mp hnone] at hmapped
  rw [window, if_neg hsome, hbelow]

/-- The slots of a window are those that lie fewer than `budget` slots down, when no slot from the
top down to them is unmapped. -/
theorem mem_window_iff {budget : Nat} {address place : Address} :
    place ∈ machine.window budget address ↔
      ∃ k < budget, place.toNat + 4 * k = address.toNat ∧
        ∀ j ≤ k, ∀ above : Address, above.toNat + 4 * j = address.toNat →
          (machine.memory above).isSome = true := by
  induction budget generalizing address with
  | zero => simp [window]
  | succ budget ih =>
    cases hmapped : machine.instruction? address with
    | none =>
      rw [window_of_unmapped _ hmapped]
      constructor
      · intro hnil
        simp at hnil
      · intro hslot
        rcases hslot with ⟨k, hk, hplace, hall⟩
        have hhere := hall 0 (Nat.zero_le k) address (by omega)
        rw [← isSome_instruction?, hmapped] at hhere
        simp at hhere
    | some instruction =>
      have hhere : (machine.memory address).isSome = true := by
        rw [← isSome_instruction?, hmapped]
        rfl
      cases hbelow : address.shift? (-4) with
      | none =>
        have hbottom := Address.shift?_eq_none_iff.mp hbelow
        rw [window_of_bottom _ hmapped hbelow, List.mem_singleton]
        constructor
        · intro hsame
          subst hsame
          refine ⟨0, Nat.succ_pos budget, by omega, ?_⟩
          intro j hj above habove
          have hsame : above = place := UInt32.toNat_inj.mp (by omega)
          exact hsame ▸ hhere
        · intro hslot
          rcases hslot with ⟨k, hk, hplace, hall⟩
          have := address.toNat_lt
          exact UInt32.toNat_inj.mp (by omega)
      | some below =>
        have hstep := Address.shift?_eq_some_iff.mp hbelow
        rw [window_of_below _ hmapped hbelow, List.mem_cons, ih]
        constructor
        · intro hslot
          rcases hslot with rfl | ⟨k, hk, hplace, hall⟩
          · refine ⟨0, Nat.succ_pos budget, by omega, ?_⟩
            intro j hj above habove
            have hsame : above = place := UInt32.toNat_inj.mp (by omega)
            exact hsame ▸ hhere
          · refine ⟨k + 1, Nat.succ_lt_succ hk, by omega, ?_⟩
            intro j hj above habove
            rcases j with _ | j
            · have hsame : above = address := UInt32.toNat_inj.mp (by omega)
              exact hsame ▸ hhere
            · exact hall j (by omega) above (by omega)
        · intro hslot
          rcases hslot with ⟨k, hk, hplace, hall⟩
          rcases k with _ | k
          · exact Or.inl (UInt32.toNat_inj.mp (by omega))
          · refine Or.inr ⟨k, by omega, by omega, ?_⟩
            intro j hj above habove
            exact hall (j + 1) (by omega) above (by omega)

/-- `place` is one of the `count` slots from `address` downwards. -/
def Within (count : Nat) (address place : Address) : Prop :=
  ∃ k < count, place.toNat + 4 * k = address.toNat

instance (count : Nat) (address place : Address) : Decidable (Within count address place) :=
  inferInstanceAs (Decidable (∃ k < count, place.toNat + 4 * k = address.toNat))

/-- A window holds no slots but those that may be read. -/
theorem within_of_mem_window {budget : Nat} {address place : Address}
    (hplace : place ∈ machine.window budget address) : Within budget address place := by
  rcases mem_window_iff.mp hplace with ⟨k, hk, hsum, -⟩
  exact ⟨k, hk, hsum⟩

/-- Every slot of the window is mapped. -/
theorem isSome_of_mem_window {budget : Nat} {address place : Address}
    (hplace : place ∈ machine.window budget address) : (machine.memory place).isSome = true := by
  rcases mem_window_iff.mp hplace with ⟨k, -, hsum, hall⟩
  exact hall k (Nat.le_refl k) place hsum

/-- No slot of the window lies above the address. -/
theorem le_of_mem_window {budget : Nat} {address place : Address}
    (hplace : place ∈ machine.window budget address) : place ≤ address := by
  rcases mem_window_iff.mp hplace with ⟨k, -, hsum, -⟩
  rw [UInt32.le_iff_toNat_le]
  omega

/-- A window has no gaps: with a slot it has all slots from there up to the address. -/
theorem mem_window_of_le {budget : Nat} {address place above : Address} {i : Nat}
    (hplace : place ∈ machine.window budget address)
    (hsum : above.toNat = place.toNat + 4 * i) (hle : above ≤ address) :
    above ∈ machine.window budget address := by
  rcases mem_window_iff.mp hplace with ⟨k, hk, hplace, hall⟩
  rw [UInt32.le_iff_toNat_le] at hle
  refine mem_window_iff.mpr ⟨k - i, by omega, by omega, ?_⟩
  intro j hj other hother
  exact hall j (by omega) other hother

/-- The slots of a window run downwards. -/
theorem pairwise_window (budget : Nat) (address : Address) :
    (machine.window budget address).Pairwise (fun above below => below < above) := by
  induction budget generalizing address with
  | zero => exact List.Pairwise.nil
  | succ budget ih =>
    cases hmapped : machine.instruction? address with
    | none =>
      rw [window_of_unmapped _ hmapped]
      exact List.Pairwise.nil
    | some instruction =>
      cases hbelow : address.shift? (-4) with
      | none =>
        rw [window_of_bottom _ hmapped hbelow]
        exact List.pairwise_singleton _ _
      | some below =>
        have hstep := Address.shift?_eq_some_iff.mp hbelow
        rw [window_of_below _ hmapped hbelow]
        refine List.Pairwise.cons ?_ (ih below)
        intro place hplace
        have hle := UInt32.le_iff_toNat_le.mp (le_of_mem_window hplace)
        rw [UInt32.lt_iff_toNat_lt]
        omega

/-! ## The search over its window -/

/-- Where the function behind `place` starts, when a return stands at `place` that counts for
`address`. -/
def countedStart? (machine : Machine) (address place : Address) : Option Address :=
  (machine.instruction? place).bind (machine.startAfterReturn? address place)

/-- Whether a stack allocation stands at `place`. -/
def allocatesAt (machine : Machine) (place : Address) : Bool :=
  (machine.instruction? place).any Instruction.allocates

/-- A return counts when its exact end is at or below the address. -/
theorem countedStart?_eq_some_iff {address place start : Address} :
    machine.countedStart? address place = some start ↔
      machine.instruction? place = some .ret ∧
        start.toNat = place.toNat + machine.classifier.returnBytes ∧ start ≤ address := by
  unfold countedStart?
  rw [Option.bind_eq_some_iff]
  constructor
  · intro hbound
    rcases hbound with ⟨instruction, hmapped, hcounts⟩
    rcases startAfterReturn?_eq_some_iff.mp hcounts with ⟨rfl, hsum, hle⟩
    exact ⟨hmapped, hsum, hle⟩
  · intro hcounts
    rcases hcounts with ⟨hmapped, hsum, hle⟩
    exact ⟨.ret, hmapped, startAfterReturn?_eq_some_iff.mpr ⟨rfl, hsum, hle⟩⟩

/-- The search, as two questions to its window: the first return that counts, or else the first
allocation, where one that is already remembered comes before all. -/
theorem search_eq (address : Address) (budget : Nat) (place : Address)
    (nearest : Option Address) :
    machine.search address budget place nearest =
      (((machine.window budget place).findSome? (machine.countedStart? address)).map
        (⟨·, .afterReturn⟩)).or
      ((nearest.or ((machine.window budget place).find? machine.allocatesAt)).map
        (⟨·, .prologue⟩)) := by
  induction budget generalizing place nearest with
  | zero => simp [search, window]
  | succ budget ih =>
    cases hmapped : machine.instruction? place with
    | none => simp [search_of_unmapped _ _ hmapped, window_of_unmapped _ hmapped]
    | some instruction =>
      have hcounted : machine.countedStart? address place =
          machine.startAfterReturn? address place instruction := by
        simp [countedStart?, hmapped]
      have hallocates : machine.allocatesAt place = instruction.allocates := by
        simp [allocatesAt, hmapped]
      cases hreturn : machine.startAfterReturn? address place instruction with
      | some start =>
        rw [search_of_return _ _ hmapped hreturn]
        cases hbelow : place.shift? (-4) with
        | none => simp [window_of_bottom _ hmapped hbelow, hcounted, hreturn]
        | some below => simp [window_of_below _ hmapped hbelow, hcounted, hreturn]
      | none =>
        cases hbelow : place.shift? (-4) with
        | none =>
          rw [search_of_bottom _ _ hmapped hreturn hbelow, window_of_bottom _ hmapped hbelow]
          cases hkind : instruction.allocates <;>
            simp [nearestAllocation, hcounted, hreturn, hallocates, hkind]
        | some below =>
          rw [search_of_below _ _ hmapped hreturn hbelow, window_of_below _ hmapped hbelow, ih]
          cases hkind : instruction.allocates <;>
            simp [nearestAllocation, hcounted, hreturn, hallocates, hkind]

/-- The start of a function, as two questions to the window. -/
theorem locate?_eq (scanDistance : Nat) (address : Address) :
    machine.locate? scanDistance address =
      (((machine.window scanDistance address).findSome? (machine.countedStart? address)).map
        (⟨·, .afterReturn⟩)).or
      (((machine.window scanDistance address).find? machine.allocatesAt).map (⟨·, .prologue⟩)) := by
  rw [locate?, search_eq, Option.none_or]

/-- The first answer along a window is the answer of the highest slot that has one. -/
theorem findSome?_window_eq_some_iff {α : Type} {budget : Nat} {address : Address}
    {ask : Address → Option α} {answer : α} :
    (machine.window budget address).findSome? ask = some answer ↔
      ∃ place ∈ machine.window budget address, ask place = some answer ∧
        ∀ above ∈ machine.window budget address, place < above → ask above = none := by
  have hsorted := machine.pairwise_window budget address
  rw [List.findSome?_eq_some_iff]
  constructor
  · intro hsplit
    rcases hsplit with ⟨before, place, after, hwindow, hanswer, hbefore⟩
    rw [hwindow] at hsorted ⊢
    refine ⟨place, by simp, hanswer, ?_⟩
    intro above habove hlt
    rcases List.mem_append.mp habove with hmem | hmem
    · exact hbefore above hmem
    · have hle : above ≤ place := by
        rcases List.mem_cons.mp hmem with rfl | hmem
        · exact UInt32.le_refl above
        · have hcons := (List.pairwise_append.mp hsorted).2.1
          exact UInt32.le_of_lt ((List.pairwise_cons.mp hcons).1 above hmem)
      exact absurd hlt (UInt32.not_lt.mpr hle)
  · intro hhighest
    rcases hhighest with ⟨place, hplace, hanswer, hhigher⟩
    rcases List.append_of_mem hplace with ⟨before, after, hwindow⟩
    refine ⟨before, place, after, hwindow, hanswer, ?_⟩
    intro above habove
    rw [hwindow] at hsorted hhigher
    have hlt := (List.pairwise_append.mp hsorted).2.2 above habove place List.mem_cons_self
    exact hhigher above (List.mem_append_left _ habove) hlt

/-- The first allocation along a window is the highest one. -/
theorem find?_window_eq_some_iff {budget : Nat} {address place : Address} {ask : Address → Bool} :
    (machine.window budget address).find? ask = some place ↔
      place ∈ machine.window budget address ∧ ask place = true ∧
        ∀ above ∈ machine.window budget address, place < above → ask above = false := by
  rw [List.find?_eq_findSome?_guard, findSome?_window_eq_some_iff]
  constructor
  · intro hguarded
    rcases hguarded with ⟨found, hfound, hask, hhigher⟩
    rcases Option.guard_eq_some_iff.mp hask with ⟨rfl, htrue⟩
    refine ⟨hfound, htrue, ?_⟩
    intro above habove hlt
    simpa using hhigher above habove hlt
  · intro hhighest
    rcases hhighest with ⟨hplace, hask, hhigher⟩
    refine ⟨place, hplace, Option.guard_eq_some_iff.mpr ⟨rfl, hask⟩, ?_⟩
    intro above habove hlt
    simpa using hhigher above habove hlt

/-- A start behind a return belongs to the highest return of the window that counts. -/
theorem locate?_eq_afterReturn_iff {scanDistance : Nat} {address start : Address} :
    machine.locate? scanDistance address = some ⟨start, .afterReturn⟩ ↔
      ∃ place ∈ machine.window scanDistance address,
        machine.countedStart? address place = some start ∧
          ∀ above ∈ machine.window scanDistance address, place < above →
            machine.countedStart? address above = none := by
  rw [← findSome?_window_eq_some_iff, locate?_eq]
  cases (machine.window scanDistance address).findSome? (machine.countedStart? address) with
  | none => simp
  | some other => simp

/-- A start at an allocation is the highest allocation of a window in which no return counts. -/
theorem locate?_eq_prologue_iff {scanDistance : Nat} {address start : Address} :
    machine.locate? scanDistance address = some ⟨start, .prologue⟩ ↔
      (∀ place ∈ machine.window scanDistance address,
        machine.countedStart? address place = none) ∧
      start ∈ machine.window scanDistance address ∧ machine.allocatesAt start = true ∧
        ∀ above ∈ machine.window scanDistance address, start < above →
          machine.allocatesAt above = false := by
  rw [← find?_window_eq_some_iff, ← List.findSome?_eq_none_iff, locate?_eq]
  cases (machine.window scanDistance address).findSome? (machine.countedStart? address) with
  | none => simp
  | some other => simp

/-- No start is found exactly when no return in the window counts and nothing in it allocates. -/
theorem locate?_eq_none_iff {scanDistance : Nat} {address : Address} :
    machine.locate? scanDistance address = none ↔
      ∀ place ∈ machine.window scanDistance address,
        machine.countedStart? address place = none ∧ machine.allocatesAt place = false := by
  rw [locate?_eq, Option.or_eq_none_iff, Option.map_eq_none_iff, Option.map_eq_none_iff,
    List.findSome?_eq_none_iff, List.find?_eq_none]
  constructor
  · intro hneither place hplace
    rcases hneither with ⟨hreturns, hallocations⟩
    exact ⟨hreturns place hplace, by simpa using hallocations place hplace⟩
  · intro hboth
    refine ⟨fun place hplace => (hboth place hplace).1, ?_⟩
    intro place hplace
    simp [(hboth place hplace).2]

/-! ## Where a start lies -/

/-- A return that counts in a window has its whole width between its slot and the address, even
where widths are cut off at the top of the address space. -/
theorem returnBytes_of_countedStart? {budget : Nat} {address place start : Address}
    (hplace : Within budget address place)
    (hcounted : machine.countedStart? address place = some start) :
    machine.classifier.returnBytes = 4 * machine.classifier.returnWidth.toNat := by
  rcases countedStart?_eq_some_iff.mp hcounted with ⟨-, hsum, hle⟩
  rcases hplace with ⟨k, -, hdistance⟩
  have hbound := address.toNat_lt
  have hle' := UInt32.le_iff_toNat_le.mp hle
  -- A width that is cut off would put the return at zero and the address at the top, and those two
  -- are not a whole number of slots apart.
  have hwidth : machine.classifier.returnBytes =
      min (4 * machine.classifier.returnWidth.toNat) 0xFFFFFFFF := rfl
  omega

/-- The end of a return that counts is a slot of the window. -/
theorem mem_window_of_countedStart? {budget : Nat} {address place start : Address}
    (hplace : place ∈ machine.window budget address)
    (hcounted : machine.countedStart? address place = some start) :
    start ∈ machine.window budget address := by
  rcases countedStart?_eq_some_iff.mp hcounted with ⟨-, hsum, hle⟩
  have hwhole := returnBytes_of_countedStart? (within_of_mem_window hplace) hcounted
  exact mem_window_of_le hplace (i := machine.classifier.returnWidth.toNat) (by omega) hle

/-- The start of a function is a slot of the window. -/
theorem locate?_mem_window {scanDistance : Nat} {address : Address} {start : FunctionStart}
    (hstart : machine.locate? scanDistance address = some start) :
    start.address ∈ machine.window scanDistance address := by
  rcases start with ⟨start, heuristic⟩
  cases heuristic with
  | afterReturn =>
    rcases locate?_eq_afterReturn_iff.mp hstart with ⟨place, hplace, hcounted, -⟩
    exact mem_window_of_countedStart? hplace hcounted
  | prologue => exact (locate?_eq_prologue_iff.mp hstart).2.1

end Machine

end Backtrace
