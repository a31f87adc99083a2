import Backtrace.Debugger.Sample
import Backtrace.Proofs.Window

/-!
# Searches compared

Two searches for the start of a function, side by side.  They look from one address down to
different depths, or look for the same function from two of its addresses, or look at the same code
in two places of the address space.  In each case they agree, or the one that reads further down
finds a return there that the other one could not see.

The comparisons are made on the windows of the two searches.  A window that begins lower down, or
may hold more slots, has the slots of the other one as far as it goes, and new ones only below them.

Main results:

- Theorem `cutShort_iff_length_window_lt`: a search is cut short when its window has fewer slots
  than the search may read.
- Theorem `locate?_farther`: a search that may read more finds the same start, or a return below
  everything that the other search has read.
- Theorem `locate?_sameFunction`: from every address of a function the same start is found, with the
  same exception.
- Theorem `locate?_moved`: code that is moved to another place has its starts moved with it.
-/

namespace Backtrace

namespace Machine

variable {machine : Machine}

/-! ## Windows of different depth -/

/-- Fewer slots than `scanDistance` can be read from `address` downwards: one of them is unmapped,
or lies below the bottom of the address space, where there is no such slot. -/
def CutShort (machine : Machine) (scanDistance : Nat) (address : Address) : Prop :=
  ∃ k < scanDistance, ∀ place : Address, place.toNat + 4 * k = address.toNat →
    machine.memory place = none

/-- A search is cut short exactly when its window has fewer slots than it may read. -/
theorem cutShort_iff_length_window_lt {scanDistance : Nat} {address : Address} :
    machine.CutShort scanDistance address ↔
      (machine.window scanDistance address).length < scanDistance := by
  induction scanDistance generalizing address with
  | zero => simp [CutShort]
  | succ scanDistance ih =>
    cases hmapped : machine.instruction? address with
    | none =>
      have hnone : machine.memory address = none := by
        simpa [instruction?] using hmapped
      rw [window_of_unmapped _ hmapped]
      refine ⟨fun _ => Nat.succ_pos scanDistance, fun _ => ⟨0, Nat.succ_pos scanDistance, ?_⟩⟩
      intro place hplace
      have hsame : place = address := UInt32.toNat_inj.mp hplace
      exact hsame ▸ hnone
    | some instruction =>
      have hsome : machine.memory address ≠ none := by
        intro hnone
        simp [instruction?, hnone] at hmapped
      cases hbelow : address.shift? (-4) with
      | none =>
        have hbottom := Address.shift?_eq_none_iff.mp hbelow
        have hbound := address.toNat_lt
        rw [window_of_bottom _ hmapped hbelow, List.length_singleton]
        constructor
        · intro hcut
          rcases hcut with ⟨k, hk, hall⟩
          rcases k with _ | k
          · exact absurd (hall address rfl) hsome
          · omega
        · intro hlt
          refine ⟨1, hlt, ?_⟩
          intro place hplace
          omega
      | some below =>
        have hstep := Address.shift?_eq_some_iff.mp hbelow
        rw [window_of_below _ hmapped hbelow, List.length_cons, Nat.add_lt_add_iff_right, ← ih]
        constructor
        · intro hcut
          rcases hcut with ⟨k, hk, hall⟩
          rcases k with _ | k
          · exact absurd (hall address rfl) hsome
          · refine ⟨k, Nat.lt_of_succ_lt_succ hk, ?_⟩
            intro place hplace
            exact hall place (by omega)
        · intro hcut
          rcases hcut with ⟨k, hk, hall⟩
          refine ⟨k + 1, Nat.succ_lt_succ hk, ?_⟩
          intro place hplace
          exact hall place (by omega)

/-- A search that may read more reads all that it would read anyway. -/
theorem mem_window_of_budget_le {near far : Nat} {address place : Address} (hbudget : near ≤ far)
    (hplace : place ∈ machine.window near address) : place ∈ machine.window far address := by
  rcases mem_window_iff.mp hplace with ⟨k, hk, hsum, hall⟩
  exact mem_window_iff.mpr ⟨k, Nat.lt_of_lt_of_le hk hbudget, hsum, hall⟩

/-- What it reads in addition lies below everything else. -/
theorem mem_window_of_mem_farther {near far : Nat} {address place slot : Address}
    (hplace : place ∈ machine.window far address) (hslot : slot ∈ machine.window near address)
    (hle : slot ≤ place) : place ∈ machine.window near address := by
  rcases within_of_mem_window hplace with ⟨k, -, hsum⟩
  rcases within_of_mem_window hslot with ⟨j, -, hsum'⟩
  rw [UInt32.le_iff_toNat_le] at hle
  exact mem_window_of_le hslot (i := j - k) (by omega) (le_of_mem_window hplace)

/-- The slot that cuts a search short lies below everything that can be read. -/
theorem lt_of_mem_window_of_cut {scanDistance k cut : Nat} {address place : Address}
    (hplace : place ∈ machine.window scanDistance address)
    (hsum : place.toNat + 4 * k = address.toNat)
    (hcut : ∀ slot : Address, slot.toNat + 4 * cut = address.toNat → machine.memory slot = none) :
    k < cut := by
  rcases mem_window_iff.mp hplace with ⟨j, -, hsum', hall⟩
  refine Nat.lt_of_not_le fun hle => ?_
  have hinside : 4 * cut ≤ address.toNat := by omega
  rcases Address.exists_below hinside with ⟨slot, hslot⟩
  have hmapped := hall cut (by omega) slot hslot
  simp [hcut slot hslot] at hmapped

/-- A search that is cut short reads no more if it may. -/
theorem mem_window_of_cutShort {near far : Nat} {address place : Address}
    (hcut : machine.CutShort near address) (hplace : place ∈ machine.window far address) :
    place ∈ machine.window near address := by
  rcases hcut with ⟨cut, hlt, hnone⟩
  rcases mem_window_iff.mp hplace with ⟨k, -, hsum, hall⟩
  have habove := lt_of_mem_window_of_cut hplace hsum hnone
  exact mem_window_iff.mpr ⟨k, Nat.lt_trans habove hlt, hsum, hall⟩

/-- A search from lower down that ends at the same depth reads the same slots from there on. -/
theorem mem_window_lower_iff {scanDistance i : Nat} {address lower place : Address}
    (hlower : lower ∈ machine.window scanDistance address)
    (hsum : lower.toNat + 4 * i = address.toNat) :
    place ∈ machine.window (scanDistance - i) lower ↔
      place ∈ machine.window scanDistance address ∧ place ≤ lower := by
  rcases mem_window_iff.mp hlower with ⟨k, hk, hsum', hall⟩
  have hsame : k = i := by omega
  subst hsame
  constructor
  · intro hplace
    refine ⟨?_, le_of_mem_window hplace⟩
    rcases mem_window_iff.mp hplace with ⟨j, hj, hplace, hall'⟩
    refine mem_window_iff.mpr ⟨k + j, by omega, by omega, ?_⟩
    intro l hl above habove
    -- Down to `lower` the slots are those above it, and from there on its own.
    by_cases hupper : l ≤ k
    · exact hall l hupper above habove
    · exact hall' (l - k) (by omega) above (by omega)
  · intro hplace
    rcases hplace with ⟨hplace, hle⟩
    rcases mem_window_iff.mp hplace with ⟨j, hj, hplace, hall'⟩
    rw [UInt32.le_iff_toNat_le] at hle
    refine mem_window_iff.mpr ⟨j - k, by omega, by omega, ?_⟩
    intro l hl above habove
    exact hall' (k + l) (by omega) above (by omega)

/-- A search that is cut short is so from every slot of its window. -/
theorem CutShort.lower {scanDistance i : Nat} {address lower : Address}
    (hcut : machine.CutShort scanDistance address)
    (hlower : lower ∈ machine.window scanDistance address)
    (hsum : lower.toNat + 4 * i = address.toNat) :
    machine.CutShort (scanDistance - i) lower := by
  rcases hcut with ⟨cut, hlt, hnone⟩
  have hbelow := lt_of_mem_window_of_cut hlower hsum hnone
  refine ⟨cut - i, by omega, ?_⟩
  intro place hplace
  exact hnone place (by omega)

/-! ## What counts from lower down -/

/-- A return that counts from an address counts from every address above. -/
theorem countedStart?_of_le {address lower place start : Address} (hle : lower ≤ address)
    (hcounted : machine.countedStart? lower place = some start) :
    machine.countedStart? address place = some start := by
  rcases countedStart?_eq_some_iff.mp hcounted with ⟨hreturn, hsum, hbelow⟩
  exact countedStart?_eq_some_iff.mpr ⟨hreturn, hsum, UInt32.le_trans hbelow hle⟩

/-- A return that does not count from an address counts from no address below. -/
theorem countedStart?_eq_none_of_le {address lower place : Address} (hle : lower ≤ address)
    (hnone : machine.countedStart? address place = none) :
    machine.countedStart? lower place = none := by
  rw [Option.eq_none_iff_forall_ne_some] at hnone ⊢
  intro start hcounted
  exact hnone start (countedStart?_of_le hle hcounted)

/-- A search that begins lower down, but not below the start, and ends at the same depth finds the
same start. -/
theorem locate?_of_lower {scanDistance i : Nat} {address lower : Address} {start : FunctionStart}
    (hlower : lower ∈ machine.window scanDistance address)
    (hsum : lower.toNat + 4 * i = address.toNat)
    (hstart : machine.locate? scanDistance address = some start) (hle : start.address ≤ lower) :
    machine.locate? (scanDistance - i) lower = some start := by
  have hbelow : lower ≤ address := le_of_mem_window hlower
  have hwindow : ∀ {place : Address}, place ∈ machine.window (scanDistance - i) lower ↔
      place ∈ machine.window scanDistance address ∧ place ≤ lower :=
    mem_window_lower_iff hlower hsum
  rcases start with ⟨start, heuristic⟩
  cases heuristic with
  | afterReturn =>
    rcases locate?_eq_afterReturn_iff.mp hstart with ⟨place, hplace, hcounted, hhigher⟩
    rcases countedStart?_eq_some_iff.mp hcounted with ⟨hreturn, hend, -⟩
    have hplaceLe : place ≤ lower := by
      rw [UInt32.le_iff_toNat_le] at hle ⊢
      dsimp only at hle
      omega
    refine locate?_eq_afterReturn_iff.mpr ⟨place, hwindow.mpr ⟨hplace, hplaceLe⟩, ?_, ?_⟩
    · exact countedStart?_eq_some_iff.mpr ⟨hreturn, hend, hle⟩
    · intro above habove hlt
      exact countedStart?_eq_none_of_le hbelow (hhigher above (hwindow.mp habove).1 hlt)
  | prologue =>
    rcases locate?_eq_prologue_iff.mp hstart with ⟨hnone, hplace, hallocates, hhigher⟩
    refine locate?_eq_prologue_iff.mpr ⟨?_, hwindow.mpr ⟨hplace, hle⟩, hallocates, ?_⟩
    · intro place hplace
      exact countedStart?_eq_none_of_le hbelow (hnone place (hwindow.mp hplace).1)
    · intro above habove hlt
      exact hhigher above (hwindow.mp habove).1 hlt

/-! ## A longer search -/

/-- `start` is the end of a return that stands below everything that a search from `address` reads
when no return ends it. -/
def BehindDeeperReturn (machine : Machine) (scanDistance : Nat) (address start : Address) : Prop :=
  ∃ place, machine.instruction? place = some .ret ∧
    start.toNat = place.toNat + 4 * machine.classifier.returnWidth.toNat ∧
    ∀ slot ∈ machine.window scanDistance address, place < slot

/-- A return below all that a search has read from lower down is below what was read from above. -/
theorem BehindDeeperReturn.of_lower {scanDistance i : Nat} {address lower start : Address}
    (hdeeper : machine.BehindDeeperReturn (scanDistance - i) lower start)
    (hlower : lower ∈ machine.window scanDistance address)
    (hsum : lower.toNat + 4 * i = address.toNat) :
    machine.BehindDeeperReturn scanDistance address start := by
  rcases hdeeper with ⟨place, hreturn, hend, hbelow⟩
  have hwindow : ∀ {slot : Address}, slot ∈ machine.window (scanDistance - i) lower ↔
      slot ∈ machine.window scanDistance address ∧ slot ≤ lower :=
    mem_window_lower_iff hlower hsum
  refine ⟨place, hreturn, hend, ?_⟩
  intro slot hslot
  by_cases hle : slot ≤ lower
  · exact hbelow slot (hwindow.mpr ⟨hslot, hle⟩)
  · have hlt := hbelow lower (hwindow.mpr ⟨hlower, UInt32.le_refl lower⟩)
    exact UInt32.lt_trans hlt (UInt32.not_le.mp hle)

/-- A start behind a return stays the same however much further down the search may read. -/
theorem locate?_of_afterReturn {near far : Nat} {address start : Address} (hbudget : near ≤ far)
    (hstart : machine.locate? near address = some ⟨start, .afterReturn⟩) :
    machine.locate? far address = some ⟨start, .afterReturn⟩ := by
  rcases locate?_eq_afterReturn_iff.mp hstart with ⟨place, hplace, hcounted, hhigher⟩
  refine locate?_eq_afterReturn_iff.mpr
    ⟨place, mem_window_of_budget_le hbudget hplace, hcounted, ?_⟩
  intro above habove hlt
  exact hhigher above (mem_window_of_mem_farther habove hplace (UInt32.le_of_lt hlt)) hlt

/-- A start at an allocation stays the same too, unless there is a return further down. -/
theorem locate?_of_prologue {near far : Nat} {address start : Address} (hbudget : near ≤ far)
    (hstart : machine.locate? near address = some ⟨start, .prologue⟩) :
    machine.locate? far address = some ⟨start, .prologue⟩ ∨
      ∃ other, machine.locate? far address = some ⟨other, .afterReturn⟩ ∧
        machine.BehindDeeperReturn near address other := by
  rcases locate?_eq_prologue_iff.mp hstart with ⟨hnone, hplace, hallocates, hhigher⟩
  have hplace' := mem_window_of_budget_le hbudget hplace
  cases hfar : machine.locate? far address with
  | none =>
    have hneither := locate?_eq_none_iff.mp hfar start hplace'
    simp [hallocates] at hneither
  | some found =>
    rcases found with ⟨other, heuristic⟩
    cases heuristic with
    | afterReturn =>
      rcases locate?_eq_afterReturn_iff.mp hfar with ⟨place, hread, hcounted, -⟩
      have hwhole := returnBytes_of_countedStart? (within_of_mem_window hread) hcounted
      rcases countedStart?_eq_some_iff.mp hcounted with ⟨hreturn, hend, -⟩
      refine Or.inr ⟨other, rfl, place, hreturn, hwhole ▸ hend, ?_⟩
      intro slot hslot
      -- A return that the shorter search has read as well would have counted there.
      refine UInt32.not_le.mp fun hle => ?_
      simp [hnone place (mem_window_of_mem_farther hread hslot hle)] at hcounted
    | prologue =>
      rcases locate?_eq_prologue_iff.mp hfar with ⟨hnone', -⟩
      rw [← hfar]
      refine Or.inl (locate?_eq_prologue_iff.mpr ⟨hnone', hplace', hallocates, ?_⟩)
      intro above habove hlt
      exact hhigher above (mem_window_of_mem_farther habove hplace (UInt32.le_of_lt hlt)) hlt

/-- A search that is cut short finds the same however much further down it may read. -/
theorem locate?_of_cutShort {near far : Nat} {address : Address} (hbudget : near ≤ far)
    (hcut : machine.CutShort near address) :
    machine.locate? far address = machine.locate? near address := by
  have hwindow : ∀ place,
      place ∈ machine.window far address ↔ place ∈ machine.window near address := by
    intro place
    exact ⟨mem_window_of_cutShort hcut, mem_window_of_budget_le hbudget⟩
  cases hnear : machine.locate? near address with
  | none =>
    rw [locate?_eq_none_iff] at hnear ⊢
    simpa only [hwindow] using hnear
  | some start =>
    rcases start with ⟨start, heuristic⟩
    cases heuristic with
    | afterReturn => exact locate?_of_afterReturn hbudget hnear
    | prologue =>
      rw [locate?_eq_prologue_iff] at hnear ⊢
      simpa only [hwindow] using hnear

/-- A search that may read more only refines the guess.  A start behind a return stays the same.  A
start at an allocation does too, unless there is a return below everything that was read.  And where
the shorter search is cut short, there is nothing more to read and the answer is the same. -/
theorem locate?_farther (machine : Machine) (address : Address) {near far : Nat}
    (hbudget : near ≤ far) :
    (∀ start, machine.locate? near address = some ⟨start, .afterReturn⟩ →
      machine.locate? far address = some ⟨start, .afterReturn⟩) ∧
    (∀ start, machine.locate? near address = some ⟨start, .prologue⟩ →
      machine.locate? far address = some ⟨start, .prologue⟩ ∨
        ∃ other, machine.locate? far address = some ⟨other, .afterReturn⟩ ∧
          machine.BehindDeeperReturn near address other) ∧
    (machine.CutShort near address →
      machine.locate? far address = machine.locate? near address) := by
  refine ⟨?_, ?_, ?_⟩
  · intro start hstart
    exact locate?_of_afterReturn hbudget hstart
  · intro start hstart
    exact locate?_of_prologue hbudget hstart
  · intro hcut
    exact locate?_of_cutShort hbudget hcut

/-- In front of `main` of the sample image stands a return.  A search that reads two slots does not
get to it and takes the allocation for the start; a search that gets to it takes the slot behind it;
and since nothing is mapped in front of that return, there is nothing else to be found. -/
theorem locate?_farther_running :
    let machine : Machine := ⟨Debugger.Sample.running.read, Mips.classifier⟩
    (2 ≤ 512 ∧ machine.locate? 2 0x00100004 = some ⟨0x00100000, .prologue⟩ ∧
      ∃ other, machine.locate? 512 0x00100004 = some ⟨other, .afterReturn⟩ ∧
        machine.BehindDeeperReturn 2 0x00100004 other) ∧
      512 ≤ 0xFFFFFFFF ∧ machine.locate? 512 0x00100004 = some ⟨0x00100000, .afterReturn⟩ ∧
        machine.locate? 0xFFFFFFFF 0x00100004 = some ⟨0x00100000, .afterReturn⟩ ∧
        machine.CutShort 512 0x00100004 ∧
        machine.locate? 0xFFFFFFFF 0x00100004 = machine.locate? 512 0x00100004 := by
  intro machine
  have htwo : machine.locate? 2 0x00100004 = some ⟨0x00100000, .prologue⟩ := by decide +kernel
  have hmany : machine.locate? 512 0x00100004 = some ⟨0x00100000, .afterReturn⟩ := by
    decide +kernel
  have hcut : machine.CutShort 512 0x00100004 :=
    cutShort_iff_length_window_lt.mpr (by decide +kernel)
  rcases machine.locate?_farther 0x00100004 (show 2 ≤ 512 by decide) with ⟨-, hprologue, -⟩
  rcases machine.locate?_farther 0x00100004 (show 512 ≤ 0xFFFFFFFF by decide) with
    ⟨hreturn, -, hshort⟩
  have hdeeper := (hprologue _ htwo).resolve_left (by simp [hmany])
  exact ⟨⟨by decide, htwo, hdeeper⟩, by decide, hmany, hreturn _ hmany, hcut, hshort hcut⟩

/-! ## One function -/

/-- From an address of a function that was located, a search that ends at the same depth finds the
same start.  The address is in the window, because all slots down to the start are. -/
theorem exists_locate?_of_start_le {scanDistance : Nat} {address lower : Address}
    {start : FunctionStart} (hstart : machine.locate? scanDistance address = some start)
    (hstartLe : start.address ≤ lower) (hle : lower ≤ address)
    (haligned : lower.toNat % 4 = address.toNat % 4) :
    ∃ i, lower ∈ machine.window scanDistance address ∧ lower.toNat + 4 * i = address.toNat ∧
      machine.locate? (scanDistance - i) lower = some start := by
  have hwindow := locate?_mem_window hstart
  rcases within_of_mem_window hwindow with ⟨k, -, hsum⟩
  have hstartLe' := UInt32.le_iff_toNat_le.mp hstartLe
  have hlower : lower ∈ machine.window scanDistance address :=
    mem_window_of_le hwindow (i := (lower.toNat - start.address.toNat) / 4) (by omega) hle
  rcases within_of_mem_window hlower with ⟨i, -, hsum'⟩
  exact ⟨i, hlower, hsum', locate?_of_lower hlower hsum' hstart hstartLe⟩

/-- All addresses of one function have the same start.  A start behind a return is found from every
address down to it.  A start at an allocation is too, unless a search that begins further down comes
to a return below everything that the first one has read; and that is not so where the first search
is cut short. -/
theorem locate?_sameFunction (machine : Machine) (scanDistance : Nat) {address lower : Address}
    (hle : lower ≤ address) (haligned : lower.toNat % 4 = address.toNat % 4) :
    (∀ start, machine.locate? scanDistance address = some ⟨start, .afterReturn⟩ → start ≤ lower →
      machine.locate? scanDistance lower = some ⟨start, .afterReturn⟩) ∧
    ∀ start, machine.locate? scanDistance address = some ⟨start, .prologue⟩ → start ≤ lower →
      (machine.locate? scanDistance lower = some ⟨start, .prologue⟩ ∨
        ∃ other, machine.locate? scanDistance lower = some ⟨other, .afterReturn⟩ ∧
          machine.BehindDeeperReturn scanDistance address other) ∧
      (machine.CutShort scanDistance address →
        machine.locate? scanDistance lower = some ⟨start, .prologue⟩) := by
  -- Compare with a search from `lower` that ends where the one from `address` does, and let that
  -- one go on from there.
  have hbudget : ∀ i, scanDistance - i ≤ scanDistance := Nat.sub_le scanDistance
  constructor
  · intro start hstart hstartLe
    rcases exists_locate?_of_start_le hstart hstartLe hle haligned with ⟨i, -, -, hsameDepth⟩
    exact locate?_of_afterReturn (hbudget i) hsameDepth
  · intro start hstart hstartLe
    rcases exists_locate?_of_start_le hstart hstartLe hle haligned with
      ⟨i, hlower, hsum, hsameDepth⟩
    refine ⟨?_, fun hcut => ?_⟩
    · rcases locate?_of_prologue (hbudget i) hsameDepth with hsame | ⟨other, hother, hdeeper⟩
      · exact Or.inl hsame
      · exact Or.inr ⟨other, hother, hdeeper.of_lower hlower hsum⟩
    · rw [locate?_of_cutShort (hbudget i) (hcut.lower hlower hsum), hsameDepth]

/-- A search of three slots from the third slot of `main` stops at the allocation there; one from
the allocation itself comes to the return in front of it.  If nothing is mapped in front of `main`,
the allocation is found from everywhere.  In `helper`, whose start is behind a return, there is no
doubt. -/
theorem locate?_sameFunction_running :
    let machine : Machine := ⟨Debugger.Sample.running.read, Mips.classifier⟩
    let alone : Machine := ⟨(MappedMemory.empty.map Debugger.Sample.mainEntry
      ((Debugger.Sample.program.drop 2).map Mips.Assembly.encode)).read, Mips.classifier⟩
    (machine.locate? 512 0x00100030 = some ⟨0x00100024, .afterReturn⟩ ∧
        machine.locate? 512 0x00100028 = some ⟨0x00100024, .afterReturn⟩) ∧
      (machine.locate? 3 0x00100008 = some ⟨0x00100000, .prologue⟩ ∧
        ∃ other, machine.locate? 3 0x00100000 = some ⟨other, .afterReturn⟩ ∧
          machine.BehindDeeperReturn 3 0x00100008 other) ∧
      alone.locate? 512 0x00100008 = some ⟨0x00100000, .prologue⟩ ∧
        alone.CutShort 512 0x00100008 ∧
        alone.locate? 512 0x00100000 = some ⟨0x00100000, .prologue⟩ := by
  intro machine alone
  have hhelper : machine.locate? 512 0x00100030 = some ⟨0x00100024, .afterReturn⟩ := by
    decide +kernel
  have hmain : machine.locate? 3 0x00100008 = some ⟨0x00100000, .prologue⟩ := by decide +kernel
  have halone : alone.locate? 512 0x00100008 = some ⟨0x00100000, .prologue⟩ := by decide +kernel
  have hcut : alone.CutShort 512 0x00100008 :=
    cutShort_iff_length_window_lt.mpr (by decide +kernel)
  have hreturn : machine.locate? 3 0x00100000 ≠ some ⟨0x00100000, .prologue⟩ := by decide +kernel
  have hinHelper : (0x00100028 : Address) ≤ 0x00100030 := by decide
  have hinMain : (0x00100000 : Address) ≤ 0x00100008 := by decide
  rcases machine.locate?_sameFunction 512 hinHelper (by decide) with ⟨hafter, -⟩
  rcases machine.locate?_sameFunction 3 hinMain (by decide) with ⟨-, hprologue⟩
  rcases alone.locate?_sameFunction 512 hinMain (by decide) with ⟨-, hshort⟩
  have hdeeper := (hprologue _ hmain (by decide)).1.resolve_left hreturn
  exact ⟨⟨hhelper, hafter _ hhelper (by decide)⟩, ⟨hmain, hdeeper⟩, halone, hcut,
    (hshort _ halone (by decide)).2 hcut⟩

/-! ## Moved code -/

end Machine

/-- A start, as it is found in memory that is moved up by `offset`. -/
def FunctionStart.moved (start : FunctionStart) (offset : Address) : FunctionStart :=
  { start with address := start.address + offset }

namespace Machine

/-- The machine with its memory moved up by `offset`, and nothing mapped below. -/
def moved (machine : Machine) (offset : Address) : Machine where
  memory := fun place => if offset ≤ place then machine.memory (place - offset) else none
  classifier := machine.classifier

section Moved

variable {address place offset : Address}

/-- An instruction is moved with its memory. -/
theorem instruction?_moved (machine : Machine)
    (hroom : place.toNat + offset.toNat < 0x100000000) :
    (machine.moved offset).instruction? (place + offset) = machine.instruction? place := by
  have hsum := Address.toNat_add hroom
  have hle : offset ≤ place + offset := by
    rw [UInt32.le_iff_toNat_le]
    omega
  simp only [instruction?, moved, if_pos hle, UInt32.add_sub_cancel]

/-- There are no instructions below moved memory. -/
theorem instruction?_moved_of_lt (machine : Machine) (hlt : place < offset) :
    (machine.moved offset).instruction? place = none := by
  have hnot : ¬ offset ≤ place := UInt32.not_le.mpr hlt
  simp only [instruction?, moved, if_neg hnot, Option.map_none]

/-- The same returns count in moved memory, and their ends are moved.  That a sum might leave the
address space there and not here does not matter, because it would lie above the address. -/
theorem startAfterReturn?_moved (machine : Machine) (instruction : Instruction)
    (hle : place ≤ address) (hroom : address.toNat + offset.toNat < 0x100000000) :
    (machine.moved offset).startAfterReturn? (address + offset) (place + offset) instruction =
      (machine.startAfterReturn? address place instruction).map (· + offset) := by
  rw [UInt32.le_iff_toNat_le] at hle
  have haddress := Address.toNat_add hroom
  have hplace : (place + offset).toNat = place.toNat + offset.toNat :=
    Address.toNat_add (by omega)
  have hwidth : (machine.moved offset).classifier.returnBytes = machine.classifier.returnBytes :=
    rfl
  ext target
  rw [startAfterReturn?_eq_some_iff, Option.map_eq_some_iff, hwidth]
  constructor
  · intro hcounts
    rcases hcounts with ⟨hreturn, hsum, hbelow⟩
    rw [UInt32.le_iff_toNat_le] at hbelow
    have hback : (target - offset).toNat = target.toNat - offset.toNat := by
      rw [UInt32.toNat_sub_of_le]
      rw [UInt32.le_iff_toNat_le]
      omega
    refine ⟨target - offset, startAfterReturn?_eq_some_iff.mpr ⟨hreturn, by omega, ?_⟩,
      UInt32.sub_add_cancel _ _⟩
    rw [UInt32.le_iff_toNat_le]
    omega
  · intro hcounts
    rcases hcounts with ⟨start, hcounts, rfl⟩
    rcases startAfterReturn?_eq_some_iff.mp hcounts with ⟨hreturn, hsum, hbelow⟩
    rw [UInt32.le_iff_toNat_le] at hbelow
    have hstart : (start + offset).toNat = start.toNat + offset.toNat :=
      Address.toNat_add (by omega)
    refine ⟨hreturn, by omega, ?_⟩
    rw [UInt32.le_iff_toNat_le]
    omega

/-- The nearest allocation is moved with its memory. -/
theorem nearestAllocation_moved (nearest : Option Address) (instruction : Instruction) :
    nearestAllocation (nearest.map (· + offset)) (place + offset) instruction =
      (nearestAllocation nearest place instruction).map (· + offset) := by
  unfold nearestAllocation
  cases nearest with
  | some nearest => rfl
  | none => cases instruction.allocates <;> rfl

/-- A search in moved memory finds what is found in place, moved.  Where the bottom of the address
space ends the search in place, it comes to the bottom as well or to what is not mapped there. -/
theorem search_moved (machine : Machine) (hroom : address.toNat + offset.toNat < 0x100000000)
    (budget : Nat) (hle : place ≤ address) (nearest : Option Address) :
    (machine.moved offset).search (address + offset) budget (place + offset)
        (nearest.map (· + offset)) =
      (machine.search address budget place nearest).map (·.moved offset) := by
  have hfall : ∀ nearest : Option Address,
      (nearest.map (· + offset)).map (fun place => FunctionStart.mk place .prologue) =
        (nearest.map (fun place => FunctionStart.mk place .prologue)).map (·.moved offset) := by
    intro nearest
    cases nearest <;> rfl
  induction budget generalizing place nearest with
  | zero => exact hfall nearest
  | succ budget ih =>
    have hle' := UInt32.le_iff_toNat_le.mp hle
    have hplace : (place + offset).toNat = place.toNat + offset.toNat :=
      Address.toNat_add (by omega)
    have hinstruction : (machine.moved offset).instruction? (place + offset) =
        machine.instruction? place := machine.instruction?_moved (by omega)
    cases hmapped : machine.instruction? place with
    | none =>
      rw [search_of_unmapped _ _ hmapped, search_of_unmapped _ _ (hinstruction.trans hmapped)]
      exact hfall nearest
    | some instruction =>
      have hmapped' := hinstruction.trans hmapped
      have hreturn' := machine.startAfterReturn?_moved instruction hle hroom
      cases hreturn : machine.startAfterReturn? address place instruction with
      | some start =>
        rw [hreturn] at hreturn'
        rw [search_of_return _ _ hmapped hreturn, search_of_return _ _ hmapped' hreturn']
        rfl
      | none =>
        rw [hreturn] at hreturn'
        cases hbelow : place.shift? (-4) with
        | none =>
          have hbottom := Address.shift?_eq_none_iff.mp hbelow
          rw [search_of_bottom _ _ hmapped hreturn hbelow, ← hfall, ← nearestAllocation_moved]
          cases hbelow' : (place + offset).shift? (-4) with
          | none => rw [search_of_bottom _ _ hmapped' hreturn' hbelow']
          | some below =>
            have hstep := Address.shift?_eq_some_iff.mp hbelow'
            have hlt : below < offset := by
              rw [UInt32.lt_iff_toNat_lt]
              omega
            rw [search_of_below _ _ hmapped' hreturn' hbelow',
              search_of_unmapped _ _ (machine.instruction?_moved_of_lt hlt)]
        | some below =>
          have hstep := Address.shift?_eq_some_iff.mp hbelow
          have hbelow' : (place + offset).shift? (-4) = some (below + offset) := by
            have hsum : (below + offset).toNat = below.toNat + offset.toNat :=
              Address.toNat_add (by omega)
            exact Address.shift?_eq_some_iff.mpr (by omega)
          have hbelowLe : below ≤ address := by
            rw [UInt32.le_iff_toNat_le]
            omega
          rw [search_of_below _ _ hmapped hreturn hbelow,
            search_of_below _ _ hmapped' hreturn' hbelow', nearestAllocation_moved]
          exact ih hbelowLe _

/-- Where a function starts does not depend on where in the address space its code lies, and the
bottom of the address space is like memory that is not mapped.  In memory that is moved, by any
number of bytes, the start is found where it would be in place, moved as well, by the same guess;
and none is found where there is none in place. -/
theorem locate?_moved (machine : Machine) (scanDistance : Nat) {address offset : Address}
    (hroom : address.toNat + offset.toNat ≤ 0xFFFFFFFF) :
    ((machine.moved offset).locate? scanDistance (address + offset) = none ↔
      machine.locate? scanDistance address = none) ∧
    ∀ start heuristic, machine.locate? scanDistance address = some ⟨start, heuristic⟩ →
      ∃ target : Address, target.toNat = start.toNat + offset.toNat ∧
        (machine.moved offset).locate? scanDistance (address + offset) =
          some ⟨target, heuristic⟩ := by
  have hmoved : (machine.moved offset).locate? scanDistance (address + offset) =
      (machine.locate? scanDistance address).map (·.moved offset) :=
    machine.search_moved (by omega) scanDistance (UInt32.le_refl address) none
  rw [hmoved]
  refine ⟨Option.map_eq_none_iff, ?_⟩
  intro start heuristic hstart
  have hle := UInt32.le_iff_toNat_le.mp (le_of_mem_window (locate?_mem_window hstart))
  refine ⟨start + offset, Address.toNat_add (by dsimp only at hle; omega), ?_⟩
  rw [hstart]
  rfl

/-- The two functions of the sample image at the bottom of the address space, and moved from there.
The start of `main` is found at the bottom, and when it is moved by an odd number of bytes there is
nothing mapped below it; the start of `helper` is found as far up as the address space goes; and
behind the last instruction there is none to be found. -/
theorem locate?_moved_running :
    let machine : Machine := ⟨(MappedMemory.empty.map 0
      ((Debugger.Sample.program.drop 2).map Mips.Assembly.encode)).read, Mips.classifier⟩
    (machine.locate? 512 0x10 = some ⟨0, .prologue⟩ ∧
        ∃ target : Address, target.toNat = 0x00400003 ∧
          (machine.moved 0x00400003).locate? 512 (0x10 + 0x00400003) = some ⟨target, .prologue⟩) ∧
      (machine.locate? 512 0x30 = some ⟨0x24, .afterReturn⟩ ∧
        ∃ target : Address, target.toNat = 0xFFFFFFF3 ∧
          (machine.moved 0xFFFFFFCF).locate? 512 (0x30 + 0xFFFFFFCF) =
            some ⟨target, .afterReturn⟩) ∧
      machine.locate? 512 0x40 = none ∧
        (machine.moved 0x00400003).locate? 512 (0x40 + 0x00400003) = none := by
  intro machine
  have hmain : machine.locate? 512 0x10 = some ⟨0, .prologue⟩ := by decide +kernel
  have hhelper : machine.locate? 512 0x30 = some ⟨0x24, .afterReturn⟩ := by decide +kernel
  have hbehind : machine.locate? 512 0x40 = none := by decide +kernel
  have hodd : (0x10 : Address).toNat + (0x00400003 : Address).toNat ≤ 0xFFFFFFFF := by decide
  have htop : (0x30 : Address).toNat + (0xFFFFFFCF : Address).toNat ≤ 0xFFFFFFFF := by decide
  have hodd' : (0x40 : Address).toNat + (0x00400003 : Address).toNat ≤ 0xFFFFFFFF := by decide
  rcases machine.locate?_moved 512 hodd with ⟨-, hmain'⟩
  rcases machine.locate?_moved 512 htop with ⟨-, hhelper'⟩
  rcases machine.locate?_moved 512 hodd' with ⟨hbehind', -⟩
  exact ⟨⟨hmain, hmain' _ _ hmain⟩, ⟨hhelper, hhelper' _ _ hhelper⟩, hbehind,
    hbehind'.mpr hbehind⟩

end Moved

end Machine

end Backtrace
