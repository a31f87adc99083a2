import Backtrace.Proofs.Trail
import Mathlib.Data.List.Perm.Subperm

/-!
# How long a call stack can get

A walk is bounded twice over.  One bound is the number of frames that it may produce.  The other
one needs no limit at all: each frame is found from a program counter of its own, and all of these
are mapped, so a finite image has only so many frames in it.

Main results:

- Theorem `MappedMemory.length_le_wordCount`: there are no more mapped addresses than words, however
  regions overlap, and wherever they start and end.
- Theorem `Machine.unwind_bounded`: both bounds, and what the second one rests on.
-/

namespace Backtrace

/-! ## Counting mapped addresses -/

namespace Region

/-- The addresses of a region's words.  Words past the top of the address space have none, and the
ones that stand for them here are not needed. -/
def addresses (region : Region) : List Address :=
  (List.range region.words.size).map fun i => UInt32.ofNat (region.base.toNat + 4 * i)

theorem mem_addresses_of_read? {region : Region} {address : Address}
    (hmapped : (region.read? address).isSome = true) : address ∈ region.addresses := by
  rcases Option.isSome_iff_exists.mp hmapped with ⟨word, hread⟩
  rcases read?_eq_some_iff.mp hread with ⟨i, hi, hsum, -⟩
  apply List.mem_map.mpr
  refine ⟨i, List.mem_range.mpr hi, ?_⟩
  rw [← hsum, UInt32.ofNat_toNat]

end Region

namespace MappedMemory

/-- The number of words in all regions together, hidden ones and ones without an address too. -/
def wordCount (memory : MappedMemory) : Nat :=
  (memory.regions.flatMap fun region => region.words.toList).length

/-- Distinct mapped addresses are no more than the words of all regions. -/
theorem length_le_wordCount {memory : MappedMemory} {places : List Address}
    (hnodup : places.Nodup) (hmapped : ∀ place ∈ places, (memory.read place).isSome = true) :
    places.length ≤ memory.wordCount := by
  have hsubset : places ⊆ memory.regions.flatMap Region.addresses := by
    intro place hplace
    rcases Option.isSome_iff_exists.mp (hmapped place hplace) with ⟨word, hread⟩
    rcases List.exists_of_findSome?_eq_some hread with ⟨region, hregion, hword⟩
    apply List.mem_flatMap.mpr
    refine ⟨region, hregion, Region.mem_addresses_of_read? ?_⟩
    rw [hword]
    rfl
  calc
    places.length ≤ (memory.regions.flatMap Region.addresses).length :=
      (hnodup.subperm hsubset).length_le
    _ = memory.wordCount := by
      simp [wordCount, Region.addresses, List.length_flatMap]

end MappedMemory

namespace Machine

variable {machine : Machine}

/-- Every frame is found from a mapped program counter, and no two from the same one. -/
theorem Unwinds.origins_spec {limits : Limits} {registers : Registers} {stack : CallStack}
    (hunwinds : machine.Unwinds limits registers stack) :
    (∀ place ∈ origins registers.programCounter stack.frames,
        (machine.memory place).isSome = true) ∧
      (origins registers.programCounter stack.frames).Nodup := by
  cases hunwinds with
  | leaf hexecuted hnever => simpa [origins] using hexecuted.mapped
  | @chain frames last outerCounter outerPointer left reason htrail hlength hnodup hends hcaller =>
    have hinner : ∀ place ∈ origins registers.programCounter frames,
        (machine.memory place).isSome = true := by
      intro place hplace
      exact htrail.isSome_of_mem_origins hplace
    rcases hends.last_cases with rfl | ⟨frame, code, rfl, hframe⟩
    · rw [path_eq_concat] at hnodup
      rw [List.append_nil]
      exact ⟨hinner, (List.nodup_append.mp hnodup).1⟩
    · rw [origins_concat]
      refine ⟨?_, hnodup⟩
      rw [path_eq_concat, ← htrail.outerCounter_eq]
      intro place hplace
      rcases List.mem_append.mp hplace with hplace | hplace
      · exact hinner place hplace
      · rw [List.mem_singleton.mp hplace]
        exact hframe.executed.mapped

/-- A call stack has no more frames than may be produced. -/
theorem Unwinds.length_le {limits : Limits} {registers : Registers} {stack : CallStack}
    (hunwinds : machine.Unwinds limits registers stack) :
    stack.frames.length ≤ limits.frameDepth := by
  cases hunwinds with
  | leaf hexecuted hnever => exact limits.frameDepth_pos
  | chain htrail hlength hnodup hends hcaller =>
    have hlast := hends.length_le
    rw [List.length_append]
    omega

/-- A call stack in a mapped memory has no more frames than may be produced, and no more than the
memory has words, because its frames are found from mapped program counters that are all
different. -/
theorem unwind_bounded (memory : MappedMemory) (classifier : Classifier) (limits : Limits)
    (registers : Registers) :
    let frames := (Machine.unwind ⟨memory.read, classifier⟩ limits registers).frames
    frames.length ≤ limits.frameDepth ∧ frames.length ≤ memory.wordCount ∧
      (∀ place ∈ origins registers.programCounter frames, (memory.read place).isSome = true) ∧
      (origins registers.programCounter frames).Nodup ∧
      (frames.dropLast.map Frame.returnAddress).Nodup ∧
      registers.programCounter ∉ frames.dropLast.map Frame.returnAddress := by
  intro frames
  have hunwinds := Machine.unwinds_unwind ⟨memory.read, classifier⟩ limits registers
  rcases hunwinds.origins_spec with ⟨hmapped, hnodup⟩
  have hcount : frames.length ≤ memory.wordCount := by
    rw [← length_origins registers.programCounter frames]
    exact MappedMemory.length_le_wordCount hnodup hmapped
  refine ⟨hunwinds.length_le, hcount, hmapped, hnodup, ?_⟩
  by_cases hframes : frames = []
  · simp [hframes]
  · have hinner := hnodup
    rw [origins_of_ne_nil hframes, List.nodup_cons] at hinner
    exact ⟨hinner.2, hinner.1⟩

end Machine

end Backtrace
