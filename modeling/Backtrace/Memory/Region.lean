import Backtrace.Address

/-!
# Regions of memory

A region is a run of words laid out from a base address, four bytes each.  An address belongs to a
region when it is the first byte of one of its words.  The base itself may be any address, and a
region never continues at the bottom of the address space: words that would lie past the top have no
address.

Main results:

- Theorem `Region.index?_eq_some_iff`: an address holds word `i` exactly when it is the base
  plus `4 * i`.
- Theorem `Region.read?_write?`: writing changes the reading of one address alone.
-/

namespace Backtrace

/-- A run of words from a base address upwards, lowest address first. -/
structure Region where
  base : Address
  words : Array Word
deriving DecidableEq, Repr

namespace Region

/-! ## Addressing -/

/-- Which word of the region stands at `address`. -/
def index? (region : Region) (address : Address) : Option (Fin region.words.size) :=
  if hinside : region.base ≤ address ∧ (address.toNat - region.base.toNat) % 4 = 0 ∧
      (address.toNat - region.base.toNat) / 4 < region.words.size then
    some ⟨(address.toNat - region.base.toNat) / 4, hinside.2.2⟩
  else none

/-- An address holds word `i` exactly when it is the base plus `4 * i`, without wrapping. -/
theorem index?_eq_some_iff {region : Region} {address : Address}
    {i : Fin region.words.size} :
    region.index? address = some i ↔ address.toNat = region.base.toNat + 4 * i := by
  have hlt := i.isLt
  unfold index?
  split
  next hinside =>
    have habove := UInt32.le_iff_toNat_le.mp hinside.1
    rw [Option.some.injEq, Fin.ext_iff]
    dsimp only
    omega
  next houtside =>
    rw [UInt32.le_iff_toNat_le] at houtside
    simp only [reduceCtorEq, false_iff]
    intro hsum
    exact houtside ⟨by omega, by omega, by omega⟩

/-- An address that holds a word of the region holds only that one. -/
theorem index?_eq_none_iff {region : Region} {address : Address} :
    region.index? address = none ↔
      ∀ i < region.words.size, address.toNat ≠ region.base.toNat + 4 * i := by
  constructor
  · intro hnone i hlt hsum
    have : region.index? address = some ⟨i, hlt⟩ := index?_eq_some_iff.mpr hsum
    simp [this] at hnone
  · intro hapart
    cases hindex : region.index? address with
    | none => rfl
    | some i => exact absurd (index?_eq_some_iff.mp hindex) (hapart i i.isLt)

/-! ## Reading and writing -/

/-- The word at `address`, if the region has one there. -/
def read? (region : Region) (address : Address) : Option Word :=
  (region.index? address).map fun i => region.words[i]

/-- The region with `value` as the word at `address`, if it has one there. -/
def write? (region : Region) (address : Address) (value : Word) : Option Region :=
  (region.index? address).map fun i : Fin region.words.size =>
    { region with words := region.words.set i value i.isLt }

/-- An address reads as a word of the region or not at all. -/
theorem read?_eq_some_iff {region : Region} {address : Address} {word : Word} :
    region.read? address = some word ↔
      ∃ i, ∃ hlt : i < region.words.size,
        address.toNat = region.base.toNat + 4 * i ∧ region.words[i] = word := by
  unfold read?
  rw [Option.map_eq_some_iff]
  constructor
  · rintro ⟨i, hindex, rfl⟩
    exact ⟨i, i.isLt, index?_eq_some_iff.mp hindex, rfl⟩
  · rintro ⟨i, hlt, hsum, rfl⟩
    exact ⟨⟨i, hlt⟩, index?_eq_some_iff.mpr hsum, rfl⟩

/-- A write succeeds exactly where a read does. -/
theorem isSome_write? (region : Region) (address : Address) (value : Word) :
    (region.write? address value).isSome = (region.read? address).isSome := by
  simp [write?, read?]

/-- A write keeps the base. -/
theorem base_write? {region written : Region} {address : Address} {value : Word}
    (hwrite : region.write? address value = some written) : written.base = region.base := by
  obtain ⟨i, -, rfl⟩ := Option.map_eq_some_iff.mp hwrite
  rfl

/-- A write keeps the number of words. -/
theorem size_write? {region written : Region} {address : Address} {value : Word}
    (hwrite : region.write? address value = some written) :
    written.words.size = region.words.size := by
  obtain ⟨i, -, rfl⟩ := Option.map_eq_some_iff.mp hwrite
  simp

/-- After a write the address reads as the new value, and every other address as before. -/
theorem read?_write? {region written : Region} {address : Address} {value : Word}
    (hwrite : region.write? address value = some written) (other : Address) :
    written.read? other = if other = address then some value else region.read? other := by
  obtain ⟨i, hindex, rfl⟩ := Option.map_eq_some_iff.mp hwrite
  have hplace := index?_eq_some_iff.mp hindex
  apply Option.ext
  intro word
  rw [read?_eq_some_iff]
  split
  next heq =>
    subst heq
    constructor
    · rintro ⟨j, hlt, hsum, rfl⟩
      have : j = i := by dsimp only at hsum; omega
      subst this
      simp
    · intro hvalue
      rw [Option.some.injEq] at hvalue
      exact ⟨i, by simp, hplace, by simp [hvalue]⟩
  next hapart =>
    have hdistinct : ∀ j : Nat, other.toNat = region.base.toNat + 4 * j → (i : Nat) ≠ j := by
      intro j hsum heq
      exact hapart (UInt32.toNat_inj.mp (by omega))
    rw [read?_eq_some_iff]
    constructor
    · rintro ⟨j, hlt, hsum, rfl⟩
      have hinside : j < region.words.size := by simpa using hlt
      exact ⟨j, hinside, hsum, (Array.getElem_set_ne i.isLt hinside (hdistinct j hsum)).symm⟩
    · rintro ⟨j, hlt, hsum, rfl⟩
      exact ⟨j, by simpa using hlt, hsum, Array.getElem_set_ne i.isLt hlt (hdistinct j hsum)⟩

end Region

end Backtrace
