import Backtrace.Proofs.PartialMap

/-!
# Where memory is mapped

Whether anything is mapped at an address depends on where the regions start and how many words they
have, and on nothing else.  Writes have no part in it, and neither has the order of mappings.  The
words of a region lie four bytes apart from its base, and the base may be any address.  So an
address that is no multiple of four is unmapped as long as every base is a multiple of four.  It is
not as soon as there is a word at any other base.

Main results:

- Theorem `isSome_read_iff`: an address is mapped when the extent of some region covers it.
- Theorem `extents_run`: the extents of a memory are those of all mappings in its history.
- Theorem `unaligned_unmapped_iff`: unaligned addresses are unmapped, and cannot be written, in
  exactly the memories whose mappings are all aligned.
- Theorem `unaligned_mapped`: a mapping that is not aligned maps unaligned addresses.
-/

namespace Backtrace

/-! ## Extents -/

/-- One of so many words from a base upwards stands at `address`. -/
def Covers (extent : Address × Nat) (address : Address) : Prop :=
  ∃ number < extent.2, address.toNat = extent.1.toNat + 4 * number

/-- A region with any word covers its base. -/
theorem covers_base {base : Address} {count : Nat} (hcount : 0 < count) :
    Covers (base, count) base :=
  ⟨0, hcount, rfl⟩

/-- A region that covers any address has a word. -/
theorem Covers.count_pos {extent : Address × Nat} {address : Address}
    (hcovers : Covers extent address) : 0 < extent.2 := by
  rcases hcovers with ⟨number, hnumber, -⟩
  omega

/-- All addresses that a region covers are as far from a multiple of four as its base. -/
theorem Covers.mod_four {extent : Address × Nat} {address : Address}
    (hcovers : Covers extent address) : address.toNat % 4 = extent.1.toNat % 4 := by
  rcases hcovers with ⟨number, -, hsum⟩
  omega

/-- A region has a word at the addresses that its extent covers. -/
theorem Region.isSome_read?_iff {region : Region} {address : Address} :
    (region.read? address).isSome = true ↔ Covers region.extent address := by
  rw [Option.isSome_iff_exists]
  constructor
  · intro hmapped
    rcases hmapped with ⟨word, hread⟩
    rcases read?_eq_some_iff.mp hread with ⟨number, hnumber, hsum, -⟩
    exact ⟨number, hnumber, hsum⟩
  · intro hcovers
    rcases hcovers with ⟨number, hnumber, hsum⟩
    exact ⟨region.words[number], read?_eq_some_iff.mpr ⟨number, hnumber, hsum, rfl⟩⟩

namespace MappedMemory

variable {memory : MappedMemory}

/-- An address is mapped when some region's extent covers it. -/
theorem isSome_read_iff {address : Address} :
    (memory.read address).isSome = true ↔ ∃ extent ∈ memory.extents, Covers extent address := by
  unfold read extents
  simp only [List.findSome?_isSome_iff, Region.isSome_read?_iff, List.mem_map]
  constructor
  · intro hmapped
    rcases hmapped with ⟨region, hregion, hcovers⟩
    exact ⟨region.extent, ⟨region, hregion, rfl⟩, hcovers⟩
  · intro hmapped
    rcases hmapped with ⟨extent, ⟨region, hregion, rfl⟩, hcovers⟩
    exact ⟨region, hregion, hcovers⟩

/-! ## Extents of a history -/

/-- The base and the number of words that a change maps, if it maps any. -/
def Change.extent? : Change → Option (Address × Nat)
  | .map base words => some (base, words.length)
  | .mapBytes base bytes => some (base, (bytes.length + 3) / 4)
  | .write _ _ => none

/-- A mapping adds its extent, and a write changes none. -/
theorem extents_after (memory : MappedMemory) (change : Change) :
    (memory.after change).extents = change.extent?.toList ++ memory.extents := by
  cases change with
  | map base words => simp [after, map, extents, Region.extent, Change.extent?]
  | mapBytes base bytes =>
    simp [after, mapBytes, map, extents, Region.extent, Change.extent?, LittleEndian.length_words]
  | write address value =>
    cases hwrite : memory.write? address value with
    | none => simp [after, hwrite, Change.extent?]
    | some written => simp [after, hwrite, Change.extent?, extents_write? hwrite]

/-- The extents of a memory are those of all mappings in its history, the last one first. -/
theorem extents_run (memory : MappedMemory) (changes : List Change) :
    (memory.run changes).extents =
      (changes.filterMap Change.extent?).reverse ++ memory.extents := by
  induction changes generalizing memory with
  | nil => rfl
  | cons first later ih =>
    rw [run_cons, ih, extents_after]
    cases hextent : first.extent? with
    | none => simp [hextent]
    | some extent => simp [hextent]

/-- After a history, an address is mapped when some mapping of the history covers it. -/
theorem isSome_read_run_iff {changes : List Change} {address : Address} :
    ((empty.run changes).read address).isSome = true ↔
      ∃ change ∈ changes, ∃ extent, change.extent? = some extent ∧ Covers extent address := by
  have hextents : (empty.run changes).extents = (changes.filterMap Change.extent?).reverse := by
    rw [extents_run]
    exact List.append_nil _
  rw [isSome_read_iff, hextents]
  simp only [List.mem_reverse, List.mem_filterMap]
  constructor
  · intro hmapped
    rcases hmapped with ⟨extent, ⟨change, hchange, hextent⟩, hcovers⟩
    exact ⟨change, hchange, extent, hextent, hcovers⟩
  · intro hmapped
    rcases hmapped with ⟨change, hchange, extent, hextent, hcovers⟩
    exact ⟨extent, ⟨change, hchange, hextent⟩, hcovers⟩

/-! ## Unaligned addresses -/

/-- A change that maps words at a multiple of four, or none at all. -/
def Change.Aligned (change : Change) : Prop :=
  ∀ base count, change.extent? = some (base, count) → 0 < count → 4 ∣ base.toNat

/-- An address that cannot be read cannot be written, and the attempt changes nothing. -/
theorem after_write_of_read_eq_none {address : Address} (hunmapped : memory.read address = none)
    (value : Word) :
    memory.write? address value = none ∧ memory.after (.write address value) = memory := by
  have hwrite : memory.write? address value = none := write?_of_read_eq_none hunmapped
  refine ⟨hwrite, ?_⟩
  simp only [after, hwrite, Option.getD_none]

/-- Unaligned addresses cannot be read after a history, and cannot be written, exactly when all
words have been mapped at multiples of four. -/
theorem unaligned_unmapped_iff (changes : List Change) :
    let memory := empty.run changes
    (∀ address : Address, ¬ 4 ∣ address.toNat →
      memory.read address = none ∧
        ∀ value, memory.write? address value = none ∧
          memory.after (.write address value) = memory) ↔
      ∀ change ∈ changes, change.Aligned := by
  intro memory
  constructor
  · intro hunmapped change hchange base count hextent hcount
    have hmapped : (memory.read base).isSome = true :=
      isSome_read_run_iff.mpr ⟨change, hchange, _, hextent, covers_base hcount⟩
    by_cases haligned : 4 ∣ base.toNat
    · exact haligned
    · rw [(hunmapped base haligned).1] at hmapped
      simp at hmapped
  · intro haligned address hunaligned
    have hunmapped : memory.read address = none := by
      rw [← Option.not_isSome_iff_eq_none, isSome_read_run_iff]
      intro hmapped
      rcases hmapped with ⟨change, hchange, ⟨base, count⟩, hextent, hcovers⟩
      have hbase := haligned change hchange base count hextent hcovers.count_pos
      have hmod : address.toNat % 4 = base.toNat % 4 := hcovers.mod_four
      omega
    exact ⟨hunmapped, after_write_of_read_eq_none hunmapped⟩

/-- A word mapped at an address that is no multiple of four is read there and overwritten there. -/
theorem unaligned_mapped :
    let memory := empty.run [.map 0x1002 [1]]
    ¬ 4 ∣ (0x1002 : Address).toNat ∧ memory.read 0x1002 = some 1 ∧
      memory.write? 0x1002 7 = some (empty.run [.map 0x1002 [7]]) ∧
      memory.after (.write 0x1002 7) ≠ memory := by
  decide

end MappedMemory

end Backtrace
