import Backtrace.Memory

/-!
# Memory as a partial map

A mapped memory is a list of regions that may start anywhere, overlap, be empty or reach past the
top of the address space.  Reading shows none of this.  Whatever has been mapped and written, and in
whatever order, it finds what a plain partial map from addresses to words would hold: one in which
mapping lays words over what was there, and writing replaces one word that is there.

Main results:

- Theorems `overlay_of_slot` and `overlay_of_apart`: words that are laid over a map take the places
  from their base upwards, four bytes apart and never wrapped, and no other place.
- Theorem `words_eq_map`: the words of an image of bytes, by number.
- Theorem `read_after`: each change does to a memory what it does to a partial map.
- Theorem `run_refines_view`: so does every history, and after it a write changes one word that is
  there and nothing about the regions.
-/

namespace Backtrace

/-! ## Bytes by number -/

namespace LittleEndian

/-- The byte with the given number, zero where the bytes have run out. -/
def byteAt (bytes : List UInt8) (number : Nat) : Nat := (bytes[number]?.getD 0).toNat

/-- The word with the given number, made of four bytes, the lowest first. -/
def wordAt (bytes : List UInt8) (number : Nat) : Word :=
  UInt32.ofNat (byteAt bytes (4 * number) + 0x100 * byteAt bytes (4 * number + 1) +
    0x10000 * byteAt bytes (4 * number + 2) + 0x1000000 * byteAt bytes (4 * number + 3))

/-- Four bytes in front move every other byte on by four. -/
theorem wordAt_cons (b₀ b₁ b₂ b₃ : UInt8) (rest : List UInt8) (number : Nat) :
    wordAt (b₀ :: b₁ :: b₂ :: b₃ :: rest) (number + 1) = wordAt rest number :=
  rfl

/-- The first word is spelled by the first four bytes, missing ones being zero. -/
theorem wordAt_zero (bytes : List UInt8) : wordAt bytes 0 = word (bytes.take 4) := by
  unfold wordAt word
  congr 1
  rcases bytes with _ | ⟨b₀, _ | ⟨b₁, _ | ⟨b₂, _ | ⟨b₃, rest⟩⟩⟩⟩
  · rfl
  · simp [byteAt, value]
  · simp [byteAt, value]
  · simp [byteAt, value]
    omega
  · simp [byteAt, value]
    omega

/-- An image of bytes is the words with the numbers from zero up to a fourth of its length, rounded
up. -/
theorem words_eq_map (bytes : List UInt8) :
    words bytes = (List.range ((bytes.length + 3) / 4)).map (wordAt bytes) := by
  fun_induction words bytes with
  | case1 => rfl
  | case2 b₀ b₁ b₂ b₃ rest ih =>
    have hcount : ((b₀ :: b₁ :: b₂ :: b₃ :: rest).length + 3) / 4 = (rest.length + 3) / 4 + 1 := by
      simp only [List.length_cons]
      omega
    have hrest : wordAt (b₀ :: b₁ :: b₂ :: b₃ :: rest) ∘ Nat.succ = wordAt rest :=
      funext (wordAt_cons b₀ b₁ b₂ b₃ rest)
    rw [hcount, List.range_succ_eq_map, List.map_cons, List.map_map, hrest, ih, wordAt_zero]
    rfl
  | case3 left hnonempty hshort =>
    have hpositive := List.length_pos_iff.mpr hnonempty
    have hlength := length_lt_four hshort
    have hcount : (left.length + 3) / 4 = 1 := by omega
    rw [hcount, List.range_one, List.map_singleton, wordAt_zero, List.take_of_length_le (by omega)]

end LittleEndian

/-! ## Partial maps -/

/-- A change of a memory. -/
inductive MappedMemory.Change where
  /-- Words are mapped from an address upwards. -/
  | map (base : Address) (words : List Word)
  /-- The words that bytes spell are mapped from an address upwards. -/
  | mapBytes (base : Address) (bytes : List UInt8)
  /-- A word is overwritten; nothing happens where nothing is mapped. -/
  | write (address : Address) (value : Word)
deriving DecidableEq, Repr

namespace MemoryView

/-- The map without any word. -/
def unmapped : MemoryView := fun _ => none

/-- The map with `words` laid over it, one every four bytes from `place` upwards.  A place past the
top of the address space is the place of no address. -/
def overlay (view : MemoryView) (place : Nat) : List Word → MemoryView
  | [] => view
  | word :: words => fun address =>
    if address.toNat = place then some word else view.overlay (place + 4) words address

/-- The map with `value` in place of the word at `address`, if there is one. -/
def overwrite (view : MemoryView) (address : Address) (value : Word) : MemoryView := fun other =>
  if other = address ∧ (view address).isSome then some value else view other

/-- The map after one change. -/
def after (view : MemoryView) : MappedMemory.Change → MemoryView
  | .map base words => view.overlay base.toNat words
  | .mapBytes base bytes =>
    view.overlay base.toNat
      ((List.range ((bytes.length + 3) / 4)).map (LittleEndian.wordAt bytes))
  | .write address value => view.overwrite address value

/-- The map after some changes. -/
def run (view : MemoryView) (changes : List MappedMemory.Change) : MemoryView :=
  changes.foldl after view

variable {view : MemoryView}

@[simp] theorem run_cons (first : MappedMemory.Change) (later : List MappedMemory.Change) :
    view.run (first :: later) = (view.after first).run later := rfl

@[simp] theorem overlay_cons (place : Nat) (word : Word) (words : List Word) (address : Address) :
    view.overlay place (word :: words) address =
      if address.toNat = place then some word else view.overlay (place + 4) words address := rfl

/-- Each word that is laid over a map stands at its place. -/
theorem overlay_of_slot {place number : Nat} {words : List Word} {address : Address}
    (hnumber : number < words.length) (haddress : address.toNat = place + 4 * number) :
    view.overlay place words address = some words[number] := by
  induction words generalizing place number with
  | nil => simp at hnumber
  | cons word words ih =>
    rw [overlay_cons]
    rcases number with _ | number
    · rw [if_pos (by omega)]
      rfl
    · have hinside : number < words.length := by simpa using hnumber
      rw [if_neg (by omega), ih hinside (by omega)]
      rfl

/-- A place that gets no word keeps what it has. -/
theorem overlay_of_apart {place : Nat} {words : List Word} {address : Address}
    (hapart : ∀ number < words.length, address.toNat ≠ place + 4 * number) :
    view.overlay place words address = view address := by
  induction words generalizing place with
  | nil => rfl
  | cons word words ih =>
    have hfirst := hapart 0 (by simp)
    rw [overlay_cons, if_neg (by omega)]
    apply ih
    intro number hnumber
    have hnext := hapart (number + 1) (by simpa using hnumber)
    omega

end MemoryView

/-! ## Writing back -/

namespace Region

/-- Where a region starts, and how many words it has. -/
def extent (region : Region) : Address × Nat := (region.base, region.words.size)

/-- A write keeps the extent. -/
theorem extent_write? {region written : Region} {address : Address} {value : Word}
    (hwrite : region.write? address value = some written) : written.extent = region.extent := by
  simp [extent, base_write? hwrite, size_write? hwrite]

/-- Writing the word that is there changes nothing. -/
theorem write?_of_read? {region : Region} {address : Address} {value : Word}
    (hread : region.read? address = some value) : region.write? address value = some region := by
  rcases Option.map_eq_some_iff.mp hread with ⟨i, hindex, rfl⟩
  simp [write?, hindex]

/-- A region without the address cannot be written there. -/
theorem write?_of_read?_eq_none {region : Region} {address : Address} {value : Word}
    (hread : region.read? address = none) : region.write? address value = none := by
  have hsome := region.isSome_write? address value
  rw [hread] at hsome
  exact Option.not_isSome_iff_eq_none.mp (by simp [hsome])

end Region

namespace MappedMemory

variable {memory : MappedMemory}

/-- Where the regions start and how many words they have, the one mapped last first. -/
def extents (memory : MappedMemory) : List (Address × Nat) := memory.regions.map Region.extent

/-- A write into a list of regions keeps their extents. -/
theorem extents_writeFirst? {address : Address} {value : Word} {regions written : List Region}
    (hwrite : writeFirst? address value regions = some written) :
    written.map Region.extent = regions.map Region.extent := by
  induction regions generalizing written with
  | nil => simp [writeFirst?] at hwrite
  | cons region rest ih =>
    rw [writeFirst?] at hwrite
    split at hwrite
    · next changed hchanged =>
      cases hwrite
      rw [List.map_cons, List.map_cons, Region.extent_write? hchanged]
    · next hfailed =>
      rcases Option.map_eq_some_iff.mp hwrite with ⟨rest', hrest, rfl⟩
      rw [List.map_cons, List.map_cons, ih hrest]

/-- Writing the word that a list of regions reads changes none of them. -/
theorem writeFirst?_of_read {address : Address} {value : Word} {regions : List Region}
    (hread : read ⟨regions⟩ address = some value) :
    writeFirst? address value regions = some regions := by
  induction regions with
  | nil => simp [read] at hread
  | cons region rest ih =>
    rw [read_cons] at hread
    rw [writeFirst?]
    cases hhere : region.read? address with
    | some word =>
      rw [hhere, Option.some_or] at hread
      cases hread
      rw [Region.write?_of_read? hhere]
    | none =>
      rw [hhere, Option.none_or] at hread
      rw [Region.write?_of_read?_eq_none hhere, ih hread]
      rfl

/-- A write keeps the number, the order and the extents of the regions. -/
theorem extents_write? {written : MappedMemory} {address : Address} {value : Word}
    (hwrite : memory.write? address value = some written) : written.extents = memory.extents := by
  rcases Option.map_eq_some_iff.mp hwrite with ⟨regions, hregions, rfl⟩
  exact extents_writeFirst? hregions

/-- A memory without a word at the address cannot be written there. -/
theorem write?_of_read_eq_none {address : Address} {value : Word}
    (hread : memory.read address = none) : memory.write? address value = none := by
  have hsome := memory.isSome_write? address value
  rw [hread] at hsome
  exact Option.not_isSome_iff_eq_none.mp (by simp [hsome])

/-- Writing the word that is there changes nothing. -/
theorem write?_of_read {address : Address} {value : Word}
    (hread : memory.read address = some value) : memory.write? address value = some memory := by
  unfold write?
  rw [writeFirst?_of_read hread]
  rfl

/-! ## Histories -/

/-- The memory after one change. -/
def after (memory : MappedMemory) : Change → MappedMemory
  | .map base words => memory.map base words
  | .mapBytes base bytes => memory.mapBytes base bytes
  | .write address value => (memory.write? address value).getD memory

/-- The memory after some changes. -/
def run (memory : MappedMemory) (changes : List Change) : MappedMemory := changes.foldl after memory

@[simp] theorem run_cons (first : Change) (later : List Change) :
    memory.run (first :: later) = (memory.after first).run later := rfl

/-- Mapping words lays them over what was there. -/
theorem read_map_eq_overlay (memory : MappedMemory) (base : Address) (words : List Word) :
    (memory.map base words).read = memory.read.overlay base.toNat words := by
  funext address
  rw [read_map]
  by_cases hslot : ∃ number, number < words.length ∧ address.toNat = base.toNat + 4 * number
  · rcases hslot with ⟨number, hnumber, haddress⟩
    have hread : Region.read? ⟨base, words.toArray⟩ address = some words[number] :=
      Region.read?_eq_some_iff.mpr ⟨number, by simpa using hnumber, haddress, by simp⟩
    rw [hread, MemoryView.overlay_of_slot hnumber haddress, Option.some_or]
  · have hapart : ∀ number < words.length, address.toNat ≠ base.toNat + 4 * number := by
      intro number hnumber haddress
      exact hslot ⟨number, hnumber, haddress⟩
    have hread : Region.read? ⟨base, words.toArray⟩ address = none := by
      unfold Region.read?
      rw [Option.map_eq_none_iff, Region.index?_eq_none_iff]
      simpa using hapart
    rw [hread, MemoryView.overlay_of_apart hapart, Option.none_or]

/-- Overwriting a word replaces it where there is one. -/
theorem read_after_write (memory : MappedMemory) (address : Address) (value : Word) :
    (memory.after (.write address value)).read = memory.read.overwrite address value := by
  have hsome := memory.isSome_write? address value
  funext other
  unfold MemoryView.overwrite
  cases hwrite : memory.write? address value with
  | none =>
    rw [hwrite, Option.isSome_none] at hsome
    simp [after, hwrite, ← hsome]
  | some written =>
    rw [hwrite, Option.isSome_some] at hsome
    simp [after, hwrite, ← hsome, read_write? hwrite]

/-- Each change does to a memory what it does to a partial map. -/
theorem read_after (memory : MappedMemory) (change : Change) :
    (memory.after change).read = memory.read.after change := by
  cases change with
  | map base words => exact memory.read_map_eq_overlay base words
  | mapBytes base bytes =>
    rw [MemoryView.after, ← LittleEndian.words_eq_map]
    exact memory.read_map_eq_overlay base (LittleEndian.words bytes)
  | write address value => exact memory.read_after_write address value

/-- Every history does to a memory what it does to a partial map. -/
theorem read_run (memory : MappedMemory) (changes : List Change) :
    (memory.run changes).read = memory.read.run changes := by
  induction changes generalizing memory with
  | nil => rfl
  | cons first later ih => rw [run_cons, MemoryView.run_cons, ih, read_after]

/-- After any history a memory reads as a partial map with that history.  A write succeeds exactly
where the memory has a word, replaces that one word and keeps the number, the order and the extents
of the regions; anywhere else it leaves the regions as they are, and so does writing a word back. -/
theorem run_refines_view (changes : List Change) :
    let memory := empty.run changes
    memory.read = MemoryView.unmapped.run changes ∧
      ∀ address value,
        (memory.write? address value).isSome = (memory.read address).isSome ∧
        (∀ written, memory.write? address value = some written →
          written.extents = memory.extents ∧
            ∀ other, written.read other =
              if other = address then some value else memory.read other) ∧
        (memory.read address = none → memory.after (.write address value) = memory) ∧
        (memory.read address = some value → memory.write? address value = some memory) := by
  intro memory
  refine ⟨empty.read_run changes, ?_⟩
  intro address value
  refine ⟨memory.isSome_write? address value, ?_, ?_, write?_of_read⟩
  · intro written hwrite
    exact ⟨extents_write? hwrite, read_write? hwrite⟩
  · intro hunmapped
    simp only [after, write?_of_read_eq_none hunmapped, Option.getD_none]

/-- A later region hides an earlier one, from a base that need not be a multiple of four, and what
would stand past the top of the address space stands nowhere. -/
example :
    let memory := empty.run [.map 0x1002 [1, 2, 3], .mapBytes 0x1006 [20], .write 0x100A 30,
      .map 0xFFFFFFFC [7, 8]]
    [0x1002, 0x1006, 0x100A, 0x100C, 0xFFFFFFFC, 0].map memory.read =
      [some 1, some 20, some 30, none, some 7, none] := by
  decide

end MappedMemory

end Backtrace
