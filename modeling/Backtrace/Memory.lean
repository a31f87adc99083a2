import Backtrace.Memory.LittleEndian
import Backtrace.Memory.Region

/-!
# Memory

The walk reads memory through a view, which tells the word at an address or that nothing is mapped
there.  A mapped memory is such a view made of regions: where regions overlap, the one mapped last
is the one that is read and written.

Main results:

- Theorem `MappedMemory.read_map`: a new region hides what it covers and leaves the rest.
- Theorem `MappedMemory.isSome_write?`: a write succeeds exactly at a mapped address.
- Theorem `MappedMemory.read_write?`: a write changes the reading of its address alone.
-/

namespace Backtrace

/-- What is at an address: a word, or `none` where nothing is mapped. -/
abbrev MemoryView := Address → Option Word

/-- Memory made of mapped regions, the one mapped last first. -/
structure MappedMemory where
  regions : List Region
deriving DecidableEq, Repr

namespace MappedMemory

/-- Memory with nothing mapped. -/
def empty : MappedMemory := ⟨[]⟩

/-! ## Reading -/

/-- The word at `address`, in the region mapped last among those that have it. -/
def read (memory : MappedMemory) : MemoryView := fun address =>
  memory.regions.findSome? fun region => region.read? address

/-- An address reads from the region mapped last, or else from the regions before it. -/
theorem read_cons (region : Region) (regions : List Region) (address : Address) :
    read ⟨region :: regions⟩ address = (region.read? address).or (read ⟨regions⟩ address) := by
  unfold read
  rw [List.findSome?_cons]
  cases region.read? address <;> rfl

/-! ## Mapping -/

/-- Maps `words` from `base` upwards. -/
def map (memory : MappedMemory) (base : Address) (words : List Word) : MappedMemory :=
  ⟨⟨base, words.toArray⟩ :: memory.regions⟩

/-- Maps the words that `bytes` spell, lowest byte first, from `base` upwards. -/
def mapBytes (memory : MappedMemory) (base : Address) (bytes : List UInt8) : MappedMemory :=
  memory.map base (LittleEndian.words bytes)

/-- A new region hides what it covers and leaves the rest. -/
theorem read_map (memory : MappedMemory) (base : Address) (words : List Word)
    (address : Address) :
    (memory.map base words).read address =
      (Region.read? ⟨base, words.toArray⟩ address).or (memory.read address) :=
  read_cons _ _ _

/-! ## Writing -/

/-- The regions with `value` as the word at `address`, in the first region that has it. -/
def writeFirst? (address : Address) (value : Word) : List Region → Option (List Region)
  | [] => none
  | region :: rest =>
    match region.write? address value with
    | some written => some (written :: rest)
    | none => (writeFirst? address value rest).map (region :: ·)

/-- The memory with `value` as the word at `address`, if that address is mapped. -/
def write? (memory : MappedMemory) (address : Address) (value : Word) : Option MappedMemory :=
  (writeFirst? address value memory.regions).map MappedMemory.mk

/-- A list of regions can be written exactly where it can be read. -/
theorem isSome_writeFirst? (address : Address) (value : Word) (regions : List Region) :
    (writeFirst? address value regions).isSome = (read ⟨regions⟩ address).isSome := by
  induction regions with
  | nil => rfl
  | cons region rest ih =>
    have hmapped := region.isSome_write? address value
    rw [writeFirst?, read_cons]
    split
    next written hwrite =>
      rw [hwrite] at hmapped
      simp [← hmapped]
    next hfailed =>
      rw [hfailed, Option.isSome_none, eq_comm, Option.isSome_eq_false_iff] at hmapped
      simp [Option.isNone_iff_eq_none.mp hmapped, ih]

/-- A write succeeds exactly at a mapped address. -/
theorem isSome_write? (memory : MappedMemory) (address : Address) (value : Word) :
    (memory.write? address value).isSome = (memory.read address).isSome := by
  simpa [write?] using isSome_writeFirst? address value memory.regions

/-- A write into a list of regions changes the reading of its address alone. -/
theorem read_writeFirst? {address : Address} {value : Word} {regions written : List Region}
    (hwrite : writeFirst? address value regions = some written) (other : Address) :
    read ⟨written⟩ other = if other = address then some value else read ⟨regions⟩ other := by
  induction regions generalizing written with
  | nil => simp [writeFirst?] at hwrite
  | cons region rest ih =>
    have hmapped := region.isSome_write? address value
    rw [writeFirst?] at hwrite
    split at hwrite
    next changed hwritten =>
      cases hwrite
      rw [read_cons, read_cons, Region.read?_write? hwritten]
      split <;> simp
    next hfailed =>
      obtain ⟨rest', hdeeper, rfl⟩ := Option.map_eq_some_iff.mp hwrite
      rw [hfailed, Option.isSome_none, eq_comm, Option.isSome_eq_false_iff] at hmapped
      rw [read_cons, read_cons, ih hdeeper]
      split
      next heq => simp [heq, Option.isNone_iff_eq_none.mp hmapped]
      next hne => rfl

/-- After a write the address reads as the new value, and every other address as before. -/
theorem read_write? {memory written : MappedMemory} {address : Address} {value : Word}
    (hwrite : memory.write? address value = some written) (other : Address) :
    written.read other = if other = address then some value else memory.read other := by
  obtain ⟨regions, hwritten, rfl⟩ := Option.map_eq_some_iff.mp hwrite
  exact read_writeFirst? hwritten other

end MappedMemory

end Backtrace
