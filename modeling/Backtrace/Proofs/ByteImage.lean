import Backtrace.Proofs.PartialMap

/-!
# Images of bytes

An image that arrives as bytes reads back byte for byte.  Each of its bytes stands in the word of
its four, at its own place in that word, the bytes that the last word lacks are zero, and nothing
else in memory is touched.  It does not matter whether an image is mapped at once or in two pieces,
as long as the first piece is made of whole words.

Main results:

- Theorem `byteOf_wordAt`: a word of an image is made of the bytes that its number says.
- Theorem `words_append`: whole words in front of an image do not change the words behind them.
- Theorem `overlay_append`: laying down words in two pieces is laying them down at once.
- Theorem `read_mapBytes_image`: what an image of bytes does to memory.
-/

namespace Backtrace

namespace LittleEndian

/-! ## Bytes of words -/

/-- The byte at a place of a word, the lowest one at place zero. -/
def byteOf (word : Word) (place : Nat) : UInt8 := UInt8.ofNat (word.toNat >>> (8 * place))

theorem byteAt_lt (bytes : List UInt8) (number : Nat) : byteAt bytes number < 0x100 :=
  (bytes[number]?.getD 0).toNat_lt

/-- A word of an image is made of four bytes of the image, or of zero where these have run out. -/
theorem byteOf_wordAt (bytes : List UInt8) (number : Nat) {place : Nat} (hplace : place < 4) :
    byteOf (wordAt bytes number) place = bytes[4 * number + place]?.getD 0 := by
  have h₀ := byteAt_lt bytes (4 * number)
  have h₁ := byteAt_lt bytes (4 * number + 1)
  have h₂ := byteAt_lt bytes (4 * number + 2)
  have h₃ := byteAt_lt bytes (4 * number + 3)
  have hbyte : (bytes[4 * number + place]?.getD 0).toNat = byteAt bytes (4 * number + place) := rfl
  apply UInt8.toNat_inj.mp
  rw [hbyte, byteOf, wordAt, UInt8.toNat_ofNat', UInt32.toNat_ofNat']
  match place with
  | 0 =>
    simp only [Nat.add_zero]
    omega
  | 1 => omega
  | 2 => omega
  | 3 => omega

/-- Whole words in front of an image do not change the words behind them. -/
theorem words_append {front : List UInt8} (back : List UInt8) (hwhole : 4 ∣ front.length) :
    words (front ++ back) = words front ++ words back := by
  fun_induction words front with
  | case1 => rfl
  | case2 b₀ b₁ b₂ b₃ rest ih =>
    have hrest : 4 ∣ rest.length := by
      simp only [List.length_cons] at hwhole
      omega
    simp only [List.cons_append, words_cons, ih hrest]
  | case3 left hnonempty hshort =>
    have hpositive := List.length_pos_iff.mpr hnonempty
    have hlength := length_lt_four hshort
    omega

end LittleEndian

/-! ## Words laid down in pieces -/

namespace MemoryView

variable {view : MemoryView}

/-- What an overlay shows at an address depends on what was there before at that address only. -/
theorem overlay_congr {other : MemoryView} {place : Nat} {words : List Word} {address : Address}
    (hsame : view address = other address) :
    view.overlay place words address = other.overlay place words address := by
  induction words generalizing place with
  | nil => exact hsame
  | cons word words ih => rw [overlay_cons, overlay_cons, ih]

/-- Laying down words in two pieces, the second where the first one ends, is laying them down at
once. -/
theorem overlay_append (place : Nat) (front back : List Word) :
    view.overlay place (front ++ back) =
      (view.overlay place front).overlay (place + 4 * front.length) back := by
  funext address
  induction front generalizing place with
  | nil => rfl
  | cons word front ih =>
    have hend : place + 4 * (word :: front).length = place + 4 + 4 * front.length := by
      rw [List.length_cons]
      omega
    rw [List.cons_append, overlay_cons, ih, hend]
    split
    · -- The first place lies below all those of the second piece.
      next hfirst =>
      have hapart : ∀ number < back.length,
          address.toNat ≠ place + 4 + 4 * front.length + 4 * number := by
        intro number hnumber
        omega
      rw [overlay_of_apart hapart, overlay_cons, if_pos hfirst]
    · next hlater =>
      apply overlay_congr
      rw [overlay_cons, if_neg hlater]

end MemoryView

/-! ## Images in memory -/

namespace MappedMemory

open LittleEndian (byteOf wordAt)

/-- An image of bytes is laid down as its words. -/
theorem read_mapBytes (memory : MappedMemory) (base : Address) (bytes : List UInt8) :
    (memory.mapBytes base bytes).read =
      memory.read.overlay base.toNat (LittleEndian.words bytes) :=
  memory.read_map_eq_overlay base (LittleEndian.words bytes)

/-- Every byte of an image's words stands in its word, and is zero behind the end of the image. -/
theorem exists_read_mapBytes (memory : MappedMemory) {base address : Address} {bytes : List UInt8}
    {number : Nat} (hnumber : number / 4 < (bytes.length + 3) / 4)
    (haddress : address.toNat = base.toNat + 4 * (number / 4)) :
    ∃ word, (memory.mapBytes base bytes).read address = some word ∧
      byteOf word (number % 4) = bytes[number]?.getD 0 := by
  have hlength : number / 4 < (LittleEndian.words bytes).length := by
    rwa [LittleEndian.length_words]
  refine ⟨(LittleEndian.words bytes)[number / 4], ?_, ?_⟩
  · rw [read_mapBytes]
    exact MemoryView.overlay_of_slot hlength haddress
  · have hword : (LittleEndian.words bytes)[number / 4] = wordAt bytes (number / 4) := by
      simp [LittleEndian.words_eq_map]
    rw [hword, LittleEndian.byteOf_wordAt bytes _ (Nat.mod_lt _ (by decide)), Nat.div_add_mod]

/-- An image of bytes reads back as it is: each byte as the byte with its number in the word of its
four, as far as the address space goes, zero for the bytes that its last word lacks, and every other
address as before.  Two images, the first one of whole words and the second one where it ends, are
one image. -/
theorem read_mapBytes_image (memory : MappedMemory) (base : Address) (bytes : List UInt8) :
    let image := memory.mapBytes base bytes
    (∀ i (hi : i < bytes.length) (address : Address),
      address.toNat = base.toNat + 4 * (i / 4) →
        ∃ word, image.read address = some word ∧ byteOf word (i % 4) = bytes[i]) ∧
    (∀ i, bytes.length ≤ i → i / 4 < (bytes.length + 3) / 4 → ∀ address : Address,
      address.toNat = base.toNat + 4 * (i / 4) →
        ∃ word, image.read address = some word ∧ byteOf word (i % 4) = 0) ∧
    (∀ address : Address,
      (∀ j < (bytes.length + 3) / 4, address.toNat ≠ base.toNat + 4 * j) →
        image.read address = memory.read address) ∧
    ∀ front back, bytes = front ++ back → 4 ∣ front.length → ∀ next : Address,
      next.toNat = base.toNat + front.length →
        image.read = ((memory.mapBytes base front).mapBytes next back).read := by
  intro image
  refine ⟨?_, ?_, ?_, ?_⟩
  · intro i hi address haddress
    have hinside : i / 4 < (bytes.length + 3) / 4 := by omega
    rcases memory.exists_read_mapBytes hinside haddress with ⟨word, hread, hbyte⟩
    refine ⟨word, hread, ?_⟩
    rw [hbyte, List.getElem?_eq_getElem hi, Option.getD_some]
  · intro i hi hinside address haddress
    rcases memory.exists_read_mapBytes hinside haddress with ⟨word, hread, hbyte⟩
    refine ⟨word, hread, ?_⟩
    rw [hbyte, List.getElem?_eq_none hi, Option.getD_none]
  · intro address hapart
    rw [read_mapBytes]
    apply MemoryView.overlay_of_apart
    rwa [LittleEndian.length_words]
  · intro front back hbytes hwhole next hnext
    have hend : base.toNat + 4 * (LittleEndian.words front).length = next.toNat := by
      rw [LittleEndian.length_words]
      omega
    rw [read_mapBytes, read_mapBytes, read_mapBytes, hbytes,
      LittleEndian.words_append back hwhole, MemoryView.overlay_append, hend]

/-- Five bytes at an unaligned base fill one word and begin another one, and leave the word behind
that as it was. -/
theorem read_mapBytes_image_padded :
    let memory := empty.map 0x1002 [1, 2, 3]
    let image := memory.mapBytes 0x1002 [0xE0, 0xFF, 0xBD, 0x27, 0x08]
    (∃ word, image.read 0x1002 = some word ∧ byteOf word 3 = 0x27) ∧
    (∃ word, image.read 0x1006 = some word ∧ byteOf word 2 = 0) ∧
    image.read 0x100A = memory.read 0x100A ∧
    image.read =
      ((memory.mapBytes 0x1002 [0xE0, 0xFF, 0xBD, 0x27]).mapBytes 0x1006 [0x08]).read := by
  intro memory image
  rcases read_mapBytes_image memory 0x1002 [0xE0, 0xFF, 0xBD, 0x27, 0x08] with
    ⟨hinside, hbehind, hapart, hpieces⟩
  exact ⟨hinside 3 (by decide) 0x1002 (by decide),
    hbehind 6 (by decide) (by decide) 0x1006 (by decide), hapart 0x100A (by decide),
    hpieces [0xE0, 0xFF, 0xBD, 0x27] [0x08] rfl (by decide) 0x1006 (by decide)⟩

end MappedMemory

end Backtrace
