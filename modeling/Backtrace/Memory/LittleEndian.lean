import Backtrace.Address

/-!
# Little-endian bytes

An image that arrives as bytes is read four bytes a word, the lowest byte first.  When the bytes run
out inside a word, the rest of that word is zero.

Main results:

- Theorem `LittleEndian.length_words`: every four bytes make a word, and so do the bytes left over.
-/

namespace Backtrace

namespace LittleEndian

/-- The number that the bytes spell, lowest byte first. -/
def value : List UInt8 → Nat
  | [] => 0
  | byte :: rest => byte.toNat + 256 * value rest

/-- The word that up to four bytes spell, lowest byte first; missing bytes are zero. -/
def word (bytes : List UInt8) : Word := UInt32.ofNat (value bytes)

/-- The words that the bytes spell, four bytes each, the last one filled up with zero. -/
def words : List UInt8 → List Word
  | [] => []
  | b₀ :: b₁ :: b₂ :: b₃ :: rest => word [b₀, b₁, b₂, b₃] :: words rest
  | left => [word left]

@[simp] theorem words_cons (b₀ b₁ b₂ b₃ : UInt8) (rest : List UInt8) :
    words (b₀ :: b₁ :: b₂ :: b₃ :: rest) = word [b₀, b₁, b₂, b₃] :: words rest := rfl

/-- Bytes that do not begin with four are fewer than four. -/
theorem length_lt_four {bytes : List UInt8}
    (hshort : ∀ b₀ b₁ b₂ b₃ rest, bytes ≠ b₀ :: b₁ :: b₂ :: b₃ :: rest) : bytes.length < 4 := by
  match bytes with
  | [] => simp
  | [_] => simp
  | [_, _] => simp
  | [_, _, _] => simp
  | b₀ :: b₁ :: b₂ :: b₃ :: rest => exact absurd rfl (hshort b₀ b₁ b₂ b₃ rest)

/-- Every four bytes make a word, and so do the bytes left over. -/
theorem length_words (bytes : List UInt8) : (words bytes).length = (bytes.length + 3) / 4 := by
  fun_induction words bytes with
  | case1 => rfl
  | case2 b₀ b₁ b₂ b₃ rest ih =>
    simp only [List.length_cons, ih]
    omega
  | case3 left hnonempty hshort =>
    have := length_lt_four hshort
    have := List.length_pos_iff.mpr hnonempty
    rw [List.length_singleton]
    omega

end LittleEndian

end Backtrace
