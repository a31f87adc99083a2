import Backtrace.Address

/-!
# Words in hexadecimal

A word is written as `0x` and eight digits, most significant first, leading zeros kept.  Columns use
upper-case letters and running text lower-case ones; the two differ in nothing else.

Main results:

- Theorem `Hex.length_ofWord`: a word always takes the same number of characters.
-/

namespace Backtrace

namespace Hex

/-- Which letters the digits above nine are written with. -/
inductive LetterCase where
  | lower
  | upper
deriving DecidableEq, Repr

/-- The sixteen digits, by value. -/
def alphabet : LetterCase → List Char
  | .lower => ['0', '1', '2', '3', '4', '5', '6', '7', '8', '9', 'a', 'b', 'c', 'd', 'e', 'f']
  | .upper => ['0', '1', '2', '3', '4', '5', '6', '7', '8', '9', 'A', 'B', 'C', 'D', 'E', 'F']

/-- The digit for the value of `n` modulo sixteen. -/
def digit (letters : LetterCase) (n : Nat) : Char := (alphabet letters)[n % 16]?.getD '0'

/-- The last `count` digits of `n`, most significant first. -/
def digits (letters : LetterCase) : (count : Nat) → (n : Nat) → List Char
  | 0, _ => []
  | count + 1, n => digits letters count (n / 16) ++ [digit letters n]

/-- A word with its marker: `0x` and eight digits. -/
def ofWord (letters : LetterCase) (word : Word) : String :=
  String.ofList ('0' :: 'x' :: digits letters 8 word.toNat)

@[simp] theorem length_digits (letters : LetterCase) (count n : Nat) :
    (digits letters count n).length = count := by
  induction count generalizing n with
  | zero => rfl
  | succ count ih => simp [digits, ih]

/-- A word with its marker takes ten characters. -/
@[simp] theorem length_ofWord (letters : LetterCase) (word : Word) :
    (ofWord letters word).length = 10 := by
  rw [ofWord, String.length_ofList, List.length_cons, List.length_cons, length_digits]

end Hex

end Backtrace
