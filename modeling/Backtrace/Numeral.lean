/-!
# Numerals

A numeral is an optional plus sign and one or more decimal digits, with nothing before, between or
behind them, for a number that fits in thirty-two bits.  Digits are the ten of ASCII, and leading
zeros do not count.

Main results:

- Theorem `Numeral.readFrom?_eq_some_iff`: watching for overflow at every digit accepts exactly the
  digits whose number fits.
- Theorem `Numeral.read?_eq_some_iff`: a text is read exactly when it is a numeral, as its number.
-/

namespace Backtrace

namespace Numeral

/-- The value of one digit. -/
def digitValue (c : Char) : Nat := c.toNat - '0'.toNat

/-- The number that digits spell behind digits that spell `sofar`. -/
def valueFrom (sofar : Nat) (digits : List Char) : Nat :=
  digits.foldl (fun sofar c => 10 * sofar + digitValue c) sofar

/-- The number that digits spell. -/
def value (digits : List Char) : Nat := valueFrom 0 digits

/-- The text without a plus sign in front. -/
def unsigned : List Char → List Char
  | '+' :: rest => rest
  | text => text

/-- Reads digits behind digits that spell `sofar`, as long as the number fits. -/
def readFrom? (sofar : Nat) : List Char → Option Nat
  | [] => some sofar
  | c :: rest =>
    if c.isDigit ∧ 10 * sofar + digitValue c < 0x100000000 then
      readFrom? (10 * sofar + digitValue c) rest
    else none

/-- The number that a text is a numeral for. -/
def read? (text : String) : Option Nat :=
  match unsigned text.toList with
  | [] => none
  | digits => readFrom? 0 digits

/-- A text is a numeral for `number` when one or more digits, perhaps behind a plus sign, spell that
number and are all there is. -/
def IsNumeral (text : String) (number : Nat) : Prop :=
  unsigned text.toList ≠ [] ∧ (∀ c ∈ unsigned text.toList, c.isDigit) ∧
    value (unsigned text.toList) = number

/-- More digits never spell a smaller number. -/
theorem le_valueFrom (sofar : Nat) (digits : List Char) : sofar ≤ valueFrom sofar digits := by
  induction digits generalizing sofar with
  | nil => exact Nat.le_refl _
  | cons c rest ih =>
    have := ih (10 * sofar + digitValue c)
    simp only [valueFrom, List.foldl_cons] at this ⊢
    omega

/-- Watching for overflow at every digit accepts exactly the digits whose number fits. -/
theorem readFrom?_eq_some_iff {sofar number : Nat} {digits : List Char}
    (hfits : sofar < 0x100000000) :
    readFrom? sofar digits = some number ↔
      (∀ c ∈ digits, c.isDigit) ∧ valueFrom sofar digits = number ∧ number < 0x100000000 := by
  induction digits generalizing sofar with
  | nil =>
    simp only [readFrom?, Option.some.injEq, List.not_mem_nil, false_implies, implies_true,
      true_and, valueFrom, List.foldl_nil]
    constructor
    · rintro rfl
      exact ⟨rfl, hfits⟩
    · exact fun h => h.1
  | cons c rest ih =>
    have hstep : valueFrom sofar (c :: rest) = valueFrom (10 * sofar + digitValue c) rest := rfl
    rw [readFrom?, hstep]
    split
    next hnext =>
      rw [ih hnext.2]
      simp [hnext.1]
    next hfails =>
      simp only [reduceCtorEq, false_iff]
      rintro ⟨hdigits, rfl, hlt⟩
      have hle := le_valueFrom (10 * sofar + digitValue c) rest
      exact hfails ⟨hdigits c List.mem_cons_self, by omega⟩

/-- A text is read exactly when it is a numeral whose number fits. -/
theorem read?_eq_some_iff {text : String} {number : Nat} :
    read? text = some number ↔ IsNumeral text number ∧ number < 0x100000000 := by
  unfold read? IsNumeral
  rcases unsigned text.toList with _ | ⟨c, rest⟩
  · simp
  · simp only [readFrom?_eq_some_iff (show 0 < 0x100000000 by decide), value, ne_eq, reduceCtorEq,
      not_false_eq_true, true_and, and_assoc]

end Numeral

end Backtrace
