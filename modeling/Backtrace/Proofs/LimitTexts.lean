import Backtrace.Debugger.Settings
import Mathlib.Data.List.Basic
import Mathlib.Data.Nat.Digits.Defs

/-!
# Which texts set limits

A text sets a limit when it is a numeral, and what a numeral is can be said without reading it: a
plus sign or none, then decimal digits, and its number is the sum of each digit times a power of
ten.  Watching for overflow at every digit comes to the same as looking at that number once.  The
two limits that texts set stand and fall together: if one of them would be zero, both are the
default.

Main results:

- Theorem `Numeral.isNumeral_iff_denotes`: numerals, digit by digit from the left, are numerals by
  the powers of ten.
- Theorem `Numeral.read?_eq_some_iff_denotes`: which texts are read, and as which numbers.
- Theorems `Debugger.Settings.bounds_ofTexts` and `Debugger.Settings.rejected_ofTexts`: the limits
  that two texts come to, and what is said against the ones that they set.
- Theorem `Debugger.Settings.ofTexts_numerals`: which texts set which limits.
-/

namespace Backtrace

namespace Numeral

/-! ## Numerals by powers of ten -/

/-- `text` is a numeral for `number`: a plus sign or none, and then one or more decimal digits, most
significant first, that make up the number. -/
def Denotes (text : String) (number : Nat) : Prop :=
  ∃ (sign : List Char) (digits : List Nat), (sign = [] ∨ sign = ['+']) ∧
    text.toList = sign ++ digits.map Nat.digitChar ∧ digits ≠ [] ∧ (∀ d ∈ digits, d < 10) ∧
    Nat.ofDigits 10 digits.reverse = number

theorem digitValue_digitChar {d : Nat} (hd : d < 10) : digitValue d.digitChar = d :=
  Nat.toNat_digitChar_sub_48_of_lt_ten hd

/-- A digit is the character of its value. -/
theorem digitChar_digitValue {c : Char} (hc : c.isDigit = true) :
    digitValue c < 10 ∧ (digitValue c).digitChar = c := by
  have hrange : 48 ≤ c.toNat ∧ c.toNat ≤ 57 := Char.isDigit_iff_toNat.mp hc
  have hzero : '0'.toNat = 48 := rfl
  have hlt : digitValue c < 10 := by
    rw [digitValue, hzero]
    omega
  refine ⟨hlt, Char.toNat_inj.mp ?_⟩
  rw [Nat.toNat_digitChar_of_lt_ten hlt, digitValue, hzero]
  omega

/-- Digits from the left spell the sum of each digit times its power of ten. -/
theorem value_map_digitChar {digits : List Nat} (hdigits : ∀ d ∈ digits, d < 10) :
    value (digits.map Nat.digitChar) = Nat.ofDigits 10 digits.reverse := by
  rw [Nat.ofDigits_eq_foldr, List.foldr_reverse, value, valueFrom, List.foldl_map]
  apply List.foldl_ext
  intro sofar d hd
  rw [digitValue_digitChar (hdigits d hd), Nat.cast_id, Nat.add_comm]

/-- A text of digits is the text of their values. -/
theorem map_digitChar_map_digitValue {text : List Char} (hdigits : ∀ c ∈ text, c.isDigit = true) :
    (text.map digitValue).map Nat.digitChar = text := by
  rw [List.map_map]
  calc
    text.map (Nat.digitChar ∘ digitValue) = text.map id :=
      List.map_congr_left fun c hc => (digitChar_digitValue (hdigits c hc)).2
    _ = text := List.map_id text

/-- Only a plus sign is taken from a text. -/
theorem exists_sign (text : List Char) :
    ∃ sign, (sign = [] ∨ sign = ['+']) ∧ text = sign ++ unsigned text := by
  unfold unsigned
  split
  · exact ⟨['+'], Or.inr rfl, rfl⟩
  · exact ⟨[], Or.inl rfl, rfl⟩

/-- A sign in front of digits is all that is taken from a text. -/
theorem unsigned_append {sign text : List Char} (hsign : sign = [] ∨ sign = ['+'])
    (hdigits : ∀ c ∈ text, c.isDigit = true) : unsigned (sign ++ text) = text := by
  rcases hsign with rfl | rfl
  · unfold unsigned
    split
    next rest htext =>
      -- A plus sign is no digit.
      rw [List.nil_append] at htext
      have hplus := hdigits '+' (htext ▸ List.mem_cons_self)
      simp at hplus
    next => rfl
  · rfl

/-- Numerals that are read from the left are numerals by powers of ten. -/
theorem isNumeral_iff_denotes {text : String} {number : Nat} :
    IsNumeral text number ↔ Denotes text number := by
  constructor
  · rintro ⟨hsome, hdigits, hvalue⟩
    rcases exists_sign text.toList with ⟨sign, hsign, htext⟩
    have hchars := map_digitChar_map_digitValue hdigits
    have hlt : ∀ d ∈ (unsigned text.toList).map digitValue, d < 10 := by
      intro d hd
      rcases List.mem_map.mp hd with ⟨c, hc, rfl⟩
      exact (digitChar_digitValue (hdigits c hc)).1
    refine ⟨sign, (unsigned text.toList).map digitValue, hsign, ?_, ?_, hlt, ?_⟩
    · rw [hchars]
      exact htext
    · simpa using hsome
    · rw [← value_map_digitChar hlt, hchars]
      exact hvalue
  · rintro ⟨sign, digits, hsign, htext, hsome, hlt, hnumber⟩
    have hdigits : ∀ c ∈ digits.map Nat.digitChar, c.isDigit = true := by
      intro c hc
      rcases List.mem_map.mp hc with ⟨d, hd, rfl⟩
      simpa using hlt d hd
    have hunsigned : unsigned text.toList = digits.map Nat.digitChar := by
      rw [htext, unsigned_append hsign hdigits]
    rw [IsNumeral, hunsigned]
    refine ⟨by simpa using hsome, hdigits, ?_⟩
    rw [value_map_digitChar hlt, hnumber]

/-- What is read is a numeral, and its number fits in thirty-two bits. -/
theorem read?_eq_some_iff_denotes {text : String} {number : Nat} :
    read? text = some number ↔ Denotes text number ∧ number ≤ 4294967295 := by
  rw [read?_eq_some_iff, isNumeral_iff_denotes, Nat.lt_succ_iff]

end Numeral

namespace Debugger

namespace Settings

/-! ## Two texts -/

/-- `text` is there, and a numeral for `number`, which fits in thirty-two bits. -/
def Sets (text : Option String) (number : Nat) : Prop :=
  ∃ numeral, text = some numeral ∧ Numeral.Denotes numeral number ∧ number ≤ 4294967295

/-- What a text that may be missing comes to, where `otherwise` is the default: the number that it
sets, or the default when it sets none. -/
inductive ComesTo (text : Option String) (otherwise : Nat) : Nat → Prop
  | set {number : Nat} (hsets : Sets text number) : ComesTo text otherwise number
  | unset (hunset : ∀ number, ¬ Sets text number) : ComesTo text otherwise otherwise

/-- A text is read as the number that it sets. -/
theorem bind_read?_eq_some_iff {text : Option String} {number : Nat} :
    text.bind Numeral.read? = some number ↔ Sets text number := by
  rw [Option.bind_eq_some_iff]
  exact exists_congr fun numeral => and_congr_right fun _ => Numeral.read?_eq_some_iff_denotes

/-- A text comes to the number that is chosen for it, and to no other. -/
theorem comesTo_iff {text : Option String} {otherwise number : Nat} :
    ComesTo text otherwise number ↔ number = choose text otherwise := by
  rw [choose]
  cases hread : text.bind Numeral.read? with
  | none =>
    have hunset : ∀ number, ¬ Sets text number := by
      intro number hsets
      rw [← bind_read?_eq_some_iff, hread] at hsets
      cases hsets
    constructor
    · rintro (hsets | -)
      · exact absurd hsets (hunset number)
      · rfl
    · rintro rfl
      exact .unset hunset
  | some chosen =>
    have hchosen : Sets text chosen := bind_read?_eq_some_iff.mp hread
    constructor
    · rintro (hsets | hunset)
      · rw [← bind_read?_eq_some_iff, hread, Option.some.injEq] at hsets
        exact hsets.symm
      · exact absurd hchosen (hunset chosen)
    · rintro rfl
      exact .set hchosen

/-- The limits that two texts come to: with a zero among them, the default. -/
theorem bounds_ofTexts (scanDistance frameDepth : Option String) :
    ((ofTexts scanDistance frameDepth).limits.scanDistance,
      (ofTexts scanDistance frameDepth).limits.frameDepth) =
      if choose scanDistance 512 = 0 ∨ choose frameDepth 32 = 0 then (512, 32)
      else (choose scanDistance 512, choose frameDepth 32) := by
  cases hvalid : Limits.validate (choose scanDistance 512) (choose frameDepth 32) with
  | ok limits =>
    have hbounds := Limits.validate_eq_ok_iff.mp hvalid
    have hscan := limits.scanDistance_pos
    have hdepth := limits.frameDepth_pos
    rw [ofTexts_of_accepted hvalid, ← hbounds.1, ← hbounds.2, if_neg (by omega)]
  | error error =>
    have hzero := Limits.validate_eq_error_iff.mp hvalid
    rw [ofTexts_of_rejected hvalid, if_pos (by omega)]
    rfl

/-- What is said against the limits that two texts set. -/
theorem rejected_ofTexts (scanDistance frameDepth : Option String) :
    (ofTexts scanDistance frameDepth).rejected =
      if choose scanDistance 512 = 0 then some .noScanDistance
      else if choose frameDepth 32 = 0 then some .noFrameDepth else none := by
  cases hvalid : Limits.validate (choose scanDistance 512) (choose frameDepth 32) with
  | ok limits =>
    have hbounds := Limits.validate_eq_ok_iff.mp hvalid
    have hscan := limits.scanDistance_pos
    have hdepth := limits.frameDepth_pos
    rw [ofTexts_of_accepted hvalid, if_neg (by omega), if_neg (by omega)]
  | error error =>
    rw [ofTexts_of_rejected hvalid]
    rcases Limits.validate_eq_error_iff.mp hvalid with ⟨hscan, rfl⟩ | ⟨hscan, hdepth, rfl⟩
    · rw [if_pos hscan]
    · rw [if_neg (by omega), if_pos hdepth]

/-- Limits that two texts set are rejected when one of them is zero. -/
theorem isSome_rejected_ofTexts (scanDistance frameDepth : Option String) :
    (ofTexts scanDistance frameDepth).rejected.isSome = true ↔
      choose scanDistance 512 = 0 ∨ choose frameDepth 32 = 0 := by
  rw [rejected_ofTexts]
  by_cases hscan : choose scanDistance 512 = 0
  · simp [hscan]
  · by_cases hdepth : choose frameDepth 32 = 0
    · simp [hscan, hdepth]
    · simp [hscan, hdepth]

/-- A text is read exactly when it is a numeral whose number fits, and as that number.  Two texts
come to the limits that they set, with the default for each one that is not set; but if either would
be zero, both are the default.  So no limit is ever zero, and none is taken over beside one that is
rejected. -/
theorem ofTexts_numerals (scanDistance frameDepth : Option String) :
    (∀ text number, Numeral.read? text = some number ↔
      Numeral.Denotes text number ∧ number ≤ 4294967295) ∧
    ∃ s d, (∀ number, ComesTo scanDistance 512 number ↔ number = s) ∧
      (∀ number, ComesTo frameDepth 32 number ↔ number = d) ∧
      let settings := ofTexts scanDistance frameDepth
      (settings.limits.scanDistance, settings.limits.frameDepth) =
        (if s = 0 ∨ d = 0 then (512, 32) else (s, d)) ∧
      (settings.rejected.isSome = true ↔ s = 0 ∨ d = 0) ∧
      settings.limits.scanDistance ≠ 0 ∧ settings.limits.frameDepth ≠ 0 := by
  refine ⟨fun _ _ => Numeral.read?_eq_some_iff_denotes, choose scanDistance 512,
    choose frameDepth 32, fun _ => comesTo_iff, fun _ => comesTo_iff,
    bounds_ofTexts scanDistance frameDepth, isSome_rejected_ofTexts scanDistance frameDepth,
    ?_, ?_⟩
  · exact Nat.ne_of_gt (ofTexts scanDistance frameDepth).limits.scanDistance_pos
  · exact Nat.ne_of_gt (ofTexts scanDistance frameDepth).limits.frameDepth_pos

/-- Leading zeros do not count, and a number that does not fit is not cut off. -/
example : Numeral.read? "+007" = some 7 ∧ Numeral.read? "4294967303" = none := by decide

end Settings

end Debugger

end Backtrace
