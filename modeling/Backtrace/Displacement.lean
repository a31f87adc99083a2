/-!
# Displacements

A displacement is a signed distance between two places in memory, in bytes, held in sixty-four
bits.  Arithmetic on displacements is checked: a result that does not fit is `none`, never a
wrapped value.

Main results:

- Theorem `Displacement.ofInt?_eq_some_iff`: an integer makes a displacement exactly when the
  displacement reads back as that integer.
- Theorems `Displacement.add?_eq_some_iff`, `Displacement.sub?_eq_some_iff`,
  `Displacement.neg?_eq_some_iff`: a checked operation that succeeds has the exact integer result.
-/

namespace Backtrace

/-- A signed number of bytes that fits in sixty-four bits. -/
structure Displacement where
  toInt : Int
  lower : -0x8000000000000000 ≤ toInt
  upper : toInt < 0x8000000000000000
deriving DecidableEq, Repr

namespace Displacement

/-! ## Making displacements -/

/-- The displacement of `bytes` bytes, if that many fit. -/
def ofInt? (bytes : Int) : Option Displacement :=
  if hfits : -0x8000000000000000 ≤ bytes ∧ bytes < 0x8000000000000000 then
    some ⟨bytes, hfits.1, hfits.2⟩
  else none

/-- No distance at all. -/
def zero : Displacement := ⟨0, by decide, by decide⟩

/-- A thirty-two bit distance always fits. -/
def ofInt32 (bytes : Int32) : Displacement :=
  ⟨bytes.toInt, by have := bytes.le_toInt; omega, by have := bytes.toInt_lt; omega⟩

@[ext] theorem ext {a b : Displacement} (hbytes : a.toInt = b.toInt) : a = b := by
  cases a; cases b; simpa using hbytes

@[simp] theorem toInt_zero : zero.toInt = 0 := rfl

@[simp] theorem toInt_ofInt32 (bytes : Int32) : (ofInt32 bytes).toInt = bytes.toInt := rfl

/-- An integer makes exactly the displacement that reads back as it. -/
theorem ofInt?_eq_some_iff {bytes : Int} {d : Displacement} :
    ofInt? bytes = some d ↔ d.toInt = bytes := by
  have hlower := d.lower
  have hupper := d.upper
  constructor
  · intro hsome
    unfold ofInt? at hsome
    split at hsome
    · cases hsome; rfl
    · cases hsome
  · rintro rfl
    simp only [ofInt?]
    rw [dif_pos ⟨hlower, hupper⟩]

/-- An integer makes no displacement exactly when it does not fit. -/
theorem ofInt?_eq_none_iff {bytes : Int} :
    ofInt? bytes = none ↔ bytes < -0x8000000000000000 ∨ 0x8000000000000000 ≤ bytes := by
  unfold ofInt?
  split
  · simp; omega
  · simp; omega

/-! ## Checked arithmetic -/

/-- The sum of two displacements, if it fits. -/
def add? (a b : Displacement) : Option Displacement := ofInt? (a.toInt + b.toInt)

/-- The difference of two displacements, if it fits. -/
def sub? (a b : Displacement) : Option Displacement := ofInt? (a.toInt - b.toInt)

/-- The same distance in the other direction, if it fits. -/
def neg? (a : Displacement) : Option Displacement := ofInt? (-a.toInt)

/-- A sum that fits is exact. -/
theorem add?_eq_some_iff {a b c : Displacement} :
    a.add? b = some c ↔ c.toInt = a.toInt + b.toInt :=
  ofInt?_eq_some_iff

/-- A difference that fits is exact. -/
theorem sub?_eq_some_iff {a b c : Displacement} :
    a.sub? b = some c ↔ c.toInt = a.toInt - b.toInt :=
  ofInt?_eq_some_iff

/-- A change of direction that fits is exact. -/
theorem neg?_eq_some_iff {a c : Displacement} :
    a.neg? = some c ↔ c.toInt = -a.toInt :=
  ofInt?_eq_some_iff

end Displacement

end Backtrace
