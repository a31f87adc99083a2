/-!
# Limits of a walk

A walk over arbitrary memory ends because it is bounded: one number bounds the search for the start
of a function, the other the number of frames.  Neither may be zero.

Main results:

- Theorem `Limits.validate_eq_ok_iff`: a pair of numbers is accepted exactly when both are positive,
  and is kept as it is.
- Theorem `Limits.validate_eq_error_iff`: a pair is rejected for the first of its numbers that is
  zero.
-/

namespace Backtrace

/-- The bounds of one walk: how many slots one search for the start of a function may look at, and
how many frames the walk may produce. -/
structure Limits where
  scanDistance : Nat
  frameDepth : Nat
  scanDistance_pos : 0 < scanDistance
  frameDepth_pos : 0 < frameDepth
deriving DecidableEq, Repr

/-- Why a pair of bounds is rejected: one of them is zero. -/
inductive LimitError where
  | noScanDistance
  | noFrameDepth
deriving DecidableEq, Repr

namespace LimitError

/-- What is said about a rejected pair of bounds. -/
def message : LimitError → String
  | .noScanDistance =>
    "invalid unwinder configuration: max_scan_distance must be at least 1 instruction"
  | .noFrameDepth => "invalid unwinder configuration: max_frame_depth must be at least 1 frame"

end LimitError

namespace Limits

/-- The bounds of a walk that is told none. -/
def default : Limits := ⟨512, 32, by decide, by decide⟩

instance : Inhabited Limits := ⟨default⟩

/-- The limits with the given bounds.  The scan distance is looked at first. -/
def validate (scanDistance frameDepth : Nat) : Except LimitError Limits :=
  if hscan : 0 < scanDistance then
    if hdepth : 0 < frameDepth then
      .ok ⟨scanDistance, frameDepth, hscan, hdepth⟩
    else .error .noFrameDepth
  else .error .noScanDistance

/-- Positive bounds are accepted and kept. -/
theorem validate_eq_ok_iff {scanDistance frameDepth : Nat} {limits : Limits} :
    validate scanDistance frameDepth = .ok limits ↔
      limits.scanDistance = scanDistance ∧ limits.frameDepth = frameDepth := by
  rcases limits with ⟨scan, depth, hscanPos, hdepthPos⟩
  unfold validate
  by_cases hscan : 0 < scanDistance
  · by_cases hdepth : 0 < frameDepth
    · simp [hscan, hdepth, eq_comm]
    · simp only [hscan, hdepth, dite_true, dite_false, reduceCtorEq, false_iff]
      omega
  · simp only [hscan, dite_false, reduceCtorEq, false_iff]
    omega

/-- Bounds are rejected for the first one that is zero. -/
theorem validate_eq_error_iff {scanDistance frameDepth : Nat} {error : LimitError} :
    validate scanDistance frameDepth = .error error ↔
      (scanDistance = 0 ∧ error = .noScanDistance) ∨
        (0 < scanDistance ∧ frameDepth = 0 ∧ error = .noFrameDepth) := by
  unfold validate
  by_cases hscan : 0 < scanDistance
  · by_cases hdepth : 0 < frameDepth
    · simp [hscan, hdepth, Nat.ne_of_gt hscan, Nat.ne_of_gt hdepth]
    · simp [hscan, Nat.eq_zero_of_not_pos hdepth, Nat.ne_of_gt hscan, eq_comm]
  · simp [Nat.eq_zero_of_not_pos hscan, eq_comm]

end Limits

end Backtrace
