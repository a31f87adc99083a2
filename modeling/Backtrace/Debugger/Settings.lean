import Backtrace.Limits
import Backtrace.Numeral

/-!
# Settings of a debugger

A debugger takes the limits of its walks from two texts, each of which may be missing.  A text that
is no numeral counts as missing, and what is missing has its default.  Limits are never half taken
over: a pair that is rejected is replaced as a whole by the default.

Main results:

- Theorems `Settings.ofTexts_of_accepted` and `Settings.ofTexts_of_rejected`: the limits are the
  chosen pair or, if that is rejected, the default.
-/

namespace Backtrace

namespace Debugger

/-- The limits a debugger works with, and why those it was told were rejected, if they were. -/
structure Settings where
  limits : Limits
  rejected : Option LimitError
deriving DecidableEq, Repr

namespace Settings

/-- The number that a text sets, or the default. -/
def choose (text : Option String) (otherwise : Nat) : Nat :=
  (text.bind Numeral.read?).getD otherwise

/-- The settings told by a text for the scan distance and a text for the frame depth. -/
def ofTexts (scanDistance frameDepth : Option String) : Settings :=
  match Limits.validate (choose scanDistance Limits.default.scanDistance)
      (choose frameDepth Limits.default.frameDepth) with
  | .ok limits => ⟨limits, none⟩
  | .error error => ⟨.default, some error⟩

/-- A chosen pair that is accepted is taken over. -/
theorem ofTexts_of_accepted {scanDistance frameDepth : Option String} {limits : Limits}
    (haccepted : Limits.validate (choose scanDistance Limits.default.scanDistance)
      (choose frameDepth Limits.default.frameDepth) = .ok limits) :
    ofTexts scanDistance frameDepth = ⟨limits, none⟩ := by
  simp only [ofTexts, haccepted]

/-- A chosen pair that is rejected is replaced by the default. -/
theorem ofTexts_of_rejected {scanDistance frameDepth : Option String} {error : LimitError}
    (hrejected : Limits.validate (choose scanDistance Limits.default.scanDistance)
      (choose frameDepth Limits.default.frameDepth) = .error error) :
    ofTexts scanDistance frameDepth = ⟨.default, some error⟩ := by
  simp only [ofTexts, hrejected]

end Settings

end Debugger

end Backtrace
