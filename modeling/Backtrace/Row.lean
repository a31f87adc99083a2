import Backtrace.CallStack

/-!
# Rows of a call stack list

A debugger shows a call stack as rows of two columns, one row a frame, and jumps to the function of
a row that is activated.  Drawing the rows is not done here.

Main results:

- Theorem `CallStack.rows_of_available`: a call stack with frames has a row for each of them.
- Theorem `CallStack.rows_of_unavailable`: a call stack without frames has one row, which leads
  nowhere.
- Theorem `CallStack.target_rows`: activating a row leads to the function of its frame.
-/

namespace Backtrace

/-- One line of a call stack list: the function by its start, and its name if it has one, then where
its caller goes on, and where to jump when the row is activated. -/
structure Row where
  function : String
  caller : String
  target : Option Address
deriving DecidableEq, Repr

namespace Row

/-- The only row when no frame could be rebuilt. -/
def unavailable : Row := ⟨"Call stack unavailable at this state.", "", none⟩

/-- The function column for a function that starts at `entry`. -/
def functionText (entry : Address) (name : Option String) : String :=
  match name with
  | none => Hex.ofWord .upper entry
  | some name => Hex.ofWord .upper entry ++ " (" ++ name ++ ")"

/-- The row of a frame, with the name that `name?` gives its function. -/
def ofFrame (name? : Address → Option String) (frame : Frame) : Row where
  function := functionText frame.entry (name? frame.entry)
  caller := Hex.ofWord .upper frame.returnAddress
  target := some frame.entry

@[simp] theorem target_ofFrame (name? : Address → Option String) (frame : Frame) :
    (ofFrame name? frame).target = some frame.entry := rfl

end Row

namespace CallStack

/-- The rows of a call stack, innermost frame first, with names by `name?`. -/
def rows (stack : CallStack) (name? : Address → Option String) : List Row :=
  if stack.unavailable then [.unavailable] else stack.frames.map (Row.ofFrame name?)

/-- A call stack without frames has one row, which leads nowhere. -/
theorem rows_of_unavailable {stack : CallStack} (name? : Address → Option String)
    (hempty : stack.frames = []) : stack.rows name? = [.unavailable] := by
  rw [rows, if_pos (unavailable_iff.mpr hempty)]

/-- A call stack with frames has a row for each of them. -/
theorem rows_of_available {stack : CallStack} (name? : Address → Option String)
    (hframes : stack.frames ≠ []) :
    stack.rows name? = stack.frames.map (Row.ofFrame name?) := by
  rw [rows, if_neg (fun hempty => hframes (unavailable_iff.mp hempty))]

/-- The row at an index leads to the function of the frame at that index. -/
theorem target_rows (stack : CallStack) (name? : Address → Option String) (index : Nat) :
    ((stack.rows name?)[index]?).bind Row.target = (stack.frames[index]?).map Frame.entry := by
  by_cases hframes : stack.frames = []
  · rw [rows_of_unavailable name? hframes, hframes]
    rcases index with _ | index <;> rfl
  · rw [rows_of_available name? hframes, List.getElem?_map]
    rcases stack.frames[index]? with _ | frame <;> rfl

end CallStack

end Backtrace
