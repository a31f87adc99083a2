import Backtrace.Debugger.Window

/-!
# Debugging sessions

A session is memory and a call stack window.  Words of memory change, and from time to time the
machine stops and the window is told.

Main results:

- Theorem `Session.run_append`: a longer history goes on from where the earlier one left.
- Theorems `Session.limits_run` and `Session.symbols_run`: no event changes the limits or the names.
-/

namespace Backtrace

namespace Debugger

/-- What can happen in a session. -/
inductive Event where
  /-- A word of memory is overwritten; nothing happens where nothing is mapped. -/
  | write (address : Address) (value : Word)
  /-- The machine stops. -/
  | stop (registers : Registers)
deriving DecidableEq, Repr

/-- The memory of a machine, and the window on its call stack. -/
structure Session where
  memory : MappedMemory
  window : Window
deriving DecidableEq

namespace Session

/-- The session after one event. -/
def after (session : Session) : Event → Session
  | .write address value =>
    { session with memory := (session.memory.write? address value).getD session.memory }
  | .stop registers =>
    { session with window := session.window.refresh session.memory.read registers }

/-- The session after some events. -/
def run (session : Session) (events : List Event) : Session := events.foldl after session

@[simp] theorem run_cons (session : Session) (event : Event) (events : List Event) :
    session.run (event :: events) = (session.after event).run events := rfl

/-- A longer history goes on from where the earlier one left. -/
theorem run_append (session : Session) (earlier later : List Event) :
    session.run (earlier ++ later) = (session.run earlier).run later :=
  List.foldl_append

@[simp] theorem window_after_write (session : Session) (address : Address) (value : Word) :
    (session.after (.write address value)).window = session.window := rfl

/-- No event changes the limits. -/
@[simp] theorem limits_run (session : Session) (events : List Event) :
    (session.run events).window.limits = session.window.limits := by
  induction events generalizing session with
  | nil => rfl
  | cons event rest ih =>
    rw [run_cons, ih]
    cases event <;> rfl

/-- No event changes the names. -/
@[simp] theorem symbols_run (session : Session) (events : List Event) :
    (session.run events).window.symbols = session.window.symbols := by
  induction events generalizing session with
  | nil => rfl
  | cons event rest ih =>
    rw [run_cons, ih]
    cases event <;> rfl

end Session

end Debugger

end Backtrace
