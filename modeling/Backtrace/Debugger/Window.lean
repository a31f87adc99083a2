import Backtrace.Mips
import Backtrace.Row
import Backtrace.SymbolTable
import Backtrace.Walk

/-!
# The call stack window

A debugger's window that lists the call stack.  It works its rows out anew whenever it is told that
the machine has stopped, and keeps them until the next time, whatever happens to memory in between.

Main results:

- Theorem `Window.activate_refresh`: activating a row leads to the function of that frame in the
  stack of the last stop.
-/

namespace Backtrace

namespace Debugger

/-- The rows that are shown, with all that is needed to work them out again: the limits of every
walk and the names of functions. -/
structure Window where
  limits : Limits
  symbols : SymbolTable
  rows : List Row
deriving DecidableEq

namespace Window

/-- A window that has not been told of any stop. -/
def blank (limits : Limits) (symbols : SymbolTable) : Window := ⟨limits, symbols, []⟩

/-- The call stack of a machine that has stopped. -/
def callStack (window : Window) (memory : MemoryView) (registers : Registers) : CallStack :=
  Machine.unwind ⟨memory, Mips.classifier⟩ window.limits registers

/-- The window once it is told that the machine has stopped. -/
def refresh (window : Window) (memory : MemoryView) (registers : Registers) : Window :=
  { window with rows := (window.callStack memory registers).rows window.symbols.name? }

/-- Where activating the row at `index` leads. -/
def activate (window : Window) (index : Nat) : Option Address :=
  (window.rows[index]?).bind Row.target

/-- A window that has not been told of any stop leads nowhere. -/
@[simp] theorem activate_blank (limits : Limits) (symbols : SymbolTable) (index : Nat) :
    (blank limits symbols).activate index = none := by
  simp [blank, activate]

/-- Activating a row leads to the function of that frame in the stack of the last stop. -/
theorem activate_refresh (window : Window) (memory : MemoryView) (registers : Registers)
    (index : Nat) :
    (window.refresh memory registers).activate index =
      ((window.callStack memory registers).frames[index]?).map Frame.entry :=
  CallStack.target_rows _ _ _

end Window

end Debugger

end Backtrace
