import Backtrace.Debugger.Sample
import Backtrace.Debugger.Settings
import Backtrace.Debugger.Window

/-!
# A tour of the window

The tour loads the sample image and stops its machine three times: in `main` before the return
address is stored, in `helper`, and at an address about which nothing is known.  At each stop it
tells what the call stack window shows, as records for a log.

The log is not part of the tour.  It decides which records are kept and how they are written, and
it may be told to keep records in a way that it does not understand; then the tour does not begin.
-/

namespace Backtrace

namespace Debugger

namespace Tour

/-! ## Records -/

/-- How much a record matters. -/
inductive Level where
  /-- Something that went as it should. -/
  | info
  /-- Something that was put right. -/
  | warn
deriving DecidableEq, Repr

/-- What is told to the log: a message, and values that come with it by name. -/
structure Record where
  level : Level
  message : String
  fields : List (String × String)
deriving DecidableEq, Repr

/-- The text of a row: the function in a column of at least twenty-four characters, then the
caller. -/
def rowText (row : Row) : String :=
  row.function.pushn ' ' (24 - row.function.length) ++ " " ++ row.caller

/-- What is told about a call stack and the rows that show it. -/
def report (termination : Termination) (rows : List Row) : List Record :=
  ⟨.info, "call stack updated", [("termination", termination.message)]⟩ ::
    rows.map fun row => ⟨.info, rowText row, []⟩

/-- The window after a stop, and what is told about it. -/
def stopped (window : Window) (memory : MemoryView) (registers : Registers) :
    Window × List Record :=
  let refreshed := window.refresh memory registers
  (refreshed, report (window.callStack memory registers).termination refreshed.rows)

/-- What is told about limits that were rejected, if they were. -/
def warning (settings : Settings) : List Record :=
  (settings.rejected.map fun error => ⟨.warn, error.message ++ ", using defaults", []⟩).toList

/-- What is told about a double click on the second row, if it does anything. -/
def doubleClick (window : Window) : List Record :=
  ((window.activate 1).map fun target =>
    ⟨.info, "double click on the second row goes to " ++ Hex.ofWord .lower target, []⟩).toList

/-! ## The three stops -/

/-- The stack pointer in `main`, below its frame of thirty-two bytes. -/
def mainStackPointer : Address := Sample.stackTop - 32

/-- The stack pointer in `helper`, below its frame of sixteen bytes. -/
def helperStackPointer : Address := mainStackPointer - 16

/-- Where `main` returns to, in a function that is not loaded. -/
def mainReturn : Address := 0x00400000

/-- Where `helper` returns to, behind the delay slot of the call in `main`. -/
def helperReturn : Address := Sample.mainEntry + 0x14

/-- In `main`, before it has stored its return address. -/
def inMain : Registers := ⟨Sample.mainEntry + 4, mainStackPointer, mainReturn⟩

/-- In `helper`, which has stored its return address. -/
def inHelper : Registers := ⟨Sample.helperEntry + 12, helperStackPointer, helperReturn⟩

/-- At an address that nothing is known about. -/
def astray : Registers := ⟨0x00800000, Sample.stackTop, 0⟩

/-- The memory once `main` and `helper` have stored their return addresses. -/
def memoryInHelper? : Option MappedMemory := do
  let stored ← Sample.memory.write? (mainStackPointer + 28) mainReturn
  stored.write? (helperStackPointer + 12) helperReturn

/-! ## The tour -/

/-- What the tour leaves behind: its exit status, which is zero, or `101` when it had to be broken
off, and the records that the log has kept. -/
structure Transcript where
  status : Nat
  records : List Record
deriving DecidableEq, Repr

/-- The tour with the given settings.  `keeps?` says which records the log keeps, or is `none` when
the log could not be set up. -/
def run (keeps? : Option (Record → Bool)) (settings : Settings) : Transcript :=
  match keeps? with
  | none => ⟨101, []⟩
  | some keeps =>
    let (window, first) :=
      stopped (.blank settings.limits Sample.symbols) Sample.memory.read inMain
    match memoryInHelper? with
    | none => ⟨101, (warning settings ++ first).filter keeps⟩
    | some memory =>
      let (window, second) := stopped window memory.read inHelper
      let (_, third) := stopped window memory.read astray
      ⟨0, (warning settings ++ first ++ second ++ doubleClick window ++ third).filter keeps⟩

end Tour

end Debugger

end Backtrace
