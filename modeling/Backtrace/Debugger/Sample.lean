import Backtrace.Memory
import Backtrace.Mips.Assembly
import Backtrace.SymbolTable

/-!
# A sample image

A small program to show a debugger with: `main` calls `helper`, and whatever called `main` is not
loaded.  In front of `main` stands the end of some other function.  The stack has room for a few
words, all zero.
-/

namespace Backtrace

namespace Debugger

namespace Sample

/-- Where `main` starts. -/
def mainEntry : Address := 0x00100000

/-- Where `helper` starts. -/
def helperEntry : Address := 0x00100024

/-- The address behind the last word of the stack. -/
def stackTop : Address := 0x00200000

/-- The program, from the end of the function in front of `main`. -/
def program : List Mips.Assembly :=
  [ .jrRa, .nop,
    -- `main`
    .addiuSp (-32), .swRa 28, .nop, .jal helperEntry, .nop, .nop, .lwRa 28, .jrRa, .addiuSp 32,
    -- `helper`
    .addiuSp (-16), .swRa 12, .nop, .nop, .lwRa 12, .jrRa, .addiuSp 16 ]

/-- The image as it is loaded: the program, and sixteen words of stack. -/
def memory : MappedMemory :=
  MappedMemory.empty
    |>.map (mainEntry - 8) (program.map Mips.Assembly.encode)
    |>.map (stackTop - 0x40) (List.replicate 16 0)

/-- The image while `helper` runs: it and `main` have stored where they return to. -/
def running : MappedMemory :=
  MappedMemory.empty
    |>.map (mainEntry - 8) (program.map Mips.Assembly.encode)
    |>.map (stackTop - 0x40) (((List.replicate 16 0).set 7 0x00100014).set 15 0x00400000)

/-- The names of the program's functions. -/
def symbols : SymbolTable := .ofList [(mainEntry, "main"), (helperEntry, "helper")]

end Sample

end Debugger

end Backtrace
