import Backtrace.Instruction

/-!
# Classifying MIPS words

Compilers for these machines open a function with `addiu sp, sp, -n` followed by a store of the
return address register to the stack, and close it with `jr ra` and the delay slot behind it, which
usually gives the stack back.  This module names the fields of a word and reads those shapes.

Main results:

- Theorem `Mips.toInt_immediate`: an immediate is the signed reading of the low sixteen bits.
-/

namespace Backtrace

namespace Mips

/-! ## Fields of a word -/

/-- The operation, in the top six bits. -/
def opcode (word : Word) : Nat := word.toNat >>> 26

/-- The source register. -/
def rs (word : Word) : Nat := (word.toNat >>> 21) % 32

/-- The second register: the destination of an immediate form, the value of a store. -/
def rt (word : Word) : Nat := (word.toNat >>> 16) % 32

/-- The destination of a register form. -/
def rd (word : Word) : Nat := (word.toNat >>> 11) % 32

/-- The operation of a register form, in the low six bits. -/
def function (word : Word) : Nat := word.toNat % 64

/-- The low sixteen bits, read as a signed number. -/
def immediate (word : Word) : Int32 := Int32.ofInt (Int.bmod word.toNat 0x10000)

/-- The slot number that a jump encodes. -/
def jumpIndex (word : Word) : Nat := word.toNat % 0x4000000

/-- A jump encodes twenty-six bits. -/
theorem jumpIndex_lt (word : Word) : jumpIndex word < 0x4000000 := Nat.mod_lt _ (by decide)

/-- An immediate is the balanced remainder of the word modulo `0x10000`. -/
theorem toInt_immediate (word : Word) :
    (immediate word).toInt = Int.bmod word.toNat 0x10000 := by
  have hlower : -0x8000 ≤ Int.bmod word.toNat 0x10000 := by
    have := @Int.le_bmod word.toNat 0x10000 (by decide)
    omega
  have hupper : Int.bmod word.toNat 0x10000 < 0x8000 := by
    have := @Int.bmod_lt word.toNat 0x10000 (by decide)
    omega
  exact Int32.toInt_ofInt_of_le (by omega) (by omega)

/-! ## Registers and operations -/

/-- The stack pointer's register number. -/
def sp : Nat := 29

/-- The return address register's number. -/
def ra : Nat := 31

/-- Register forms: the operation stands in the low six bits. -/
def special : Nat := 0x00

/-- Branches that compare one register, told apart by the second register field. -/
def branch : Nat := 0x01

/-- A call with its target in the word: `jal`. -/
def jumpAndLink : Nat := 0x03

/-- Adding an immediate: `addi`, `addiu`, `daddi` and `daddiu`. -/
def addImmediate : List Nat := [0x08, 0x09, 0x18, 0x19]

/-- Storing a register: `sw`, `sd` and `sq`. -/
def store : List Nat := [0x2B, 0x3F, 0x1F]

/-- Branches that call: `bltzal`, `bgezal`, `bltzall` and `bgezall`. -/
def linkingBranch : List Nat := [0x10, 0x11, 0x12, 0x13]

/-- A jump to a register: `jr`. -/
def jumpRegister : Nat := 0x08

/-- A call through a register: `jalr`. -/
def jumpAndLinkRegister : Nat := 0x09

/-- Register forms that compute a new value: `add`, `addu`, `sub`, `subu`, `or`, `dadd`, `daddu`,
`dsub` and `dsubu`. -/
def registerArithmetic : List Nat := [0x20, 0x21, 0x22, 0x23, 0x25, 0x2C, 0x2D, 0x2E, 0x2F]

/-! ## Classification -/

/-- A register form returns, calls, or gives the stack pointer a value the word does not tell. -/
def classifySpecial (word : Word) : Instruction :=
  if function word = jumpRegister then
    if rs word = ra then .ret else .unknown
  else if function word = jumpAndLinkRegister then .call none
  else if function word ∈ registerArithmetic ∧ rd word = sp then .stackAdjust none
  else .unknown

/-- The meaning of a word.

The target of a call by `jal` is relative to the segment of its delay slot, whose upper four bits a
lone word does not know. -/
def classify (word : Word) : Instruction :=
  if opcode word = special then classifySpecial word
  else if opcode word = branch then
    if rt word ∈ linkingBranch then .call none else .unknown
  else if opcode word = jumpAndLink then .call (some (UInt32.ofNat (4 * jumpIndex word)))
  else if opcode word ∈ addImmediate ∧ rs word = sp ∧ rt word = sp then
    .stackAdjust (some (immediate word))
  else if opcode word ∈ store ∧ rs word = sp ∧ rt word = ra then .saveLink (immediate word)
  else .unknown

/-- The classifier for MIPS code, where a return takes its delay slot along. -/
def classifier : Classifier where
  classify := classify
  returnWidth := 2

end Mips

end Backtrace
