import Backtrace.Mips

/-!
# Assembling MIPS words

The handful of instructions that matter to a stack walk, and the words they are written as.  Images
of small programs are built from them.

Main results:

- Theorem `Assembly.toNat_immediateForm`: an immediate form is the sum of its fields, each in its
  place.
- Theorem `Assembly.toNat_encode_jal`: a call holds the slot number of its target within its
  segment.
-/

namespace Backtrace

namespace Mips

/-- An instruction that opens, closes or leaves a stack frame. -/
inductive Assembly where
  /-- Does nothing. -/
  | nop
  /-- `jr ra` -/
  | jrRa
  /-- `addiu sp, sp, amount` -/
  | addiuSp (amount : Int16)
  /-- `sw ra, offset(sp)` -/
  | swRa (offset : Int16)
  /-- `sd ra, offset(sp)` -/
  | sdRa (offset : Int16)
  /-- `lw ra, offset(sp)` -/
  | lwRa (offset : Int16)
  /-- `jal target`; the target lies in the same segment of 256 MiB as the call. -/
  | jal (target : Address)
deriving DecidableEq, Repr

namespace Assembly

/-- The sixteen bits that stand for a signed number in an immediate form. -/
def immediateBits (value : Int16) : Nat := (value.toInt % 0x10000).toNat

/-- The word with an operation, a source register, a second register and an immediate. -/
def immediateForm (operation source second : Nat) (value : Int16) : Word :=
  UInt32.ofNat ((operation <<< 26) + (source <<< 21) + (second <<< 16) + immediateBits value)

/-- The word an instruction is written as. -/
def encode : Assembly → Word
  | .nop => 0
  | .jrRa => UInt32.ofNat ((ra <<< 21) + jumpRegister)
  | .addiuSp amount => immediateForm 0x09 sp sp amount
  | .swRa offset => immediateForm 0x2B sp ra offset
  | .sdRa offset => immediateForm 0x3F sp ra offset
  | .lwRa offset => immediateForm 0x23 sp ra offset
  | .jal target => UInt32.ofNat ((jumpAndLink <<< 26) + target.toNat / 4 % 0x4000000)

/-! ## Small facts -/

/-- An immediate takes sixteen bits. -/
theorem immediateBits_lt (value : Int16) : immediateBits value < 0x10000 := by
  unfold immediateBits
  omega

/-- The bits of an immediate read back as the signed number. -/
theorem bmod_immediateBits (value : Int16) :
    Int.bmod (immediateBits value) 0x10000 = value.toInt := by
  have hlower := value.le_toInt
  have hupper := value.toInt_lt
  have hbits : (immediateBits value : Int) = value.toInt % 0x10000 := by
    unfold immediateBits
    omega
  rw [Int.bmod_def, hbits]
  split <;> omega

/-- Fields that are as narrow as their bits do not disturb each other. -/
theorem toNat_immediateForm {operation source second : Nat} (value : Int16)
    (hoperation : operation < 64) (hsource : source < 32) (hsecond : second < 32) :
    (immediateForm operation source second value).toNat =
      (operation <<< 26) + (source <<< 21) + (second <<< 16) + immediateBits value := by
  have := immediateBits_lt value
  unfold immediateForm
  rw [UInt32.toNat_ofNat']
  omega

/-- A call keeps the slot number of its target, up to the segment. -/
theorem toNat_encode_jal (target : Address) :
    (encode (.jal target)).toNat = (jumpAndLink <<< 26) + target.toNat / 4 % 0x4000000 := by
  have hindex : target.toNat / 4 % 0x4000000 < 0x4000000 := Nat.mod_lt _ (by decide)
  change (UInt32.ofNat ((jumpAndLink <<< 26) + target.toNat / 4 % 0x4000000)).toNat = _
  rw [UInt32.toNat_ofNat', jumpAndLink]
  generalize target.toNat / 4 % 0x4000000 = index at hindex ⊢
  omega

end Assembly

end Mips

end Backtrace
