import Backtrace.Mips.Assembly

/-!
# Reading back what was assembled

An assembled word is made of fields, each in a place of its own, so each field reads back as what
was put there.  The meaning of a word follows from its fields.

Main results:

- Theorems `opcode_immediateForm`, `rs_immediateForm`, `rt_immediateForm` and
  `immediate_immediateForm`: an immediate form reads back field by field.
- Theorem `classify_encode`: every assembled instruction reads back as what it means.
-/

namespace Backtrace

namespace Mips

namespace Assembly

/-! ## Fields of an immediate form -/

section ImmediateForm

variable {operation source second : Nat} (value : Int16)
  (hoperation : operation < 64) (hsource : source < 32) (hsecond : second < 32)

include hoperation hsource hsecond

/-- An immediate form as one number, with the places of its fields written out. -/
theorem toNat_immediateForm_eq :
    (immediateForm operation source second value).toNat =
      0x4000000 * operation + 0x200000 * source + 0x10000 * second + immediateBits value := by
  rw [toNat_immediateForm value hoperation hsource hsecond]
  omega

theorem opcode_immediateForm :
    opcode (immediateForm operation source second value) = operation := by
  have hbits := immediateBits_lt value
  unfold opcode
  rw [toNat_immediateForm_eq value hoperation hsource hsecond]
  omega

theorem rs_immediateForm : rs (immediateForm operation source second value) = source := by
  have hbits := immediateBits_lt value
  unfold rs
  rw [toNat_immediateForm_eq value hoperation hsource hsecond]
  omega

theorem rt_immediateForm : rt (immediateForm operation source second value) = second := by
  have hbits := immediateBits_lt value
  unfold rt
  rw [toNat_immediateForm_eq value hoperation hsource hsecond]
  omega

theorem immediate_immediateForm :
    immediate (immediateForm operation source second value) = value.toInt32 := by
  have hnumber := toNat_immediateForm_eq value hoperation hsource hsecond
  have hlow : ((immediateForm operation source second value).toNat : Int) % (0x10000 : Nat) =
      (immediateBits value : Int) % (0x10000 : Nat) := by
    omega
  apply Int32.toInt_inj.mp
  rw [toInt_immediate, Int16.toInt_toInt32, ← bmod_immediateBits value, Int.bmod_def, Int.bmod_def,
    hlow]

/-- The meaning of an immediate form depends on what was put into its fields. -/
theorem classify_immediateForm (himmediate : jumpAndLink < operation) :
    classify (immediateForm operation source second value) =
      if operation ∈ addImmediate ∧ source = sp ∧ second = sp then
        .stackAdjust (some value.toInt32)
      else if operation ∈ store ∧ source = sp ∧ second = ra then .saveLink value.toInt32
      else .unknown := by
  have hspecial : operation ≠ special := Nat.ne_of_gt (Nat.lt_trans (by decide) himmediate)
  have hbranch : operation ≠ branch := Nat.ne_of_gt (Nat.lt_trans (by decide) himmediate)
  have hjump : operation ≠ jumpAndLink := Nat.ne_of_gt himmediate
  unfold classify
  rw [opcode_immediateForm value hoperation hsource hsecond,
    rs_immediateForm value hoperation hsource hsecond,
    rt_immediateForm value hoperation hsource hsecond,
    immediate_immediateForm value hoperation hsource hsecond, if_neg hspecial, if_neg hbranch,
    if_neg hjump]

end ImmediateForm

/-! ## Meanings -/

/-- What an assembled instruction means to a walk. -/
def meaning : Assembly → Instruction
  | .nop => .unknown
  | .jrRa => .ret
  | .addiuSp amount => .stackAdjust (some amount.toInt32)
  | .swRa offset => .saveLink offset.toInt32
  | .sdRa offset => .saveLink offset.toInt32
  | .lwRa _ => .unknown
  | .jal target => .call (some (UInt32.ofNat (4 * (target.toNat / 4 % 0x4000000))))

/-- A call reads back the operation it was written with. -/
theorem opcode_encode_jal (target : Address) : opcode (encode (.jal target)) = jumpAndLink := by
  have hindex : target.toNat / 4 % 0x4000000 < 0x4000000 := Nat.mod_lt _ (by decide)
  unfold opcode
  rw [toNat_encode_jal, jumpAndLink]
  generalize target.toNat / 4 % 0x4000000 = index at hindex ⊢
  omega

/-- A call reads back the slot number of its target within the segment. -/
theorem jumpIndex_encode_jal (target : Address) :
    jumpIndex (encode (.jal target)) = target.toNat / 4 % 0x4000000 := by
  have hindex : target.toNat / 4 % 0x4000000 < 0x4000000 := Nat.mod_lt _ (by decide)
  unfold jumpIndex
  rw [toNat_encode_jal, jumpAndLink]
  generalize target.toNat / 4 % 0x4000000 = index at hindex ⊢
  omega

/-- A call reads back as a call to its target within the segment. -/
theorem classify_encode_jal (target : Address) :
    classify (encode (.jal target)) = meaning (.jal target) := by
  have hspecial : jumpAndLink ≠ special := by decide
  have hbranch : jumpAndLink ≠ branch := by decide
  rw [classify, opcode_encode_jal, if_neg hspecial, if_neg hbranch, if_pos rfl,
    jumpIndex_encode_jal, meaning]

/-- Every assembled instruction reads back as what it means. -/
theorem classify_encode (instruction : Assembly) :
    classify instruction.encode = instruction.meaning := by
  cases instruction with
  | nop => rfl
  | jrRa => rfl
  | addiuSp amount =>
    change classify (immediateForm 0x09 sp sp amount) = .stackAdjust (some amount.toInt32)
    rw [classify_immediateForm amount, if_pos] <;> decide
  | swRa offset =>
    change classify (immediateForm 0x2B sp ra offset) = .saveLink offset.toInt32
    rw [classify_immediateForm offset, if_neg, if_pos] <;> decide
  | sdRa offset =>
    change classify (immediateForm 0x3F sp ra offset) = .saveLink offset.toInt32
    rw [classify_immediateForm offset, if_neg, if_pos] <;> decide
  | lwRa offset =>
    change classify (immediateForm 0x23 sp ra offset) = .unknown
    rw [classify_immediateForm offset, if_neg, if_neg] <;> decide
  | jal target => exact classify_encode_jal target

end Assembly

end Mips

end Backtrace
