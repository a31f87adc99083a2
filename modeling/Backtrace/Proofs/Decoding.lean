import Backtrace.Proofs.Encoding

/-!
# Words with a meaning

What a word means to a walk says a good deal about the word.  Reading a meaning back gives the
fields that carry it: all of them for a call, all but the operation for a movement of the stack
pointer or a store of the link register, and three of them for a return.  So assembling and
classifying undo each other as far as the meaning goes, and no two assembled instructions are
written alike unless they are the same.

Main results:

- Theorem `classify_eq_iff`: a meaning other than an unknown one, in terms of fields.
- Theorems `classify_eq_call_iff`, `classify_eq_stackAdjust_iff`, `classify_eq_saveLink_iff` and
  `classify_eq_ret_iff`: the same in terms of assembled words.
- Theorem `encode_eq_iff`: which instructions are written alike.
- Theorem `classify_encode_inverse`: all of this together.
-/

namespace Backtrace

namespace Mips

/-! ## Meanings by fields -/

/-- The fields that give `word` a meaning which a walk follows. -/
inductive Means (word : Word) : Instruction → Prop
  /-- A jump to the return address register returns. -/
  | ret (hopcode : opcode word = special) (hfunction : function word = jumpRegister)
      (hrs : rs word = ra) : Means word .ret
  /-- A register form that calls. -/
  | callRegister (hopcode : opcode word = special)
      (hfunction : function word = jumpAndLinkRegister) : Means word (.call none)
  /-- A branch that calls. -/
  | callBranch (hopcode : opcode word = branch) (hrt : rt word ∈ linkingBranch) :
    Means word (.call none)
  /-- A call with a slot number. -/
  | call {target : Address} (hopcode : opcode word = jumpAndLink)
      (htarget : target.toNat = 4 * jumpIndex word) : Means word (.call (some target))
  /-- A register form that computes the stack pointer. -/
  | compute (hopcode : opcode word = special) (hfunction : function word ∈ registerArithmetic)
      (hrd : rd word = sp) : Means word (.stackAdjust none)
  /-- An immediate is added to the stack pointer. -/
  | adjust {delta : Int32} (hopcode : opcode word ∈ addImmediate) (hrs : rs word = sp)
      (hrt : rt word = sp) (hdelta : immediate word = delta) :
      Means word (.stackAdjust (some delta))
  /-- The return address register is stored an immediate away from the stack pointer. -/
  | save {offset : Int32} (hopcode : opcode word ∈ store) (hrs : rs word = sp) (hrt : rt word = ra)
      (hoffset : immediate word = offset) : Means word (.saveLink offset)

/-- A slot number takes up less than an address. -/
theorem toNat_ofNat_jumpIndex (word : Word) :
    (UInt32.ofNat (4 * jumpIndex word)).toNat = 4 * jumpIndex word := by
  have hindex := jumpIndex_lt word
  rw [UInt32.toNat_ofNat']
  omega

/-- A word is unknown or has the fields of its meaning. -/
theorem unknown_or_means (word : Word) :
    classify word = .unknown ∨ Means word (classify word) := by
  unfold classify
  split
  · next hopcode =>
    unfold classifySpecial
    split
    · next hfunction =>
      split
      · next hrs => exact Or.inr (.ret hopcode hfunction hrs)
      · exact Or.inl rfl
    · split
      · next hfunction => exact Or.inr (.callRegister hopcode hfunction)
      · split
        · next hcompute => exact Or.inr (.compute hopcode hcompute.1 hcompute.2)
        · exact Or.inl rfl
  · split
    · next hopcode =>
      split
      · next hrt => exact Or.inr (.callBranch hopcode hrt)
      · exact Or.inl rfl
    · split
      · next hopcode => exact Or.inr (.call hopcode (toNat_ofNat_jumpIndex word))
      · split
        · next hadjust => exact Or.inr (.adjust hadjust.1 hadjust.2.1 hadjust.2.2 rfl)
        · split
          · next hsave => exact Or.inr (.save hsave.1 hsave.2.1 hsave.2.2 rfl)
          · exact Or.inl rfl

/-- No add-immediate shares its operation with the forms that are told apart by operation alone, or
with a store. -/
theorem opcode_of_mem_addImmediate {word : Word} (hopcode : opcode word ∈ addImmediate) :
    opcode word ≠ special ∧ opcode word ≠ branch ∧ opcode word ≠ jumpAndLink ∧
      opcode word ∉ store := by
  have hdistinct : ∀ operation ∈ addImmediate,
      operation ≠ special ∧ operation ≠ branch ∧ operation ≠ jumpAndLink ∧ operation ∉ store := by
    decide
  exact hdistinct _ hopcode

/-- The fields of a meaning give a word that meaning. -/
theorem classify_of_means {word : Word} {instruction : Instruction}
    (hmeans : Means word instruction) : classify word = instruction := by
  cases hmeans with
  | ret hopcode hfunction hrs =>
    rw [classify, if_pos hopcode, classifySpecial, if_pos hfunction, if_pos hrs]
  | callRegister hopcode hfunction =>
    have hne : jumpAndLinkRegister ≠ jumpRegister := by decide
    rw [classify, if_pos hopcode, classifySpecial, hfunction, if_neg hne, if_pos rfl]
  | callBranch hopcode hrt =>
    have hne : branch ≠ special := by decide
    rw [classify, hopcode, if_neg hne, if_pos rfl, if_pos hrt]
  | call hopcode htarget =>
    have hspecial : jumpAndLink ≠ special := by decide
    have hbranch : jumpAndLink ≠ branch := by decide
    have hsame := UInt32.toNat_inj.mp ((toNat_ofNat_jumpIndex word).trans htarget.symm)
    rw [classify, hopcode, if_neg hspecial, if_neg hbranch, if_pos rfl, hsame]
  | compute hopcode hfunction hrd =>
    have hdistinct : ∀ operation ∈ registerArithmetic,
        operation ≠ jumpRegister ∧ operation ≠ jumpAndLinkRegister := by
      decide
    rcases hdistinct _ hfunction with ⟨hjump, hcall⟩
    rw [classify, if_pos hopcode, classifySpecial, if_neg hjump, if_neg hcall,
      if_pos ⟨hfunction, hrd⟩]
  | adjust hopcode hrs hrt hdelta =>
    rcases opcode_of_mem_addImmediate hopcode with ⟨hspecial, hbranch, hjump, -⟩
    rw [classify, if_neg hspecial, if_neg hbranch, if_neg hjump, if_pos ⟨hopcode, hrs, hrt⟩,
      hdelta]
  | save hopcode hrs hrt hoffset =>
    have hdistinct : ∀ operation ∈ store, operation ≠ special ∧ operation ≠ branch ∧
        operation ≠ jumpAndLink ∧ operation ∉ addImmediate := by
      decide
    rcases hdistinct _ hopcode with ⟨hspecial, hbranch, hjump, hadjust⟩
    rw [classify, if_neg hspecial, if_neg hbranch, if_neg hjump, if_neg fun h => hadjust h.1,
      if_pos ⟨hopcode, hrs, hrt⟩, hoffset]

/-- A meaning that a walk follows is that of the fields. -/
theorem classify_eq_iff {word : Word} {instruction : Instruction}
    (hknown : instruction ≠ .unknown) :
    classify word = instruction ↔ Means word instruction := by
  constructor
  · rintro rfl
    exact (unknown_or_means word).resolve_left hknown
  · exact classify_of_means

/-! ## The fields below the operation -/

/-- The low twenty-six bits of two words are the same. -/
def AgreeBelowOpcode (word other : Word) : Prop := word.toNat % 0x4000000 = other.toNat % 0x4000000

/-- An immediate is a number of sixteen bits. -/
theorem exists_immediate_eq (word : Word) : ∃ value : Int16, immediate word = value.toInt32 := by
  have hlower := @Int.le_bmod word.toNat 0x10000 (by decide)
  have hupper := @Int.bmod_lt word.toNat 0x10000 (by decide)
  refine ⟨Int16.ofInt (Int.bmod word.toNat 0x10000), Int32.toInt_inj.mp ?_⟩
  rw [toInt_immediate, Int16.toInt_toInt32]
  exact (Int16.toInt_ofInt_of_le (by omega) (by omega)).symm

namespace Assembly

/-- The signed reading of sixteen bits tells what the bits are. -/
theorem immediate_eq_iff {word : Word} {value : Int16} :
    immediate word = value.toInt32 ↔ word.toNat % 0x10000 = immediateBits value := by
  have hbits := immediateBits_lt value
  rw [← Int32.toInt_inj, toInt_immediate, Int16.toInt_toInt32, ← bmod_immediateBits]
  constructor
  · intro hsame
    have hmod := congrArg (· % (0x10000 : Int)) hsame
    simp only [Int.bmod_def] at hmod
    omega
  · intro hsame
    have hmod : (word.toNat : Int) % (0x10000 : Nat) =
        (immediateBits value : Int) % (0x10000 : Nat) := by
      omega
    rw [Int.bmod_def, Int.bmod_def, hmod]

/-- A word agrees with an immediate form below the operation exactly when its registers and its
immediate are the same. -/
theorem agreeBelowOpcode_immediateForm_iff {word : Word} {operation source second : Nat}
    {value : Int16} (hoperation : operation < 64) (hsource : source < 32) (hsecond : second < 32) :
    AgreeBelowOpcode word (immediateForm operation source second value) ↔
      rs word = source ∧ rt word = second ∧ immediate word = value.toInt32 := by
  have hbits := immediateBits_lt value
  rw [immediate_eq_iff]
  unfold AgreeBelowOpcode rs rt
  rw [toNat_immediateForm_eq value hoperation hsource hsecond]
  omega

/-- The fields that `addiu sp, sp, amount` has below its operation. -/
theorem agreeBelowOpcode_addiuSp_iff {word : Word} {amount : Int16} :
    AgreeBelowOpcode word (encode (.addiuSp amount)) ↔
      rs word = sp ∧ rt word = sp ∧ immediate word = amount.toInt32 := by
  change AgreeBelowOpcode word (immediateForm 0x09 sp sp amount) ↔ _
  exact agreeBelowOpcode_immediateForm_iff (by decide) (by decide) (by decide)

/-- The fields that `sw ra, offset(sp)` has below its operation. -/
theorem agreeBelowOpcode_swRa_iff {word : Word} {offset : Int16} :
    AgreeBelowOpcode word (encode (.swRa offset)) ↔
      rs word = sp ∧ rt word = ra ∧ immediate word = offset.toInt32 := by
  change AgreeBelowOpcode word (immediateForm 0x2B sp ra offset) ↔ _
  exact agreeBelowOpcode_immediateForm_iff (by decide) (by decide) (by decide)

/-! ## Meanings by assembled words -/

/-- A call to `target` is written in one way. -/
theorem classify_eq_call_iff {word : Word} {target : Address} :
    classify word = .call (some target) ↔
      target.toNat < 0x10000000 ∧ 4 ∣ target.toNat ∧ encode (.jal target) = word := by
  rw [classify_eq_iff (by simp)]
  constructor
  · intro hmeans
    cases hmeans with
    | call hopcode htarget =>
      have hindex := jumpIndex_lt word
      have hbound := word.toNat_lt
      refine ⟨by omega, by omega, UInt32.toNat_inj.mp ?_⟩
      rw [toNat_encode_jal, htarget]
      unfold opcode at hopcode
      unfold jumpIndex jumpAndLink at *
      omega
  · intro hword
    rcases hword with ⟨hlow, hslot, rfl⟩
    have hmeaning := classify_encode_jal target
    have htarget : UInt32.ofNat (4 * (target.toNat / 4 % 0x4000000)) = target := by
      apply UInt32.toNat_inj.mp
      rw [UInt32.toNat_ofNat']
      omega
    rw [meaning, htarget] at hmeaning
    exact (classify_eq_iff (by simp)).mp hmeaning

/-- A known movement of the stack pointer is written with one of four operations. -/
theorem classify_eq_stackAdjust_iff {word : Word} {delta : Int32} :
    classify word = .stackAdjust (some delta) ↔
      ∃ amount : Int16, delta = amount.toInt32 ∧
        AgreeBelowOpcode word (encode (.addiuSp amount)) ∧
          opcode word ∈ [0x08, 0x09, 0x18, 0x19] := by
  rw [classify_eq_iff (by simp)]
  constructor
  · intro hmeans
    cases hmeans with
    | adjust hopcode hrs hrt hdelta =>
      rcases exists_immediate_eq word with ⟨amount, hamount⟩
      refine ⟨amount, hdelta.symm.trans hamount, ?_, hopcode⟩
      exact agreeBelowOpcode_addiuSp_iff.mpr ⟨hrs, hrt, hamount⟩
  · intro hword
    rcases hword with ⟨amount, rfl, hagree, hopcode⟩
    rcases agreeBelowOpcode_addiuSp_iff.mp hagree with ⟨hrs, hrt, hamount⟩
    exact .adjust hopcode hrs hrt hamount

/-- A store of the link register is written with one of three operations. -/
theorem classify_eq_saveLink_iff {word : Word} {place : Int32} :
    classify word = .saveLink place ↔
      ∃ offset : Int16, place = offset.toInt32 ∧
        AgreeBelowOpcode word (encode (.swRa offset)) ∧ opcode word ∈ [0x2B, 0x3F, 0x1F] := by
  rw [classify_eq_iff (by simp)]
  constructor
  · intro hmeans
    cases hmeans with
    | save hopcode hrs hrt hplace =>
      rcases exists_immediate_eq word with ⟨offset, hoffset⟩
      refine ⟨offset, hplace.symm.trans hoffset, ?_, hopcode⟩
      exact agreeBelowOpcode_swRa_iff.mpr ⟨hrs, hrt, hoffset⟩
  · intro hword
    rcases hword with ⟨offset, rfl, hagree, hopcode⟩
    rcases agreeBelowOpcode_swRa_iff.mp hagree with ⟨hrs, hrt, hoffset⟩
    exact .save hopcode hrs hrt hoffset

/-- A return is written with three fields of `jr ra`. -/
theorem classify_eq_ret_iff {word : Word} :
    classify word = .ret ↔ opcode word = opcode (encode .jrRa) ∧ rs word = rs (encode .jrRa) ∧
      function word = function (encode .jrRa) := by
  have hopcode : opcode (encode .jrRa) = special := by decide
  have hrs : rs (encode .jrRa) = ra := by decide
  have hfunction : function (encode .jrRa) = jumpRegister := by decide
  rw [classify_eq_iff (by simp), hopcode, hrs, hfunction]
  constructor
  · intro hmeans
    cases hmeans with
    | ret hopcode hfunction hrs => exact ⟨hopcode, hrs, hfunction⟩
  · intro hfields
    exact .ret hfields.1 hfields.2.2 hfields.2.1

/-! ## Instructions written alike -/

/-- A mask without its two low bits looks at whole slots only. -/
theorem and_shiftLeft_two (number mask : Nat) :
    number &&& mask <<< 2 = (number >>> 2 &&& mask) <<< 2 := by
  apply Nat.eq_of_testBit_eq
  intro i
  rw [Nat.shiftLeft_and_distrib, Nat.testBit_and, Nat.testBit_and, Nat.testBit_shiftLeft,
    Nat.testBit_shiftLeft, Nat.testBit_shiftRight]
  by_cases hlow : 2 ≤ i
  · rw [Nat.add_sub_cancel' hlow]
    simp [hlow]
  · simp [hlow]

/-- The slot of a target within its segment is what a mask leaves of the target. -/
theorem toNat_and_segment (target : Address) :
    (target &&& 0x0FFFFFFC).toNat = 4 * (target.toNat / 4 % 0x4000000) := by
  have hmask := Nat.and_two_pow_sub_one_eq_mod (target.toNat >>> 2) 26
  have hbits : (0x0FFFFFFC : Address).toNat = 0x3FFFFFF <<< 2 := by decide
  simp only [Nat.reducePow, Nat.reduceSub] at hmask
  rw [UInt32.toNat_and, hbits, and_shiftLeft_two, hmask]
  omega

/-- A call reads back as a call to what the mask leaves of its target. -/
theorem classify_encode_jal_eq_and (target : Address) :
    classify (encode (.jal target)) = .call (some (target &&& 0x0FFFFFFC)) := by
  have htarget : UInt32.ofNat (4 * (target.toNat / 4 % 0x4000000)) = target &&& 0x0FFFFFFC := by
    rw [← toNat_and_segment, UInt32.ofNat_toNat]
  rw [classify_encode_jal, meaning, htarget]

/-- Calls are written alike when the mask leaves the same of their targets. -/
theorem encode_jal_eq_iff {first second : Address} :
    encode (.jal first) = encode (.jal second) ↔ first &&& 0x0FFFFFFC = second &&& 0x0FFFFFFC := by
  constructor
  · intro hsame
    have hmeaning := congrArg classify hsame
    rw [classify_encode_jal_eq_and, classify_encode_jal_eq_and] at hmeaning
    simpa using hmeaning
  · intro hsame
    have htarget := congrArg UInt32.toNat hsame
    rw [toNat_and_segment, toNat_and_segment] at htarget
    apply UInt32.toNat_inj.mp
    rw [toNat_encode_jal, toNat_encode_jal]
    omega

/-- Immediate forms are written alike when all their fields are the same. -/
theorem immediateForm_inj {operation operation' source source' second second' : Nat}
    {value value' : Int16} (hoperation : operation < 64) (hoperation' : operation' < 64)
    (hsource : source < 32) (hsource' : source' < 32) (hsecond : second < 32)
    (hsecond' : second' < 32) :
    immediateForm operation source second value = immediateForm operation' source' second' value' ↔
      operation = operation' ∧ source = source' ∧ second = second' ∧ value = value' := by
  constructor
  · intro hsame
    have hopcode := congrArg opcode hsame
    have hrs := congrArg rs hsame
    have hrt := congrArg rt hsame
    have himmediate := congrArg immediate hsame
    rw [opcode_immediateForm value hoperation hsource hsecond,
      opcode_immediateForm value' hoperation' hsource' hsecond'] at hopcode
    rw [rs_immediateForm value hoperation hsource hsecond,
      rs_immediateForm value' hoperation' hsource' hsecond'] at hrs
    rw [rt_immediateForm value hoperation hsource hsecond,
      rt_immediateForm value' hoperation' hsource' hsecond'] at hrt
    rw [immediate_immediateForm value hoperation hsource hsecond,
      immediate_immediateForm value' hoperation' hsource' hsecond', ← Int32.toInt_inj,
      Int16.toInt_toInt32, Int16.toInt_toInt32, Int16.toInt_inj] at himmediate
    exact ⟨hopcode, hrs, hrt, himmediate⟩
  · rintro ⟨rfl, rfl, rfl, rfl⟩
    rfl

/-- The operation that an instruction is written with. -/
def operation : Assembly → Nat
  | .nop => 0x00
  | .jrRa => 0x00
  | .addiuSp _ => 0x09
  | .swRa _ => 0x2B
  | .sdRa _ => 0x3F
  | .lwRa _ => 0x23
  | .jal _ => 0x03

/-- An assembled word reads back the operation it was written with. -/
theorem opcode_encode (instruction : Assembly) :
    opcode instruction.encode = instruction.operation := by
  cases instruction with
  | nop => decide
  | jrRa => decide
  | addiuSp amount => exact opcode_immediateForm amount (by decide) (by decide) (by decide)
  | swRa offset => exact opcode_immediateForm offset (by decide) (by decide) (by decide)
  | sdRa offset => exact opcode_immediateForm offset (by decide) (by decide) (by decide)
  | lwRa offset => exact opcode_immediateForm offset (by decide) (by decide) (by decide)
  | jal target => exact opcode_encode_jal target

/-- Immediate forms with the same operation and registers are told apart by their immediates. -/
theorem eq_of_immediateForm {operation source second : Nat} {value value' : Int16}
    (hoperation : operation < 64) (hsource : source < 32) (hsecond : second < 32)
    (hsame : immediateForm operation source second value =
      immediateForm operation source second value') : value = value' :=
  ((immediateForm_inj hoperation hoperation hsource hsource hsecond hsecond).mp hsame).2.2.2

/-- Instructions are written alike when they are the same, or are calls whose targets have the same
slot in their segments. -/
theorem encode_eq_iff {first second : Assembly} :
    first.encode = second.encode ↔ first = second ∨
      ∃ target other, first = .jal target ∧ second = .jal other ∧
        target &&& 0x0FFFFFFC = other &&& 0x0FFFFFFC := by
  constructor
  · intro hsame
    have hoperation : first.operation = second.operation := by
      rw [← opcode_encode, ← opcode_encode, hsame]
    cases first with
    | nop =>
      cases second with
      | nop => exact Or.inl rfl
      | jrRa => exact absurd hsame (by decide)
      | _ => simp [operation] at hoperation
    | jrRa =>
      cases second with
      | nop => exact absurd hsame (by decide)
      | jrRa => exact Or.inl rfl
      | _ => simp [operation] at hoperation
    | addiuSp amount =>
      cases second with
      | addiuSp amount' =>
        have hamount := eq_of_immediateForm (by decide) (by decide) (by decide) hsame
        exact Or.inl (congrArg Assembly.addiuSp hamount)
      | _ => simp [operation] at hoperation
    | swRa offset =>
      cases second with
      | swRa offset' =>
        have hoffset := eq_of_immediateForm (by decide) (by decide) (by decide) hsame
        exact Or.inl (congrArg Assembly.swRa hoffset)
      | _ => simp [operation] at hoperation
    | sdRa offset =>
      cases second with
      | sdRa offset' =>
        have hoffset := eq_of_immediateForm (by decide) (by decide) (by decide) hsame
        exact Or.inl (congrArg Assembly.sdRa hoffset)
      | _ => simp [operation] at hoperation
    | lwRa offset =>
      cases second with
      | lwRa offset' =>
        have hoffset := eq_of_immediateForm (by decide) (by decide) (by decide) hsame
        exact Or.inl (congrArg Assembly.lwRa hoffset)
      | _ => simp [operation] at hoperation
    | jal target =>
      cases second with
      | jal other => exact Or.inr ⟨target, other, rfl, rfl, encode_jal_eq_iff.mp hsame⟩
      | _ => simp [operation] at hoperation
  · intro halike
    rcases halike with rfl | ⟨target, other, rfl, rfl, htarget⟩
    · rfl
    · exact encode_jal_eq_iff.mpr htarget

/-! ## Assembling and classifying -/

/-- Assembling and classifying undo each other.  Every assembled instruction reads back as what it
means, and as the operation it was written with.  Every word that means a call with its target, a
known movement, a store of the link register or a return is the assembled one: the whole word of a
call, all but the operation of a movement or a store, and three fields of a return.  Immediate forms
are told apart by each of their fields, and instructions are written alike only if they are the same
up to the segment of a call. -/
theorem classify_encode_inverse :
    (∀ amount, classify (encode (.addiuSp amount)) = .stackAdjust (some amount.toInt32)) ∧
    (∀ offset, classify (encode (.swRa offset)) = .saveLink offset.toInt32 ∧
      classify (encode (.sdRa offset)) = .saveLink offset.toInt32 ∧
      classify (encode (.lwRa offset)) = .unknown) ∧
    (∀ target, classify (encode (.jal target)) = .call (some (target &&& 0x0FFFFFFC))) ∧
    classify (encode .jrRa) = .ret ∧ encode .jrRa = 0x03E00008 ∧
    (∀ instruction : Assembly, opcode instruction.encode = instruction.operation) ∧
    (∀ word target, classify word = .call (some target) ↔
      target.toNat < 0x10000000 ∧ 4 ∣ target.toNat ∧ encode (.jal target) = word) ∧
    (∀ word delta, classify word = .stackAdjust (some delta) ↔
      ∃ amount : Int16, delta = amount.toInt32 ∧
        AgreeBelowOpcode word (encode (.addiuSp amount)) ∧
          opcode word ∈ [0x08, 0x09, 0x18, 0x19]) ∧
    (∀ word place, classify word = .saveLink place ↔
      ∃ offset : Int16, place = offset.toInt32 ∧
        AgreeBelowOpcode word (encode (.swRa offset)) ∧ opcode word ∈ [0x2B, 0x3F, 0x1F]) ∧
    (∀ word, classify word = .ret ↔
      opcode word = opcode (encode .jrRa) ∧ rs word = rs (encode .jrRa) ∧
        function word = function (encode .jrRa)) ∧
    (∀ operation < 64, ∀ operation' < 64, ∀ source < 32, ∀ source' < 32, ∀ second < 32,
      ∀ second' < 32, ∀ value value',
        immediateForm operation source second value =
            immediateForm operation' source' second' value' ↔
          operation = operation' ∧ source = source' ∧ second = second' ∧ value = value') ∧
    ∀ first second : Assembly, first.encode = second.encode ↔ first = second ∨
      ∃ target other, first = .jal target ∧ second = .jal other ∧
        target &&& 0x0FFFFFFC = other &&& 0x0FFFFFFC := by
  refine ⟨fun amount => classify_encode (.addiuSp amount), ?_, classify_encode_jal_eq_and,
    classify_encode .jrRa, by decide, opcode_encode, fun _ _ => classify_eq_call_iff,
    fun _ _ => classify_eq_stackAdjust_iff, fun _ _ => classify_eq_saveLink_iff,
    fun _ => classify_eq_ret_iff, ?_, fun _ _ => encode_eq_iff⟩
  · intro offset
    exact ⟨classify_encode (.swRa offset), classify_encode (.sdRa offset),
      classify_encode (.lwRa offset)⟩
  · intro operation hoperation operation' hoperation' source hsource source' hsource' second hsecond
      second' hsecond' value value'
    exact immediateForm_inj hoperation hoperation' hsource hsource' hsecond hsecond'

end Assembly

end Mips

end Backtrace
