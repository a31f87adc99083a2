/-!
# Words and addresses

The machine is a thirty-two bit one: a word is thirty-two bits, and so is a byte address.  Code and
stack are made of slots, each four bytes wide and holding one word.  Moving an address is checked:
a place below zero or past the top of the address space is `none`, never a wrapped address.

Main results:

- Theorem `Address.shift?_eq_some_iff`: a move succeeds exactly at the address whose value is the
  exact integer sum.
- Theorems `Address.toNat_add` and `Address.exists_below`: addresses go up and down by exact numbers
  as far as there is room.
-/

namespace Backtrace

/-- A machine word of thirty-two bits. -/
abbrev Word := UInt32

/-- A byte address in a space of thirty-two bits. -/
abbrev Address := UInt32

namespace Address

/-- The address `bytes` bytes away from `base`, if the address space has it. -/
def shift? (base : Address) (bytes : Int) : Option Address :=
  if 0 ≤ base.toNat + bytes ∧ base.toNat + bytes < 0x100000000 then
    some (UInt32.ofNat (base.toNat + bytes).toNat)
  else none

/-- A move ends at the address whose value is the exact sum, and nowhere else. -/
theorem shift?_eq_some_iff {base target : Address} {bytes : Int} :
    shift? base bytes = some target ↔ (target.toNat : Int) = base.toNat + bytes := by
  have hbound := target.toNat_lt
  unfold shift?
  split
  next hinside =>
    rw [Option.some.injEq, ← UInt32.toNat_inj, UInt32.toNat_ofNat']
    omega
  next houtside =>
    simp only [reduceCtorEq, false_iff]
    omega

/-- A move fails exactly when the exact sum leaves the address space. -/
theorem shift?_eq_none_iff {base : Address} {bytes : Int} :
    shift? base bytes = none ↔ base.toNat + bytes < 0 ∨ 0x100000000 ≤ base.toNat + bytes := by
  unfold shift?
  split
  · simp; omega
  · simp; omega

/-- Where there is room for it, adding to an address does not wrap. -/
theorem toNat_add {base bytes : Address} (hroom : base.toNat + bytes.toNat < 0x100000000) :
    (base + bytes).toNat = base.toNat + bytes.toNat := by
  rw [UInt32.toNat_add]
  exact Nat.mod_eq_of_lt hroom

/-- An address has another one below it for every distance down to zero. -/
theorem exists_below {address : Address} {bytes : Nat} (hinside : bytes ≤ address.toNat) :
    ∃ below : Address, below.toNat + bytes = address.toNat := by
  have hbound := address.toNat_lt
  refine ⟨UInt32.ofNat (address.toNat - bytes), ?_⟩
  rw [UInt32.toNat_ofNat']
  omega

end Address

end Backtrace
