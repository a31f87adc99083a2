import Backtrace.Debugger.Sample
import Backtrace.Proofs.Trail

/-!
# What a call stack says is so

A call stack that did not take its only return address from the link register is a chain: memory
alone bears out each of its frames.

Main results:

- Theorem `unwind_chain`: the frames of every call stack that does not end at a leaf are those of a
  chain of activations from the registers outwards.
-/

namespace Backtrace

namespace Machine

variable {machine : Machine} {scanDistance : Nat}

/-- `frames` are the frames of activations at the program counters `p` and stack pointers `s`, each
activation but the first the caller of the one before, and no two at one program counter. -/
structure Chain (machine : Machine) (scanDistance : Nat) (frames : List Frame)
    (p s : Nat → Address) : Prop where
  recovered : ∀ i (hi : i < frames.length), ∃ code,
    machine.Recovers scanDistance (p i) (s i) frames[i] code ∧
      (i + 1 < frames.length → p (i + 1) = frames[i].returnAddress ∧
        Resolves code ((s i).toNat - exactMovement code) (s (i + 1)))
  distinct : ∀ i j, i < j → j < frames.length → p i ≠ p j

/-- A trail and the frame of its outer end make a chain. -/
theorem Trail.exists_chain {programCounter stackPointer outerCounter outerPointer : Address}
    {frames last : List Frame}
    (htrail : machine.Trail scanDistance programCounter stackPointer frames outerCounter
      outerPointer)
    (hnodup : (path programCounter frames).Nodup)
    (hlast : last = [] ∨ ∃ frame code, last = [frame] ∧
      machine.Recovers scanDistance outerCounter outerPointer frame code) :
    ∃ p s : Nat → Address, p 0 = programCounter ∧ s 0 = stackPointer ∧
      machine.Chain scanDistance (frames ++ last) p s := by
  rcases htrail.exists_positions with ⟨p, s, hp, hs, hpEnd, hsEnd, hstep⟩
  refine ⟨p, s, hp, hs, ?_, ?_⟩
  · intro i hi
    by_cases hinner : i < frames.length
    · rcases hstep i hinner with ⟨code, hframe, hcounter, hpointer⟩
      have hget : (frames ++ last)[i] = frames[i] := List.getElem_append_left hinner
      rw [hget]
      exact ⟨code, hframe, fun _ => ⟨hcounter, hpointer⟩⟩
    · rcases hlast with rfl | ⟨frame, code, rfl, hframe⟩
      · simp at hi
        omega
      · have houter : i = frames.length := by
          simp at hi
          omega
        subst houter
        refine ⟨code, ?_, ?_⟩
        · rw [hpEnd, hsEnd]
          simpa using hframe
        · intro hi
          simp at hi
  · -- The number of a program counter is its place on the path, and no place is taken twice.
    have hplace : ∀ i (hi : i < (path programCounter frames).length),
        p i = (path programCounter frames)[i] := by
      intro i hi
      rcases i with _ | i
      · exact hp
      · have hi' : i < frames.length := by
          rw [length_path] at hi
          omega
        rcases hstep i hi' with ⟨code, hframe, hcounter, hpointer⟩
        simpa [path] using hcounter
    intro i j hij hj hsame
    have hshort : last.length ≤ 1 := by
      rcases hlast with rfl | ⟨frame, code, rfl, hframe⟩ <;> simp
    rw [List.length_append] at hj
    have hj' : j < (path programCounter frames).length := by
      rw [length_path]
      omega
    rw [hplace i (Nat.lt_trans hij hj'), hplace j hj', hnodup.getElem_inj_iff] at hsame
    omega

/-- Every call stack that does not end at a leaf is a chain: each frame's function is where the
search from its program counter finds it, its return address stands in the slot that the function
stored the link register in first, and the next program counter and stack pointer are the return
address and the stack pointer before the function moved it. -/
theorem unwind_chain (machine : Machine) (limits : Limits) (registers : Registers)
    (hnotLeaf : (machine.unwind limits registers).termination ≠ .leafFrame) :
    ∃ p s : Nat → Address, p 0 = registers.programCounter ∧ s 0 = registers.stackPointer ∧
      machine.Chain limits.scanDistance (machine.unwind limits registers).frames p s := by
  have hunwinds := machine.unwinds_unwind limits registers
  generalize machine.unwind limits registers = stack at hnotLeaf hunwinds
  cases hunwinds with
  | leaf hexecuted hnever => exact absurd rfl hnotLeaf
  | chain htrail hlength hnodup hends hcaller =>
    exact htrail.exists_chain hnodup hends.last_cases

/-- The two frames of the sample image while its `helper` runs are a chain. -/
theorem unwind_chain_running :
    (unwind ⟨Debugger.Sample.running.read, Mips.classifier⟩ .default
        ⟨0x00100030, 0x001FFFD0, 0x00100014⟩).termination ≠ .leafFrame ∧
      ∃ p s : Nat → Address, p 0 = 0x00100030 ∧ s 0 = 0x001FFFD0 ∧
        Chain ⟨Debugger.Sample.running.read, Mips.classifier⟩ 512
          [⟨0x00100024, 0x00100014⟩, ⟨0x00100000, 0x00400000⟩] p s := by
  have hstack : unwind ⟨Debugger.Sample.running.read, Mips.classifier⟩ .default
      ⟨0x00100030, 0x001FFFD0, 0x00100014⟩ =
        ⟨[⟨0x00100024, 0x00100014⟩, ⟨0x00100000, 0x00400000⟩], .unmappedRead 0x00400000⟩ := by
    decide +kernel
  have hnotLeaf : (unwind ⟨Debugger.Sample.running.read, Mips.classifier⟩ .default
      ⟨0x00100030, 0x001FFFD0, 0x00100014⟩).termination ≠ .leafFrame := by
    rw [hstack]
    simp
  have hchain := unwind_chain _ _ _ hnotLeaf
  rw [hstack] at hchain
  exact ⟨hnotLeaf, hchain⟩

end Machine

end Backtrace
