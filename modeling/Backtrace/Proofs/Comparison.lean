import Backtrace.Debugger.Tour
import Backtrace.Proofs.Trail

/-!
# Walks compared

Two walks over the same machine that differ in one thing only: in how many frames they may produce,
in where they start, or in the link register.  In each case the two call stacks agree, up to a few
exceptions that are listed in full.  All comparisons run the two walks side by side, turn by turn,
and rest on one statement about a single turn.

Main results:

- Theorems `turn` and `firstTurn`: what a turn comes to depends neither on the number of frames that
  are left nor, but for one test, on where the walk has been; and only the first one can be at a
  leaf.
- Theorem `unwind_shallower`: a smaller limit on the frames only truncates.
- Theorem `unwind_from_caller`: unwinding from the caller gives the rest of the call stack, unless
  the caller is a leaf or the walk comes back to where it started.
- Theorem `unwind_linkRegister`: the link register matters for a leaf only.
-/

namespace Backtrace

namespace Machine

variable {machine : Machine} {scanDistance : Nat}

/-! ## One turn -/

/-- What one turn of a walk comes to at an activation, whatever the walk has visited and however
many frames it may still produce. -/
inductive Turn (machine : Machine) (scanDistance : Nat) (programCounter stackPointer : Address) :
    Prop
  /-- The walk ends there, with one frame at most, and for a reason that is none of a leaf's. -/
  | last (stack : CallStack) (hlength : stack.frames.length ≤ 1)
      (hreason : stack.termination ≠ .leafFrame)
      (hwalk : ∀ depth visited, machine.walk scanDistance (depth + 1) visited programCounter
        stackPointer = stack)
  /-- The walk produces a frame and goes on to the caller, unless it has been there. -/
  | outwards (frame : Frame) (caller : Address)
      (hwalk : ∀ depth visited, machine.walk scanDistance (depth + 1) visited programCounter
        stackPointer =
          if frame.returnAddress ∈ visited then
            (CallStack.ended (.cycle frame.returnAddress)).push frame
          else
            (machine.walk scanDistance depth (frame.returnAddress :: visited) frame.returnAddress
              caller).push frame)

/-- A look at an activation never fails because of a leaf. -/
theorem reason_ne_leafFrame {programCounter stackPointer : Address} {reason : Termination}
    (hinspect : machine.inspect scanDistance programCounter stackPointer = .error reason) :
    reason ≠ .leafFrame := by
  cases inspect_eq_iff.mp hinspect with
  | unmapped hunmapped => simp
  | notLocated hmapped hlocated => simp
  | slotUnresolved hexecuted hslot => simp
  | slotUnmapped hexecuted hslot hunmapped => simp

/-- Every turn of a walk is its last one or leads outwards. -/
theorem turn (machine : Machine) (scanDistance : Nat) (programCounter stackPointer : Address) :
    machine.Turn scanDistance programCounter stackPointer := by
  cases hinspect : machine.inspect scanDistance programCounter stackPointer with
  | error reason =>
    refine .last (.ended reason) (by simp) (reason_ne_leafFrame hinspect) ?_
    intro depth visited
    simp only [walk, hinspect]
  | ok activation =>
    cases activation with
    | unsaved entry =>
      refine .last (.ended .returnAddressNotSaved) (by simp) (by simp) ?_
      intro depth visited
      simp only [walk, hinspect]
    | saved frame callerPointer =>
      cases callerPointer with
      | none =>
        refine .last ((CallStack.ended .unresolvedStackDelta).push frame) (by simp) (by simp) ?_
        intro depth visited
        simp only [walk, hinspect]
      | some caller =>
        refine .outwards frame caller ?_
        intro depth visited
        simp only [walk, hinspect]

/-- What the innermost activation makes of a call stack, whatever the limit on its frames and
whatever the link register holds. -/
inductive FirstTurn (machine : Machine) (scanDistance : Nat)
    (programCounter stackPointer : Address) : Prop
  /-- It is a leaf, and its only frame returns to the link register.  A walk that comes to it from
  inside ends there without a frame. -/
  | leaf (start : FunctionStart)
      (hlocated : machine.locate? scanDistance programCounter = some start)
      (hunwind : ∀ (limits : Limits) linkRegister, limits.scanDistance = scanDistance →
        machine.unwind limits ⟨programCounter, stackPointer, linkRegister⟩ =
          ⟨[⟨start.address, linkRegister⟩], .leafFrame⟩)
      (hwalk : ∀ depth visited, machine.walk scanDistance (depth + 1) visited programCounter
        stackPointer = .ended .returnAddressNotSaved)
  /-- It is no leaf, and a walk starts at it. -/
  | walks (hunwind : ∀ (limits : Limits) linkRegister, limits.scanDistance = scanDistance →
        machine.unwind limits ⟨programCounter, stackPointer, linkRegister⟩ =
          machine.walk scanDistance limits.frameDepth [programCounter] programCounter stackPointer)

/-- Every call stack is that of a leaf or that of a walk. -/
theorem firstTurn (machine : Machine) (scanDistance : Nat) (programCounter stackPointer : Address) :
    machine.FirstTurn scanDistance programCounter stackPointer := by
  by_cases hleaf : ∃ entry,
      machine.inspect scanDistance programCounter stackPointer = .ok (.unsaved entry)
  · rcases hleaf with ⟨entry, hinspect⟩
    cases inspect_eq_iff.mp hinspect with
    | unsaved hexecuted hnever =>
      rcases hexecuted.located with ⟨heuristic, hlocated⟩
      refine .leaf ⟨entry, heuristic⟩ hlocated ?_ ?_
      · rintro limits linkRegister rfl
        exact unwind_of_leaf hinspect
      · intro depth visited
        simp only [walk, hinspect]
  · refine .walks ?_
    rintro limits linkRegister rfl
    exact unwind_of_not_leaf (not_exists.mp hleaf)

/-! ## Fewer frames -/

/-- `stack` is what a limit of `depth` frames leaves of `whole`: the first frames, and all there is
to know when the limit was not reached. -/
structure Truncates (depth : Nat) (stack whole : CallStack) : Prop where
  frames_eq : stack.frames = whole.frames.take depth
  eq_of_ended : stack.termination ≠ .maxDepthReached → stack = whole

/-- A call stack that the limit has room for is left as it is. -/
theorem Truncates.refl {depth : Nat} {stack : CallStack} (hlength : stack.frames.length ≤ depth) :
    Truncates depth stack stack where
  frames_eq := (List.take_of_length_le hlength).symm
  eq_of_ended := fun _ => rfl

/-- A limit of one more frame leaves one more frame. -/
theorem Truncates.push {depth : Nat} {stack whole : CallStack} (frame : Frame)
    (htruncates : Truncates depth stack whole) :
    Truncates (depth + 1) (stack.push frame) (whole.push frame) where
  frames_eq := by
    rw [CallStack.frames_push, CallStack.frames_push, List.take_succ_cons, htruncates.frames_eq]
  eq_of_ended := by
    intro hended
    rw [htruncates.eq_of_ended hended]

/-- A walk with fewer frames to produce goes the same way and only stops earlier. -/
theorem walk_truncates {shallow deep : Nat} (hdepth : shallow ≤ deep) (visited : List Address)
    (programCounter stackPointer : Address) :
    Truncates shallow (machine.walk scanDistance shallow visited programCounter stackPointer)
      (machine.walk scanDistance deep visited programCounter stackPointer) := by
  induction shallow generalizing deep visited programCounter stackPointer with
  | zero => exact ⟨rfl, fun hended => absurd rfl hended⟩
  | succ shallow ih =>
    obtain ⟨deep, rfl⟩ : ∃ left, deep = left + 1 := ⟨deep - 1, by omega⟩
    cases machine.turn scanDistance programCounter stackPointer with
    | last stack hlength hreason hwalk =>
      rw [hwalk, hwalk]
      exact .refl (by omega)
    | outwards frame caller hwalk =>
      rw [hwalk, hwalk]
      split
      · exact .refl (by simp)
      · exact .push frame (ih (by omega) _ _ _)

/-- A smaller limit on the frames only truncates: the frames are the first ones of the call stack
under the larger limit, and a call stack that ends before its limit is the same under both. -/
theorem unwind_shallower (machine : Machine) (registers : Registers) {shallow deep : Limits}
    (hscan : shallow.scanDistance = deep.scanDistance)
    (hdepth : shallow.frameDepth ≤ deep.frameDepth) :
    (machine.unwind shallow registers).frames =
        (machine.unwind deep registers).frames.take shallow.frameDepth ∧
      ((machine.unwind shallow registers).termination ≠ .maxDepthReached →
        machine.unwind shallow registers = machine.unwind deep registers) := by
  rcases registers with ⟨programCounter, stackPointer, linkRegister⟩
  have htruncates : Truncates shallow.frameDepth
      (machine.unwind shallow ⟨programCounter, stackPointer, linkRegister⟩)
      (machine.unwind deep ⟨programCounter, stackPointer, linkRegister⟩) := by
    cases machine.firstTurn deep.scanDistance programCounter stackPointer with
    | leaf start hlocated hunwind hwalk =>
      rw [hunwind shallow linkRegister hscan, hunwind deep linkRegister rfl]
      exact .refl shallow.frameDepth_pos
    | walks hunwind =>
      rw [hunwind shallow linkRegister hscan, hunwind deep linkRegister rfl]
      exact walk_truncates hdepth _ _ _
  exact ⟨htruncates.frames_eq, htruncates.eq_of_ended⟩

/-- While `helper` of the sample image runs, a limit of one frame leaves the first of three, and a
limit of three is never reached. -/
theorem unwind_shallower_running :
    let machine : Machine := ⟨Debugger.Sample.running.read, Mips.classifier⟩
    let one : Limits := ⟨512, 1, by decide, by decide⟩
    let three : Limits := ⟨512, 3, by decide, by decide⟩
    (one.scanDistance = three.scanDistance ∧ one.frameDepth ≤ three.frameDepth) ∧
      (three.scanDistance = Limits.default.scanDistance ∧
        three.frameDepth ≤ Limits.default.frameDepth) ∧
      (machine.unwind one Debugger.Tour.inHelper).frames =
        (machine.unwind three Debugger.Tour.inHelper).frames.take 1 ∧
      machine.unwind three Debugger.Tour.inHelper =
        machine.unwind .default Debugger.Tour.inHelper := by
  intro machine one three
  have hone : one.scanDistance = three.scanDistance ∧ one.frameDepth ≤ three.frameDepth := by decide
  have hthree : three.scanDistance = Limits.default.scanDistance ∧
      three.frameDepth ≤ Limits.default.frameDepth := by decide
  have hended : (machine.unwind three Debugger.Tour.inHelper).termination ≠ .maxDepthReached := by
    decide +kernel
  have hcut := machine.unwind_shallower Debugger.Tour.inHelper hone.1 hone.2
  have hwhole := machine.unwind_shallower Debugger.Tour.inHelper hthree.1 hthree.2
  exact ⟨hone, hthree, hcut.1, hwhole.2 hended⟩

/-! ## Fewer places visited -/

/-- A walk that has been at more places goes the same way, until it comes to one of them that the
other walk has not been at. -/
theorem walk_of_subset {fewer more : List Address} (hsubset : fewer ⊆ more) (depth : Nat)
    (programCounter stackPointer : Address) :
    machine.walk scanDistance depth more programCounter stackPointer =
        machine.walk scanDistance depth fewer programCounter stackPointer ∨
      ∃ place ∈ more, place ∉ fewer ∧
        (machine.walk scanDistance depth more programCounter stackPointer).termination =
          .cycle place ∧
        (machine.walk scanDistance depth more programCounter stackPointer).frames <+:
          (machine.walk scanDistance depth fewer programCounter stackPointer).frames := by
  induction depth generalizing fewer more programCounter stackPointer with
  | zero => exact Or.inl rfl
  | succ depth ih =>
    cases machine.turn scanDistance programCounter stackPointer with
    | last stack hlength hreason hwalk =>
      rw [hwalk, hwalk]
      exact Or.inl rfl
    | outwards frame caller hwalk =>
      rw [hwalk, hwalk]
      by_cases hfewer : frame.returnAddress ∈ fewer
      · rw [if_pos (hsubset hfewer), if_pos hfewer]
        exact Or.inl rfl
      · rw [if_neg hfewer]
        by_cases hmore : frame.returnAddress ∈ more
        · -- Only the walk that has been here before ends here.
          rw [if_pos hmore]
          refine Or.inr ⟨frame.returnAddress, hmore, hfewer, rfl, ?_⟩
          exact List.cons_prefix_cons.mpr ⟨rfl, List.nil_prefix⟩
        · rw [if_neg hmore]
          have hrest := List.cons_subset_cons frame.returnAddress hsubset
          rcases ih hrest frame.returnAddress caller with
            hsame | ⟨place, hplace, hnew, hreason, hprefix⟩
          · rw [hsame]
            exact Or.inl rfl
          · rw [List.mem_cons, not_or] at hnew
            have hmem : place ∈ more := (List.mem_cons.mp hplace).resolve_left hnew.1
            refine Or.inr ⟨place, hmem, hnew.2, hreason, ?_⟩
            exact List.cons_prefix_cons.mpr ⟨rfl, hprefix⟩

/-! ## From the caller -/

/-- A call stack without frames does not end for want of a saved return address: that is a leaf. -/
theorem frames_ne_nil_of_unsaved {limits : Limits} {registers : Registers}
    (hreason : (machine.unwind limits registers).termination = .returnAddressNotSaved) :
    (machine.unwind limits registers).frames ≠ [] := by
  have hunwinds := machine.unwinds_unwind limits registers
  generalize machine.unwind limits registers = stack at hreason hunwinds ⊢
  cases hunwinds with
  | leaf hexecuted hnever => simp
  | chain htrail hlength hnodup hends hcaller => simp [hcaller hreason]

/-- A call stack that goes on past its first frame is that frame on a walk from the caller. -/
theorem unwind_of_recovers {limits outer : Limits} {registers : Registers} {frame : Frame}
    {code : List Instruction} {caller : Address}
    (hframe : machine.Recovers limits.scanDistance registers.programCounter registers.stackPointer
      frame code)
    (hcaller : Resolves code (registers.stackPointer.toNat - exactMovement code) caller)
    (hnew : frame.returnAddress ≠ registers.programCounter)
    (hscan : outer.scanDistance = limits.scanDistance)
    (hdepth : limits.frameDepth = outer.frameDepth + 1) :
    machine.unwind limits registers =
      (machine.walk outer.scanDistance outer.frameDepth
        [frame.returnAddress, registers.programCounter] frame.returnAddress caller).push frame := by
  have hinspect := inspect_eq_iff.mpr (Finds.caller hframe hcaller)
  have hnotLeaf : ∀ entry, machine.inspect limits.scanDistance registers.programCounter
      registers.stackPointer ≠ .ok (.unsaved entry) := by
    simp [hinspect]
  have hunvisited : frame.returnAddress ∉ [registers.programCounter] := by
    simpa using hnew
  rw [unwind_of_not_leaf hnotLeaf, hdepth, hscan]
  simp only [walk, hinspect, hunvisited, if_false]

/-- Unwinding from the caller gives the rest of the call stack.  There are two exceptions only.  If
the rest ends where the whole walk started, unwinding from the caller knows nothing of that place
and goes on.  If the rest is empty because the caller never saved its return address, then seen from
the caller itself that is a leaf. -/
theorem unwind_from_caller {limits outer : Limits} {registers : Registers} {frame : Frame}
    {code : List Instruction} {caller : Address}
    (hframe : machine.Recovers limits.scanDistance registers.programCounter registers.stackPointer
      frame code)
    (hcaller : Resolves code (registers.stackPointer.toNat - exactMovement code) caller)
    (hnew : frame.returnAddress ≠ registers.programCounter)
    (hscan : outer.scanDistance = limits.scanDistance)
    (hdepth : limits.frameDepth = outer.frameDepth + 1) (linkRegister : Address) :
    let fromCaller := machine.unwind outer ⟨frame.returnAddress, caller, linkRegister⟩
    ∃ rest : CallStack, machine.unwind limits registers = rest.push frame ∧
      (rest.termination = .cycle registers.programCounter → rest.frames <+: fromCaller.frames) ∧
      (rest = .ended .returnAddressNotSaved →
        ∃ start, machine.locate? outer.scanDistance frame.returnAddress = some start ∧
          fromCaller = ⟨[⟨start.address, linkRegister⟩], .leafFrame⟩) ∧
      (rest.termination ≠ .cycle registers.programCounter → rest ≠ .ended .returnAddressNotSaved →
        fromCaller = rest) := by
  intro fromCaller
  refine ⟨_, unwind_of_recovers hframe hcaller hnew hscan hdepth, ?_⟩
  cases machine.firstTurn outer.scanDistance frame.returnAddress caller with
  | leaf start hlocated hunwind hwalk =>
    -- The walk from inside ends at once.
    have hfromCaller : fromCaller = ⟨[⟨start.address, linkRegister⟩], .leafFrame⟩ :=
      hunwind outer linkRegister rfl
    obtain ⟨left, hleft⟩ := Nat.exists_eq_succ_of_ne_zero (Nat.ne_of_gt outer.frameDepth_pos)
    rw [hleft, hwalk, hfromCaller]
    exact ⟨by simp, fun _ => ⟨start, hlocated, rfl⟩, fun _ hne => absurd rfl hne⟩
  | walks hunwind =>
    -- Both walks start at the caller, and one of them has been at one more place.
    have hfromCaller : fromCaller = machine.walk outer.scanDistance outer.frameDepth
        [frame.returnAddress] frame.returnAddress caller := hunwind outer linkRegister rfl
    have hsubset : [frame.returnAddress] ⊆ [frame.returnAddress, registers.programCounter] := by
      simp
    rcases machine.walk_of_subset hsubset outer.frameDepth frame.returnAddress caller with
      hsame | ⟨place, hplace, hother, hreason, hprefix⟩
    · rw [hsame, ← hfromCaller]
      refine ⟨fun _ => List.prefix_refl _, fun hended => ?_, fun _ _ => rfl⟩
      -- A call stack of its own never ends like that.
      have hframes : fromCaller.frames ≠ [] := by
        apply frames_ne_nil_of_unsaved
        exact congrArg CallStack.termination hended
      exact absurd (congrArg CallStack.frames hended) hframes
    · have hstart : place = registers.programCounter := by
        simp only [List.mem_cons, List.not_mem_nil, or_false] at hplace hother
        exact hplace.resolve_left hother
      subst hstart
      rw [← hfromCaller] at hprefix
      refine ⟨fun _ => hprefix, fun hended => ?_, fun hne _ => absurd hreason hne⟩
      rw [hended] at hreason
      simp at hreason

/-- While `helper` of the sample image runs, unwinding from `main`, its caller, gives all but the
first frame. -/
theorem unwind_from_caller_running :
    let machine : Machine := ⟨Debugger.Sample.running.read, Mips.classifier⟩
    let outer : Limits := ⟨512, 31, by decide, by decide⟩
    let frame : Frame := ⟨0x00100024, 0x00100014⟩
    (∃ code, machine.Recovers Limits.default.scanDistance Debugger.Tour.inHelper.programCounter
        Debugger.Tour.inHelper.stackPointer frame code ∧
      Resolves code (Debugger.Tour.inHelper.stackPointer.toNat - exactMovement code) 0x001FFFE0) ∧
      frame.returnAddress ≠ Debugger.Tour.inHelper.programCounter ∧
      outer.scanDistance = Limits.default.scanDistance ∧
      Limits.default.frameDepth = outer.frameDepth + 1 ∧
      ∃ rest : CallStack, machine.unwind .default Debugger.Tour.inHelper = rest.push frame ∧
        machine.unwind outer ⟨0x00100014, 0x001FFFE0, 0⟩ = rest := by
  intro machine outer frame
  have hinspect : machine.inspect Limits.default.scanDistance
      Debugger.Tour.inHelper.programCounter Debugger.Tour.inHelper.stackPointer =
        .ok (.saved frame (some 0x001FFFE0)) := by
    decide +kernel
  have hnew : frame.returnAddress ≠ Debugger.Tour.inHelper.programCounter := by decide
  have hscan : outer.scanDistance = Limits.default.scanDistance := rfl
  have hdepth : Limits.default.frameDepth = outer.frameDepth + 1 := rfl
  cases inspect_eq_iff.mp hinspect with
  | caller hframe hcaller =>
    refine ⟨⟨_, hframe, hcaller⟩, hnew, hscan, hdepth, ?_⟩
    rcases unwind_from_caller hframe hcaller hnew hscan hdepth 0 with ⟨rest, hstack, -, -, hrest⟩
    have hreason : rest.termination = .unmappedRead 0x00400000 := by
      rw [← CallStack.termination_push frame rest, ← hstack]
      decide +kernel
    refine ⟨rest, hstack, hrest ?_ ?_⟩
    · simp [hreason]
    · rintro rfl
      simp at hreason

/-- If `main` of the sample image seems to return into `helper`, the walk from `helper` ends there,
and the one from `main` goes on and finds `helper` a second time. -/
example :
    (Debugger.Sample.running.write? 0x001FFFFC 0x00100030).map (fun memory =>
      let machine : Machine := ⟨memory.read, Mips.classifier⟩
      (machine.unwind .default Debugger.Tour.inHelper,
        machine.unwind .default ⟨0x00100014, 0x001FFFE0, 0⟩)) =
      some (⟨[⟨0x00100024, 0x00100014⟩, ⟨0x00100000, 0x00100030⟩], .cycle 0x00100030⟩,
        ⟨[⟨0x00100000, 0x00100030⟩], .unmappedRead 0x0020000C⟩) := by
  decide +kernel

/-! ## The link register -/

/-- A walk never ends at a leaf; only the innermost activation can be one. -/
theorem termination_walk_ne_leafFrame (depth : Nat) (visited : List Address)
    (programCounter stackPointer : Address) :
    (machine.walk scanDistance depth visited programCounter stackPointer).termination ≠
      .leafFrame := by
  induction depth generalizing visited programCounter stackPointer with
  | zero => simp [walk]
  | succ depth ih =>
    cases machine.turn scanDistance programCounter stackPointer with
    | last stack hlength hreason hwalk =>
      rw [hwalk]
      exact hreason
    | outwards frame caller hwalk =>
      rw [hwalk]
      split
      · simp
      · exact ih _ _ _

/-- The link register matters for a leaf only, and there it is the return address of the only frame
and nothing else. -/
theorem unwind_linkRegister (machine : Machine) (limits : Limits)
    (programCounter stackPointer first second : Address) :
    let stack := machine.unwind limits ⟨programCounter, stackPointer, first⟩
    let other := machine.unwind limits ⟨programCounter, stackPointer, second⟩
    stack.termination = other.termination ∧ stack.frames.length = other.frames.length ∧
      (stack.termination ≠ .leafFrame → stack = other) ∧
      (stack.termination = .leafFrame → ∃ entry,
        stack = ⟨[⟨entry, first⟩], .leafFrame⟩ ∧ other = ⟨[⟨entry, second⟩], .leafFrame⟩) := by
  intro stack other
  cases machine.firstTurn limits.scanDistance programCounter stackPointer with
  | leaf start hlocated hunwind hwalk =>
    have hstack : stack = ⟨[⟨start.address, first⟩], .leafFrame⟩ := hunwind limits first rfl
    have hother : other = ⟨[⟨start.address, second⟩], .leafFrame⟩ := hunwind limits second rfl
    rw [hstack, hother]
    exact ⟨rfl, rfl, fun hne => absurd rfl hne, fun _ => ⟨start.address, rfl, rfl⟩⟩
  | walks hunwind =>
    have hstack : stack = machine.walk limits.scanDistance limits.frameDepth [programCounter]
        programCounter stackPointer := hunwind limits first rfl
    have hother : other = machine.walk limits.scanDistance limits.frameDepth [programCounter]
        programCounter stackPointer := hunwind limits second rfl
    rw [hstack, hother]
    refine ⟨rfl, rfl, fun _ => rfl, fun hreason => ?_⟩
    exact absurd hreason (termination_walk_ne_leafFrame _ _ _ _)

end Machine

end Backtrace
