import Backtrace.Proofs.Inspection
import Backtrace.Walk
import Mathlib.Data.List.Nodup

/-!
# The way of a walk

A walk is a trail of activations, each the caller of the one before, and one last turn that finds
no further caller.  The program counters along the trail are all different, because the walk keeps
a record of them and stops before it comes back to one.  This module takes every walk apart into
those two pieces, so that later statements need to look at a trail and at a few ways to end only.

Main results:

- Theorem `walk_course`: every walk is a trail followed by a last turn.
- Theorem `unwinds_unwind`: a call stack is that of a leaf, or of a walk from the registers.
- Theorem `stopped_unwind`: every position that a walk looks at leads to the next one, up to the
  last.
- Theorem `programCounters_positions`: the program counters a walk looks at are those its frames are
  found from, up to the last one.
- Theorem `Trail.exists_positions`: the program counters and stack pointers along a trail, by
  number.
-/

namespace Backtrace

/-! ## The program counters of a walk -/

/-- The program counters that a walk follows: where it starts, and then one for each frame. -/
def path (programCounter : Address) (frames : List Frame) : List Address :=
  programCounter :: frames.map Frame.returnAddress

/-- The program counters that the frames of a walk are found from: where it starts, and then the
return address of each frame that is followed by another one. -/
def origins (programCounter : Address) : List Frame → List Address
  | [] => []
  | frame :: frames => programCounter :: origins frame.returnAddress frames

/-- Where a walk has arrived after `frames`. -/
def lastCounter (programCounter : Address) (frames : List Frame) : Address :=
  match frames.getLast? with
  | none => programCounter
  | some frame => frame.returnAddress

@[simp] theorem length_path (programCounter : Address) (frames : List Frame) :
    (path programCounter frames).length = frames.length + 1 := by
  simp [path]

@[simp] theorem length_origins (programCounter : Address) (frames : List Frame) :
    (origins programCounter frames).length = frames.length := by
  induction frames generalizing programCounter with
  | nil => rfl
  | cons frame frames ih => rw [origins, List.length_cons, ih, List.length_cons]

theorem lastCounter_cons (programCounter : Address) (frame : Frame) (frames : List Frame) :
    lastCounter programCounter (frame :: frames) = lastCounter frame.returnAddress frames := by
  unfold lastCounter
  rw [List.getLast?_cons]
  cases frames.getLast? <;> rfl

/-- A walk finds frames from all program counters that it follows but the last. -/
theorem path_eq_concat (programCounter : Address) (frames : List Frame) :
    path programCounter frames =
      origins programCounter frames ++ [lastCounter programCounter frames] := by
  induction frames generalizing programCounter with
  | nil => rfl
  | cons frame frames ih =>
    rw [origins, lastCounter_cons, List.cons_append, ← ih]
    rfl

/-- One more frame is found from where the walk has arrived. -/
theorem origins_concat (programCounter : Address) (frames : List Frame) (frame : Frame) :
    origins programCounter (frames ++ [frame]) = path programCounter frames := by
  induction frames generalizing programCounter with
  | nil => rfl
  | cons head frames ih =>
    rw [List.cons_append, origins, ih]
    rfl

/-- Frames behind the first are found from the return addresses before them. -/
theorem origins_of_ne_nil {programCounter : Address} {frames : List Frame}
    (hframes : frames ≠ []) :
    origins programCounter frames =
      programCounter :: frames.dropLast.map Frame.returnAddress := by
  rcases List.eq_nil_or_concat frames with rfl | ⟨inner, last, rfl⟩
  · exact absurd rfl hframes
  · rw [List.concat_eq_append, origins_concat, List.dropLast_concat]
    rfl

namespace Machine

variable {machine : Machine} {scanDistance : Nat}

/-! ## Trails -/

/-- From one activation outwards to another, with a frame for each activation that is left
behind: its return address and its stack pointer before the call are those of the next one. -/
inductive Trail (machine : Machine) (scanDistance : Nat) :
    (programCounter stackPointer : Address) → List Frame → (outerCounter outerPointer : Address) →
      Prop
  | here (programCounter stackPointer : Address) :
    Trail machine scanDistance programCounter stackPointer [] programCounter stackPointer
  | outwards {programCounter stackPointer caller outerCounter outerPointer : Address}
      {frame : Frame} {frames : List Frame} {code : List Instruction}
      (hframe : machine.Recovers scanDistance programCounter stackPointer frame code)
      (hcaller : Resolves code (stackPointer.toNat - exactMovement code) caller)
      (hrest : Trail machine scanDistance frame.returnAddress caller frames outerCounter
        outerPointer) :
    Trail machine scanDistance programCounter stackPointer (frame :: frames) outerCounter
      outerPointer

/-- A trail ends at the last program counter of its frames. -/
theorem Trail.outerCounter_eq {programCounter stackPointer outerCounter outerPointer : Address}
    {frames : List Frame}
    (htrail : machine.Trail scanDistance programCounter stackPointer frames outerCounter
      outerPointer) :
    outerCounter = lastCounter programCounter frames := by
  induction htrail with
  | here programCounter stackPointer => rfl
  | outwards hframe hcaller hrest ih => rw [ih, lastCounter_cons]

/-- Every frame of a trail is found from a mapped program counter. -/
theorem Trail.isSome_of_mem_origins
    {programCounter stackPointer outerCounter outerPointer place : Address} {frames : List Frame}
    (htrail : machine.Trail scanDistance programCounter stackPointer frames outerCounter
      outerPointer)
    (hplace : place ∈ origins programCounter frames) : (machine.memory place).isSome = true := by
  induction htrail with
  | here programCounter stackPointer => simp [origins] at hplace
  | outwards hframe hcaller hrest ih =>
    rcases List.mem_cons.mp hplace with rfl | hplace
    · exact hframe.executed.mapped
    · exact ih hplace

/-! ## The last turn -/

/-- How a walk ends that has been at the program counters `visited` and may produce `depth` further
frames: the frames of its last turn, one at most, and the reason. -/
inductive Ends (machine : Machine) (scanDistance : Nat) (visited : List Address)
    (programCounter stackPointer : Address) : (depth : Nat) → List Frame → Termination → Prop
  /-- There may be no further frame. -/
  | exhausted :
    Ends machine scanDistance visited programCounter stackPointer 0 [] .maxDepthReached
  /-- The look at the activation fails. -/
  | failed {depth : Nat} {reason : Termination}
      (hfinds : machine.Finds scanDistance programCounter stackPointer (.error reason)) :
    Ends machine scanDistance visited programCounter stackPointer (depth + 1) [] reason
  /-- The function has not stored its return address. -/
  | unsaved {depth : Nat} {entry : Address}
      (hfinds : machine.Finds scanDistance programCounter stackPointer (.ok (.unsaved entry))) :
    Ends machine scanDistance visited programCounter stackPointer (depth + 1) []
      .returnAddressNotSaved
  /-- The stack pointer of the caller is not known. -/
  | callerUnresolved {depth : Nat} {frame : Frame}
      (hfinds : machine.Finds scanDistance programCounter stackPointer (.ok (.saved frame none))) :
    Ends machine scanDistance visited programCounter stackPointer (depth + 1) [frame]
      .unresolvedStackDelta
  /-- The walk has been at the caller. -/
  | cycle {depth : Nat} {frame : Frame} {caller : Address}
      (hfinds : machine.Finds scanDistance programCounter stackPointer
        (.ok (.saved frame (some caller))))
      (hvisited : frame.returnAddress ∈ visited) :
    Ends machine scanDistance visited programCounter stackPointer (depth + 1) [frame]
      (.cycle frame.returnAddress)

/-- The last turn of a walk produces no frame, or one that is borne out like any other. -/
theorem Ends.last_cases {visited : List Address} {programCounter stackPointer : Address}
    {left : Nat} {last : List Frame} {reason : Termination}
    (hends : machine.Ends scanDistance visited programCounter stackPointer left last reason) :
    last = [] ∨ ∃ frame code, last = [frame] ∧
      machine.Recovers scanDistance programCounter stackPointer frame code := by
  cases hends with
  | exhausted => exact Or.inl rfl
  | failed hfinds => exact Or.inl rfl
  | unsaved hfinds => exact Or.inl rfl
  | @callerUnresolved _ frame hfinds =>
    cases hfinds with
    | callerUnresolved hframe hcaller => exact Or.inr ⟨frame, _, rfl, hframe⟩
  | @cycle _ frame _ hfinds hvisited =>
    cases hfinds with
    | caller hframe hcaller => exact Or.inr ⟨frame, _, rfl, hframe⟩

/-- The last turn of a walk keeps to the number of frames. -/
theorem Ends.length_le {visited : List Address} {programCounter stackPointer : Address}
    {left : Nat} {last : List Frame} {reason : Termination}
    (hends : machine.Ends scanDistance visited programCounter stackPointer left last reason) :
    last.length ≤ left := by
  cases hends <;> simp

/-! ## A whole walk -/

/-- `stack` is a trail from an activation outwards, with nothing on it that is in `visited` or on it
twice, and a last turn at its outer end. -/
inductive Course (machine : Machine) (scanDistance depth : Nat) (visited : List Address)
    (programCounter stackPointer : Address) : CallStack → Prop
  | intro {frames last : List Frame} {outerCounter outerPointer : Address} {left : Nat}
      {reason : Termination}
      (htrail : machine.Trail scanDistance programCounter stackPointer frames outerCounter
        outerPointer)
      (hlength : frames.length + left = depth)
      (hfresh : visited.Nodup → ((frames.map Frame.returnAddress).reverse ++ visited).Nodup)
      (hends : machine.Ends scanDistance ((frames.map Frame.returnAddress).reverse ++ visited)
        outerCounter outerPointer left last reason) :
    Course machine scanDistance depth visited programCounter stackPointer ⟨frames ++ last, reason⟩

/-- A walk that ends in its first turn. -/
theorem Course.of_ends {depth : Nat} {visited : List Address}
    {programCounter stackPointer : Address} {last : List Frame} {reason : Termination}
    (hends : machine.Ends scanDistance visited programCounter stackPointer depth last reason) :
    machine.Course scanDistance depth visited programCounter stackPointer ⟨last, reason⟩ := by
  change machine.Course scanDistance depth visited programCounter stackPointer ⟨[] ++ last, reason⟩
  exact .intro (.here programCounter stackPointer) (Nat.zero_add depth) id hends

/-- A walk that goes on to a caller it has not been at. -/
theorem Course.push {depth : Nat} {visited : List Address}
    {programCounter stackPointer caller : Address} {frame : Frame} {code : List Instruction}
    {stack : CallStack}
    (hframe : machine.Recovers scanDistance programCounter stackPointer frame code)
    (hcaller : Resolves code (stackPointer.toNat - exactMovement code) caller)
    (hnew : frame.returnAddress ∉ visited)
    (hrest : machine.Course scanDistance depth (frame.returnAddress :: visited) frame.returnAddress
      caller stack) :
    machine.Course scanDistance (depth + 1) visited programCounter stackPointer
      (stack.push frame) := by
  rcases hrest with ⟨htrail, hlength, hfresh, hends⟩
  next frames last outerCounter outerPointer left reason =>
  have hvisited : ((frame :: frames).map Frame.returnAddress).reverse ++ visited =
      (frames.map Frame.returnAddress).reverse ++ (frame.returnAddress :: visited) := by
    simp
  refine .intro (.outwards hframe hcaller htrail) ?_ ?_ (hvisited ▸ hends)
  · rw [List.length_cons]
    omega
  · intro hnodup
    rw [hvisited]
    exact hfresh (List.nodup_cons.mpr ⟨hnew, hnodup⟩)

/-- Every walk is a trail and a last turn. -/
theorem walk_course (machine : Machine) (scanDistance depth : Nat) (visited : List Address)
    (programCounter stackPointer : Address) :
    machine.Course scanDistance depth visited programCounter stackPointer
      (machine.walk scanDistance depth visited programCounter stackPointer) := by
  induction depth generalizing visited programCounter stackPointer with
  | zero => exact .of_ends .exhausted
  | succ depth ih =>
    cases hinspect : machine.inspect scanDistance programCounter stackPointer with
    | error reason =>
      simp only [walk, hinspect]
      exact .of_ends (.failed (inspect_eq_iff.mp hinspect))
    | ok activation =>
      cases activation with
      | unsaved entry =>
        simp only [walk, hinspect]
        exact .of_ends (.unsaved (inspect_eq_iff.mp hinspect))
      | saved frame callerPointer =>
        have hfinds := inspect_eq_iff.mp hinspect
        cases callerPointer with
        | none =>
          simp only [walk, hinspect]
          exact .of_ends (.callerUnresolved hfinds)
        | some caller =>
          by_cases hvisited : frame.returnAddress ∈ visited
          · simp only [walk, hinspect, hvisited, if_true]
            exact .of_ends (.cycle hfinds hvisited)
          · simp only [walk, hinspect, hvisited, if_false]
            cases hfinds with
            | caller hframe hcaller => exact .push hframe hcaller hvisited (ih _ _ _)

/-- The call stack of a stopped machine: that of a leaf, or the course of a walk from its
registers, where only a caller can fail to have stored its return address. -/
inductive Unwinds (machine : Machine) (limits : Limits) (registers : Registers) : CallStack → Prop
  | leaf {entry : Address} {code : List Instruction}
      (hexecuted : machine.Executed limits.scanDistance registers.programCounter entry code)
      (hnever : ∀ offset, .saveLink offset ∉ code) :
    Unwinds machine limits registers ⟨[⟨entry, registers.linkRegister⟩], .leafFrame⟩
  | chain {frames last : List Frame} {outerCounter outerPointer : Address} {left : Nat}
      {reason : Termination}
      (htrail : machine.Trail limits.scanDistance registers.programCounter registers.stackPointer
        frames outerCounter outerPointer)
      (hlength : frames.length + left = limits.frameDepth)
      (hnodup : (path registers.programCounter frames).Nodup)
      (hends : machine.Ends limits.scanDistance (path registers.programCounter frames).reverse
        outerCounter outerPointer left last reason)
      (hcaller : reason = .returnAddressNotSaved → frames ≠ []) :
    Unwinds machine limits registers ⟨frames ++ last, reason⟩

/-- Every call stack comes about in one of those two ways. -/
theorem unwinds_unwind (machine : Machine) (limits : Limits) (registers : Registers) :
    machine.Unwinds limits registers (machine.unwind limits registers) := by
  by_cases hleaf : ∃ entry, machine.inspect limits.scanDistance registers.programCounter
      registers.stackPointer = .ok (.unsaved entry)
  · rcases hleaf with ⟨entry, hinspect⟩
    rw [unwind_of_leaf hinspect]
    cases inspect_eq_iff.mp hinspect with
    | unsaved hexecuted hnever => exact .leaf hexecuted hnever
  · have hnotLeaf := not_exists.mp hleaf
    rw [unwind_of_not_leaf hnotLeaf]
    have hcourse := machine.walk_course limits.scanDistance limits.frameDepth
      [registers.programCounter] registers.programCounter registers.stackPointer
    generalize machine.walk limits.scanDistance limits.frameDepth [registers.programCounter]
      registers.programCounter registers.stackPointer = stack at hcourse ⊢
    rcases hcourse with ⟨htrail, hlength, hfresh, hends⟩
    next frames last outerCounter outerPointer left reason =>
    have hpath : (frames.map Frame.returnAddress).reverse ++ [registers.programCounter] =
        (path registers.programCounter frames).reverse := by
      simp [path]
    rw [hpath] at hfresh hends
    have hnodup : (path registers.programCounter frames).Nodup :=
      List.nodup_reverse.mp (hfresh (List.nodup_singleton _))
    refine .chain htrail hlength hnodup hends ?_
    -- A trail without frames ends where it starts, and that activation is no leaf.
    intro hreason hframes
    subst hreason hframes
    cases htrail
    cases hends with
    | failed hfinds => cases hfinds
    | unsaved hfinds => exact hnotLeaf _ (inspect_eq_iff.mpr hfinds)

/-! ## Where a walk looks -/

/-- Where a walk looks at an activation: the address of the instruction that it executes next, and
that of the top of its stack. -/
structure Position where
  programCounter : Address
  stackPointer : Address
deriving DecidableEq, Repr

/-- The positions that a walk looks at, innermost first: where it starts, and then each caller that
it follows.  The arguments are those of the walk. -/
def positionsFrom (machine : Machine) (scanDistance : Nat) :
    (depth : Nat) → (visited : List Address) → (programCounter stackPointer : Address) →
      List Position
  | 0, _, _, _ => []
  | depth + 1, visited, programCounter, stackPointer =>
    match machine.inspect scanDistance programCounter stackPointer with
    | .ok (.saved frame (some caller)) =>
      if frame.returnAddress ∈ visited then [⟨programCounter, stackPointer⟩]
      else
        ⟨programCounter, stackPointer⟩ ::
          machine.positionsFrom scanDistance depth (frame.returnAddress :: visited)
            frame.returnAddress caller
    | _ => [⟨programCounter, stackPointer⟩]

/-- The positions that the call stack of a stopped machine is found from. -/
def positions (machine : Machine) (limits : Limits) (registers : Registers) : List Position :=
  machine.positionsFrom limits.scanDistance limits.frameDepth [registers.programCounter]
    registers.programCounter registers.stackPointer

/-- What a walk comes to at its last position: the frames that it still produces there, one at most,
and the reason why it ends. -/
inductive Stops (machine : Machine) (scanDistance : Nat) (position : Position) :
    List Frame → Termination → Prop
  /-- The look at the activation fails. -/
  | failed {reason : Termination}
      (hinspect : machine.inspect scanDistance position.programCounter position.stackPointer =
        .error reason) :
    Stops machine scanDistance position [] reason
  /-- The innermost function has not stored its return address. -/
  | leaf {entry linkRegister : Address}
      (hinspect : machine.inspect scanDistance position.programCounter position.stackPointer =
        .ok (.unsaved entry)) :
    Stops machine scanDistance position [⟨entry, linkRegister⟩] .leafFrame
  /-- Another function has not stored its return address. -/
  | unsaved {entry : Address}
      (hinspect : machine.inspect scanDistance position.programCounter position.stackPointer =
        .ok (.unsaved entry)) :
    Stops machine scanDistance position [] .returnAddressNotSaved
  /-- The stack pointer of the caller is not known. -/
  | callerUnresolved {frame : Frame}
      (hinspect : machine.inspect scanDistance position.programCounter position.stackPointer =
        .ok (.saved frame none)) :
    Stops machine scanDistance position [frame] .unresolvedStackDelta
  /-- The walk has been at the caller, or may produce no further frame. -/
  | caller {frame : Frame} {caller : Address} {reason : Termination}
      (hinspect : machine.inspect scanDistance position.programCounter position.stackPointer =
        .ok (.saved frame (some caller)))
      (hreason : reason = .cycle frame.returnAddress ∨ reason = .maxDepthReached) :
    Stops machine scanDistance position [frame] reason

/-- A walk from a position, with all positions it looks at and the call stack it yields.  Each but
the last leads to the next one. -/
inductive Stopped (machine : Machine) (scanDistance : Nat) :
    Position → List Position → CallStack → Prop
  | here {position : Position} {last : List Frame} {reason : Termination}
      (hstops : machine.Stops scanDistance position last reason) :
    Stopped machine scanDistance position [position] ⟨last, reason⟩
  | outwards {position : Position} {frame : Frame} {caller : Address} {outer : List Position}
      {stack : CallStack}
      (hinspect : machine.inspect scanDistance position.programCounter position.stackPointer =
        .ok (.saved frame (some caller)))
      (hrest : Stopped machine scanDistance ⟨frame.returnAddress, caller⟩ outer stack) :
    Stopped machine scanDistance position (position :: outer) (stack.push frame)

/-- Every walk that may produce a frame goes like that. -/
theorem stopped_walk (machine : Machine) (scanDistance : Nat) {depth : Nat} (hdepth : 0 < depth)
    (visited : List Address) (programCounter stackPointer : Address) :
    machine.Stopped scanDistance ⟨programCounter, stackPointer⟩
      (machine.positionsFrom scanDistance depth visited programCounter stackPointer)
      (machine.walk scanDistance depth visited programCounter stackPointer) := by
  induction depth generalizing visited programCounter stackPointer with
  | zero => exact absurd hdepth (Nat.lt_irrefl 0)
  | succ depth ih =>
    cases hinspect : machine.inspect scanDistance programCounter stackPointer with
    | error reason =>
      simp only [walk, positionsFrom, hinspect]
      exact .here (.failed hinspect)
    | ok activation =>
      cases activation with
      | unsaved entry =>
        simp only [walk, positionsFrom, hinspect]
        exact .here (.unsaved hinspect)
      | saved frame callerPointer =>
        cases callerPointer with
        | none =>
          simp only [walk, positionsFrom, hinspect]
          exact .here (.callerUnresolved hinspect)
        | some caller =>
          by_cases hvisited : frame.returnAddress ∈ visited
          · simp only [walk, positionsFrom, hinspect, hvisited, if_true]
            exact .here (.caller hinspect (Or.inl rfl))
          · simp only [walk, positionsFrom, hinspect, hvisited, if_false]
            rcases Nat.eq_zero_or_pos depth with rfl | hleft
            · exact .here (.caller hinspect (Or.inr rfl))
            · exact .outwards hinspect (ih hleft _ _ _)

/-- So does the call stack of a stopped machine. -/
theorem stopped_unwind (machine : Machine) (limits : Limits) (registers : Registers) :
    machine.Stopped limits.scanDistance ⟨registers.programCounter, registers.stackPointer⟩
      (machine.positions limits registers) (machine.unwind limits registers) := by
  cases hinspect : machine.inspect limits.scanDistance registers.programCounter
      registers.stackPointer with
  | ok activation =>
    cases activation with
    | unsaved entry =>
      obtain ⟨left, hleft⟩ := Nat.exists_eq_succ_of_ne_zero (Nat.ne_of_gt limits.frameDepth_pos)
      rw [unwind_of_leaf hinspect, positions, hleft]
      simp only [positionsFrom, hinspect]
      exact .here (.leaf hinspect)
    | saved frame callerPointer =>
      rw [unwind_of_not_leaf (by simp [hinspect])]
      exact machine.stopped_walk _ limits.frameDepth_pos _ _ _
  | error reason =>
    rw [unwind_of_not_leaf (by simp [hinspect])]
    exact machine.stopped_walk _ limits.frameDepth_pos _ _ _

/-- A walk looks at one position at least. -/
theorem Stopped.exists_getLast? {position : Position} {positions : List Position}
    {stack : CallStack} (hstopped : machine.Stopped scanDistance position positions stack) :
    ∃ last, positions.getLast? = some last := by
  cases hstopped with
  | here hstops => exact ⟨_, rfl⟩
  | outwards hinspect hrest => exact ⟨_, List.getLast?_cons⟩

/-- The frames of a walk are those of the trail to its last position, and what it still produces
there. -/
theorem Stopped.exists_trail {start position : Position} {positions : List Position}
    {stack : CallStack} (hstopped : machine.Stopped scanDistance start positions stack)
    (hlast : positions.getLast? = some position) :
    ∃ inner last, stack.frames = inner ++ last ∧
      machine.Trail scanDistance start.programCounter start.stackPointer inner
        position.programCounter position.stackPointer ∧
      machine.Stops scanDistance position last stack.termination := by
  induction hstopped with
  | @here start last reason hstops =>
    rw [List.getLast?_singleton, Option.some.injEq] at hlast
    subst hlast
    exact ⟨[], last, rfl, .here _ _, hstops⟩
  | @outwards start frame caller outer stack hinspect hrest ih =>
    rcases hrest.exists_getLast? with ⟨other, hother⟩
    rw [List.getLast?_cons, hother, Option.getD_some, ← hother] at hlast
    rcases ih hlast with ⟨inner, last, hframes, htrail, hstops⟩
    refine ⟨frame :: inner, last, ?_, ?_, hstops⟩
    · rw [CallStack.frames_push, hframes, List.cons_append]
    · cases inspect_eq_iff.mp hinspect with
      | caller hframe hcaller => exact .outwards hframe hcaller htrail

/-- A walk looks at the program counters that its frames are found from, and perhaps at the last
return address. -/
theorem Stopped.programCounters {position : Position} {positions : List Position}
    {stack : CallStack} (hstopped : machine.Stopped scanDistance position positions stack) :
    positions.map Position.programCounter = origins position.programCounter stack.frames ∨
      positions.map Position.programCounter = path position.programCounter stack.frames := by
  induction hstopped with
  | here hstops =>
    cases hstops with
    | failed hinspect => exact Or.inr rfl
    | leaf hinspect => exact Or.inl rfl
    | unsaved hinspect => exact Or.inr rfl
    | callerUnresolved hinspect => exact Or.inl rfl
    | caller hinspect hreason => exact Or.inl rfl
  | @outwards position frame caller outer stack hinspect hrest ih =>
    rcases ih with horigins | hpath
    · exact Or.inl (congrArg (position.programCounter :: ·) horigins)
    · exact Or.inr (congrArg (position.programCounter :: ·) hpath)

/-- A call stack is found from the program counters that its frames are found from, and perhaps
from the last return address, where nothing more was found. -/
theorem programCounters_positions (machine : Machine) (limits : Limits) (registers : Registers) :
    let frames := (machine.unwind limits registers).frames
    let counters := (machine.positions limits registers).map Position.programCounter
    counters = origins registers.programCounter frames ∨
      counters = path registers.programCounter frames :=
  (machine.stopped_unwind limits registers).programCounters

/-! ## A trail by number -/

/-- The program counters and stack pointers of a trail can be numbered, from the activation it
starts at, number zero, to the one it ends at. -/
theorem Trail.exists_positions {programCounter stackPointer outerCounter outerPointer : Address}
    {frames : List Frame}
    (htrail : machine.Trail scanDistance programCounter stackPointer frames outerCounter
      outerPointer) :
    ∃ p s : Nat → Address, p 0 = programCounter ∧ s 0 = stackPointer ∧
      p frames.length = outerCounter ∧ s frames.length = outerPointer ∧
      ∀ i (hi : i < frames.length), ∃ code,
        machine.Recovers scanDistance (p i) (s i) frames[i] code ∧
          p (i + 1) = frames[i].returnAddress ∧
          Resolves code ((s i).toNat - exactMovement code) (s (i + 1)) := by
  induction htrail with
  | here programCounter stackPointer =>
    refine ⟨fun _ => programCounter, fun _ => stackPointer, rfl, rfl, rfl, rfl, ?_⟩
    intro i hi
    simp at hi
  | @outwards programCounter stackPointer caller outerCounter outerPointer frame frames code hframe
      hcaller hrest ih =>
    rcases ih with ⟨p, s, hp, hs, hpEnd, hsEnd, hstep⟩
    refine ⟨fun i => Nat.casesOn i programCounter p, fun i => Nat.casesOn i stackPointer s, rfl,
      rfl, hpEnd, hsEnd, ?_⟩
    intro i hi
    rcases i with _ | i
    · refine ⟨code, hframe, hp, ?_⟩
      change Resolves code (stackPointer.toNat - exactMovement code) (s 0)
      rw [hs]
      exact hcaller
    · exact hstep i (Nat.lt_of_succ_lt_succ hi)

end Machine

end Backtrace
