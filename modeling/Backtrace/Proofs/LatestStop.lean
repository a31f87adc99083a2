import Backtrace.Debugger.Session
import Backtrace.Debugger.Settings
import Backtrace.Debugger.Tour
import Backtrace.Proofs.Trail

/-!
# What a window shows

Memory is written and the machine stops, in any order, and at every moment the window shows the
call stack of the latest stop, as it was in the memory of that moment.  Whatever is written
afterwards does not reach it.  A row that leads somewhere leads to the start of a function, which
lies at or below the program counter that its frame was found from, and is mapped.

Main results:

- Theorem `Machine.exists_origin`: every frame of a call stack was found from a program counter
  that is at or above the start of its function.
- Theorem `Debugger.Session.window_run_of_lastStop`: after any history the window is as the latest
  stop left it.
- Theorems `Debugger.Session.activate_run_eq_some_iff` and
  `Debugger.Session.activate_run_eq_none_iff`: where a row leads after any history, and when it
  leads nowhere.
- Theorem `Debugger.Session.activate_run`: what the window of a debugger shows and where it leads
  after any history.
-/

namespace Backtrace

namespace Machine

variable {machine : Machine} {scanDistance : Nat}

/-! ## Where a frame was found from -/

/-- The function of a frame is located from the program counter at which the frame is found. -/
theorem exists_locate?_of_inspect_saved {programCounter stackPointer : Address} {frame : Frame}
    {callerPointer : Option Address}
    (hinspect : machine.inspect scanDistance programCounter stackPointer =
      .ok (.saved frame callerPointer)) :
    ∃ heuristic, machine.locate? scanDistance programCounter = some ⟨frame.entry, heuristic⟩ := by
  cases inspect_eq_iff.mp hinspect with
  | callerUnresolved hframe hcaller => exact hframe.executed.located
  | caller hframe hcaller => exact hframe.executed.located

/-- A frame that a walk produces at its last position is the only one there, and its function is
located from there. -/
theorem Stops.exists_locate? {position : Position} {last : List Frame} {reason : Termination}
    (hstops : machine.Stops scanDistance position last reason) {frame : Frame}
    (hframe : frame ∈ last) :
    last = [frame] ∧ ∃ heuristic,
      machine.locate? scanDistance position.programCounter = some ⟨frame.entry, heuristic⟩ := by
  cases hstops with
  | failed hinspect => cases hframe
  | leaf hinspect =>
    rw [List.mem_singleton] at hframe
    subst hframe
    cases inspect_eq_iff.mp hinspect with
    | unsaved hexecuted hnever => exact ⟨rfl, hexecuted.located⟩
  | unsaved hinspect => cases hframe
  | callerUnresolved hinspect =>
    rw [List.mem_singleton] at hframe
    subst hframe
    exact ⟨rfl, exists_locate?_of_inspect_saved hinspect⟩
  | caller hinspect hreason =>
    rw [List.mem_singleton] at hframe
    subst hframe
    exact ⟨rfl, exists_locate?_of_inspect_saved hinspect⟩

/-- The function of frame number `i` is located from program counter number `i` on the path of the
walk. -/
theorem Stopped.exists_locate? {position : Position} {positions : List Position}
    {stack : CallStack} (hstopped : machine.Stopped scanDistance position positions stack) {i : Nat}
    {frame : Frame} (hframe : stack.frames[i]? = some frame) :
    ∃ origin heuristic, (path position.programCounter stack.frames)[i]? = some origin ∧
      machine.locate? scanDistance origin = some ⟨frame.entry, heuristic⟩ := by
  induction hstopped generalizing i with
  | @here position last reason hstops =>
    rcases hstops.exists_locate? (List.mem_of_getElem? hframe) with ⟨rfl, heuristic, hlocated⟩
    rcases i with _ | i
    · exact ⟨position.programCounter, heuristic, rfl, hlocated⟩
    · simp at hframe
  | @outwards position outer caller rest stack hinspect hrest ih =>
    rcases i with _ | i
    · rw [CallStack.frames_push, List.getElem?_cons_zero, Option.some.injEq] at hframe
      subst hframe
      rcases exists_locate?_of_inspect_saved hinspect with ⟨heuristic, hlocated⟩
      exact ⟨position.programCounter, heuristic, rfl, hlocated⟩
    · exact ih hframe

/-- The function of every frame starts at a mapped address, and not above the program counter that
the frame was found from. -/
theorem exists_origin (machine : Machine) (limits : Limits) (registers : Registers) {i : Nat}
    {frame : Frame} (hframe : (machine.unwind limits registers).frames[i]? = some frame) :
    ∃ origin,
      (path registers.programCounter (machine.unwind limits registers).frames)[i]? = some origin ∧
      frame.entry ≤ origin ∧ (machine.memory frame.entry).isSome = true := by
  rcases (machine.stopped_unwind limits registers).exists_locate? hframe with
    ⟨origin, heuristic, horigin, hlocated⟩
  have hwindow := locate?_mem_window hlocated
  exact ⟨origin, horigin, le_of_mem_window hwindow, isSome_of_mem_window hwindow⟩

end Machine

namespace Debugger

/-! ## The latest stop -/

/-- The latest stop in `events` was at `registers`, and came after `earlier`. -/
def LastStop (events earlier : List Event) (registers : Registers) : Prop :=
  ∃ later, events = earlier ++ .stop registers :: later ∧ ∀ other, .stop other ∉ later

/-- A history has a latest stop unless there was none. -/
theorem exists_lastStop_or (events : List Event) :
    (∃ earlier registers, LastStop events earlier registers) ∨
      ∀ registers, .stop registers ∉ events := by
  induction events with
  | nil => exact Or.inr fun registers => List.not_mem_nil
  | cons event events ih =>
    rcases ih with ⟨earlier, registers, later, rfl, hlater⟩ | hnone
    · exact Or.inl ⟨event :: earlier, registers, later, rfl, hlater⟩
    · cases event with
      | write address value =>
        refine Or.inr fun registers hmem => hnone registers ?_
        simpa using hmem
      | stop registers => exact Or.inl ⟨[], registers, events, rfl, hnone⟩

namespace Session

/-- Writes leave the window alone. -/
theorem window_run_of_writes (session : Session) {events : List Event}
    (hwrites : ∀ registers, .stop registers ∉ events) :
    (session.run events).window = session.window := by
  induction events generalizing session with
  | nil => rfl
  | cons event events ih =>
    have hrest : ∀ registers, .stop registers ∉ events :=
      fun registers hmem => hwrites registers (List.mem_cons_of_mem event hmem)
    cases event with
    | write address value => rw [run_cons, ih _ hrest, window_after_write]
    | stop registers => exact absurd List.mem_cons_self (hwrites registers)

/-- After any history the window is as the latest stop left it. -/
theorem window_run_of_lastStop (session : Session) {events earlier : List Event}
    {registers : Registers} (hstop : LastStop events earlier registers) :
    (session.run events).window =
      (session.run earlier).window.refresh (session.run earlier).memory.read registers := by
  rcases hstop with ⟨later, rfl, hlater⟩
  rw [run_append, run_cons, window_run_of_writes _ hlater]
  rfl

/-- The call stack of the machine when it stops after some events, in the memory of that moment. -/
def stackAt (session : Session) (earlier : List Event) (registers : Registers) : CallStack :=
  Machine.unwind ⟨(session.run earlier).memory.read, Mips.classifier⟩ session.window.limits
    registers

/-- What the window works its rows out from at a stop. -/
theorem callStack_run (session : Session) (earlier : List Event) (registers : Registers) :
    (session.run earlier).window.callStack (session.run earlier).memory.read registers =
      session.stackAt earlier registers := by
  rw [Window.callStack, limits_run, stackAt]

/-- The rows are those of the call stack at the latest stop. -/
theorem rows_run_of_lastStop (session : Session) {events earlier : List Event}
    {registers : Registers} (hstop : LastStop events earlier registers) :
    (session.run events).window.rows =
      (session.stackAt earlier registers).rows session.window.symbols.name? := by
  rw [session.window_run_of_lastStop hstop, Window.refresh, callStack_run, symbols_run]

/-- A row leads to the function of its frame in the call stack at the latest stop. -/
theorem activate_run_of_lastStop (session : Session) {events earlier : List Event}
    {registers : Registers} (hstop : LastStop events earlier registers) (index : Nat) :
    (session.run events).window.activate index =
      ((session.stackAt earlier registers).frames[index]?).map Frame.entry := by
  rw [session.window_run_of_lastStop hstop, Window.activate_refresh, callStack_run]

/-- In a window that led nowhere at first, a row leads to the functions that the latest stop had at
its place. -/
theorem activate_run_eq_some_iff {session : Session} {index : Nat} {events : List Event}
    {target : Address} (hblank : session.window.activate index = none) :
    (session.run events).window.activate index = some target ↔
      ∃ earlier registers frame, LastStop events earlier registers ∧
        (session.stackAt earlier registers).frames[index]? = some frame ∧ frame.entry = target := by
  constructor
  · intro hactivate
    rcases exists_lastStop_or events with ⟨earlier, registers, hstop⟩ | hnone
    · rw [session.activate_run_of_lastStop hstop, Option.map_eq_some_iff] at hactivate
      rcases hactivate with ⟨frame, hframe, hentry⟩
      exact ⟨earlier, registers, frame, hstop, hframe, hentry⟩
    · rw [session.window_run_of_writes hnone, hblank] at hactivate
      cases hactivate
  · rintro ⟨earlier, registers, frame, hstop, hframe, rfl⟩
    rw [session.activate_run_of_lastStop hstop, hframe, Option.map_some]

/-- In a window that led nowhere at first, a row leads nowhere when there was no stop, or the latest
one had no frame at its place. -/
theorem activate_run_eq_none_iff {session : Session} {index : Nat} {events : List Event}
    (hblank : session.window.activate index = none) :
    (session.run events).window.activate index = none ↔
      (∀ registers, .stop registers ∉ events) ∨
      ∃ earlier registers, LastStop events earlier registers ∧
        (session.stackAt earlier registers).frames.length ≤ index := by
  constructor
  · intro hactivate
    rcases exists_lastStop_or events with ⟨earlier, registers, hstop⟩ | hnone
    · rw [session.activate_run_of_lastStop hstop, Option.map_eq_none_iff,
        List.getElem?_eq_none_iff] at hactivate
      exact Or.inr ⟨earlier, registers, hstop, hactivate⟩
    · exact Or.inl hnone
  · rintro (hnone | ⟨earlier, registers, hstop, hlength⟩)
    · rw [session.window_run_of_writes hnone, hblank]
    · rw [session.activate_run_of_lastStop hstop, List.getElem?_eq_none hlength, Option.map_none]

/-- Wherever a row leads, the latest stop had that function at that place in its call stack; and
where none leads, there was no stop, or its call stack had no frame there.  The function starts at
an address that was mapped then, not above the program counter that its frame was found from.  What
is written after a stop does not change the rows. -/
theorem activate_run (scanDistance frameDepth : Option String) (memory : MappedMemory)
    (symbols : SymbolTable) (events : List Event) (index : Nat) :
    let session : Session :=
      ⟨memory, .blank (Settings.ofTexts scanDistance frameDepth).limits symbols⟩
    let window := (session.run events).window
    (∀ target, window.activate index = some target ↔
      ∃ earlier registers frame, LastStop events earlier registers ∧
        (session.stackAt earlier registers).frames[index]? = some frame ∧ frame.entry = target) ∧
    (window.activate index = none ↔
      (∀ registers, .stop registers ∉ events) ∨
      ∃ earlier registers, LastStop events earlier registers ∧
        (session.stackAt earlier registers).frames.length ≤ index) ∧
    (∀ earlier registers, LastStop events earlier registers →
      window.rows = (session.stackAt earlier registers).rows symbols.name? ∧
      ∀ target, window.activate index = some target → ∃ origin,
        (path registers.programCounter (session.stackAt earlier registers).frames)[index]? =
          some origin ∧
        target ≤ origin ∧ ((session.run earlier).memory.read target).isSome = true) ∧
    ∀ writes, (∀ registers, .stop registers ∉ writes) →
      (session.run (events ++ writes)).window.rows = window.rows := by
  intro session window
  have hblank : session.window.activate index = none := Window.activate_blank _ _ index
  refine ⟨fun target => activate_run_eq_some_iff hblank, activate_run_eq_none_iff hblank, ?_, ?_⟩
  · intro earlier registers hstop
    refine ⟨session.rows_run_of_lastStop hstop, ?_⟩
    intro target hactivate
    rw [session.activate_run_of_lastStop hstop, Option.map_eq_some_iff] at hactivate
    rcases hactivate with ⟨frame, hframe, rfl⟩
    exact Machine.exists_origin _ _ registers hframe
  · intro writes hwrites
    rw [run_append, window_run_of_writes _ hwrites]

/-- The sample image stops in `helper` once both return addresses are stored, and its first word is
overwritten later.  The second row still leads to `main`. -/
theorem activate_run_helper :
    let session : Session :=
      ⟨Sample.memory, .blank (Settings.ofTexts none none).limits Sample.symbols⟩
    let earlier : List Event := [.write 0x001FFFFC 0x00400000, .write 0x001FFFDC 0x00100014]
    let events : List Event := earlier ++ [.stop Tour.inHelper, .write 0x00100024 0]
    LastStop events earlier Tour.inHelper ∧
      (session.run events).window.activate 1 = some 0x00100000 ∧
      (∃ origin,
        (path 0x00100030 (session.stackAt earlier Tour.inHelper).frames)[1]? = some origin ∧
        0x00100000 ≤ origin ∧ ((session.run earlier).memory.read 0x00100000).isSome = true) ∧
      (∀ registers, .stop registers ∉ [Event.write 0x001FFFDC 0]) ∧
      (session.run (events ++ [.write 0x001FFFDC 0])).window.rows =
        (session.run events).window.rows := by
  intro session earlier events
  have hstop : LastStop events earlier Tour.inHelper :=
    ⟨[.write 0x00100024 0], rfl, by simp⟩
  have hframe : (session.stackAt earlier Tour.inHelper).frames[1]? =
      some ⟨0x00100000, 0x00400000⟩ := by
    decide +kernel
  have hwrites : ∀ registers, .stop registers ∉ [Event.write 0x001FFFDC 0] := by simp
  rcases activate_run none none Sample.memory Sample.symbols events 1 with
    ⟨hsome, -, hshown, hkept⟩
  have hactivate := (hsome 0x00100000).mpr ⟨earlier, Tour.inHelper, _, hstop, hframe, rfl⟩
  exact ⟨hstop, hactivate, (hshown earlier Tour.inHelper hstop).2 _ hactivate, hwrites,
    hkept _ hwrites⟩

end Session

end Debugger

end Backtrace
