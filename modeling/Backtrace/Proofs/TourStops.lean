import Backtrace.Debugger.Tour
import Backtrace.Proofs.LimitTexts
import Backtrace.Proofs.NameHistory
import Backtrace.Proofs.NestedCalls

/-!
# What the tour shows

The tour stops three times, and what it shows depends on the two limits alone.  Each function of
the sample image is found once a search may look as far as its first instruction, and looking
further never changes that, because the return in front of the function says the same.  So there
are only a few scan distances at which something new comes into reach: two slots for `main` when it
has not stored anything, four for `helper`, and six for `main` behind its call.

Main results:

- Theorems `unwind_inMain`, `unwind_inHelper` and `unwind_astray`: the call stacks at the three
  stops, under any limits.
- Theorem `run_eq`: the records of the tour, whatever the log keeps of them.
- Theorem `run_ofTexts`: the whole tour, for any two texts that set its limits.
-/

namespace Backtrace

namespace Debugger

namespace Sample

/-- The image has `main` in it from the beginning. -/
theorem main_standsIn_memory : main.StandsIn memory.read where
  holds := by decide
  apart := Or.inl ⟨0x000FFFF8, 0x000FFFFC, Mips.Assembly.encode .nop, by decide⟩

end Sample

namespace Tour

variable {scanDistance : Nat}

/-- Both return addresses can be stored. -/
theorem memoryInHelper?_eq : memoryInHelper? = some Sample.running := rfl

/-! ## One activation at a time -/

/-- In `main`, which has stored nothing yet. -/
theorem inspect_inMain :
    (Mips.machine Sample.memory.read).inspect scanDistance inMain.programCounter
        inMain.stackPointer =
      if 2 ≤ scanDistance then .ok (.unsaved 0x00100000) else .error .boundaryNotFound := by
  have hinside : Sample.main.Inside 1 inMain.programCounter := ⟨by decide, rfl⟩
  apply Sample.main_standsIn_memory.inspect_eq_ite hinside
  intro hscan
  exact Sample.main_standsIn_memory.inspect_unopened hinside hscan (by decide) _

/-- In `helper`, which has stored where it returns to. -/
theorem inspect_inHelper :
    (Mips.machine Sample.running.read).inspect scanDistance inHelper.programCounter
        inHelper.stackPointer =
      if 4 ≤ scanDistance then
        .ok (.saved ⟨0x00100024, 0x00100014⟩ (some mainStackPointer))
      else .error .boundaryNotFound := by
  have hinside : Sample.helper.Inside 3 inHelper.programCounter := ⟨by decide, rfl⟩
  have hslot : (((helperStackPointer + 12 : Address).toNat : Int)) =
      inHelper.stackPointer.toNat + Sample.helper.saveOffset.toInt := rfl
  apply Sample.helper_standsIn.inspect_eq_ite hinside
  intro hscan
  exact Sample.helper_standsIn.inspect_opened hinside hscan (by decide) rfl hslot (by decide)

/-- In `main`, behind its call of `helper`. -/
theorem inspect_helperReturn :
    (Mips.machine Sample.running.read).inspect scanDistance 0x00100014 mainStackPointer =
      if 6 ≤ scanDistance then
        .ok (.saved ⟨0x00100000, 0x00400000⟩ (some Sample.stackTop))
      else .error .boundaryNotFound := by
  have hinside : Sample.main.Inside 5 0x00100014 := ⟨by decide, rfl⟩
  have hslot : (((mainStackPointer + 28 : Address).toNat : Int)) =
      mainStackPointer.toNat + Sample.main.saveOffset.toInt := rfl
  apply Sample.main_standsIn.inspect_eq_ite hinside
  intro hscan
  exact Sample.main_standsIn.inspect_opened hinside hscan (by decide) rfl hslot (by decide)

/-- In whatever called `main`, which is not loaded. -/
theorem inspect_mainReturn (stackPointer : Address) :
    (Mips.machine Sample.running.read).inspect scanDistance 0x00400000 stackPointer =
      .error (.unmappedRead 0x00400000) :=
  Machine.inspect_of_finds (.unmapped (by decide))

/-! ## The three call stacks -/

/-- The call stack in `main`, as far as `s` slots tell. -/
def stackInMain (s : Nat) : CallStack :=
  if 2 ≤ s then ⟨[⟨0x00100000, 0x00400000⟩], .leafFrame⟩ else ⟨[], .boundaryNotFound⟩

/-- The call stack in `helper`, as far as `s` slots tell, and with at most `d` frames. -/
def stackInHelper (s d : Nat) : CallStack :=
  if s < 4 then ⟨[], .boundaryNotFound⟩
  else if s < 6 ∨ d = 1 then
    ⟨[⟨0x00100024, 0x00100014⟩], if d = 1 then .maxDepthReached else .boundaryNotFound⟩
  else
    ⟨[⟨0x00100024, 0x00100014⟩, ⟨0x00100000, 0x00400000⟩],
      if d = 2 then .maxDepthReached else .unmappedRead 0x00400000⟩

/-- The call stack at an address that nothing is known about. -/
def stackAstray : CallStack := ⟨[], .unmappedRead 0x00800000⟩

theorem unwind_inMain (limits : Limits) :
    (Mips.machine Sample.memory.read).unwind limits inMain = stackInMain limits.scanDistance := by
  unfold stackInMain
  split
  next hscan => exact Machine.unwind_of_leaf (inspect_inMain.trans (if_pos hscan))
  next hscan => exact Machine.unwind_of_error (inspect_inMain.trans (if_neg hscan))

/-- The walk goes on from `helper` to `main`, and from there to where nothing is mapped. -/
theorem walk_helperReturn (depth : Nat) :
    (Mips.machine Sample.running.read).walk scanDistance depth
        [0x00100014, inHelper.programCounter] 0x00100014 mainStackPointer =
      if depth = 0 then ⟨[], .maxDepthReached⟩
      else if scanDistance < 6 then ⟨[], .boundaryNotFound⟩
      else ⟨[⟨0x00100000, 0x00400000⟩],
        if depth = 1 then .maxDepthReached else .unmappedRead 0x00400000⟩ := by
  rcases depth with _ | depth
  · rfl
  · rw [if_neg (Nat.succ_ne_zero depth)]
    split
    next hscan => exact Machine.walk_of_error (inspect_helperReturn.trans (if_neg (by omega))) _ _
    next hscan =>
      have hmain := inspect_helperReturn.trans (if_pos (Nat.le_of_not_lt hscan))
      have hfresh : (0x00400000 : Address) ∉ [0x00100014, inHelper.programCounter] := by decide
      rw [Machine.walk_of_caller hmain hfresh]
      -- With a frame to spare the walk goes on to the caller of `main`, which is not loaded.
      rcases depth with _ | depth
      · rfl
      · rw [Machine.walk_of_error (inspect_mainReturn _), if_neg (by omega)]
        rfl

theorem unwind_inHelper (limits : Limits) :
    (Mips.machine Sample.running.read).unwind limits inHelper =
      stackInHelper limits.scanDistance limits.frameDepth := by
  unfold stackInHelper
  by_cases hscan : limits.scanDistance < 4
  · rw [if_pos hscan]
    exact Machine.unwind_of_error (inspect_inHelper.trans (if_neg (by omega)))
  · have hhelper := inspect_inHelper.trans (if_pos (Nat.le_of_not_lt hscan))
    have hfresh : (0x00100014 : Address) ∉ [inHelper.programCounter] := by decide
    obtain ⟨depth, hdepth⟩ := Nat.exists_eq_succ_of_ne_zero (Nat.ne_of_gt limits.frameDepth_pos)
    rw [if_neg hscan, Machine.unwind_of_not_leaf (by simp [hhelper]), hdepth,
      Machine.walk_of_caller hhelper hfresh, walk_helperReturn]
    by_cases hone : depth = 0
    · simp [hone, CallStack.push]
    · by_cases hmain : limits.scanDistance < 6
      · simp [hone, hmain, CallStack.push]
      · simp [hone, hmain, CallStack.push]

theorem unwind_astray (limits : Limits) :
    (Mips.machine Sample.running.read).unwind limits astray = stackAstray :=
  Machine.unwind_of_error (Machine.inspect_of_finds (.unmapped (by decide)))

/-! ## The rows at the three stops -/

/-- The row of `main`. -/
def mainRow : Row := ⟨"0x00100000 (main)", "0x00400000", some 0x00100000⟩

/-- The row of `helper`. -/
def helperRow : Row := ⟨"0x00100024 (helper)", "0x00100014", some 0x00100024⟩

/-- The row of no frame. -/
def unavailableRow : Row := ⟨"Call stack unavailable at this state.", "", none⟩

/-- The rows in `main`, as far as `s` slots tell. -/
def rowsInMain (s : Nat) : List Row := if 2 ≤ s then [mainRow] else [unavailableRow]

/-- The rows in `helper`, as far as `s` slots tell, and with at most `d` frames. -/
def rowsInHelper (s d : Nat) : List Row :=
  if s < 4 then [unavailableRow]
  else if s < 6 ∨ d = 1 then [helperRow] else [helperRow, mainRow]

theorem ofFrame_main :
    Row.ofFrame Sample.symbols.name? ⟨0x00100000, 0x00400000⟩ = mainRow := by
  have hname : Sample.symbols.name? 0x00100000 = some "main" := Sample.name?_symbols _
  rw [Row.ofFrame, hname]
  decide

theorem ofFrame_helper :
    Row.ofFrame Sample.symbols.name? ⟨0x00100024, 0x00100014⟩ = helperRow := by
  have hname : Sample.symbols.name? 0x00100024 = some "helper" := Sample.name?_symbols _
  rw [Row.ofFrame, hname]
  decide

theorem rows_stackInMain (s : Nat) :
    (stackInMain s).rows Sample.symbols.name? = rowsInMain s := by
  unfold stackInMain rowsInMain
  split
  next =>
    rw [← ofFrame_main]
    exact CallStack.rows_of_available _ (List.cons_ne_nil _ _)
  next => exact CallStack.rows_of_unavailable _ rfl

theorem rows_stackInHelper (s d : Nat) :
    (stackInHelper s d).rows Sample.symbols.name? = rowsInHelper s d := by
  unfold stackInHelper rowsInHelper
  split
  next => exact CallStack.rows_of_unavailable _ rfl
  next =>
    rw [← ofFrame_helper, ← ofFrame_main]
    split
    next => exact CallStack.rows_of_available _ (List.cons_ne_nil _ _)
    next => exact CallStack.rows_of_available _ (List.cons_ne_nil _ _)

theorem rows_stackAstray : stackAstray.rows Sample.symbols.name? = [unavailableRow] :=
  CallStack.rows_of_unavailable _ rfl

/-! ## What is told -/

/-- The records of a stop: why the walk ended, and the text of each row. -/
def stopRecords (reason : String) (texts : List String) : List Record :=
  ⟨.info, "call stack updated", [("termination", reason)]⟩ ::
    texts.map fun text => ⟨.info, text, []⟩

/-- The records of a stop without a frame. -/
def unavailableRecords (reason : String) : List Record :=
  stopRecords reason ["Call stack unavailable at this state. "]

/-- The records in `main`. -/
def recordsInMain (s : Nat) : List Record :=
  if 2 ≤ s then
    stopRecords "innermost function is a leaf" ["0x00100000 (main)        0x00400000"]
  else unavailableRecords "no function boundary found"

/-- The records in `helper`. -/
def recordsInHelper (s d : Nat) : List Record :=
  if s < 4 then unavailableRecords "no function boundary found"
  else if s < 6 ∨ d = 1 then
    stopRecords (if d = 1 then "maximum frame depth reached" else "no function boundary found")
      ["0x00100024 (helper)      0x00100014"]
  else
    stopRecords
      (if d = 2 then "maximum frame depth reached" else "read of unmapped address 0x00400000")
      ["0x00100024 (helper)      0x00100014", "0x00100000 (main)        0x00400000"]

/-- The records at an address that nothing is known about. -/
def recordsAstray : List Record := unavailableRecords "read of unmapped address 0x00800000"

/-- The record of a double click that leads to `target`. -/
def doubleClickRecord (target : String) : Record :=
  ⟨.info, "double click on the second row goes to " ++ target, []⟩

/-- The record of the warning in front, for the limits that the texts come to. -/
def warningRecords (scan depth : Nat) : List Record :=
  if scan = 0 then
    [⟨.warn, "invalid unwinder configuration: max_scan_distance must be at least 1 instruction" ++
      ", using defaults", []⟩]
  else if depth = 0 then
    [⟨.warn, "invalid unwinder configuration: max_frame_depth must be at least 1 frame" ++
      ", using defaults", []⟩]
  else []

/-- All records of the tour: `scan` and `depth` are what the texts come to, and `s` and `d` the
limits of its walks. -/
def script (scan depth s d : Nat) : List Record :=
  warningRecords scan depth ++ recordsInMain s ++ recordsInHelper s d ++
    (if 6 ≤ s ∧ 2 ≤ d then [doubleClickRecord "0x00100000"] else []) ++ recordsAstray

/-- A stop is told of by the message of its reason and the texts of its rows. -/
theorem report_eq (termination : Termination) (rows : List Row) :
    report termination rows = stopRecords termination.message (rows.map rowText) := by
  rw [report, stopRecords, List.map_map]
  rfl

theorem rowText_mainRow : rowText mainRow = "0x00100000 (main)        0x00400000" := by decide

theorem rowText_helperRow : rowText helperRow = "0x00100024 (helper)      0x00100014" := by decide

theorem rowText_unavailableRow :
    rowText unavailableRow = "Call stack unavailable at this state. " := by
  decide

theorem message_mainReturn :
    (Termination.unmappedRead 0x00400000).message = "read of unmapped address 0x00400000" := by
  decide

theorem message_astray :
    (Termination.unmappedRead 0x00800000).message = "read of unmapped address 0x00800000" := by
  decide

theorem report_stackInMain (s : Nat) :
    report (stackInMain s).termination (rowsInMain s) = recordsInMain s := by
  rw [report_eq, stackInMain, rowsInMain, recordsInMain]
  by_cases hscan : 2 ≤ s
  · rw [if_pos hscan, if_pos hscan, if_pos hscan, List.map_singleton, rowText_mainRow]
    rfl
  · rw [if_neg hscan, if_neg hscan, if_neg hscan, List.map_singleton, rowText_unavailableRow]
    rfl

theorem report_stackInHelper (s d : Nat) :
    report (stackInHelper s d).termination (rowsInHelper s d) = recordsInHelper s d := by
  rw [report_eq, stackInHelper, rowsInHelper, recordsInHelper]
  by_cases hscan : s < 4
  · rw [if_pos hscan, if_pos hscan, if_pos hscan, List.map_singleton, rowText_unavailableRow]
    rfl
  · rw [if_neg hscan, if_neg hscan, if_neg hscan]
    by_cases hone : s < 6 ∨ d = 1
    · rw [if_pos hone, if_pos hone, if_pos hone, List.map_singleton, rowText_helperRow]
      by_cases hdepth : d = 1
      · rw [if_pos hdepth, if_pos hdepth]
        rfl
      · rw [if_neg hdepth, if_neg hdepth]
        rfl
    · rw [if_neg hone, if_neg hone, if_neg hone, List.map_cons, List.map_singleton,
        rowText_helperRow, rowText_mainRow]
      by_cases hdepth : d = 2
      · rw [if_pos hdepth, if_pos hdepth]
        rfl
      · rw [if_neg hdepth, if_neg hdepth, message_mainReturn]

theorem report_stackAstray : report stackAstray.termination [unavailableRow] = recordsAstray := by
  rw [report_eq, stackAstray, message_astray, List.map_singleton, rowText_unavailableRow,
    recordsAstray, unavailableRecords]

/-! ## The tour -/

/-- The window at a stop depends on its limits alone, and so does what is told about it. -/
theorem stopped_eq {window : Window} {limits : Limits} {memory : MemoryView}
    {registers : Registers} {stack : CallStack} {rows : List Row} {records : List Record}
    (hlimits : window.limits = limits) (hsymbols : window.symbols = Sample.symbols)
    (hstack : (Mips.machine memory).unwind limits registers = stack)
    (hrows : stack.rows Sample.symbols.name? = rows)
    (hrecords : report stack.termination rows = records) :
    stopped window memory registers = (window.refresh memory registers, records) := by
  have hshown : window.callStack memory registers = stack := by
    rw [← hstack, ← hlimits]
    rfl
  rw [stopped, Window.refresh, hshown, hsymbols, hrows, hrecords]

/-- There is a second frame in `helper` once its caller comes into reach. -/
theorem second_stackInHelper (s : Nat) {d : Nat} (hd : 0 < d) :
    (stackInHelper s d).frames[1]? =
      if 6 ≤ s ∧ 2 ≤ d then some ⟨0x00100000, 0x00400000⟩ else none := by
  unfold stackInHelper
  by_cases hmain : 6 ≤ s ∧ 2 ≤ d
  · rw [if_pos hmain, if_neg (by omega), if_neg (by omega)]
    rfl
  · rw [if_neg hmain]
    split
    next => rfl
    next => rw [if_pos (by omega)]; rfl

/-- A double click on the second row leads to `main`, if there is a second row. -/
theorem doubleClick_inHelper {window : Window} (limits : Limits)
    (hlimits : window.limits = limits) :
    doubleClick (window.refresh Sample.running.read inHelper) =
      if 6 ≤ limits.scanDistance ∧ 2 ≤ limits.frameDepth then [doubleClickRecord "0x00100000"]
      else [] := by
  have hshown : window.callStack Sample.running.read inHelper =
      stackInHelper limits.scanDistance limits.frameDepth := by
    rw [← unwind_inHelper, ← hlimits]
    rfl
  have hmain : Hex.ofWord .lower 0x00100000 = "0x00100000" := by decide
  rw [doubleClick, Window.activate_refresh, hshown, second_stackInHelper _ limits.frameDepth_pos,
    doubleClickRecord]
  split
  next => rw [Option.map_some, Option.map_some, hmain, Option.toList_some]
  next => rw [Option.map_none, Option.map_none, Option.toList_none]

/-- A warning tells which of the limits that the texts come to is zero. -/
theorem warning_ofTexts (scanDistance frameDepth : Option String) :
    warning (Settings.ofTexts scanDistance frameDepth) =
      warningRecords (Settings.choose scanDistance 512) (Settings.choose frameDepth 32) := by
  rw [warning, Settings.rejected_ofTexts, warningRecords]
  by_cases hscan : Settings.choose scanDistance 512 = 0
  · simp only [if_pos hscan]
    decide
  · by_cases hdepth : Settings.choose frameDepth 32 = 0
    · simp only [if_neg hscan, if_pos hdepth]
      decide
    · simp only [if_neg hscan, if_neg hdepth]
      rfl

/-- The records that the log keeps are those of the script, in their order. -/
theorem run_eq (keeps : Record → Bool) (scanDistance frameDepth : Option String) :
    let limits := (Settings.ofTexts scanDistance frameDepth).limits
    run (some keeps) (Settings.ofTexts scanDistance frameDepth) =
      ⟨0, (script (Settings.choose scanDistance 512) (Settings.choose frameDepth 32)
        limits.scanDistance limits.frameDepth).filter keeps⟩ := by
  intro limits
  simp only [run, memoryInHelper?_eq]
  rw [stopped_eq rfl rfl (unwind_inMain limits) (rows_stackInMain _) (report_stackInMain _),
    stopped_eq rfl rfl (unwind_inHelper limits) (rows_stackInHelper _ _)
      (report_stackInHelper _ _),
    stopped_eq rfl rfl (unwind_astray limits) rows_stackAstray report_stackAstray,
    doubleClick_inHelper limits rfl, warning_ofTexts, script]

/-! ## Telling records apart -/

/-- A double click is told of by a message of its own. -/
theorem doubleClickRecord_notMem_stopRecords (target reason : String) {texts : List String}
    (htexts : ∀ text ∈ texts, text.toList.head? ≠ some 'd') :
    doubleClickRecord target ∉ stopRecords reason texts := by
  have hdouble : (doubleClickRecord target).message.toList.head? = some 'd' := by
    simp [doubleClickRecord]
  intro hmem
  rw [stopRecords, List.mem_cons, List.mem_map] at hmem
  rcases hmem with hstop | ⟨text, htext, hrow⟩
  · rw [hstop] at hdouble
    simp at hdouble
  · rw [← hrow] at hdouble
    exact htexts text htext hdouble

theorem doubleClickRecord_notMem_recordsInMain (target : String) (s : Nat) :
    doubleClickRecord target ∉ recordsInMain s := by
  unfold recordsInMain
  split
  next => exact doubleClickRecord_notMem_stopRecords _ _ (by decide)
  next => exact doubleClickRecord_notMem_stopRecords _ _ (by decide)

theorem doubleClickRecord_notMem_recordsInHelper (target : String) (s d : Nat) :
    doubleClickRecord target ∉ recordsInHelper s d := by
  unfold recordsInHelper
  split
  next => exact doubleClickRecord_notMem_stopRecords _ _ (by decide)
  next =>
    split
    next => exact doubleClickRecord_notMem_stopRecords _ _ (by decide)
    next => exact doubleClickRecord_notMem_stopRecords _ _ (by decide)

/-- A warning is told of at a level of its own. -/
theorem level_of_mem_warningRecords {scan depth : Nat} {record : Record}
    (hrecord : record ∈ warningRecords scan depth) : record.level = .warn := by
  unfold warningRecords at hrecord
  split at hrecord
  next => rw [List.mem_singleton.mp hrecord]
  next =>
    split at hrecord
    next => rw [List.mem_singleton.mp hrecord]
    next => cases hrecord

/-- The script tells of a double click when there is a second row in `helper`, which leads to
`main`. -/
theorem doubleClickRecord_mem_script_iff {scan depth s d : Nat} {target : String} :
    doubleClickRecord target ∈ script scan depth s d ↔
      (6 ≤ s ∧ 2 ≤ d) ∧ target = "0x00100000" := by
  have hwarning : doubleClickRecord target ∉ warningRecords scan depth := by
    intro hmem
    cases level_of_mem_warningRecords hmem
  have hastray : doubleClickRecord target ∉ recordsAstray :=
    doubleClickRecord_notMem_stopRecords _ _ (by decide)
  simp only [script, List.mem_append, hwarning, doubleClickRecord_notMem_recordsInMain,
    doubleClickRecord_notMem_recordsInHelper, hastray, false_or, or_false]
  split
  next hsecond =>
    rw [List.mem_singleton, doubleClickRecord, doubleClickRecord, Record.mk.injEq,
      String.append_right_inj]
    simp [hsecond]
  next hsecond => simp [hsecond]

/-- The script begins with a warning when one of the limits that the texts come to is zero. -/
theorem head?_script_warn_iff {scan depth s d : Nat} :
    (∃ record, (script scan depth s d).head? = some record ∧ record.level = .warn) ↔
      scan = 0 ∨ depth = 0 := by
  unfold script warningRecords
  by_cases hscan : scan = 0
  · simp [hscan]
  · by_cases hdepth : depth = 0
    · simp [hscan, hdepth]
    · have hfirst : ∃ record, (recordsInMain s).head? = some record ∧ record.level = .info := by
        unfold recordsInMain
        split
        next => exact ⟨_, rfl, rfl⟩
        next => exact ⟨_, rfl, rfl⟩
      rcases hfirst with ⟨record, hrecord, hlevel⟩
      simp [hscan, hdepth, hrecord, hlevel]

/-- Whatever the texts for its limits are, the tour is never broken off once there is a log: both
return addresses are stored.  Let the texts come to `scan` and `depth`, and the limits be these, or
`512` and `32` if one of them is zero.  With the limits `s` and `d` the three stops have the call
stacks `stackInMain s`, `stackInHelper s d` and `stackAstray`, and are told of as the script has it,
of which the log may leave out what it does not keep.  A double click is told of exactly if `main`
shows up behind `helper`, and leads there.  A warning comes first, exactly if one of the texts came
to zero. -/
theorem run_ofTexts (scanDistance frameDepth : Option String) :
    memoryInHelper? = some Sample.running ∧
    ∃ scan depth, (∀ number, Settings.ComesTo scanDistance 512 number ↔ number = scan) ∧
      (∀ number, Settings.ComesTo frameDepth 32 number ↔ number = depth) ∧
      let settings := Settings.ofTexts scanDistance frameDepth
      let s := settings.limits.scanDistance
      let d := settings.limits.frameDepth
      let records := (run (some fun _ => true) settings).records
      (s, d) = (if scan = 0 ∨ depth = 0 then (512, 32) else (scan, depth)) ∧
      ((Mips.machine Sample.memory.read).unwind settings.limits inMain = stackInMain s ∧
        (stackInMain s).rows Sample.symbols.name? = rowsInMain s) ∧
      ((Mips.machine Sample.running.read).unwind settings.limits inHelper = stackInHelper s d ∧
        (stackInHelper s d).rows Sample.symbols.name? = rowsInHelper s d) ∧
      ((Mips.machine Sample.running.read).unwind settings.limits astray = stackAstray ∧
        stackAstray.rows Sample.symbols.name? = [unavailableRow]) ∧
      records = script scan depth s d ∧
      (∀ keeps, run (some keeps) settings = ⟨0, records.filter keeps⟩) ∧
      run none settings = ⟨101, []⟩ ∧
      (∀ target, doubleClickRecord target ∈ records ↔
        (6 ≤ s ∧ 2 ≤ d) ∧ target = "0x00100000") ∧
      ((∃ record, records.head? = some record ∧ record.level = .warn) ↔
        scan = 0 ∨ depth = 0) := by
  refine ⟨memoryInHelper?_eq, Settings.choose scanDistance 512, Settings.choose frameDepth 32,
    fun _ => Settings.comesTo_iff, fun _ => Settings.comesTo_iff, ?_⟩
  intro settings s d records
  have hrecords : records =
      script (Settings.choose scanDistance 512) (Settings.choose frameDepth 32) s d := by
    change (run _ _).records = _
    rw [run_eq, List.filter_true]
  refine ⟨Settings.bounds_ofTexts scanDistance frameDepth,
    ⟨unwind_inMain settings.limits, rows_stackInMain s⟩,
    ⟨unwind_inHelper settings.limits, rows_stackInHelper s d⟩,
    ⟨unwind_astray settings.limits, rows_stackAstray⟩, hrecords, ?_, rfl, ?_, ?_⟩
  · intro keeps
    rw [hrecords]
    exact run_eq keeps scanDistance frameDepth
  · intro target
    rw [hrecords]
    exact doubleClickRecord_mem_script_iff
  · rw [hrecords]
    exact head?_script_warn_iff

end Tour

end Debugger

end Backtrace
