import Backtrace.Debugger.Tour

/-!
# The command line

Takes the tour with the limits that two environment variables set, writes its records to standard
error, one a line, and ends with its status.  Every record is kept.
-/

open Backtrace.Debugger

/-- Writes a record: its level, its message, and the values that come with it. -/
def Backtrace.Debugger.Tour.Record.write (record : Tour.Record) : IO Unit := do
  let level := match record.level with
    | .info => "INFO "
    | .warn => "WARN "
  let values := record.fields.map fun (name, value) => ", " ++ name ++ "=" ++ value
  IO.eprintln (level ++ record.message ++ String.join values)

/-- Runs the tour. -/
def main : IO UInt32 := do
  let scanDistance ← IO.getEnv "SCRYWIND_MAX_SCAN_DISTANCE"
  let frameDepth ← IO.getEnv "SCRYWIND_MAX_FRAME_DEPTH"
  let transcript := Tour.run (some fun _ => true) (.ofTexts scanDistance frameDepth)
  transcript.records.forM Tour.Record.write
  return transcript.status.toUInt32
