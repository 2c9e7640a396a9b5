import SnapshotTable.CommandLine
import Std.Time.DateTime.Timestamp

/-! The program: reads the files that the arguments name, runs the script, and prints the report. -/

namespace SnapshotTable.CommandLine

def readText? (path : String) : IO (Option String) := do
  try
    return some (← IO.FS.readFile path)
  catch _ =>
    return none

def writeText (path text : String) : IO Bool := do
  try
    IO.FS.writeFile path text
    return true
  catch _ =>
    return false

def runInvocation (filter : Trace.Filter) (i : Invocation) : IO UInt32 := do
  let nanos := (← Std.Time.Timestamp.now).toNanosecondsSinceUnixEpoch.val
  let now := Instant.ofNanos nanos
  let bits := (← IO.getRandomBytes 16).foldl (fun n b => n * 256 + b.toNat) 0
  let configText ← match i.config with
    | some path => readText? path
    | none => pure none
  let scriptText ← readText? i.script
  let report := simulation i configText scriptText (Uuid.random bits) (Clock.still nanos)
  let written ← match report.document? i with
    | some (path, text) => writeText path text
    | none => pure true
  let report := report.finish i written
  let stderr ← IO.getStderr
  for event in filter.select report.events do
    stderr.putStrLn (if i.jsonLog then event.jsonLine now else event.textLine now)
  match report.result with
  | .ok s => IO.println s.toJson.pretty
  | .error complaint => stderr.putStrLn ("Error: " ++ complaint.message)
  return report.exitCode.toUInt32

def entry (args : List String) : IO UInt32 := do
  match request args with
  | .help =>
    IO.println helpText
    return 0
  | .misuse =>
    (← IO.getStderr).putStrLn usage
    return misuseCode.toUInt32
  | .run i =>
    match Trace.Filter.ofText? (← IO.getEnv "RUST_LOG") with
    | some filter => runInvocation filter i
    | none => return breakdownCode.toUInt32

end SnapshotTable.CommandLine

def main (args : List String) : IO UInt32 := SnapshotTable.CommandLine.entry args
