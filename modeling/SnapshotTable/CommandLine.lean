import SnapshotTable.Json.Reader
import SnapshotTable.Script.Run
import SnapshotTable.Trace.Line

/-! The command line: reading the arguments, and running a script with the texts of the files that
they name. Files are read and written outside; here they are texts that may be missing. -/

namespace SnapshotTable.CommandLine

structure Invocation where
  /-- The path of the script. -/
  script : String
  /-- The path of the table configuration. -/
  config : Option String := none
  /-- The path that the final metadata is also written to. -/
  metadata : Option String := none
  /-- Whether log lines are JSON documents. -/
  jsonLog : Bool := false
  deriving DecidableEq, Repr

inductive Request where
  | help
  /-- The arguments do not follow the usage. -/
  | misuse
  | run (invocation : Invocation)
  deriving DecidableEq, Repr

structure Options where
  script : Option String := none
  config : Option String := none
  metadata : Option String := none
  jsonLog : Bool := false
  deriving DecidableEq, Repr

def Options.set? (o : Options) (name value : String) : Option Options :=
  if value.isEmpty then none
  else match name with
    | "--script" => if o.script.isNone then some { o with script := value } else none
    | "--config" => if o.config.isNone then some { o with config := value } else none
    | "--metadata" => if o.metadata.isNone then some { o with metadata := value } else none
    | _ => none

def Options.request (o : Options) : Request :=
  match o.script with
  | some script => .run { script, config := o.config, metadata := o.metadata, jsonLog := o.jsonLog }
  | none => .misuse

/-- Whether an argument asks for help: the long option, or short options that start with its
letter. -/
def asksHelp (arg : String) : Bool := arg == "--help" || "-h".toList.isPrefixOf arg.toList

def startsOption (arg : String) : Bool := arg != "-" && ['-'].isPrefixOf arg.toList

def assignment? (arg : String) : Option (String × String) :=
  let cs := arg.toList
  let name := cs.takeWhile (· ≠ '=')
  if name.length < cs.length then
    some (String.ofList name, String.ofList (cs.drop (name.length + 1)))
  else none

/-- Reads arguments from left to right; the first request for help or misuse counts. -/
def Options.read (o : Options) : List String → Request
  | [] => o.request
  | arg :: rest =>
    if asksHelp arg then .help
    else if arg = "--log-json" then
      if o.jsonLog then .misuse else read { o with jsonLog := true } rest
    else if arg = "--" then
      if rest.isEmpty then o.request else .misuse
    else match assignment? arg with
      | some (name, value) =>
        match o.set? name value with
        | some o => read o rest
        | none => .misuse
      | none =>
        match rest with
        | [] => .misuse
        | value :: rest =>
          if startsOption value then .misuse
          else match o.set? arg value with
            | some o => read o rest
            | none => .misuse

def request (args : List String) : Request := Options.read {} args

inductive Complaint where
  | unreadableConfig (path : String)
  | malformedConfig
  | unreadableScript (path : String)
  | malformedScript
  | refused (failure : Failure)
  | unwritableMetadata (path : String)
  deriving DecidableEq, Repr

def Complaint.message : Complaint → String
  | .unreadableConfig path => "reading config " ++ path
  | .malformedConfig => "invalid table configuration"
  | .unreadableScript path => "reading script " ++ path
  | .malformedScript => "parsing script"
  | .refused (.error e) => e.message
  | .refused .crashed => "a validator broke down"
  | .unwritableMetadata path => "writing metadata " ++ path

def configOf (i : Invocation) (text : Option String) : Except Complaint TableConfig :=
  match i.config with
  | none => .ok {}
  | some path =>
    match text with
    | none => .error (.unreadableConfig path)
    | some text =>
      match (Json.parse? text).bind TableConfig.ofJson? with
      | none => .error .malformedConfig
      | some config =>
        match config.validate with
        | .error e => .error (.refused (.error e))
        | .ok () => .ok config

def stepsOf (i : Invocation) (text : Option String) : Except Complaint (List Step) :=
  match text with
  | none => .error (.unreadableScript i.script)
  | some text =>
    match (Json.parse? text).bind scriptOfJson? with
    | some steps => .ok steps
    | none => .error .malformedScript

structure Report where
  result : Except Complaint Simulation
  events : List Event := []

/-- Runs the script on a new table. The configuration is looked at before the script. -/
def simulation (i : Invocation) (configText scriptText : Option String) (uuid : Uuid)
    (clock : Clock) : Report :=
  let inputs : Except Complaint (Table MemoryPointer × List Step) := do
    let config ← configOf i configText
    let steps ← stepsOf i scriptText
    let t ← (Table.create uuid config clock).mapError fun e => .refused (.error e)
    pure (t, steps)
  match inputs with
  | .error complaint => { result := .error complaint }
  | .ok (t, steps) =>
    let (result, t) := t.simulate steps
    { result := result.mapError .refused, events := t.supply.events }

def Report.document? (i : Invocation) (r : Report) : Option (String × String) :=
  match i.metadata, r.result with
  | some path, .ok s => some (path, s.metadata.toJson.pretty)
  | _, _ => none

/-- The report behind the attempt to write the metadata. A run that ends well reports how many of
its steps failed. -/
def Report.finish (i : Invocation) (r : Report) (written : Bool) : Report :=
  match r.result with
  | .error _ => r
  | .ok s =>
    match i.metadata, written with
    | some path, false => { r with result := .error (.unwritableMetadata path) }
    | _, _ =>
      { r with events := r.events ++ [.scriptFinished s.outcomes.length s.failures.length] }

def Report.exitCode (r : Report) : Nat :=
  match r.result with
  | .ok _ => 0
  | .error _ => 1

def misuseCode : Nat := 2

/-- The exit code of a run that breaks down over the text of its event filter, before it reads a
file. -/
def breakdownCode : Nat := 101

def usage : String := "Usage: tessera [OPTIONS] --script <SCRIPT>"

def helpText : String :=
  "\n".intercalate [
    "Replay a commit/scan script against an in-memory table",
    "",
    usage,
    "",
    "Options:",
    "      --script <SCRIPT>      Path to the script JSON (an array of steps)",
    "      --config <CONFIG>      Path to table config JSON",
    "      --metadata <METADATA>  Also write the final table metadata to this path",
    "      --log-json             Emit logs as JSON",
    "  -h, --help                 Print help"]

end SnapshotTable.CommandLine
