import SnapshotTable.Change
import SnapshotTable.Time.Text

/-! Script steps: the commits, rollbacks and scans that a script asks for, and their documents. -/

namespace SnapshotTable

inductive StepKind where
  | append
  | delete
  | replace
  | overwrite
  | transaction
  | rollback
  | appendsBetween
  | appendsAfter
  | scan
  deriving DecidableEq, Repr, Inhabited

namespace StepKind

def name : StepKind → String
  | .append => "append"
  | .delete => "delete"
  | .replace => "rewrite"
  | .overwrite => "overwrite"
  | .transaction => "transaction"
  | .rollback => "rollback"
  | .appendsBetween => "appends-between"
  | .appendsAfter => "appends-after"
  | .scan => "scan"

def all : List StepKind :=
  [.append, .delete, .replace, .overwrite, .transaction, .rollback, .appendsBetween, .appendsAfter,
    .scan]

def ofJson? : Json → Option StepKind
  | .str s => all.find? (·.name == s)
  | _ => none

def ofNestedJson? : Json → Option StepKind
  | .int (.ofNat n) => all[n]?
  | j => ofJson? j

end StepKind

/-- One step of a script. Only the first four kinds may stand inside a transaction. -/
inductive Step where
  | append (files : List DataFile)
  | delete (paths : List String) (validate : Bool)
  | replace (removed : List String) (added : List DataFile)
  | overwrite (added : List DataFile) (removed : List String)
  | transaction (steps : List Step)
  | rollback (snapshot : Option SnapshotId) (before : Option Instant)
  | appendsBetween (base tip : SnapshotId)
  | appendsAfter (base : SnapshotId)
  | scan (snapshot : Option SnapshotId)
  deriving Repr, Inhabited

namespace Step

def kind : Step → StepKind
  | .append .. => .append
  | .delete .. => .delete
  | .replace .. => .replace
  | .overwrite .. => .overwrite
  | .transaction .. => .transaction
  | .rollback .. => .rollback
  | .appendsBetween .. => .appendsBetween
  | .appendsAfter .. => .appendsAfter
  | .scan .. => .scan

def name (step : Step) : String := step.kind.name

/-- Whether two lists hold the same files in the same order, where files are known by path. -/
def sameFiles (as bs : List DataFile) : Bool := as.map DataFile.path == bs.map DataFile.path

mutual

def same : Step → Step → Bool
  | .append as, .append bs => sameFiles as bs
  | .delete ps v, .delete qs w => ps == qs && v == w
  | .replace ps as, .replace qs bs => ps == qs && sameFiles as bs
  | .overwrite as ps, .overwrite bs qs => sameFiles as bs && ps == qs
  | .transaction as, .transaction bs => sameSteps as bs
  | .rollback a s, .rollback b t => a == b && s == t
  | .appendsBetween a b, .appendsBetween c d => a == c && b == d
  | .appendsAfter a, .appendsAfter b => a == b
  | .scan a, .scan b => a == b
  | _, _ => false

def sameSteps : List Step → List Step → Bool
  | [], [] => true
  | a :: as, b :: bs => same a b && sameSteps as bs
  | _, _ => false

end

def change? : Step → Option Change
  | .append files => some ((Change.start .append).addAll files)
  | .delete paths validate =>
    let change := (Change.start .delete).removeAll paths
    some (if validate then change.requireRemovals else change)
  | .replace removed added => some (((Change.start .replace).removeAll removed).addAll added)
  | .overwrite added removed => some (((Change.start .overwrite).removeAll removed).addAll added)
  | _ => none

def filesJson (files : List DataFile) : Json := .arr (files.map DataFile.toJson)

def pathsJson (paths : List String) : Json := .arr (paths.map Json.str)

def idJson : Option SnapshotId → Json
  | some id => .int id
  | none => .null

def timeJson : Option Instant → Json
  | some t => .str t.document
  | none => .null

mutual

def toJson : Step → Json
  | .append files => .obj [("op", .str "append"), ("files", filesJson files)]
  | .delete paths validate =>
    .obj [("op", .str "delete"), ("paths", pathsJson paths), ("validate", .bool validate)]
  | .replace removed added =>
    .obj [("op", .str "rewrite"), ("delete", pathsJson removed), ("add", filesJson added)]
  | .overwrite added removed =>
    .obj [("op", .str "overwrite"), ("add", filesJson added), ("delete", pathsJson removed)]
  | .transaction steps => .obj [("op", .str "transaction"), ("steps", .arr (toJsonList steps))]
  | .rollback snapshot before =>
    .obj [("op", .str "rollback"), ("snapshot", idJson snapshot), ("before", timeJson before)]
  | .appendsBetween base tip =>
    .obj [("op", .str "appends-between"), ("from", .int base), ("to", .int tip)]
  | .appendsAfter base => .obj [("op", .str "appends-after"), ("from", .int base)]
  | .scan snapshot => .obj [("op", .str "scan"), ("snapshot", idJson snapshot)]

def toJsonList : List Step → List Json
  | [] => []
  | step :: rest => toJson step :: toJsonList rest

end

def timeOfJson? (j : Json) : Option Instant := j.str?.bind Instant.ofText?

/-- The kind of a step and the record of its fields. An object names its kind once, at any place;
an array starts with it. -/
def parts? (kind? : Json → Option StepKind) : Json → Option (StepKind × Json)
  | .obj members =>
    match members.filter (·.1 == "op") with
    | [(_, op)] => (kind? op).map fun kind => (kind, .obj (members.filter (·.1 != "op")))
    | _ => none
  | .arr (op :: rest) => (kind? op).map fun kind => (kind, .arr rest)
  | _ => none

def ofFields? (nested : Json → Option Step) : StepKind → Json → Option Step
  | .append, j => do
    let [files] ← j.fields? ["files"] | none
    pure (.append (← Json.required? (Json.list? DataFile.ofJson?) files))
  | .delete, j => do
    let [paths, validate] ← j.fields? ["paths", "validate"] | none
    pure (.delete (← Json.required? (Json.list? Json.str?) paths)
      (← Json.optional? false Json.bool? validate))
  | .replace, j => do
    let [removed, added] ← j.fields? ["delete", "add"] | none
    pure (.replace (← Json.required? (Json.list? Json.str?) removed)
      (← Json.required? (Json.list? DataFile.ofJson?) added))
  | .overwrite, j => do
    let [added, removed] ← j.fields? ["add", "delete"] | none
    pure (.overwrite (← Json.optional? [] (Json.list? DataFile.ofJson?) added)
      (← Json.optional? [] (Json.list? Json.str?) removed))
  | .transaction, j => do
    let [steps] ← j.fields? ["steps"] | none
    pure (.transaction (← Json.required? (Json.list? nested) steps))
  | .rollback, j => do
    let [snapshot, before] ← j.fields? ["snapshot", "before"] | none
    pure (.rollback (← Json.optional? none (Json.nullable? SnapshotId.ofJson?) snapshot)
      (← Json.optional? none (Json.nullable? timeOfJson?) before))
  | .appendsBetween, j => do
    let [base, tip] ← j.fields? ["from", "to"] | none
    pure (.appendsBetween (← Json.required? SnapshotId.ofJson? base)
      (← Json.required? SnapshotId.ofJson? tip))
  | .appendsAfter, j => do
    let [base] ← j.fields? ["from"] | none
    pure (.appendsAfter (← Json.required? SnapshotId.ofJson? base))
  | .scan, j => do
    let [snapshot] ← j.fields? ["snapshot"] | none
    pure (.scan (← Json.optional? none (Json.nullable? SnapshotId.ofJson?) snapshot))

def nestedOfJson? : Nat → Json → Option Step
  | 0, _ => none
  | depth + 1, j =>
    (parts? StepKind.ofNestedJson? j).bind fun (kind, fields) =>
      ofFields? (nestedOfJson? depth) kind fields

def ofJson? (j : Json) : Option Step :=
  if j.readable then
    (parts? StepKind.ofJson? j).bind fun (kind, fields) =>
      ofFields? (nestedOfJson? j.depth) kind fields
  else none

end Step

def scriptOfJson? (j : Json) : Option (List Step) :=
  if j.readable then Json.list? Step.ofJson? j else none

end SnapshotTable
