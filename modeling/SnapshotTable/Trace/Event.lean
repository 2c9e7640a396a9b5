import SnapshotTable.Error

/-! What a table reports while it works: events with a level, a message and fields. -/

namespace SnapshotTable

inductive Level where
  | error
  | warn
  | info
  | debug
  | trace
  deriving DecidableEq, Repr, Inhabited

def Level.rank : Level → Nat
  | .error => 1
  | .warn => 2
  | .info => 3
  | .debug => 4
  | .trace => 5

def Level.name : Level → String
  | .error => "error"
  | .warn => "warn"
  | .info => "info"
  | .debug => "debug"
  | .trace => "trace"

inductive Event where
  | manifestsMerged (id : SnapshotId) (merged kept : Nat)
  | snapshotProduced (id : SnapshotId) (operation : Operation) (added deleted manifests : Nat)
  | baseStale (expected actual : Option SnapshotId)
  | snapshotPublished (id : SnapshotId) (parentId : Option SnapshotId) (operation : Operation)
      (added deleted : Nat)
  | commitRestaged (attempt maxRetries : Nat) (operation : Operation) (error : TableError)
  | transactionCommitted (base : Option SnapshotId) (operations : Nat) (current : Option SnapshotId)
  | rolledBack (base : Option SnapshotId) (target : SnapshotId)
  | scanPlanned (base tip : SnapshotId) (snapshots files : Nat)
  | stepFailed (index : Nat) (op : String) (error : TableError)
  | scriptFinished (steps failed : Nat)
  deriving DecidableEq, Repr, Inhabited

inductive FieldValue where
  | number (n : Nat)
  | text (s : String)
  deriving DecidableEq, Repr, Inhabited

def FieldValue.display : FieldValue → String
  | .number n => String.ofList (Text.Decimal.numeral n)
  | .text s => s

namespace Event

def pointerField : Option SnapshotId → FieldValue
  | some id => .text ("Some(" ++ id.display ++ ")")
  | none => .text "None"

def level : Event → Level
  | .manifestsMerged .. | .snapshotProduced .. | .scanPlanned .. => .debug
  | .snapshotPublished .. | .transactionCommitted .. | .rolledBack .. | .scriptFinished .. => .info
  | .baseStale .. | .commitRestaged .. | .stepFailed .. => .warn

def message : Event → String
  | .manifestsMerged .. => "merged small manifests"
  | .snapshotProduced .. => "produced snapshot"
  | .baseStale .. => "commit base is stale"
  | .snapshotPublished .. => "published snapshot"
  | .commitRestaged .. => "re-staging commit against new current snapshot"
  | .transactionCommitted .. => "committed transaction"
  | .rolledBack .. => "rolled back current snapshot"
  | .scanPlanned .. => "planned incremental scan"
  | .stepFailed .. => "script step failed"
  | .scriptFinished .. => "script finished"

def fields : Event → List (String × FieldValue)
  | .manifestsMerged id merged kept =>
    [("snapshot_id", .text id.display), ("merged", .number merged), ("kept", .number kept)]
  | .snapshotProduced id operation added deleted manifests =>
    [("snapshot_id", .text id.display), ("operation", .text operation.name),
      ("added", .number added), ("deleted", .number deleted), ("manifests", .number manifests)]
  | .baseStale expected actual =>
    [("expected", pointerField expected), ("actual", pointerField actual)]
  | .snapshotPublished id parentId operation added deleted =>
    [("snapshot_id", .number id), ("parent_id", pointerField parentId),
      ("operation", .text operation.name), ("added_files", .number added),
      ("deleted_files", .number deleted)]
  | .commitRestaged attempt maxRetries operation error =>
    [("attempt", .number attempt), ("max_retries", .number maxRetries),
      ("operation", .text operation.name), ("error", .text error.message)]
  | .transactionCommitted base operations current =>
    [("base", pointerField base), ("operations", .number operations),
      ("current", pointerField current)]
  | .rolledBack base target => [("from", pointerField base), ("to", .number target)]
  | .scanPlanned base tip snapshots files =>
    [("from", .number base), ("to", .number tip), ("snapshots", .number snapshots),
      ("files", .number files)]
  | .stepFailed index op error =>
    [("index", .number index), ("op", .text op), ("error", .text error.message)]
  | .scriptFinished steps failed => [("steps", .number steps), ("failed", .number failed)]

end Event

end SnapshotTable
