import SnapshotTable.Snapshot.Basic
import SnapshotTable.Time.Text

/-! What can go wrong with a table, each cause with its message. The errors of the pointer store,
the pointer log and the validators turn into table errors. -/

namespace SnapshotTable

open Text (Decimal.numeral)

def SnapshotId.display (id : SnapshotId) : String := String.ofList (Decimal.numeral id)

structure Violation where
  validator : String
  reason : String
  deriving DecidableEq, Repr, Inhabited

def Violation.message (v : Violation) : String :=
  "validator `" ++ v.validator ++ "` rejected change: " ++ v.reason

inductive TableError where
  | snapshotNotFound (id : SnapshotId)
  | invalidRange (reason : String)
  | unreachableAncestor (base tip : SnapshotId)
  | unsupportedIncrementalOperation (id : SnapshotId) (operation : Operation)
      (base tip : SnapshotId)
  | commitConflict (expected actual : Option SnapshotId)
  | validation (violation : Violation)
  | noSnapshotBeforeTime (time : Instant)
  | invalidLineage (id : SnapshotId) (reason : String)
  | invalidConfig (reason : String)
  | invalidOperation (reason : String)
  | pointerStore (reason : String)
  | lockPoisoned
  deriving DecidableEq, Repr, Inhabited

namespace TableError

def pointerText : Option SnapshotId → String
  | some id => id.display
  | none => "<none>"

def message : TableError → String
  | .snapshotNotFound id => "snapshot " ++ id.display ++ " not found"
  | .invalidRange reason => "invalid snapshot range: " ++ reason
  | .unreachableAncestor base tip =>
    "snapshot " ++ base.display ++ " is not an ancestor of snapshot " ++ tip.display
  | .unsupportedIncrementalOperation id operation base tip =>
    "found " ++ operation.name ++ " operation in snapshot " ++ id.display
      ++ ", cannot support incremental data in snapshots (" ++ base.display ++ ", " ++ tip.display
      ++ "]"
  | .commitConflict expected actual =>
    "commit conflict: expected current snapshot " ++ pointerText expected ++ ", found "
      ++ pointerText actual
  | .validation violation => "commit validation failed: " ++ violation.message
  | .noSnapshotBeforeTime time =>
    "no snapshot in the current lineage is older than " ++ time.display
  | .invalidLineage id reason => "invalid lineage at snapshot " ++ id.display ++ ": " ++ reason
  | .invalidConfig reason => "invalid table configuration: " ++ reason
  | .invalidOperation reason => "invalid operation: " ++ reason
  | .pointerStore reason => "pointer store error: " ++ reason
  | .lockPoisoned => "table state lock poisoned"

/-- Whether staging the change again may help; only after a lost race it may. -/
def isRetryable : TableError → Bool
  | .commitConflict .. => true
  | _ => false

def cause? : TableError → Option String
  | .validation violation => some violation.message
  | _ => none

end TableError

inductive PointerError where
  /-- The pointer did not have the expected value. -/
  | conflict (expected actual : Option SnapshotId)
  /-- The store did not answer. -/
  | unavailable (reason : String)
  deriving DecidableEq, Repr, Inhabited

namespace PointerError

def valueText : Option SnapshotId → String
  | some id => "Some(SnapshotId(" ++ id.display ++ "))"
  | none => "None"

def message : PointerError → String
  | .conflict expected actual =>
    "pointer moved: expected " ++ valueText expected ++ ", found " ++ valueText actual
  | .unavailable reason => "pointer store unavailable: " ++ reason

def toTableError : PointerError → TableError
  | .conflict expected actual => .commitConflict expected actual
  | .unavailable reason => .pointerStore reason

end PointerError

structure SequenceConflict where
  snapshotId : SnapshotId
  expected : Nat
  actual : Nat
  deriving DecidableEq, Repr, Inhabited

namespace SequenceConflict

def message (e : SequenceConflict) : String :=
  "sequence conflict at snapshot " ++ e.snapshotId.display ++ ": expected "
    ++ String.ofList (Decimal.numeral e.expected) ++ ", got "
    ++ String.ofList (Decimal.numeral e.actual)

def toTableError (e : SequenceConflict) : TableError := .invalidLineage e.snapshotId e.message

end SequenceConflict

end SnapshotTable
