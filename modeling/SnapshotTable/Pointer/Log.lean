import SnapshotTable.Error

/-! The pointer log: one entry for each move of the current pointer, so that it tells what was
current when, also after rollbacks. -/

namespace SnapshotTable

inductive PointerChange where
  | commit
  | rollback
  deriving DecidableEq, Repr, Inhabited

def PointerChange.name : PointerChange → String
  | .commit => "commit"
  | .rollback => "rollback"

def PointerChange.ofName? (name : String) : Option PointerChange :=
  [PointerChange.commit, .rollback].find? (·.name == name)

structure LogEntry where
  sequence : Nat
  snapshotId : SnapshotId
  changedAt : Instant
  change : PointerChange
  deriving DecidableEq, Repr, Inhabited

structure PointerLog where
  entries : List LogEntry := []
  deriving DecidableEq, Repr, Inhabited

namespace PointerLog

def lastSequence (log : PointerLog) : Nat := (log.entries.getLast?.map LogEntry.sequence).getD 0

/-- Adds an entry. Sequence numbers count from one without gaps. -/
def append (log : PointerLog) (e : LogEntry) : Except SequenceConflict PointerLog :=
  if e.sequence = log.lastSequence + 1 then .ok ⟨log.entries ++ [e]⟩
  else .error ⟨e.snapshotId, log.lastSequence + 1, e.sequence⟩

def nextEntry (log : PointerLog) (id : SnapshotId) (change : PointerChange) (now : Instant) :
    LogEntry :=
  ⟨log.lastSequence + 1, id, now, change⟩

def record (log : PointerLog) (id : SnapshotId) (change : PointerChange) (now : Instant) :
    Except SequenceConflict PointerLog :=
  log.append (log.nextEntry id change now)

end PointerLog

end SnapshotTable
