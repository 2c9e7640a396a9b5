import SnapshotTable.Table.Publish

/-! Rollbacks: going back to a snapshot by its identifier, or to the latest one of the current
lineage before a time. No snapshot is made or removed. -/

namespace SnapshotTable

inductive RollbackTarget where
  | snapshot (id : SnapshotId)
  | before (time : Instant)
  deriving DecidableEq, Repr

structure Rollback where
  base : Option SnapshotId
  target : Option RollbackTarget := none
  deriving DecidableEq, Repr

/-- Whether `b` is at least as late as `a`: by time, and by identifier where the times agree. -/
def Snapshot.notLater (a b : Snapshot) : Bool :=
  a.timestamp.before b.timestamp || (a.timestamp == b.timestamp && a.id ≤ b.id)

/-- The latest snapshot of a list; of several equally late ones the last. -/
def latestSnapshot? (snapshots : List Snapshot) : Option Snapshot :=
  snapshots.foldl
    (fun best s =>
      match best with
      | none => some s
      | some b => if b.notLater s then some s else some b)
    none

namespace Table

variable {σ : Type} [PointerStore σ]

def beginRollback (t : Table σ) : Except TableError Rollback × Table σ :=
  match t.currentId with
  | (.error e, t) => (.error e, t)
  | (.ok base, t) => (.ok { base }, t)

/-- The latest snapshot in the lineage of `base` that is strictly before a time. -/
def resolveTime (t : Table σ) (base : Option SnapshotId) (time : Instant) :
    Except TableError SnapshotId :=
  match base with
  | none => .error (.noSnapshotBeforeTime time)
  | some id =>
    (t.ancestors none id).bind fun lineage =>
      match latestSnapshot? (lineage.filter (·.timestamp.before time)) with
      | some s => .ok s.id
      | none => .error (.noSnapshotBeforeTime time)

def commitRollback (t : Table σ) (r : Rollback) : Except TableError Snapshot × Table σ :=
  match r.target with
  | none => (.error (.invalidOperation "rollback has no target snapshot"), t)
  | some (.snapshot id) => t.movePointer r.base id
  | some (.before time) =>
    match t.resolveTime r.base time with
    | .error e => (.error e, t)
    | .ok id => t.movePointer r.base id

def rollbackTo (t : Table σ) (id : SnapshotId) : Except TableError Snapshot × Table σ :=
  match t.beginRollback with
  | (.error e, t) => (.error e, t)
  | (.ok r, t) => t.commitRollback { r with target := some (.snapshot id) }

end Table

end SnapshotTable
