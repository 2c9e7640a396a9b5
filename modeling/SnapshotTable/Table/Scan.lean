import SnapshotTable.Lineage.Appends
import SnapshotTable.Table.Basic

/-! Scans: the live files of one snapshot, and the files that were appended in a range of
snapshots. -/

namespace SnapshotTable

/-- An incremental scan. Its upper bound, or why there is none, is fixed when it is made. -/
structure IncrementalScan where
  base : SnapshotId
  tip : Except TableError SnapshotId

def appendsBetween (base tip : SnapshotId) : IncrementalScan := ⟨base, .ok tip⟩

namespace Table

variable {σ : Type}

def scanRange (t : Table σ) (scan : IncrementalScan) : Except TableError (List Snapshot) := do
  let tip ← scan.tip
  let (graph, _) ← t.state
  graph.range scan.base tip

def planTasks (t : Table σ) (scan : IncrementalScan) :
    Except TableError (List FileScanTask) × Table σ :=
  let plan : Except TableError (List FileScanTask × Event) := do
    let tip ← scan.tip
    let (graph, _) ← t.state
    let tasks ← graph.planAppends scan.base tip
    let range ← graph.range scan.base tip
    pure (tasks, .scanPlanned scan.base tip range.length tasks.length)
  match plan with
  | .error e => (.error e, t)
  | .ok (tasks, event) => (.ok tasks, t.report event)

def planAppendedFiles (t : Table σ) (scan : IncrementalScan) :
    Except TableError FileSet × Table σ :=
  match t.planTasks scan with
  | (.error e, t) => (.error e, t)
  | (.ok tasks, t) => (.ok (Keyed.ofList (tasks.map FileScanTask.file)), t)

variable [PointerStore σ]

def appendsAfter (t : Table σ) (base : SnapshotId) : IncrementalScan × Table σ :=
  match t.currentId with
  | (.error e, t) => (⟨base, .error e⟩, t)
  | (.ok none, t) => (⟨base, .error (.snapshotNotFound base)⟩, t)
  | (.ok (some id), t) => (⟨base, .ok id⟩, t)

def scannedSnapshot (t : Table σ) (id : Option SnapshotId) :
    Except TableError (Option Snapshot) × Table σ :=
  match id with
  | some id => ((t.snapshot id).map some, t)
  | none => t.current

def planFiles (t : Table σ) (id : Option SnapshotId) : Except TableError FileSet × Table σ :=
  match t.scannedSnapshot id with
  | (.error e, t) => (.error e, t)
  | (.ok s, t) => (.ok (filesAt s), t)

end Table

end SnapshotTable
