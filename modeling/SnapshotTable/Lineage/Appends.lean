import SnapshotTable.Lineage.Walk

/-! Planning incremental scans: the files that append snapshots of a range added. Replacements and
removals contribute nothing, and a range with an overwrite has no plan. -/

namespace SnapshotTable

structure FileScanTask where
  file : DataFile
  snapshotId : SnapshotId
  deriving DecidableEq, Repr, Inhabited

namespace Graph

def tasksOf (base tip : SnapshotId) (s : Snapshot) : Except TableError (List FileScanTask) :=
  match s.operation with
  | .append => .ok ((DataFile.sortByPath s.addedFiles).map fun f => ⟨f, s.id⟩)
  | .replace | .delete => .ok []
  | .overwrite => .error (.unsupportedIncrementalOperation s.id s.operation base tip)

/-- The tasks of the range after `base` up to `tip`: oldest snapshot first, then by path. The oldest
overwrite of the range is the one that is named. -/
def planAppends (g : Graph) (base tip : SnapshotId) : Except TableError (List FileScanTask) :=
  (g.range base tip).bind fun chain =>
    (sequence (chain.reverse.map (tasksOf base tip))).map List.flatten

end Graph

end SnapshotTable
