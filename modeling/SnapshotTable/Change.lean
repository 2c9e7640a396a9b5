import SnapshotTable.Snapshot.Basic

/-! Staged changes: the files that a commit is to add and the paths that it is to remove. Staging a
path twice keeps one copy, and of two records of an added file the last. -/

namespace SnapshotTable

structure Change where
  operation : Operation
  added : FileSet := Keyed.empty
  removed : PathSet := Keyed.empty
  /-- Whether every removed path must be live in the state that the change applies to. -/
  requiresRemovals : Bool := false

namespace Change

/-- The empty change of an operation. A replacement always requires its removals. -/
def start (operation : Operation) : Change :=
  { operation, requiresRemovals := operation = .replace }

def add (c : Change) (file : DataFile) : Change := { c with added := c.added.insert file }

def addAll (c : Change) (files : List DataFile) : Change := files.foldl add c

def remove (c : Change) (path : String) : Change := { c with removed := c.removed.insert path }

def removeAll (c : Change) (paths : List String) : Change := paths.foldl remove c

def requireRemovals (c : Change) : Change := { c with requiresRemovals := true }

def isEmpty (c : Change) : Bool := c.added.isEmpty && c.removed.isEmpty

/-- The files of a table after the change, record for record: removed paths are erased first. -/
def apply (c : Change) (files : FileSet) : FileSet :=
  c.added.items.foldl Keyed.insert (files.filter fun f => !c.removed.contains f.path)

end Change

end SnapshotTable
