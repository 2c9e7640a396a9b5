import SnapshotTable.Manifest.Basic
import SnapshotTable.Time.Instant

/-! Snapshots: complete table states at one point of the commit history. A snapshot lists all its
manifests and names its parent, and never changes. -/

namespace SnapshotTable

def SnapshotId.ofJson? : Json → Option SnapshotId := Json.word?

inductive Operation where
  /-- Files were added. -/
  | append
  /-- Files were exchanged for others with the same rows. -/
  | replace
  /-- Rows were added and removed. -/
  | overwrite
  /-- Files were removed. -/
  | delete
  deriving DecidableEq, Repr, Inhabited

def Operation.name : Operation → String
  | .append => "append"
  | .replace => "replace"
  | .overwrite => "overwrite"
  | .delete => "delete"

def Operation.all : List Operation := [.append, .replace, .overwrite, .delete]

def Operation.ofName? (name : String) : Option Operation :=
  Operation.all.find? (·.name == name)

/-- The figures recorded with a snapshot. Those on records and bytes are held at `maxTotal`. -/
structure Summary where
  addedFiles : Nat := 0
  deletedFiles : Nat := 0
  addedRecords : Nat := 0
  deletedRecords : Nat := 0
  totalFiles : Nat := 0
  totalRecords : Nat := 0
  totalSizeBytes : Nat := 0
  deriving DecidableEq, Repr, Inhabited

structure Snapshot where
  id : SnapshotId
  parentId : Option SnapshotId
  timestamp : Instant
  operation : Operation
  manifests : List Manifest
  summary : Summary
  deriving DecidableEq, Repr, Inhabited

namespace Snapshot

def liveEntries (s : Snapshot) : List ManifestEntry := s.manifests.flatMap Manifest.liveEntries

def liveFiles (s : Snapshot) : List DataFile := s.liveEntries.map ManifestEntry.file

/-- The files of the entries with a status that the snapshot itself authored. Only manifests that
the snapshot wrote are searched. -/
def authoredFiles (s : Snapshot) (status : EntryStatus) : List DataFile :=
  ((s.manifests.filter (·.addedSnapshotId == s.id)).flatMap Manifest.entries).filterMap fun e =>
    if e.status = status ∧ e.snapshotId = s.id then some e.file else none

def addedFiles (s : Snapshot) : List DataFile := s.authoredFiles .added

def deletedFiles (s : Snapshot) : List DataFile := s.authoredFiles .deleted

/-- The files of a table at a snapshot, one for each live path; of several live entries with one
path the last counts. -/
def files (s : Snapshot) : FileSet := Keyed.ofList s.liveFiles

end Snapshot

def filesAt (s : Option Snapshot) : FileSet :=
  match s with
  | some s => s.files
  | none => Keyed.empty

end SnapshotTable
