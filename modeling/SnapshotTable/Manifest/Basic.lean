import SnapshotTable.DataFile

/-! Manifests: immutable groups of file entries, each with the snapshot that authored it. Snapshots
share manifests, so a manifest has an identity besides its content. -/

namespace SnapshotTable

/-- Identifier of a snapshot. Identifiers follow the order of commits and not the depth of a
lineage. -/
abbrev SnapshotId := Nat

abbrev ManifestId := Nat

inductive EntryStatus where
  | existing
  | added
  | deleted
  deriving DecidableEq, Repr, Inhabited

def EntryStatus.name : EntryStatus → String
  | .existing => "EXISTING"
  | .added => "ADDED"
  | .deleted => "DELETED"

def EntryStatus.all : List EntryStatus := [.existing, .added, .deleted]

def EntryStatus.ofName? (name : String) : Option EntryStatus :=
  EntryStatus.all.find? (·.name == name)

/-- A file in a manifest. Its snapshot added the file or, if the status is deleted, removed it. -/
structure ManifestEntry where
  status : EntryStatus
  snapshotId : SnapshotId
  file : DataFile
  deriving DecidableEq, Repr, Inhabited

namespace ManifestEntry

def isLive (e : ManifestEntry) : Bool := e.status != .deleted

def isLiveAt (test : String → Bool) (e : ManifestEntry) : Bool := e.isLive && test e.file.path

end ManifestEntry

structure ManifestCounts where
  added : Nat
  existing : Nat
  deleted : Nat
  deriving DecidableEq, Repr, Inhabited

def ManifestCounts.live (c : ManifestCounts) : Nat := c.added + c.existing

def ManifestCounts.total (c : ManifestCounts) : Nat := c.added + c.existing + c.deleted

structure Manifest where
  id : ManifestId
  addedSnapshotId : SnapshotId
  entries : List ManifestEntry
  deriving DecidableEq, Repr, Inhabited

namespace Manifest

def countOf (m : Manifest) (status : EntryStatus) : Nat :=
  m.entries.countP fun e => e.status == status

def counts (m : Manifest) : ManifestCounts :=
  ⟨m.countOf .added, m.countOf .existing, m.countOf .deleted⟩

def liveEntries (m : Manifest) : List ManifestEntry := m.entries.filter ManifestEntry.isLive

def hasLiveAt (test : String → Bool) (m : Manifest) : Bool := m.entries.any (·.isLiveAt test)

def isSmall (target : Nat) (m : Manifest) : Bool := m.counts.total < target

def same (a b : Manifest) : Bool := a.id == b.id

end Manifest

end SnapshotTable
