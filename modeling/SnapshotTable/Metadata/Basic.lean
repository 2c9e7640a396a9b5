import SnapshotTable.Table.Basic

/-! Metadata documents: the identity of a table, its current snapshot, every snapshot with its
figures and manifests, and the pointer log. Manifests appear with their counts only. -/

namespace SnapshotTable

abbrev Properties := Keyed (Prod.fst : String × String → String)

structure ManifestMetadata where
  manifestId : Uuid
  addedSnapshotId : SnapshotId
  addedFilesCount : Nat
  existingFilesCount : Nat
  deletedFilesCount : Nat
  deriving DecidableEq, Repr, Inhabited

/-- What a document says of a snapshot; its time is in milliseconds, rounded down. -/
structure SnapshotMetadata where
  snapshotId : SnapshotId
  parentSnapshotId : Option SnapshotId
  timestampMs : Int
  operation : Operation
  summary : Summary
  manifests : List ManifestMetadata
  deriving DecidableEq, Repr, Inhabited

structure TableMetadata where
  formatVersion : Nat
  tableUuid : Uuid
  currentSnapshotId : Option SnapshotId
  properties : Properties
  snapshots : List SnapshotMetadata
  snapshotLog : List LogEntry
  deriving DecidableEq

def formatVersion : Nat := 2

def Manifest.metadata (m : Manifest) (uuid : Uuid) : ManifestMetadata :=
  ⟨uuid, m.addedSnapshotId, m.counts.added, m.counts.existing, m.counts.deleted⟩

def Snapshot.metadata (s : Snapshot) (uuid : ManifestId → Uuid) : SnapshotMetadata where
  snapshotId := s.id
  parentSnapshotId := s.parentId
  timestampMs := s.timestamp.millis
  operation := s.operation
  summary := s.summary
  manifests := s.manifests.map fun m => m.metadata (uuid m.id)

namespace TableMetadata

def snapshot? (m : TableMetadata) (id : SnapshotId) : Option SnapshotMetadata :=
  m.snapshots.find? (·.snapshotId == id)

end TableMetadata

namespace Table

variable {σ : Type} [PointerStore σ]

def manifestUuid (t : Table σ) (id : ManifestId) : Uuid := Uuid.random (t.uuid.toNat + id + 1)

/-- The metadata of a table. The pointer is read after the snapshots. -/
def metadata (t : Table σ) : Except TableError TableMetadata × Table σ :=
  match t.state with
  | .error e => (.error e, t)
  | .ok (graph, log) =>
    match t.currentId with
    | (.error e, t) => (.error e, t)
    | (.ok currentSnapshotId, t) =>
      (.ok {
        formatVersion
        tableUuid := t.uuid
        currentSnapshotId
        properties := Keyed.ofList t.config.properties
        snapshots := graph.toList.map fun s => s.metadata t.manifestUuid
        snapshotLog := log.entries }, t)

end Table

end SnapshotTable
