import SnapshotTable.Metadata.Basic
import SnapshotTable.Json.Record

/-! Reading and writing metadata documents. -/

namespace SnapshotTable

def Operation.ofJson? : Json → Option Operation := Json.choice? Operation.ofName?

def EntryStatus.ofJson? : Json → Option EntryStatus := Json.choice? EntryStatus.ofName?

def PointerChange.ofJson? : Json → Option PointerChange := Json.choice? PointerChange.ofName?

def Instant.ofJson? (j : Json) : Option Instant := j.str?.bind Instant.ofText?

def Uuid.ofJson? (j : Json) : Option Uuid := j.str?.bind Uuid.ofText?

namespace Summary

def ofJson? (j : Json) : Option Summary := do
  let [addedFiles, deletedFiles, addedRecords, deletedRecords, totalFiles, totalRecords,
      totalSizeBytes] ←
    j.fields? ["added-files", "deleted-files", "added-records", "deleted-records", "total-files",
      "total-records", "total-size-bytes"] | none
  pure {
    addedFiles := ← Json.required? Json.word? addedFiles
    deletedFiles := ← Json.required? Json.word? deletedFiles
    addedRecords := ← Json.required? Json.word? addedRecords
    deletedRecords := ← Json.required? Json.word? deletedRecords
    totalFiles := ← Json.required? Json.word? totalFiles
    totalRecords := ← Json.required? Json.word? totalRecords
    totalSizeBytes := ← Json.required? Json.word? totalSizeBytes }

def toJson (s : Summary) : Json :=
  .obj [("added-files", .int s.addedFiles), ("deleted-files", .int s.deletedFiles),
    ("added-records", .int s.addedRecords), ("deleted-records", .int s.deletedRecords),
    ("total-files", .int s.totalFiles), ("total-records", .int s.totalRecords),
    ("total-size-bytes", .int s.totalSizeBytes)]

end Summary

namespace LogEntry

def ofJson? (j : Json) : Option LogEntry := do
  let [sequence, snapshotId, changedAt, change] ←
    j.fields? ["sequence", "snapshot-id", "changed-at", "change"] | none
  pure {
    sequence := ← Json.required? Json.word? sequence
    snapshotId := ← Json.required? SnapshotId.ofJson? snapshotId
    changedAt := ← Json.required? Instant.ofJson? changedAt
    change := ← Json.required? PointerChange.ofJson? change }

def toJson (e : LogEntry) : Json :=
  .obj [("sequence", .int e.sequence), ("snapshot-id", .int e.snapshotId),
    ("changed-at", .str e.changedAt.document), ("change", .str e.change.name)]

end LogEntry

namespace ManifestMetadata

def ofJson? (j : Json) : Option ManifestMetadata := do
  let [manifestId, addedSnapshotId, added, existing, deleted] ←
    j.fields? ["manifest-id", "added-snapshot-id", "added-files-count", "existing-files-count",
      "deleted-files-count"] | none
  pure {
    manifestId := ← Json.required? Uuid.ofJson? manifestId
    addedSnapshotId := ← Json.required? SnapshotId.ofJson? addedSnapshotId
    addedFilesCount := ← Json.required? Json.word? added
    existingFilesCount := ← Json.required? Json.word? existing
    deletedFilesCount := ← Json.required? Json.word? deleted }

def toJson (m : ManifestMetadata) : Json :=
  .obj [("manifest-id", .str (Uuid.text m.manifestId)),
    ("added-snapshot-id", .int m.addedSnapshotId), ("added-files-count", .int m.addedFilesCount),
    ("existing-files-count", .int m.existingFilesCount),
    ("deleted-files-count", .int m.deletedFilesCount)]

end ManifestMetadata

namespace SnapshotMetadata

def ofJson? (j : Json) : Option SnapshotMetadata := do
  let [snapshotId, parentSnapshotId, timestampMs, operation, summary, manifests] ←
    j.fields? ["snapshot-id", "parent-snapshot-id", "timestamp-ms", "operation", "summary",
      "manifests"] | none
  pure {
    snapshotId := ← Json.required? SnapshotId.ofJson? snapshotId
    parentSnapshotId :=
      ← Json.optional? none (Json.nullable? SnapshotId.ofJson?) parentSnapshotId
    timestampMs := ← Json.required? Json.signedWord? timestampMs
    operation := ← Json.required? Operation.ofJson? operation
    summary := ← Json.required? Summary.ofJson? summary
    manifests := ← Json.required? (Json.list? ManifestMetadata.ofJson?) manifests }

def toJson (s : SnapshotMetadata) : Json :=
  .obj ([("snapshot-id", .int s.snapshotId)]
    ++ (match s.parentSnapshotId with
        | some id => [("parent-snapshot-id", .int id)]
        | none => [])
    ++ [("timestamp-ms", .int s.timestampMs), ("operation", .str s.operation.name),
      ("summary", s.summary.toJson), ("manifests", .arr (s.manifests.map ManifestMetadata.toJson))])

end SnapshotMetadata

namespace TableMetadata

def propertyOfJson? (member : String × Json) : Option (String × String) :=
  member.2.str?.map fun s => (member.1, s)

def propertiesOfJson? : Json → Option Properties
  | .obj members => (members.mapM propertyOfJson?).map Keyed.ofList
  | _ => none

def ofJson? (j : Json) : Option TableMetadata := do
  let [formatVersion, tableUuid, currentSnapshotId, properties, snapshots, snapshotLog] ←
    j.fields? ["format-version", "table-uuid", "current-snapshot-id", "properties", "snapshots",
      "snapshot-log"] | none
  pure {
    formatVersion := ← Json.required? (Json.nat? 256) formatVersion
    tableUuid := ← Json.required? Uuid.ofJson? tableUuid
    currentSnapshotId :=
      ← Json.optional? none (Json.nullable? SnapshotId.ofJson?) currentSnapshotId
    properties := ← Json.required? propertiesOfJson? properties
    snapshots := ← Json.required? (Json.list? SnapshotMetadata.ofJson?) snapshots
    snapshotLog := ← Json.required? (Json.list? LogEntry.ofJson?) snapshotLog }

def toJson (m : TableMetadata) : Json :=
  .obj [("format-version", .int m.formatVersion), ("table-uuid", .str (Uuid.text m.tableUuid)),
    ("current-snapshot-id",
      match m.currentSnapshotId with
      | some id => .int id
      | none => .null),
    ("properties", .obj (m.properties.toList.map fun (name, s) => (name, .str s))),
    ("snapshots", .arr (m.snapshots.map SnapshotMetadata.toJson)),
    ("snapshot-log", .arr (m.snapshotLog.map LogEntry.toJson))]

end TableMetadata

end SnapshotTable
