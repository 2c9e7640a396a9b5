import SnapshotTable.Metadata.Document
import SnapshotTable.Proofs.InstantTexts
import SnapshotTable.Proofs.KeyedEntries
import SnapshotTable.Proofs.Records
import SnapshotTable.Proofs.UuidTexts

/-! Metadata documents. All that a document says of a table is read back from it, if its numbers have 64 bits and
its times have years of four digits. -/

namespace SnapshotTable
open Json (Carries Holds wordBound signedBound)

private theorem Instant.carries {t : Instant} (h : t.Dated) : Carries ofJson? t (.str t.document) :=
  Json.carries_text (ofText?_document h)

private theorem Uuid.carries (u : Uuid) :
    Carries ofJson? u (.str (text u)) := Json.carries_text (ofText?_text u)

private theorem Operation.carries (op : Operation) : Carries ofJson? op (.str op.name) := by
  cases op <;> exact ⟨trivial, rfl⟩

private theorem PointerChange.carries (change : PointerChange) :
    Carries ofJson? change (.str change.name) := by
  cases change <;> exact ⟨trivial, rfl⟩

private theorem SnapshotId.carries {id : SnapshotId} (h : id < wordBound) :
    Carries ofJson? id (.int (id : Nat)) :=
  Json.carries_word h

namespace Summary

structure Fits (s : Summary) : Prop where
  addedFiles : s.addedFiles < wordBound
  deletedFiles : s.deletedFiles < wordBound
  addedRecords : s.addedRecords < wordBound
  deletedRecords : s.deletedRecords < wordBound
  totalFiles : s.totalFiles < wordBound
  totalRecords : s.totalRecords < wordBound
  totalSizeBytes : s.totalSizeBytes < wordBound

private theorem carries {s : Summary} (h : s.Fits) : Carries ofJson? s s.toJson := by
  have hadded := Json.carries_word h.addedFiles
  have hdeleted := Json.carries_word h.deletedFiles
  have haddedRecords := Json.carries_word h.addedRecords
  have hdeletedRecords := Json.carries_word h.deletedRecords
  have hfiles := Json.carries_word h.totalFiles
  have hrecords := Json.carries_word h.totalRecords
  have hbytes := Json.carries_word h.totalSizeBytes
  rw [toJson]
  refine Json.carries_full (fun _ => rfl) rfl (by simp) ⟨hadded.plain, hdeleted.plain, haddedRecords.plain,
    hdeletedRecords.plain, hfiles.plain, hrecords.plain, hbytes.plain⟩ ?_
  simp only [List.map, Option.bind_eq_bind, Option.bind_some, Json.required?, hadded.reads, hdeleted.reads,
    haddedRecords.reads, hdeletedRecords.reads, hfiles.reads, hrecords.reads, hbytes.reads]
  rfl

end Summary

namespace LogEntry

structure Fits (e : LogEntry) : Prop where
  sequence : e.sequence < wordBound
  snapshotId : e.snapshotId < wordBound
  changedAt : e.changedAt.Dated

private theorem carries {e : LogEntry} (h : e.Fits) : Carries ofJson? e e.toJson := by
  have hsequence := Json.carries_word h.sequence
  have hid := SnapshotId.carries h.snapshotId
  have htime := Instant.carries h.changedAt
  have hchange := PointerChange.carries e.change
  rw [toJson]
  refine Json.carries_full (fun _ => rfl) rfl (by simp)
    ⟨hsequence.plain, hid.plain, htime.plain, hchange.plain⟩ ?_
  simp only [List.map, Option.bind_eq_bind, Option.bind_some, Json.required?, hsequence.reads, hid.reads,
    htime.reads, hchange.reads]
  rfl

end LogEntry

namespace ManifestMetadata

structure Fits (m : ManifestMetadata) : Prop where
  addedSnapshotId : m.addedSnapshotId < wordBound
  addedFilesCount : m.addedFilesCount < wordBound
  existingFilesCount : m.existingFilesCount < wordBound
  deletedFilesCount : m.deletedFilesCount < wordBound

private theorem carries {m : ManifestMetadata} (h : m.Fits) : Carries ofJson? m m.toJson := by
  have hid := Uuid.carries m.manifestId
  have hwriter := SnapshotId.carries h.addedSnapshotId
  have hadded := Json.carries_word h.addedFilesCount
  have hexisting := Json.carries_word h.existingFilesCount
  have hdeleted := Json.carries_word h.deletedFilesCount
  rw [toJson]
  refine Json.carries_full (fun _ => rfl) rfl (by simp)
    ⟨hid.plain, hwriter.plain, hadded.plain, hexisting.plain, hdeleted.plain⟩ ?_
  simp only [List.map, Option.bind_eq_bind, Option.bind_some, Json.required?, hid.reads, hwriter.reads,
    hadded.reads, hexisting.reads, hdeleted.reads]
  rfl

end ManifestMetadata

namespace SnapshotMetadata

structure Fits (s : SnapshotMetadata) : Prop where
  snapshotId : s.snapshotId < wordBound
  parentSnapshotId : ∀ id, s.parentSnapshotId = some id → id < wordBound
  timestampMs : -signedBound ≤ s.timestampMs ∧ s.timestampMs < signedBound
  summary : s.summary.Fits
  manifests : ∀ m ∈ s.manifests, m.Fits

def parentField (parent : Option SnapshotId) : Option Json := parent.map fun id => .int (id : Nat)

private theorem holds_parent {parent : Option SnapshotId} (h : ∀ id, parent = some id → id < wordBound) :
    Holds (Json.optional? none (Json.nullable? SnapshotId.ofJson?)) parent (parentField parent) := by
  refine Carries.optional ?_
  cases parent with
  | none => rfl
  | some id => exact Json.carries_some (SnapshotId.carries (h id rfl)) nofun

private theorem toJson_eq (s : SnapshotMetadata) :
    s.toJson = .obj (Json.given [("snapshot-id", some (.int s.snapshotId)),
    ("parent-snapshot-id", parentField s.parentSnapshotId), ("timestamp-ms", some (.int s.timestampMs)),
    ("operation", some (.str s.operation.name)), ("summary", some s.summary.toJson),
    ("manifests", some (.arr (s.manifests.map ManifestMetadata.toJson)))]) := by
  rw [toJson]
  cases s.parentSnapshotId <;> rfl

private theorem carries {s : SnapshotMetadata} (h : s.Fits) : Carries ofJson? s s.toJson := by
  have hid := (SnapshotId.carries h.snapshotId).required
  have hparent := holds_parent h.parentSnapshotId
  have htime := (Json.carries_signedWord h.timestampMs).required
  have hoperation := (Operation.carries s.operation).required
  have hsummary := (Summary.carries h.summary).required
  have hmanifests := (Json.carries_map fun m hm => ManifestMetadata.carries (h.manifests m hm)).required
  rw [toJson_eq]
  refine Json.carries_given (fun _ => rfl) rfl (by simp) ⟨hid.plain, hparent.plain, htime.plain,
    hoperation.plain, hsummary.plain, hmanifests.plain⟩ ?_
  simp only [List.map, Option.bind_eq_bind, Option.bind_some, hid.reads, hparent.reads, htime.reads,
    hoperation.reads, hsummary.reads, hmanifests.reads]
  rfl

private theorem depth_toJson_le (s : SnapshotMetadata) : s.toJson.depth ≤ 3 := by
  have hmanifests : Json.depthItems (s.manifests.map ManifestMetadata.toJson) ≤ 1 :=
    Json.depthItems_map_le (fun _ => Nat.le_refl 1) _
  have hsummary : s.summary.toJson.depth = 1 := rfl
  rw [toJson_eq]
  cases s.parentSnapshotId <;>
    simp only [parentField, Option.map, Json.given, Json.depth, Json.depthMembers, hsummary] <;> omega

end SnapshotMetadata

private theorem Properties.carries (properties : Properties) :
    Carries TableMetadata.propertiesOfJson? properties
      (.obj (properties.toList.map fun (name, s) => (name, .str s))) where
  plain := Json.plainMembers_iff.mpr fun member hmember => by
    obtain ⟨_, _, rfl⟩ := List.mem_map.mp hmember
    trivial
  reads := by
    have hwords (words : List (String × String)) :
        (words.map fun (name, s) => (name, Json.str s)).mapM TableMetadata.propertyOfJson? = some words := by
      induction words with
      | nil => rfl
      | cons word rest ih =>
        rw [List.map_cons, List.mapM_cons, ih]
        rfl
    rw [TableMetadata.propertiesOfJson?, hwords, Option.map_some, Keyed.ofList_toList]

namespace TableMetadata

structure Fits (m : TableMetadata) : Prop where
  formatVersion : m.formatVersion < 256
  currentSnapshotId : ∀ id, m.currentSnapshotId = some id → id < wordBound
  snapshots : ∀ s ∈ m.snapshots, s.Fits
  snapshotLog : ∀ e ∈ m.snapshotLog, e.Fits

def currentField : Option SnapshotId → Json
  | some id => .int (id : Nat)
  | none => .null

private theorem carries_current {current : Option SnapshotId}
    (h : ∀ id, current = some id → id < wordBound) :
    Carries (Json.nullable? SnapshotId.ofJson?) current (currentField current) := by
  cases current with
  | none => exact Json.carries_none
  | some id => exact Json.carries_some (SnapshotId.carries (h id rfl)) nofun

private theorem toJson_eq (m : TableMetadata) :
    m.toJson = .obj [("format-version", .int m.formatVersion),
    ("table-uuid", .str (Uuid.text m.tableUuid)), ("current-snapshot-id", currentField m.currentSnapshotId),
    ("properties", .obj (m.properties.toList.map fun (name, s) => (name, .str s))),
    ("snapshots", .arr (m.snapshots.map SnapshotMetadata.toJson)),
    ("snapshot-log", .arr (m.snapshotLog.map LogEntry.toJson))] := by
  rw [toJson]
  cases m.currentSnapshotId <;> rfl

/-- Metadata that fit a document are read back from it. -/
theorem carries {m : TableMetadata} (h : m.Fits) : Carries ofJson? m m.toJson := by
  have hversion := Json.carries_nat (by decide) h.formatVersion
  have huuid := Uuid.carries m.tableUuid
  have hcurrent := carries_current h.currentSnapshotId
  have hproperties := Properties.carries m.properties
  have hsnapshots := Json.carries_map fun s hs => SnapshotMetadata.carries (h.snapshots s hs)
  have hlog := Json.carries_map fun e he => LogEntry.carries (h.snapshotLog e he)
  rw [toJson_eq]
  refine Json.carries_full (fun _ => rfl) rfl (by simp) ⟨hversion.plain, huuid.plain, hcurrent.plain,
    hproperties.plain, hsnapshots.plain, hlog.plain⟩ ?_
  simp only [List.map, Option.bind_eq_bind, Option.bind_some, Json.required?, Json.optional?, hversion.reads,
    huuid.reads, hcurrent.reads, hproperties.reads, hsnapshots.reads, hlog.reads]
  rfl

private theorem depth_toJson_le (m : TableMetadata) : m.toJson.depth ≤ 5 := by
  have hproperties : ∀ words : List (String × String),
      Json.depthMembers (words.map fun (name, s) => (name, .str s)) = 0 := by
    intro words
    induction words with
    | nil => rfl
    | cons word rest ih => exact Nat.max_eq_zero_iff.mpr ⟨rfl, ih⟩
  have hsnapshots := Json.depthItems_map_le SnapshotMetadata.depth_toJson_le m.snapshots
  have hlog : Json.depthItems (m.snapshotLog.map LogEntry.toJson) ≤ 1 :=
    Json.depthItems_map_le (fun _ => Nat.le_refl 1) _
  rw [toJson_eq]
  cases m.currentSnapshotId <;> simp only [Json.depth, Json.depthMembers, currentField, hproperties] <;> omega

/-- So a reader that limits how deep documents nest accepts what fits. -/
theorem readable {m : TableMetadata} (h : m.Fits) : m.toJson.readable = true := by
  have hsound := Json.sound_of_plain (carries h).plain
  have hdepth := Nat.le_trans m.depth_toJson_le (by decide : 5 ≤ Json.maxDepth)
  simp [Json.readable, hsound, hdepth]

end TableMetadata
end SnapshotTable
