import SnapshotTable.Proofs.MetadataDocuments
import SnapshotTable.Proofs.SharedManifests
import SnapshotTable.Proofs.Timestamps
import SnapshotTable.Proofs.Totals

/-! Documents of tables. What a table exports fits a document if its own numbers have 64 bits: parents, writers
of manifests and targets of moves are among its snapshots, sequence numbers count the moves, and figures on
records and bytes are held at the greatest total. So a document of any table is read back. -/

namespace SnapshotTable
open Json (wordBound signedBound)

structure Summary.Clamped (s : Summary) : Prop where
  addedRecords : s.addedRecords ≤ maxTotal
  deletedRecords : s.deletedRecords ≤ maxTotal
  totalRecords : s.totalRecords ≤ maxTotal
  totalSizeBytes : s.totalSizeBytes ≤ maxTotal

private theorem clampedTotal_le (values : List Nat) : clampedTotal values ≤ maxTotal := by
  rw [clampedTotal_eq]
  exact Nat.min_le_right _ _

namespace Production

private theorem clamped_summarize (base : FileSet) (change : Change) :
    (summarize base change).Clamped where
  addedRecords := clampedTotal_le _
  deletedRecords := clampedTotal_le _
  totalRecords := Nat.le_trans (Nat.sub_le _ _) (Nat.min_le_right _ _)
  totalSizeBytes := Nat.le_trans (Nat.sub_le _ _) (Nat.min_le_right _ _)

private theorem Builds.clamped {p : Production} {parent : Option Snapshot} {id : SnapshotId}
    {changes : List Change} {chain : List Snapshot} (h : p.Builds parent id changes chain) :
    ∀ s ∈ chain, s.summary.Clamped :=
  h.forall_built (P := fun _ _ => True) trivial
    fun _ _ _ _ => ⟨clamped_summarize _ _, trivial⟩

end Production

private theorem Manifest.countOf_le (m : Manifest) (status : EntryStatus) :
    m.countOf status ≤ m.entries.length :=
  List.countP_le_length

structure Snapshot.Sized (s : Snapshot) : Prop where
  timestamp : -signedBound ≤ s.timestamp.millis ∧ s.timestamp.millis < signedBound
  addedFiles : s.summary.addedFiles < wordBound
  deletedFiles : s.summary.deletedFiles < wordBound
  totalFiles : s.summary.totalFiles < wordBound
  entries : ∀ m ∈ s.manifests, m.entries.length < wordBound

private theorem Snapshot.Sized.fits {s : Snapshot} (h : s.Sized) (hid : s.id < wordBound)
    (hparent : ∀ id, s.parentId = some id → id < wordBound) (hclamped : s.summary.Clamped)
    (hwritten : WrittenBefore (s.id + 1) s.manifests) (uuid : ManifestId → Uuid) : (s.metadata uuid).Fits where
  snapshotId := hid
  parentSnapshotId := hparent
  timestampMs := h.timestamp
  summary := {
    addedFiles := h.addedFiles
    deletedFiles := h.deletedFiles
    totalFiles := h.totalFiles
    addedRecords := Nat.lt_succ_of_le hclamped.addedRecords
    deletedRecords := Nat.lt_succ_of_le hclamped.deletedRecords
    totalRecords := Nat.lt_succ_of_le hclamped.totalRecords
    totalSizeBytes := Nat.lt_succ_of_le hclamped.totalSizeBytes }
  manifests := by
    intro m hm
    obtain ⟨n, hn, rfl⟩ := List.mem_map.mp hm
    have hcount (status : EntryStatus) : n.countOf status < wordBound :=
      Nat.lt_of_le_of_lt (n.countOf_le status) (h.entries n hn)
    have hwriter : n.addedSnapshotId ≤ s.id := Nat.le_of_lt_succ (hwritten.writers n hn)
    exact ⟨Nat.lt_of_le_of_lt hwriter hid, hcount .added, hcount .existing, hcount .deleted⟩

section AnyStore
variable {σ : Type} [PointerStore σ] {t t' : Table σ}

private theorem Reaches.clamped (h : Reaches t t') (ht : ∀ s ∈ t.graph.items, s.summary.Clamped) :
    ∀ s ∈ t'.graph.items, s.summary.Clamped := by
  apply h.published (P := fun g => ∀ s ∈ g.items, s.summary.Clamped) ht
  intro g base parent changes supply left chain hg hparent hreplay
  have hbuilds := Production.builds_of_replay hreplay
  rw [Graph.items_extend hbuilds]
  exact List.forall_mem_append.mpr ⟨hg, hbuilds.clamped⟩

structure Table.Sized (t : Table σ) : Prop where
  published : t.graph.nextId ≤ wordBound
  snapshots : ∀ s ∈ t.graph.items, s.Sized
  moves : t.log.entries.length < wordBound
  moved : ∀ e ∈ t.log.entries, e.changedAt.Dated
  current : ∀ id, (PointerStore.current t.pointer).1 = .ok (some id) → id < wordBound

/-- What clients make of a table without snapshots and moves fits a document. -/
theorem Table.Sized.fits (h : t'.Sized) (hr : Reaches t t') (hgraph : t.graph = Keyed.empty)
    (hlog : t.log = {}) {held : Option SnapshotId} (hheld : (PointerStore.current t'.pointer).1 = .ok held) :
    (t'.described held).Fits := by
  have hids : ∀ s ∈ t'.graph.items, s.id < wordBound := fun s hs =>
    Nat.lt_of_lt_of_le (Graph.id_lt_nextId hs) h.published
  have htimely : t'.graph.Timely := hr.timely (hgraph ▸ List.forall_mem_nil _)
  have hclamped := hr.clamped (hgraph ▸ List.forall_mem_nil _)
  have hwritten : t'.graph.Written := hr.written (hgraph ▸ List.forall_mem_nil _)
  obtain ⟨news, hmoves⟩ := hr.extended
  have hnews : t'.log.entries = news := by rw [hmoves.log, hlog, List.nil_append]
  refine {
    formatVersion := show SnapshotTable.formatVersion < 256 by decide
    currentSnapshotId := fun id hid => h.current id (hid ▸ hheld)
    snapshots := ?_
    snapshotLog := ?_ }
  · intro m hm
    obtain ⟨s, hs, rfl⟩ := List.mem_map.mp hm
    refine (h.snapshots s hs).fits (hids s hs) ?_ (hclamped s hs) (hwritten s hs) _
    intro id hid
    obtain ⟨q, hq, rfl, -⟩ := (htimely s hs).2 id hid
    exact hids q hq
  · intro e he
    have hmem : e ∈ news := hnews ▸ he
    have hsequence : e.sequence ∈ List.range' (t.log.lastSequence + 1) news.length :=
      hmoves.sequence ▸ List.mem_map_of_mem hmem
    have hlast : t.log.lastSequence = 0 := by rw [hlog]; rfl
    have hlength : news.length < wordBound := hnews ▸ h.moves
    rw [hlast, List.mem_range'_1] at hsequence
    obtain ⟨s, hs, hid⟩ := Keyed.contains_iff.mp (hmoves.targets e hmem)
    refine ⟨by omega, ?_, h.moved e he⟩
    exact hid ▸ hids s hs

end AnyStore

/-- All that a document says is read back from its text, on one line or on many, and so is the document of every
table that clients have made of a new one, with any rules and any store. -/
theorem metadata_read_back :
    (∀ m : TableMetadata, m.Fits → m.toJson.readable = true ∧
      (Json.parse? m.toJson.render).bind TableMetadata.ofJson? = some m ∧
      (Json.parse? m.toJson.pretty).bind TableMetadata.ofJson? = some m) ∧
    ∀ (uuid : Uuid) (config : TableConfig) (clock : Clock) (created : Table MemoryPointer),
      Table.create uuid config clock = .ok created →
      ∀ (validators : List Validator) (σ : Type) [PointerStore σ] (store : σ) (start t : Table σ),
        (created.withValidators validators).withPointerStore store = .ok start → Reaches start t → t.Sized →
        (t.poisoned = false → ∀ held pointer, PointerStore.current t.pointer = (.ok held, pointer) →
          ∃ m, t.metadata = (.ok m, { t with pointer })) ∧
        ∀ m, t.metadata.1 = .ok m → m.Fits ∧
          (Json.parse? m.toJson.render).bind TableMetadata.ofJson? = some m ∧
          (Json.parse? m.toJson.pretty).bind TableMetadata.ofJson? = some m := by
  constructor
  · exact fun m hm => ⟨TableMetadata.readable hm, (TableMetadata.carries hm).parse⟩
  · intro uuid config clock created hcreate validators σ _ store start t hstart hr hsized
    obtain rfl := Table.eq_of_create hcreate
    obtain ⟨left, -, rfl⟩ := Table.eq_of_withPointerStore hstart
    refine ⟨fun hp held pointer hread => ⟨_, Table.metadata_eq hp hread⟩, fun m hm => ?_⟩
    obtain ⟨-, held, hheld, rfl⟩ := Table.eq_described hm
    have hfits := hsized.fits hr rfl rfl hheld
    exact ⟨hfits, (TableMetadata.carries hfits).parse⟩

def sampleMetadata : TableMetadata where
  formatVersion := 255
  tableUuid := 0xffffffffffffffffffffffffffffffff#128
  currentSnapshotId := none
  properties := Keyed.ofList [("owner", "\"a\\\n"), ("", "\u00fc")]
  snapshots := [
    { snapshotId := 1, parentSnapshotId := none, timestampMs := -9223372036854775808, operation := .append,
      summary := { addedRecords := 18446744073709551615 }, manifests := [⟨0#128, 1, 0, 2, 18446744073709551615⟩] },
    { snapshotId := 18446744073709551615, parentSnapshotId := some 1, timestampMs := 9223372036854775807,
      operation := .overwrite, summary := {}, manifests := [] }]
  snapshotLog := [⟨1, 18446744073709551615, ⟨-62167219200, 999999999⟩, .rollback⟩]

def Table.exported : Table MemoryPointer :=
  (blank.publish none [(Change.start .append).add { path := "a", recordCount := 3 }]).2

/-- A document with the longest numbers, and one of a table with a snapshot. -/
theorem metadata_read_back_sample :
    (Json.parse? sampleMetadata.toJson.pretty).bind TableMetadata.ofJson? = some sampleMetadata ∧
      ∃ m, Table.exported.metadata = (.ok m, Table.exported) ∧ m.snapshots.length = 1 ∧
        (Json.parse? m.toJson.pretty).bind TableMetadata.ofJson? = some m := by
  have hzero : Summary.Fits {} := by constructor <;> decide
  have hroot : (Summary.mk 0 0 18446744073709551615 0 0 0 0).Fits := by constructor <;> decide
  have hfits : sampleMetadata.Fits := by
    refine ⟨by decide, nofun, ?_, ?_⟩
    · refine List.forall_mem_cons.mpr ⟨⟨by decide, nofun, by decide, hroot, ?_⟩,
        List.forall_mem_singleton.mpr ⟨by decide, ?_, by decide, hzero, nofun⟩⟩
      · exact List.forall_mem_singleton.mpr ⟨by decide, by decide, by decide, by decide⟩
      · rintro _ ⟨⟩
        decide
    · exact List.forall_mem_singleton.mpr ⟨by decide, by decide, by decide, by decide⟩
  have hsized : Table.exported.Sized := by
    have hnumbers : ∀ s ∈ Table.exported.graph.items,
        (-signedBound ≤ s.timestamp.millis ∧ s.timestamp.millis < signedBound) ∧
          s.summary.addedFiles < wordBound ∧ s.summary.deletedFiles < wordBound ∧
          s.summary.totalFiles < wordBound ∧ ∀ m ∈ s.manifests, m.entries.length < wordBound := by decide +kernel
    have hlog : Table.exported.log.entries = [⟨1, 1, ⟨0, 0⟩, .commit⟩] := by decide +kernel
    have hheld : Table.exported.pointer.value = some 1 := by decide +kernel
    refine ⟨by decide +kernel, fun s hs => ?_, by decide +kernel, ?_, ?_⟩
    · obtain ⟨htime, hadded, hdeleted, htotal, hentries⟩ := hnumbers s hs
      exact ⟨htime, hadded, hdeleted, htotal, hentries⟩
    · rw [hlog]
      exact List.forall_mem_singleton.mpr ⟨by decide, by decide⟩
    · intro id hid
      obtain rfl := Option.some.inj (hheld.symm.trans (Except.ok.inj hid))
      decide
  obtain ⟨hexported, hread⟩ := metadata_read_back.2 0#128 {} (Clock.still 0) Table.blank Table.create_blank
    Validator.standard MemoryPointer {} Table.blank Table.exported rfl (Reaches.here.publish _ _) hsized
  obtain ⟨m, hm⟩ := hexported rfl (some 1) Table.exported.pointer (by decide +kernel)
  obtain ⟨-, -, hpretty⟩ := hread m (congrArg Prod.fst hm)
  refine ⟨(metadata_read_back.1 sampleMetadata hfits).2.2, m, hm, ?_, hpretty⟩
  obtain ⟨-, held, -, rfl⟩ := Table.eq_described (congrArg Prod.fst hm)
  exact (List.length_map _).trans (by decide +kernel)

end SnapshotTable
