import SnapshotTable.Proofs.Audits
import SnapshotTable.Proofs.Timestamps

/-! The counts in a document. Of a manifest it shows no more than how many entries have which status, and many
of these are not of the snapshot that lists it: a shared manifest keeps the removals of its writer. Still the
counts add up to the figures of every snapshot, because a manifest that is written anew takes over additions
as existing files and leaves the removals of others out. -/

namespace SnapshotTable

def SnapshotMetadata.ownManifests (s : SnapshotMetadata) : List ManifestMetadata :=
  s.manifests.filter (·.addedSnapshotId == s.snapshotId)

/-- How the counts of an exported snapshot add up to its figures, and these to those of its parent. -/
structure SnapshotMetadata.Reconciles (doc : TableMetadata) (s : SnapshotMetadata) : Prop where
  live : (s.manifests.map fun m => m.addedFilesCount + m.existingFilesCount).sum = s.summary.totalFiles
  added : (s.ownManifests.map ManifestMetadata.addedFilesCount).sum = s.summary.addedFiles
  deleted : (s.ownManifests.map ManifestMetadata.deletedFilesCount).sum = s.summary.deletedFiles
  root : s.parentSnapshotId = none →
    s.summary.totalFiles + s.summary.deletedFiles = s.summary.addedFiles
  parent : ∀ id, s.parentSnapshotId = some id → ∃ q, doc.snapshot? id = some q ∧
    s.summary.totalFiles + s.summary.deletedFiles = q.summary.totalFiles + s.summary.addedFiles

private theorem Manifest.length_liveEntries (m : Manifest) : m.liveEntries.length = m.counts.live := by
  simp only [liveEntries, counts, countOf, ManifestCounts.live, ← List.countP_eq_length_filter]
  induction m.entries with
  | nil => rfl
  | cons e es ih =>
    obtain ⟨status, author, file⟩ := e
    simp only [List.countP_cons, ih, ManifestEntry.isLive]
    cases status <;> simp <;> omega

private theorem Manifest.WellFormed.length_ownFiles {m : Manifest} (h : m.WellFormed)
    {status : EntryStatus} (hs : status ≠ .existing) :
    (ownFiles m.addedSnapshotId status m.entries).length = m.countOf status := by
  rw [ownFiles, List.length_filterMap_eq_countP, Manifest.countOf]
  apply List.countP_congr
  intro e he
  have hwriter := (h.written e he).1
  by_cases hstatus : e.status = status
  · simp [hstatus, hwriter (hstatus ▸ hs)]
  · simp [hstatus]

namespace Snapshot

private theorem length_liveFiles (s : Snapshot) :
    s.liveFiles.length = (s.manifests.map fun m => m.counts.live).sum := by
  rw [liveFiles, List.length_map, liveEntries, List.length_flatMap]
  simp only [Manifest.length_liveEntries]

private theorem length_authoredFiles {s : Snapshot} (h : ∀ m ∈ s.manifests, m.WellFormed)
    {status : EntryStatus} (hs : status ≠ .existing) :
    (s.authoredFiles status).length =
      ((s.manifests.filter (·.addedSnapshotId == s.id)).map (·.countOf status)).sum := by
  rw [authoredFiles, List.filterMap_flatMap, List.length_flatMap]
  congr 1
  apply List.map_congr_left
  intro m hm
  obtain ⟨hm, hown⟩ := List.mem_filter.mp hm
  rw [← eq_of_beq hown]
  exact (h m hm).length_ownFiles hs

end Snapshot

namespace Graph
variable {g : Graph} {doc : TableMetadata} {uuid : ManifestId → Uuid} {s : Snapshot}

private theorem snapshot?_exported (hdoc : doc.snapshots = g.items.map fun s => s.metadata uuid)
    (hs : s ∈ g.items) : doc.snapshot? s.id = some (s.metadata uuid) := by
  have hfound : g.items.find? (fun q => decide (q.id = s.id)) = some s :=
    Keyed.get?_eq_some_iff.mpr ⟨hs, rfl⟩
  rw [TableMetadata.snapshot?, hdoc, List.find?_map]
  exact congrArg (Option.map _) hfound

end Graph

/-- The counts of an audited snapshot reconcile in a document of the graph. -/
theorem Kept.reconciles {p : Production} {g : Graph} {ledger : List Publication} (h : Kept p g ledger)
    {doc : TableMetadata} {uuid : ManifestId → Uuid}
    (hdoc : doc.snapshots = g.items.map fun s => s.metadata uuid) {s : Snapshot} (hs : s ∈ g.items) :
    (s.metadata uuid).Reconciles doc := by
  obtain ⟨parent, change, haudit⟩ := h.audit hs
  obtain ⟨htotal, hbalance⟩ := haudit.accounts.files
  obtain ⟨hadded, hdeleted⟩ := haudit.accounts.counts
  have hown : (s.metadata uuid).ownManifests =
      (s.manifests.filter (·.addedSnapshotId == s.id)).map fun m => m.metadata (uuid m.id) := List.filter_map
  exact {
    live := by
      rw [Snapshot.metadata, List.map_map]
      exact (htotal.trans s.length_liveFiles).symm
    added := by
      rw [hown, List.map_map]
      exact (hadded.trans (Snapshot.length_authoredFiles haudit.orderly.wellFormed nofun)).symm
    deleted := by
      rw [hown, List.map_map]
      exact (hdeleted.trans (Snapshot.length_authoredFiles haudit.orderly.wellFormed nofun)).symm
    root := by
      intro hroot
      obtain rfl := Option.map_eq_none_iff.mp (haudit.parentId.symm.trans hroot)
      exact hbalance.trans (Nat.zero_add _)
    parent := by
      intro id hparent
      obtain ⟨q, rfl, rfl⟩ := Option.map_eq_some_iff.mp (haudit.parentId.symm.trans hparent)
      obtain ⟨hq, -⟩ := haudit.earlier q rfl
      obtain ⟨_, _, haudit'⟩ := h.audit hq
      refine ⟨q.metadata uuid, Graph.snapshot?_exported hdoc hq, ?_⟩
      exact hbalance.trans (congrArg (· + s.summary.addedFiles) haudit'.accounts.files.1.symm) }

section AnyStore
variable {σ : Type} [PointerStore σ] {t : Table σ}

private theorem Table.snapshots_of_metadata {doc : TableMetadata} (h : t.metadata.1 = .ok doc) :
    doc.snapshots = t.graph.items.map fun s => s.metadata t.manifestUuid := by
  obtain ⟨-, held, -, rfl⟩ := eq_described h
  rfl

/-- Whatever clients do to a new table with the standard rules, and whatever store its pointer is put into: where
the store answers there is a document, and in every document the counts of all snapshots reconcile. -/
theorem metadata_reconciles {uuid : Uuid} {config : TableConfig} {clock : Clock}
    {created : Table MemoryPointer} (h : Table.create uuid config clock = .ok created) {store : σ}
    {start : Table σ} (hstart : created.withPointerStore store = .ok start) (hr : Reaches start t) :
    (∀ held pointer, PointerStore.current t.pointer = (.ok held, pointer) →
      ∃ doc, t.metadata = (.ok doc, { t with pointer })) ∧
    ∀ doc, t.metadata.1 = .ok doc → ∀ s ∈ doc.snapshots, s.Reconciles doc := by
  obtain ⟨hsound, ledger, hk⟩ := hr.kept_of_create h hstart
  constructor
  · intro held pointer hread
    obtain ⟨doc, hdoc, -⟩ := Table.metadata_snapshots hsound hread
    exact ⟨doc, hdoc⟩
  · intro doc hdoc s hs
    have hsnapshots := Table.snapshots_of_metadata hdoc
    rw [hsnapshots] at hs
    obtain ⟨q, hq, rfl⟩ := List.mem_map.mp hs
    exact hk.reconciles hsnapshots hq

end AnyStore

def Table.reshaped : Table MemoryPointer :=
  let append : Change := Change.start .append
  (fresh 0#128 { minMergeCount := 3 } (Clock.still 0)).after [
    .publish none [append.addAll [{ path := "a" }, { path := "b" }]],
    .publish (some 1) [(Change.start .delete).remove "a"],
    .publish (some 2) [append.add { path := "c" }],
    .publish (some 3) [((Change.start .overwrite).remove "c").add { path := "d" }]]

/-- The removal of the second snapshot is counted in the third as well, and no longer in the fourth. -/
theorem metadata_reconciles_reshaped :
    ∃ doc, Table.reshaped.metadata = (.ok doc, Table.reshaped) ∧
      (∀ s ∈ doc.snapshots, s.Reconciles doc) ∧
      doc.snapshots.map (fun s => (s.summary.totalFiles, s.manifests.map fun m =>
        (m.addedSnapshotId, m.addedFilesCount, m.existingFilesCount, m.deletedFilesCount))) =
      [(2, [(1, 2, 0, 0)]), (1, [(2, 0, 1, 1)]), (2, [(3, 1, 0, 0), (2, 0, 1, 1)]), (2, [(4, 1, 1, 1)])] := by
  let start : Table MemoryPointer := .fresh 0#128 { minMergeCount := 3 } (Clock.still 0)
  have hcreate : Table.create 0#128 { minMergeCount := 3 } (Clock.still 0) = .ok start := rfl
  have hstart : start.withPointerStore ({} : MemoryPointer) = .ok start := rfl
  have hreached : Reaches start Table.reshaped := Reaches.here.after _
  obtain ⟨hexported, hreconciled⟩ := metadata_reconciles hcreate hstart hreached
  obtain ⟨doc, hdoc⟩ := hexported (some 4) Table.reshaped.pointer (by decide +kernel)
  refine ⟨doc, hdoc, hreconciled doc (congrArg Prod.fst hdoc), ?_⟩
  rw [Table.snapshots_of_metadata (congrArg Prod.fst hdoc), List.map_map]
  decide +kernel

end SnapshotTable
