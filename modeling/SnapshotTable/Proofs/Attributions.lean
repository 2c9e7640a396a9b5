import SnapshotTable.Proofs.ConsolidatedLists
import SnapshotTable.Proofs.RangeSeams
import SnapshotTable.Proofs.SharedManifests

/-! To whom the entries of a manifest list are attributed. A snapshot looks for what it added and removed in
the manifests that it wrote, and passes over all others. That is enough because an addition or a removal never
leaves the manifests of its author: where another snapshot writes the entry anew, the file has become one that
existed, or is gone, and a manifest that is shared stays under the name of its writer. Along a line identifiers
grow, so nothing that a snapshot lists is attributed to one of its descendants. -/

namespace SnapshotTable

def attributedTo (author : SnapshotId) (status : EntryStatus) (ms : List Manifest) : List ManifestEntry :=
  (ms.flatMap Manifest.entries).filter fun e => e.status = status ∧ e.snapshotId = author

section
variable {id : SnapshotId} {status : EntryStatus} {ms : List Manifest}

private theorem map_file_attributedTo : (attributedTo id status ms).map ManifestEntry.file =
    ownFiles id status (ms.flatMap Manifest.entries) := by
  rw [attributedTo, ← List.filterMap_eq_map, List.filterMap_filter, ownFiles]
  simp only [decide_eq_true_eq, Function.comp_apply]

private theorem attributedTo_unwritten (h : Unwritten id ms) (status : EntryStatus) :
    attributedTo id status ms = [] := by
  rw [attributedTo, List.filter_eq_nil_iff]
  intro e he hmine
  obtain ⟨m, hm, he⟩ := List.mem_flatMap.mp he
  exact (h m hm).2 e he (of_decide_eq_true hmine).2

end

/-- The search is exact just where no manifest by another snapshot has an entry with this status and author. -/
theorem Snapshot.authoredFiles_eq_iff {s : Snapshot} {status : EntryStatus} :
    s.authoredFiles status = (attributedTo s.id status s.manifests).map ManifestEntry.file ↔
      ∀ m ∈ s.manifests, m.addedSnapshotId = s.id ∨ ownFiles s.id status m.entries = [] := by
  rw [Snapshot.authoredFiles_eq, map_file_attributedTo, ownFilesIn_eq_iff]

private theorem Snapshot.authoredFiles_without {d : Snapshot} {ms : List Manifest}
    (h : ∀ m ∈ ms, m.addedSnapshotId ≠ d.id) (status : EntryStatus) :
    d.authoredFiles status = { d with manifests := d.manifests.filter (· ∉ ms) }.authoredFiles status := by
  have hsame : d.manifests.filter (·.addedSnapshotId == d.id) =
      (d.manifests.filter (· ∉ ms)).filter (·.addedSnapshotId == d.id) := by
    rw [List.filter_filter]
    apply List.filter_congr
    intro m _
    by_cases hm : m ∈ ms
    · simp [hm, h m hm]
    · simp [hm]
  rw [authoredFiles, authoredFiles, hsame]

namespace Production
variable {p : Production} {parent : Option Snapshot} {id : SnapshotId} {change : Change}

private theorem ownedApart_build (h : AuthoredBefore id (manifestsAt parent)) (fresh : ManifestId)
    (now : Instant) :
    OwnedApart id (p.build parent id change fresh now).manifests := by
  intro m hm
  rcases consolidate_cases hm with hdrafted | ⟨hid, -⟩
  · exact ownedApart_draft fresh h m hdrafted
  · exact .inl hid

private theorem Builds.ownedApart {changes : List Change} {chain : List Snapshot}
    (h : p.Builds parent id changes chain) (hparent : AuthoredBefore id (manifestsAt parent)) :
    ∀ s ∈ chain, OwnedApart s.id s.manifests :=
  h.forall_built (P := fun parent id => AuthoredBefore id (manifestsAt parent)) hparent
    fun _ fresh now hparent =>
      ⟨ownedApart_build hparent fresh now, authoredBefore_build p fresh now hparent⟩

end Production

namespace Graph
variable {g : Graph}

/-- A graph in which parents come before their children, and every snapshot is the author of nothing outside the
manifests that it wrote. -/
structure Attributed (g : Graph) : Prop where
  grounded : g.Grounded
  written : g.Written
  apart : ∀ s ∈ g.items, OwnedApart s.id s.manifests

private theorem attributed_empty : Attributed Keyed.empty := ⟨nofun, nofun, nofun⟩

private theorem Attributed.extend (h : g.Attributed) {p : Production} {base : Option SnapshotId}
    {parent : Option Snapshot} {changes : List Change} {chain : List Snapshot}
    (hparent : g.resolve base = .ok parent) (hbuilds : p.Builds parent g.nextId changes chain) :
    (g.extend chain).Attributed := by
  refine ⟨?_, h.written.extend hparent hbuilds, ?_⟩
  · exact h.grounded.extend (validateChain_builds hbuilds fun q hq => mem_of_resolve hparent hq)
  · rw [items_extend hbuilds]
    exact List.forall_mem_append.mpr ⟨h.apart, hbuilds.ownedApart (h.written.next hparent).authors⟩

private theorem Precedes.lt {a b : SnapshotId} (h : g.Precedes a b) (hg : g.Grounded) : a < b := by
  obtain ⟨newer, older, hcut⟩ := h.cut hg
  exact hcut.proper

private theorem Attributed.unwritten (h : g.Attributed) {s : Snapshot} (hs : s ∈ g.items)
    {id : SnapshotId} (hdescends : g.Precedes s.id id) : Unwritten id s.manifests :=
  ((h.written s hs).mono (hdescends.lt h.grounded)).unwritten

end Graph

structure Attribution (g : Graph) (s : Snapshot) : Prop where
  /-- What the snapshot finds where it looks is all that its manifests attribute to it, in the same order and as
  often. -/
  added : s.addedFiles = (attributedTo s.id .added s.manifests).map ManifestEntry.file
  deleted : s.deletedFiles = (attributedTo s.id .deleted s.manifests).map ManifestEntry.file
  /-- In the same manifests a descendant has nowhere to look, and nothing there is attributed to it. -/
  descendant : ∀ d ∈ g.items, g.Precedes s.id d.id → (∀ m ∈ s.manifests, m.addedSnapshotId ≠ d.id) ∧
    ∀ status, attributedTo d.id status s.manifests = []
  /-- So it finds all that it authored in the manifests that it does not share with the snapshot. -/
  unshared : ∀ d ∈ g.items, g.Precedes s.id d.id → ∀ status,
    d.authoredFiles status = { d with manifests := d.manifests.filter (· ∉ s.manifests) }.authoredFiles status

private theorem Graph.Attributed.attribution {g : Graph} (h : g.Attributed) {s : Snapshot}
    (hs : s ∈ g.items) :
    Attribution g s := by
  have hexact (status : EntryStatus) :
      s.authoredFiles status = (attributedTo s.id status s.manifests).map ManifestEntry.file :=
    Snapshot.authoredFiles_eq_iff.mpr fun m hm =>
      (h.apart s hs m hm).imp_right fun hforeign => ownFiles_eq_nil hforeign status
  refine ⟨hexact .added, hexact .deleted, fun d _ hdescends => ?_, fun d _ hdescends => ?_⟩
  · have hnew := h.unwritten hs hdescends
    exact ⟨fun m hm => (hnew m hm).1, attributedTo_unwritten hnew⟩
  · exact Snapshot.authoredFiles_without fun m hm => (h.unwritten hs hdescends m hm).1

section AnyStore
variable {σ : Type} [PointerStore σ] {start t : Table σ}

private theorem Reaches.attributed (h : Reaches start t) (hstart : start.graph.Attributed) :
    t.graph.Attributed := by
  apply h.published (P := Graph.Attributed) hstart
  intro g base parent changes supply left chain hg hparent hreplay
  exact hg.extend hparent (Production.builds_of_replay hreplay)

/-- Whatever clients do to a new table, with any rules and any store that its pointer is put into, every snapshot
ever published finds exactly what its manifest list attributes to it, and its descendants find nothing of theirs
in what it lists. -/
theorem attribution_of_reaches {uuid : Uuid} {config : TableConfig} {clock : Clock}
    {created : Table MemoryPointer} (h : Table.create uuid config clock = .ok created)
    (validators : List Validator) {store : σ}
    (hstart : (created.withValidators validators).withPointerStore store = .ok start)
    (hr : Reaches start t) {s : Snapshot} (hs : s ∈ t.graph.items) : Attribution t.graph s := by
  obtain rfl := Table.eq_of_create h
  obtain ⟨left, -, rfl⟩ := Table.eq_of_withPointerStore hstart
  exact (hr.attributed Graph.attributed_empty).attribution hs

end AnyStore

/-- In the third snapshot of this run the addition is in a merged manifest, beside a file of the second. The
fourth shares that manifest, where nothing is its own, and has its removal in the copy of another one. -/
theorem attribution_of_reaches_compacted :
    let t := Table.compacted
    (∃ s ∈ t.graph.items, ∃ d ∈ t.graph.items, s.id = 3 ∧ d.id = 4 ∧ t.graph.Precedes s.id d.id ∧
      Attribution t.graph s ∧ Attribution t.graph d) ∧
    ((t.graph.items.drop 2).take 2).map (fun s => s.manifests.map Manifest.entries) =
      [[[⟨.added, 3, { path := "d" }⟩, ⟨.existing, 2, { path := "c" }⟩],
        [⟨.added, 1, { path := "a" }⟩, ⟨.added, 1, { path := "b" }⟩]],
      [[⟨.added, 3, { path := "d" }⟩, ⟨.existing, 2, { path := "c" }⟩],
        [⟨.existing, 1, { path := "a" }⟩, ⟨.deleted, 4, { path := "b" }⟩]]] ∧
    t.graph.items.map (fun s => (s.addedFiles.map DataFile.path, s.deletedFiles.map DataFile.path)) =
      [(["a", "b"], []), (["c"], []), (["d"], []), ([], ["b"]), (["e"], ["c"])] := by
  intro t
  let start : Table MemoryPointer :=
    .fresh 0#128 { minMergeCount := 1, targetEntries := 2 } (Clock.still 0)
  have hcreate : Table.create 0#128 { minMergeCount := 1, targetEntries := 2 } (Clock.still 0) =
      .ok start := rfl
  have hstart : (start.withValidators Validator.standard).withPointerStore ({} : MemoryPointer) =
      .ok start := rfl
  have hreached : Reaches start t := Reaches.here.after _
  have hline : ∃ s ∈ t.graph.items, ∃ d ∈ t.graph.items, s.id = 3 ∧ d.id = 4 ∧ d.parentId = some s.id := by
    decide +kernel
  obtain ⟨s, hs, d, hd, hsid, hdid, hparent⟩ := hline
  refine ⟨⟨s, hs, d, hd, hsid, hdid, .single ⟨d, hd, rfl, hparent⟩, ?_, ?_⟩, by decide +kernel,
    by decide +kernel⟩
  · exact attribution_of_reaches hcreate Validator.standard hstart hreached hs
  · exact attribution_of_reaches hcreate Validator.standard hstart hreached hd

end SnapshotTable
