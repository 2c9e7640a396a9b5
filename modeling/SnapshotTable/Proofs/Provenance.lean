import SnapshotTable.Proofs.Lines
import SnapshotTable.Proofs.ManifestShape

/-! Where the entries of manifests come from. Manifests are shared, copied and merged along a line, and
what an entry says of its author stays true: the live entries of a snapshot are the additions of its
line that nothing later removed, each under the snapshot that staged it. -/

namespace SnapshotTable

/-- A publication of the line added the file, and no later one removes its path. -/
def AddedOn (line : List Publication) (author : SnapshotId) (file : DataFile) : Prop :=
  ∃ newer e older, line = newer ++ e :: older ∧ e.snapshot.id = author ∧
    file ∈ e.change.added.items ∧ ∀ n ∈ newer, n.change.removed.contains file.path = false

/-- What was added on a line was added by its head, or before and not removed by the head. -/
theorem addedOn_cons {e : Publication} {line : List Publication} {author : SnapshotId}
    {file : DataFile} : AddedOn (e :: line) author file ↔
      e.snapshot.id = author ∧ file ∈ e.change.added.items ∨
      AddedOn line author file ∧ e.change.removed.contains file.path = false := by
  constructor
  · rintro ⟨newer, e', older, heq, hid, hadded, hkeep⟩
    cases newer with
    | nil =>
      cases heq
      exact .inl ⟨hid, hadded⟩
    | cons n newer =>
      cases heq
      obtain ⟨hn, hlater⟩ := List.forall_mem_cons.mp hkeep
      exact .inr ⟨⟨newer, e', older, rfl, hid, hadded, hlater⟩, hn⟩
  · rintro (⟨hid, hadded⟩ | ⟨⟨newer, e', older, rfl, hid, hadded, hkeep⟩, hn⟩)
    · exact ⟨[], e, line, rfl, hid, hadded, nofun⟩
    · exact ⟨e :: newer, e', older, rfl, hid, hadded, List.forall_mem_cons.mpr ⟨hn, hkeep⟩⟩

/-- A live record is that of a live entry. -/
theorem mem_liveRecords {ms : List Manifest} {r : SnapshotId × DataFile} :
    r ∈ liveRecords ms ↔ ∃ m ∈ ms, ∃ e ∈ m.liveEntries, e.record = r := by
  simp only [liveRecords, liveOf, Manifest.liveEntries, List.mem_flatMap, List.mem_map]

namespace Kept
variable {p : Production} {g : Graph} {ledger : List Publication} {id : Option SnapshotId}
  {line : List Publication}

/-- The live records of a published snapshot, told from the changes of its line alone. -/
theorem mem_recordsAt_line (h : Kept p g ledger) (hl : Line ledger id line) {author : SnapshotId}
    {file : DataFile} : (author, file) ∈ recordsAt (headOf line) ↔ AddedOn line author file := by
  refine h.line_induction
    (P := fun s line => (author, file) ∈ recordsAt s ↔ AddedOn line author file) ?_ ?_ hl
  · constructor
    · nofun
    · rintro ⟨newer, e, older, heq, -⟩
      simp at heq
  · intro e line fresh now _ _ _ hbuild ih
    have hperm := Production.recordsAt_build p (headOf line) e.snapshot.id e.change fresh now
    rw [← hbuild] at hperm
    rw [addedOn_cons, ← ih, hperm.mem_iff, List.mem_append, List.mem_filter]
    refine or_congr ?_ (and_congr_right' ?_)
    · constructor
      · intro hm
        obtain ⟨f, hf, heq⟩ := List.mem_map.mp hm
        cases heq
        exact ⟨rfl, hf⟩
      · rintro ⟨rfl, hf⟩
        exact List.mem_map_of_mem hf
    · rw [Bool.not_eq_true']

/-- A manifest was written on the line, and where it has no live file by the head itself. -/
theorem line_writer (h : Kept p g ledger) (hl : Line ledger id line) :
    ∀ m ∈ (headOf line).elim [] Snapshot.manifests,
      (∃ e ∈ line, e.snapshot.id = m.addedSnapshotId) ∧
      (livePaths m.entries = [] → (headOf line).map Snapshot.id = some m.addedSnapshotId) := by
  refine h.line_induction (P := fun s line => ∀ m ∈ s.elim [] Snapshot.manifests,
    (∃ e ∈ line, e.snapshot.id = m.addedSnapshotId) ∧
      (livePaths m.entries = [] → s.map Snapshot.id = some m.addedSnapshotId)) nofun ?_ hl
  intro e line fresh now older hlt haccept hbuild ih m hm
  change m ∈ e.snapshot.manifests at hm
  rw [hbuild] at hm
  obtain ⟨-, hid | ⟨hin, hlive⟩⟩ := Production.manifests_build fresh _ now
    ((h.line_orderly older).authored hlt) (h.line_orderly older).once (h.line_orderly older).wellFormed
    (Validator.evaluate_standard_eq_ok_iff.mp haccept).1 hm
  · exact ⟨⟨e, List.mem_cons_self, hid.symm⟩, fun _ => congrArg some hid.symm⟩
  · obtain ⟨w, hw, hid⟩ := (ih m hin).1
    exact ⟨⟨w, List.mem_cons_of_mem _ hw, hid⟩, fun hdead => absurd hdead hlive⟩

end Kept

structure Provenance (line : List Publication) (s : Snapshot) (m : Manifest) : Prop where
  nonempty : m.entries ≠ []
  paths : (m.entries.map fun e => e.file.path).Nodup
  writer : ∃ e ∈ line, e.snapshot.id = m.addedSnapshotId
  authored : ∀ e ∈ m.entries, e.status ≠ .existing → e.snapshotId = m.addedSnapshotId
  inherited : ∀ e ∈ m.entries, e.status = .existing → e.snapshotId < m.addedSnapshotId
  dead : m.liveEntries = [] → m.addedSnapshotId = s.id
  added : ∀ e ∈ m.liveEntries, AddedOn line e.snapshotId e.file

variable {t : Table MemoryPointer} {ledger : List Publication}

/-- The manifests of every snapshot ever published on a reachable table keep their provenance. -/
theorem manifests_provenance (h : Reachable t ledger) {s : Snapshot} (hs : s ∈ t.graph.items) :
    ∃ line, Line ledger (some s.id) line ∧ ∀ m ∈ s.manifests, Provenance line s m := by
  have hk := h.kept
  obtain ⟨e, he, rfl⟩ := hk.exists_publication hs
  obtain ⟨older, hline, -⟩ := hk.exists_line he
  refine ⟨e :: older, hline, fun m hm => ?_⟩
  have hshape := (hk.line_orderly hline).wellFormed m hm
  obtain ⟨hwriter, hdead⟩ := hk.line_writer hline m hm
  exact {
    nonempty := hshape.nonempty
    paths := hshape.paths
    writer := hwriter
    authored := fun a ha => (hshape.written a ha).1
    inherited := fun a ha => (hshape.written a ha).2
    dead := by
      intro hnil
      have hpaths : livePaths m.entries = [] := by
        change ((m.liveEntries.map ManifestEntry.record).map fun r => r.2.path) = []
        rw [hnil]
        rfl
      exact (Option.some.inj (hdead hpaths)).symm
    added := by
      intro a ha
      exact (hk.mem_recordsAt_line hline).mp (mem_liveRecords.mpr ⟨m, hm, a, ha, rfl⟩) }

def Table.readded : List Publication × Table MemoryPointer :=
  (fresh 0#128 { minMergeCount := 2 } (Clock.still 0)).serveAll [
    .commit ⟨.ok none, (Change.start .append).add { path := "a" }⟩,
    .commit ⟨.ok (some 1), (Change.start .append).add { path := "b" }⟩,
    .commit ⟨.ok (some 2), (Change.start .delete).remove "a"⟩,
    .commit ⟨.ok (some 3), (Change.start .append).add { path := "a", recordCount := 7 }⟩]

private theorem reachable_readded : Reachable Table.readded.2 Table.readded.1 :=
  (reachable_fresh rfl _ _).serveAll _

/-- The removal turned the manifest of both files into the snapshot's own. -/
theorem manifests_provenance_readded :
    Table.readded.1[2].snapshot.manifests.map Manifest.entries =
      [[⟨.existing, 2, { path := "b" }⟩, ⟨.deleted, 3, { path := "a" }⟩]] ∧
    ∀ m ∈ Table.readded.1[2].snapshot.manifests,
      Provenance [Table.readded.1[2], Table.readded.1[1], Table.readded.1[0]]
        Table.readded.1[2].snapshot m := by
  have hmem : Table.readded.1[2].snapshot ∈ Table.readded.2.graph.items := by decide
  have hline : Line Table.readded.1 (some 3)
      [Table.readded.1[2], Table.readded.1[1], Table.readded.1[0]] :=
    .step (e := Table.readded.1[2]) (by simp) (.step (e := Table.readded.1[1]) (by simp)
      (.step (e := Table.readded.1[0]) (by simp) .root))
  obtain ⟨line, hl, hall⟩ := manifests_provenance reachable_readded hmem
  rw [reachable_readded.kept.line_unique hline hl] at hall
  exact ⟨by decide, hall⟩

end SnapshotTable
