import SnapshotTable.Proofs.Ledger
import SnapshotTable.Proofs.ManifestShape

/-! Lines of a ledger: a snapshot, its parent, and so on down to a root. A line is the lineage of its
snapshots, so every published snapshot has exactly one, rollbacks and branches or not, and walks are lines
cut in front of the base. What holds of nothing and passes from a parent to what is built on it holds along
every line. -/

namespace SnapshotTable

/-- The line of an identifier on a ledger, newest publication first. -/
inductive Line (ledger : List Publication) : Option SnapshotId → List Publication → Prop
  | root : Line ledger none []
  | step {e : Publication} {line : List Publication} (he : e ∈ ledger)
      (older : Line ledger e.snapshot.parentId line) :
      Line ledger (some e.snapshot.id) (e :: line)

def headOf (line : List Publication) : Option Snapshot := line.head?.map Publication.snapshot

namespace Line
variable {ledger line : List Publication}

/-- A line is made of publications of its ledger. -/
theorem subset {id : Option SnapshotId} (h : Line ledger id line) : line ⊆ ledger := by
  induction h with
  | root => exact List.nil_subset ledger
  | step he _ ih => exact List.cons_subset.mpr ⟨he, ih⟩

/-- The line of a snapshot starts with its publication. -/
theorem head {tip : SnapshotId} (h : Line ledger (some tip) line) :
    ∃ e ∈ ledger, e.snapshot.id = tip ∧ headOf line = some e.snapshot := by
  cases h with
  | step he _ => exact ⟨_, he, rfl, rfl⟩

end Line

namespace Kept
variable {p : Production} {g : Graph} {ledger : List Publication} {id : Option SnapshotId}
  {line : List Publication} {e : Publication}

private theorem nodup_ids (h : Kept p g ledger) : (ledger.map fun e => e.snapshot.id).Nodup := by
  have hkeys := g.nodup_keys
  rw [h.graph, List.map_map] at hkeys
  exact hkeys

/-- A publication is known by the identifier of its snapshot. -/
theorem eq_of_id_eq (h : Kept p g ledger) {e' : Publication} (he : e ∈ ledger) (he' : e' ∈ ledger)
    (hid : e.snapshot.id = e'.snapshot.id) : e = e' :=
  List.inj_on_of_nodup_map h.nodup_ids he he' hid

/-- Every published snapshot is that of a publication. -/
theorem exists_publication (h : Kept p g ledger) {s : Snapshot} (hs : s ∈ g.items) :
    ∃ e ∈ ledger, e.snapshot = s := by
  rw [h.graph] at hs
  exact List.mem_map.mp hs

/-- The snapshot of a publication is published. -/
theorem mem_graph (h : Kept p g ledger) (he : e ∈ ledger) : e.snapshot ∈ g.items := by
  rw [h.graph]
  exact List.mem_map_of_mem he

/-- A snapshot on the ledger is found under its identifier. -/
theorem find_published (h : Kept p g ledger) (he : e ∈ ledger) :
    g.find e.snapshot.id = .ok e.snapshot :=
  Graph.find_of_mem (h.mem_graph he)

/-- An identifier that is not on the ledger is of no published snapshot. -/
theorem find_unpublished (h : Kept p g ledger) {id : SnapshotId}
    (hid : ¬∃ e ∈ ledger, e.snapshot.id = id) : g.find id = .error (.snapshotNotFound id) := by
  have hnone : g.get? id = none := by
    cases hs : g.get? id with
    | none => rfl
    | some s =>
      obtain ⟨hs, hkey⟩ := Keyed.get?_eq_some_iff.mp hs
      obtain ⟨e, he, rfl⟩ := h.exists_publication hs
      exact absurd ⟨e, he, hkey⟩ hid
  rw [Graph.find, hnone]

/-- On a ledger, parents are published and come before their children. -/
theorem grounded (h : Kept p g ledger) : g.Grounded := by
  intro s hs id hid
  obtain ⟨e, he, rfl⟩ := h.exists_publication hs
  obtain ⟨parent, fresh, now, hparent, -, hbuild⟩ := h.made e he
  have hp : parent.map Snapshot.id = some id := by
    rw [← hid, hbuild]
    rfl
  obtain ⟨q, rfl, rfl⟩ := Option.map_eq_some_iff.mp hp
  obtain ⟨hq, hlt⟩ := hparent q rfl
  exact ⟨q, h.graph ▸ hq, rfl, hlt⟩

/-- The snapshots of a line are a lineage of the graph. -/
theorem lineage (h : Kept p g ledger) (hl : Line ledger id line) :
    g.Lineage id (line.map Publication.snapshot) := by
  induction hl with
  | root => exact .root
  | step he _ ih => exact .step (h.mem_graph he) ih

/-- A lineage of the graph is a line of the ledger, and of no other publications. -/
theorem line_of_lineage (h : Kept p g ledger) {snapshots : List Snapshot} (hl : g.Lineage id snapshots) :
    ∃ line, Line ledger id line ∧ ∀ others, others ⊆ ledger →
      others.map Publication.snapshot = snapshots → others = line := by
  induction hl with
  | root => exact ⟨[], .root, fun others _ hsame => List.map_eq_nil_iff.mp hsame⟩
  | step hs _ ih =>
    obtain ⟨line, hline, hunique⟩ := ih
    obtain ⟨e, he, rfl⟩ := h.exists_publication hs
    refine ⟨e :: line, .step he hline, fun others hsub hsame => ?_⟩
    obtain ⟨e', rest, rfl, hid, hrest⟩ := List.map_eq_cons_iff.mp hsame
    obtain ⟨he', hsub⟩ := List.cons_subset.mp hsub
    rw [h.eq_of_id_eq he' he (congrArg Snapshot.id hid), hunique rest hsub hrest]

/-- An identifier has one line, as it has one lineage. -/
theorem line_unique (h : Kept p g ledger) (hl : Line ledger id line) {line' : List Publication}
    (hl' : Line ledger id line') : line' = line := by
  obtain ⟨whole, -, hunique⟩ := h.line_of_lineage (h.lineage hl)
  rw [hunique line hl.subset rfl, hunique line' hl'.subset ((h.lineage hl).unique (h.lineage hl'))]

/-- Every publication has a line, which starts with it. -/
theorem exists_line (h : Kept p g ledger) (he : e ∈ ledger) :
    ∃ older, Line ledger (some e.snapshot.id) (e :: older) ∧ Line ledger e.snapshot.parentId older := by
  obtain ⟨snapshots, hl⟩ := h.grounded.exists_lineage (h.mem_graph he)
  obtain ⟨_, -, holder⟩ := hl.eq_cons (h.mem_graph he)
  obtain ⟨older, hline, -⟩ := h.line_of_lineage holder
  exact ⟨older, .step he hline, hline⟩

/-- Identifiers grow along a line, so it never comes back to a snapshot. -/
theorem line_descends (h : Kept p g ledger) (hl : Line ledger id line) :
    line.Pairwise fun a b => b.snapshot.id < a.snapshot.id :=
  List.pairwise_map.mp ((h.lineage hl).descends h.grounded).2

/-- An identifier names the head of its line. -/
theorem resolve_line (h : Kept p g ledger) (hl : Line ledger id line) :
    g.resolve id = .ok (headOf line) := by
  cases hl with
  | root => rfl
  | @step e line he _ =>
    have hmem : ∀ q, some e.snapshot = some q → q ∈ g.items := by
      rintro _ ⟨⟩
      exact h.mem_graph he
    exact Graph.resolve_of_mem hmem

/-- A range is the line of its tip in front of its base, if the base is on it. -/
theorem range_line (h : Kept p g ledger) {base tip : SnapshotId} (hne : base ≠ tip)
    (hbase : ∃ e ∈ ledger, e.snapshot.id = base) (hl : Line ledger (some tip) line) :
    g.range base tip =
      if ∃ e ∈ line, e.snapshot.id = base then
        .ok ((line.takeWhile fun e => e.snapshot.id ≠ base).map Publication.snapshot)
      else .error (.unreachableAncestor base tip) := by
  obtain ⟨e, he, rfl⟩ := hbase
  have hon : (∃ s ∈ line.map Publication.snapshot, s.id = e.snapshot.id) ↔
      ∃ b ∈ line, b.snapshot.id = e.snapshot.id := by simp
  rw [(h.lineage hl).range h.grounded hne ⟨e.snapshot, h.mem_graph he, rfl⟩, Graph.cutAt]
  simp only [hon, List.takeWhile_map]
  rfl

/-- A publication was made on the head of its parent's line. -/
theorem made_on (h : Kept p g ledger) (he : e ∈ ledger)
    (hl : Line ledger e.snapshot.parentId line) :
    (∀ q, headOf line = some q → q.id < e.snapshot.id) ∧
    Validator.evaluate (filesAt (headOf line)) e.change Validator.standard = .ok () ∧
    ∃ fresh now, e.snapshot = p.build (headOf line) e.snapshot.id e.change fresh now := by
  obtain ⟨parent, fresh, now, hparent, haccept, hbuild⟩ := h.made e he
  have hid : e.snapshot.parentId = parent.map Snapshot.id := by
    rw [hbuild]
    rfl
  have hresolve : g.resolve (parent.map Snapshot.id) = .ok parent :=
    Graph.resolve_of_mem fun q hq => h.graph ▸ (hparent q hq).1
  rw [← hid, h.resolve_line hl] at hresolve
  cases hresolve
  exact ⟨fun q hq => (hparent q hq).2, h.rules ▸ haccept, fresh, now, hbuild⟩

/-- What holds of no snapshot, and passes on to every snapshot built on one, holds along a line. -/
theorem line_induction (h : Kept p g ledger) {P : Option Snapshot → List Publication → Prop}
    (root : P none [])
    (step : ∀ (e : Publication) (line : List Publication) (fresh : ManifestId) (now : Instant),
      Line ledger e.snapshot.parentId line →
      (∀ q, headOf line = some q → q.id < e.snapshot.id) →
      Validator.evaluate (filesAt (headOf line)) e.change Validator.standard = .ok () →
      e.snapshot = p.build (headOf line) e.snapshot.id e.change fresh now →
      P (headOf line) line → P (some e.snapshot) (e :: line))
    (hl : Line ledger id line) : P (headOf line) line := by
  induction hl with
  | root => exact root
  | @step e line he older ih =>
    obtain ⟨hlt, haccept, fresh, now, hbuild⟩ := h.made_on he older
    exact step e line fresh now older hlt haccept hbuild ih

/-- Published snapshots are orderly. -/
theorem line_orderly (h : Kept p g ledger) (hl : Line ledger id line) : OrderlyAt (headOf line) := by
  refine h.line_induction (P := fun s _ => OrderlyAt s) nofun ?_ hl
  intro e line fresh now _ hlt haccept hbuild ih
  have hnew := (Validator.evaluate_standard_eq_ok_iff.mp haccept).1
  rintro _ ⟨⟩
  exact hbuild ▸ Production.orderly_build p fresh now ih hlt hnew

/-- The files of a published snapshot are the changes of its line, applied from the root on. -/
theorem line_files (h : Kept p g ledger) (hl : Line ledger id line) :
    filesAt (headOf line) =
      line.foldr (fun e files => e.change.apply files) Keyed.empty := by
  refine h.line_induction
    (P := fun s line => filesAt s = line.foldr (fun e files => e.change.apply files) Keyed.empty)
    rfl ?_ hl
  intro e line fresh now older _ haccept hbuild ih
  rw [hbuild, List.foldr_cons, ← ih]
  exact (Production.build_files _ _ fresh now (h.line_orderly older).once haccept).2

/-- What a published snapshot says it added is what its change added. -/
theorem addedFiles (h : Kept p g ledger) (he : e ∈ ledger) :
    e.snapshot.addedFiles = e.change.added.items := by
  obtain ⟨older, -, holder⟩ := h.exists_line he
  obtain ⟨hlt, -, fresh, now, hbuild⟩ := h.made_on he holder
  rw [hbuild]
  exact Production.addedFiles_build _ _ _ ((h.line_orderly holder).authored hlt)

end Kept

/-- The pointer of a reachable table is at the head of a line. -/
theorem Reachable.exists_current {t : Table MemoryPointer} {ledger : List Publication}
    (h : Reachable t ledger) :
    ∃ line, Line ledger t.pointer.value line ∧
      t.graph.resolve t.pointer.value = .ok (headOf line) := by
  obtain ⟨_, hl⟩ := h.numbered.exists_current
  obtain ⟨line, hline, -⟩ := h.kept.line_of_lineage hl
  exact ⟨line, hline, h.kept.resolve_line hline⟩

end SnapshotTable
