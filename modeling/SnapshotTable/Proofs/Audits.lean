import SnapshotTable.Proofs.Accounting
import SnapshotTable.Proofs.Lines

/-! Audits of published snapshots: each one against its parent, which the rules judged its change on. A snapshot
that is built on an orderly one has an audit, and is orderly in turn, so nothing on a ledger is without. What its
figures say is part of it. -/

namespace SnapshotTable

/-- What is known of an orderly snapshot that a change made of its parent, an earlier one of `among`. -/
structure Snapshot.Audit (among : List Snapshot) (s : Snapshot) (parent : Option Snapshot)
    (change : Change) : Prop where
  orderly : s.Orderly
  parentId : s.parentId = parent.map Snapshot.id
  earlier : ∀ q, parent = some q → q ∈ among ∧ q.id < s.id
  accepted : Validator.evaluate (filesAt parent) change Validator.standard = .ok ()
  accounts : Accounts parent change s
  derived : Derived parent s

namespace Kept
variable {p : Production} {g : Graph} {ledger line : List Publication} {e : Publication}

/-- A publication is audited against the head of its parent's line. -/
theorem audit_line (h : Kept p g ledger) (he : e ∈ ledger) (hl : Line ledger e.snapshot.parentId line) :
    e.snapshot.Audit g.items (headOf line) e.change := by
  obtain ⟨hlt, haccept, fresh, now, hbuild⟩ := h.made_on he hl
  have hparent := h.line_orderly hl
  exact {
    orderly := h.line_orderly (.step he hl) e.snapshot rfl
    parentId := congrArg Snapshot.parentId hbuild
    earlier := fun q hq => ⟨Graph.mem_of_resolve (h.resolve_line hl) hq, hlt q hq⟩
    accepted := haccept
    accounts := hbuild ▸ Production.accounts_build p fresh now hparent.once (hparent.authored hlt)
    derived := hbuild ▸ Production.derived_build p fresh now hparent.once (hparent.authored hlt) }

/-- Every published snapshot has an audit. -/
theorem audit (h : Kept p g ledger) {s : Snapshot} (hs : s ∈ g.items) :
    ∃ parent change, s.Audit g.items parent change := by
  obtain ⟨e, he, rfl⟩ := h.exists_publication hs
  obtain ⟨older, -, holder⟩ := h.exists_line he
  exact ⟨_, _, h.audit_line he holder⟩

/-- On a lineage, a snapshot is audited against the one behind it. -/
theorem audit_lineage (h : Kept p g ledger) {s : Snapshot} (hs : s ∈ g.items) {older : List Snapshot}
    (hl : g.Lineage s.parentId older) : ∃ change, s.Audit g.items older.head? change := by
  obtain ⟨e, he, rfl⟩ := h.exists_publication hs
  obtain ⟨line, hline, -⟩ := h.line_of_lineage hl
  rw [(h.lineage hline).unique hl, List.head?_map]
  exact ⟨_, h.audit_line he hline⟩

end Kept

variable {t : Table MemoryPointer} {ledger : List Publication}

/-- The figures of every snapshot ever published on a reachable table tell what its change made of its
parent, or of an empty table. -/
theorem summary_accounts (h : Reachable t ledger) {s : Snapshot} (hs : s ∈ t.graph.items) :
    ∃ e ∈ ledger, e.snapshot = s ∧ ∃ parent, t.graph.resolve s.parentId = .ok parent ∧
      Accounts parent e.change s := by
  obtain ⟨e, he, rfl⟩ := h.kept.exists_publication hs
  obtain ⟨older, -, holder⟩ := h.kept.exists_line he
  exact ⟨e, he, rfl, headOf older, h.kept.resolve_line holder, (h.kept.audit_line he holder).accounts⟩

/-- A run in which manifests are merged from two on: two files are appended, and one of them is exchanged for
two others, together with a path that was never live. -/
def Table.exchanged : List Publication × Table MemoryPointer :=
  (fresh 0#128 { minMergeCount := 2 } (Clock.still 0)).serveAll [
    .commit ⟨.ok none, (Change.start .append).addAll
      [{ path := "b", sizeBytes := 20, recordCount := 2 },
        { path := "a", sizeBytes := 10, recordCount := 1 }]⟩,
    .commit ⟨.ok (some 1), ((Change.start .overwrite).removeAll ["x", "a"]).addAll
      [{ path := "d", sizeBytes := 40, recordCount := 4 },
        { path := "c", sizeBytes := 30, recordCount := 3 }]⟩]

private theorem reachable_exchanged : Reachable Table.exchanged.2 Table.exchanged.1 :=
  (reachable_fresh rfl _ _).serveAll _

/-- The path that was never live is not counted, and the merged manifest tells what was exchanged. -/
theorem summary_accounts_exchanged :
    let first := Table.exchanged.1[0]
    let second := Table.exchanged.1[1]
    Accounts (some first.snapshot) second.change second.snapshot ∧
      second.snapshot.manifests.length = 1 ∧
      second.snapshot.addedFiles.map DataFile.path = ["c", "d"] ∧
      second.snapshot.deletedFiles.map DataFile.path = ["a"] ∧
      second.snapshot.summary =
        { addedFiles := 2, deletedFiles := 1, addedRecords := 7, deletedRecords := 1
          totalFiles := 3, totalRecords := 9, totalSizeBytes := 90 } := by
  intro first second
  have hmem : second.snapshot ∈ Table.exchanged.2.graph.items := by decide +kernel
  obtain ⟨e, he, hsame, parent, hparent, haccounts⟩ := summary_accounts reachable_exchanged hmem
  have hfirst : Table.exchanged.2.graph.resolve second.snapshot.parentId =
      .ok (some first.snapshot) := by decide +kernel
  obtain rfl := Except.ok.inj (hparent.symm.trans hfirst)
  have hsecond : second ∈ Table.exchanged.1 := by simp [second]
  obtain rfl := reachable_exchanged.kept.eq_of_id_eq he hsecond (congrArg Snapshot.id hsame)
  refine ⟨haccounts, ?_, ?_, ?_, ?_⟩
  · decide +kernel
  · decide +kernel
  · decide +kernel
  · decide +kernel

end SnapshotTable
