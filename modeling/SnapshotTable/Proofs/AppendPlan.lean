import Mathlib.Data.List.Find
import SnapshotTable.Proofs.Lines
import SnapshotTable.Proofs.Readings

/-! What an incremental scan answers, told from the ledger alone: the errors in their precedence, and
the tasks from the changes that were staged, not from the entries that manifests were left with. -/

namespace SnapshotTable

def Publication.tasks (e : Publication) : List FileScanTask :=
  if e.change.operation = .append then
    e.change.added.toList.map fun f => ⟨f, e.snapshot.id⟩
  else []

/-- A task is of the publication that it was made for, and of a file that this added. -/
theorem Publication.of_mem_tasks {e : Publication} {x : FileScanTask} (h : x ∈ e.tasks) :
    x.snapshotId = e.snapshot.id ∧ x.file ∈ e.change.added.items := by
  unfold tasks at h
  split at h
  · obtain ⟨f, hf, rfl⟩ := List.mem_map.mp h
    exact ⟨rfl, hf⟩
  · cases h

/-- The answer on the line of `tip`, where both identifiers are published and differ. -/
def appendsOn (base tip : SnapshotId) (line : List Publication) :
    Except TableError (List FileScanTask) :=
  if ∃ e ∈ line, e.snapshot.id = base then
    let range := (line.takeWhile fun e => e.snapshot.id ≠ base).reverse
    match range.find? fun e => e.change.operation = .overwrite with
    | some e => .error (.unsupportedIncrementalOperation e.snapshot.id .overwrite base tip)
    | none => .ok (range.flatMap Publication.tasks)
  else .error (.unreachableAncestor base tip)

/-- Files that are those of a set come out of sorting as the set lists them. -/
theorem DataFile.sortByPath_of_perm {files : List DataFile} {m : FileSet}
    (h : files.Perm m.items) : sortByPath files = m.items := by
  have hperm : (sortByPath files).Perm m.items := (List.mergeSort_perm files _).trans h
  have hsorted : (sortByPath files).Pairwise fun a b => a.path ≤ b.path := by
    have hs : (sortByPath files).Pairwise fun a b => decide (a.path ≤ b.path) = true := by
      apply List.pairwise_mergeSort
      · intro a b c hab hbc
        exact decide_eq_true (String.le_trans (of_decide_eq_true hab) (of_decide_eq_true hbc))
      · intro a b
        simpa using String.le_total a.path b.path
    exact hs.imp of_decide_eq_true
  have hordered : m.items.Pairwise fun a b => a.path ≤ b.path :=
    m.ordered.imp fun hab => Std.le_of_lt hab
  refine hperm.eq_of_pairwise ?_ hsorted hordered
  intro a b ha hb hab hba
  exact Keyed.eq_of_key_eq (hperm.mem_iff.mp ha) hb (String.le_antisymm hab hba)

namespace Kept
variable {p : Production} {g : Graph} {ledger : List Publication}

/-- A snapshot has the operation of the change that was staged for it. -/
theorem operation_eq (h : Kept p g ledger) {e : Publication} (he : e ∈ ledger) :
    e.snapshot.operation = e.change.operation := by
  obtain ⟨parent, fresh, now, -, -, hbuild⟩ := h.made e he
  rw [hbuild]
  rfl

private theorem tasks_eq (h : Kept p g ledger) {e : Publication} (he : e ∈ ledger) :
    e.snapshot.tasks = e.tasks := by
  rw [Snapshot.tasks, Publication.tasks, h.operation_eq he, h.addedFiles he,
    DataFile.sortByPath_of_perm (.refl _)]
  rfl

/-- Of a range, oldest first, either its first overwrite is named or all tasks are listed. -/
theorem planAppends_range (h : Kept p g ledger) {base tip : SnapshotId}
    {range : List Publication} (hr : range ⊆ ledger)
    (heq : g.range base tip = .ok (range.map Publication.snapshot)) :
    g.planAppends base tip =
      match range.reverse.find? fun e => e.change.operation = .overwrite with
      | some e => .error (.unsupportedIncrementalOperation e.snapshot.id .overwrite base tip)
      | none => .ok (range.reverse.flatMap Publication.tasks) := by
  have hledger {e : Publication} (he : e ∈ range.reverse) : e ∈ ledger := hr (List.mem_reverse.mp he)
  have hfind : range.reverse.find? ((fun s => s.operation = .overwrite) ∘ Publication.snapshot) =
      range.reverse.find? fun e => e.change.operation = .overwrite :=
    List.find?_congr fun e he => by simp only [Function.comp_apply, h.operation_eq (hledger he)]
  have htasks : (range.reverse.flatMap fun e => e.snapshot.tasks) =
      range.reverse.flatMap Publication.tasks :=
    List.flatMap_congr fun e he => h.tasks_eq (hledger he)
  rw [Graph.planAppends_of_range heq, ← List.map_reverse, List.find?_map, hfind, List.flatMap_map, htasks]
  cases range.reverse.find? fun e => e.change.operation = .overwrite with
  | some e => rfl
  | none => rfl

end Kept

variable {t : Table MemoryPointer} {ledger : List Publication}

/-- What an incremental scan of a reachable table answers for any two identifiers: the first of the
errors that applies, or the files that the appends behind `base` staged, oldest snapshot first. -/
theorem planTasks_appendsBetween (h : Reachable t ledger) (base tip : SnapshotId) :
    let published (id : SnapshotId) : Prop := ∃ e ∈ ledger, e.snapshot.id = id
    let answer := (t.planTasks (appendsBetween base tip)).1
    (base = tip → answer = .error (.invalidRange
      ("from and to snapshots cannot be the same, but both are " ++ base.display))) ∧
    (base ≠ tip → ¬published tip → answer = .error (.snapshotNotFound tip)) ∧
    (base ≠ tip → published tip → ¬published base → answer = .error (.snapshotNotFound base)) ∧
    (base ≠ tip → published tip → published base →
      ∃ line, Line ledger (some tip) line ∧ answer = appendsOn base tip line) := by
  intro published answer
  have hk := h.kept
  have hplan : answer = t.graph.planAppends base tip :=
    Table.planTasks_between h.unbroken base tip
  refine ⟨?_, ?_, ?_, ?_⟩
  · intro hsame
    rw [hplan, Graph.planAppends, Graph.range, if_pos hsame]
    rfl
  · intro hne htip
    rw [hplan, Graph.planAppends, Graph.range, if_neg hne, hk.find_unpublished htip]
    rfl
  · rintro hne ⟨e, he, rfl⟩ hbase
    rw [hplan, Graph.planAppends, Graph.range, if_neg hne, hk.find_published he,
      hk.find_unpublished hbase]
    rfl
  · rintro hne ⟨e, he, rfl⟩ hbase
    obtain ⟨older, hline, -⟩ := hk.exists_line he
    refine ⟨e :: older, hline, ?_⟩
    have hrange := hk.range_line hne hbase hline
    rw [hplan, appendsOn]
    split
    · rename_i hon
      rw [if_pos hon] at hrange
      have hsub : ((e :: older).takeWhile fun e => e.snapshot.id ≠ base) ⊆ ledger :=
        fun _ hm => hline.subset (List.takeWhile_subset _ hm)
      exact hk.planAppends_range hsub hrange
    · rename_i hoff
      rw [if_neg hoff] at hrange
      rw [Graph.planAppends, hrange]
      rfl

/-- On a branch, an incremental scan sees the files of that branch alone. -/
theorem planTasks_forked :
    (Table.forked.2.planTasks (appendsBetween 1 3)).1 = .ok [⟨{ path := "c" }, 3⟩] ∧
    (Table.forked.2.planTasks (appendsBetween 2 3)).1 = .error (.unreachableAncestor 2 3) := by
  have hpublished : ∀ id ∈ [1, 2, 3], ∃ e ∈ Table.forked.1, e.snapshot.id = id := by decide
  have hline : Line Table.forked.1 (some 3) [Table.forked.1[2], Table.forked.1[0]] :=
    .step (e := Table.forked.1[2]) (by simp) (.step (e := Table.forked.1[0]) (by simp) .root)
  refine ⟨?_, ?_⟩
  · obtain ⟨line, hl, heq⟩ := (planTasks_appendsBetween reachable_forked 1 3).2.2.2 (by decide)
      (hpublished 3 (by decide)) (hpublished 1 (by decide))
    rw [heq, reachable_forked.kept.line_unique hline hl]
    decide
  · obtain ⟨line, hl, heq⟩ := (planTasks_appendsBetween reachable_forked 2 3).2.2.2 (by decide)
      (hpublished 3 (by decide)) (hpublished 2 (by decide))
    rw [heq, reachable_forked.kept.line_unique hline hl]
    decide

end SnapshotTable
