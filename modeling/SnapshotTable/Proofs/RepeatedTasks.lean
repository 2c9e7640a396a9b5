import Mathlib.Data.List.Pairwise
import SnapshotTable.Proofs.AppendPlan
import SnapshotTable.Proofs.Audits
import SnapshotTable.Proofs.PointerHistory

/-! Paths that a plan lists more than once. The rules refuse an added path only as long as it is live, so a
path may come back once it was removed, and then a range that holds both appends has two tasks for it. What
is live stays live until some snapshot tells that it removed it. So there is such a snapshot between any two
tasks with one path, and nothing else brings them about. -/

namespace SnapshotTable

/-- The snapshot is between those of two tasks, and it removed the file of the first. -/
structure Snapshot.Parts (s : Snapshot) (x y : FileScanTask) : Prop where
  after : x.snapshotId < s.id
  before : s.id < y.snapshotId
  removed : x.file ∈ s.deletedFiles

namespace Snapshot
variable {s : Snapshot} {x : FileScanTask}

private theorem file_of_mem_tasks (h : x ∈ s.tasks) : x.file ∈ s.addedFiles := by
  rw [tasks] at h
  split at h
  · obtain ⟨f, hf, rfl⟩ := List.mem_map.mp h
    exact (List.mergeSort_perm _ _).mem_iff.mp hf
  · cases h

namespace Audit
variable {among : List Snapshot} {parent : Option Snapshot} {change : Change} {f : DataFile}
  (h : s.Audit among parent change)
include h

private theorem live_or_deleted (hf : f ∈ liveFilesAt parent) : f ∈ s.liveFiles ∨ f ∈ s.deletedFiles :=
  List.mem_append.mp (h.derived.balance.mem_iff.mp (List.mem_append_left _ hf))

private theorem added_new (hf : f ∈ s.addedFiles) {g : DataFile} (hg : g ∈ liveFilesAt parent) :
    g.path ≠ f.path := by
  intro hpath
  rw [h.accounts.added] at hf
  rw [liveFilesAt_eq] at hg
  obtain ⟨r, hr, rfl⟩ := List.mem_map.mp hg
  have hnew := (Validator.evaluate_standard_eq_ok_iff.mp h.accepted).1 f hf
  exact Bool.false_ne_true (hnew.symm.trans (contains_filesAt.mpr ⟨r, hr, hpath⟩))

private theorem added_live (hf : f ∈ s.addedFiles) : f ∈ s.liveFiles := by
  rcases List.mem_append.mp (h.derived.balance.mem_iff.mp (List.mem_append_right _ hf)) with hl | hd
  · exact hl
  · have hbefore := (List.mem_filter.mp (h.accounts.deleted.mem_iff.mp hd)).1
    exact absurd rfl (h.added_new hf hbefore)

private theorem tasks_once : s.tasks.Pairwise fun x y => x.file.path ≠ y.file.path := by
  rw [tasks]
  split
  · rw [DataFile.sortByPath_of_perm (.of_eq h.accounts.added)]
    exact List.pairwise_map.mpr (change.added.ordered.imp fun hlt => Std.ne_of_lt hlt)
  · exact .nil

end Audit
end Snapshot

namespace Kept
variable {p : Production} {g : Graph} {ledger : List Publication} (h : Kept p g ledger)
  {id : Option SnapshotId} {newer older : List Snapshot}
include h

/-- What is live lives on along a lineage until a snapshot says that it removed it. -/
theorem lives_or_deleted (hl : g.Lineage id (newer ++ older)) {f : DataFile}
    (hf : f ∈ liveFilesAt older.head?) :
    f ∈ liveFilesAt (newer ++ older).head? ∨ ∃ n ∈ newer, f ∈ n.deletedFiles := by
  induction newer generalizing id with
  | nil => exact .inl hf
  | cons n newer ih =>
    rw [List.cons_append] at hl ⊢
    cases hl with
    | step hn hlater =>
      obtain ⟨change, haudit⟩ := h.audit_lineage hn hlater
      rcases ih hlater with hlive | ⟨m, hm, hdeleted⟩
      · exact (haudit.live_or_deleted hlive).imp_right fun hd => ⟨n, List.mem_cons_self, hd⟩
      · exact .inr ⟨m, List.mem_cons_of_mem _ hm, hdeleted⟩

/-- Where two snapshots of a lineage have a task for one path, a snapshot between them parts these. -/
theorem parted {a b : Snapshot} {mid : List Snapshot}
    (hl : g.Lineage id (b :: (mid ++ a :: older))) {x y : FileScanTask} (hx : x ∈ a.tasks)
    (hy : y ∈ b.tasks) (hpath : x.file.path = y.file.path) : ∃ n ∈ mid, n.Parts x y := by
  obtain ⟨hbelow, hdesc⟩ := List.pairwise_cons.mp (hl.descends h.grounded).2
  obtain ⟨-, -, habove⟩ := List.pairwise_append.mp hdesc
  cases hl with
  | step hb hmid =>
    obtain ⟨_, haudit⟩ := h.audit_lineage hb hmid
    obtain ⟨_, _, haudit'⟩ := h.audit (hmid.subset (List.mem_append_right _ List.mem_cons_self))
    have hborn : x.file ∈ a.liveFiles := haudit'.added_live (Snapshot.file_of_mem_tasks hx)
    rcases h.lives_or_deleted hmid hborn with hlive | ⟨n, hn, hdeleted⟩
    · -- the rules would not have let the path in a second time
      exact absurd hpath (haudit.added_new (Snapshot.file_of_mem_tasks hy) hlive)
    · refine ⟨n, hn, ?_, ?_, hdeleted⟩
      · rw [Snapshot.snapshotId_of_mem_tasks hx]
        exact habove n hn a List.mem_cons_self
      · rw [Snapshot.snapshotId_of_mem_tasks hy]
        exact hbelow n (List.mem_append_left _ hn)

private theorem range_parted {range : List Snapshot} (hl : g.Lineage id (range ++ older)) :
    range.Pairwise fun b a => ∀ x ∈ a.tasks, ∀ y ∈ b.tasks, x.file.path = y.file.path →
      ∃ n ∈ range, n.Parts x y := by
  induction range generalizing id with
  | nil => exact .nil
  | cons b range ih =>
    refine List.pairwise_cons.mpr ⟨fun a ha x hx y hy hpath => ?_, ?_⟩
    · obtain ⟨mid, rest, rfl⟩ := List.append_of_mem ha
      rw [List.cons_append, List.append_assoc, List.cons_append] at hl
      obtain ⟨n, hn, hparts⟩ := h.parted hl hx hy hpath
      exact ⟨n, List.mem_cons_of_mem _ (List.mem_append_left _ hn), hparts⟩
    · cases hl with
      | step hb hlater =>
        refine (ih hlater).imp fun hall x hx y hy hpath => ?_
        obtain ⟨n, hn, hparts⟩ := hall x hx y hy hpath
        exact ⟨n, List.mem_cons_of_mem _ hn, hparts⟩

end Kept

/-- Whatever clients do to a new table with the standard rules, and whatever store its pointer is put into: any
two tasks of a plan with one path are parted by a snapshot of the range, which is between theirs and removed the
file of the first. -/
theorem planTasks_parted {σ : Type} [PointerStore σ] {t : Table σ} {uuid : Uuid} {config : TableConfig}
    {clock : Clock} {created : Table MemoryPointer} (h : Table.create uuid config clock = .ok created)
    {store : σ} {start : Table σ} (hstart : created.withPointerStore store = .ok start)
    (hr : Reaches start t) {base tip : SnapshotId} {tasks : List FileScanTask}
    (hplan : (t.planTasks (appendsBetween base tip)).1 = .ok tasks) :
    ∃ range, t.scanRange (appendsBetween base tip) = .ok range ∧
      tasks.Pairwise fun x y => x.file.path = y.file.path → ∃ s ∈ range, s.Parts x y := by
  obtain ⟨hsound, ledger, hk⟩ := hr.kept_of_create h hstart
  rw [Table.planTasks_between hsound] at hplan
  obtain ⟨range, hrange, rfl⟩ := Graph.range_of_planned hplan
  have hscan : t.scanRange (appendsBetween base tip) = .ok range := by
    rw [Table.scanRange_eq, Table.state_sound hsound]
    exact hrange
  obtain ⟨older, hl⟩ := hk.grounded.lineage_range hrange
  refine ⟨range, hscan, List.pairwise_flatMap.mpr ⟨fun s hs => ?_, ?_⟩⟩
  · obtain ⟨_, _, haudit⟩ := hk.audit (hl.subset (List.mem_append_left _ (List.mem_reverse.mp hs)))
    exact haudit.tasks_once.imp fun hne hpath => absurd hpath hne
  · exact List.pairwise_reverse.mpr (hk.range_parted hl)

def Table.twiceAdded : Table MemoryPointer :=
  let append (file : DataFile) : Change := (Change.start .append).add file
  blank.after [
    .publish none [append { path := "root" }],
    .publish (some 1) [append { path := "a" }],
    .publish (some 2) [(Change.start .delete).remove "a"],
    .publish (some 3) [append { path := "a", recordCount := 7 }]]

private theorem reaches_twiceAdded : Reaches Table.blank Table.twiceAdded := Reaches.here.after _

private theorem planTasks_twiceAdded : (Table.twiceAdded.planTasks (appendsBetween 1 4)).1 =
    .ok [⟨{ path := "a" }, 2⟩, ⟨{ path := "a", recordCount := 7 }, 4⟩] := by
  decide +kernel

/-- So there are plans with two tasks for one path. -/
theorem planTasks_repeats :
    Reaches Table.blank Table.twiceAdded ∧
    ∃ tasks, (Table.twiceAdded.planTasks (appendsBetween 1 4)).1 = .ok tasks ∧
      ¬(tasks.map fun x => x.file.path).Nodup :=
  ⟨reaches_twiceAdded, _, planTasks_twiceAdded, by decide⟩

/-- The two are parted by the removal of the first. -/
theorem planTasks_parted_twiceAdded :
    ∃ range, Table.twiceAdded.scanRange (appendsBetween 1 4) = .ok range ∧
      range.map Snapshot.id = [4, 3, 2] ∧
      ∃ s ∈ range, s.Parts ⟨{ path := "a" }, 2⟩ ⟨{ path := "a", recordCount := 7 }, 4⟩ := by
  have hstart : Table.blank.withPointerStore ({} : MemoryPointer) = .ok .blank := rfl
  obtain ⟨range, hrange, hparted⟩ :=
    planTasks_parted Table.create_blank hstart reaches_twiceAdded planTasks_twiceAdded
  have hids : (Table.twiceAdded.scanRange (appendsBetween 1 4)).map (·.map Snapshot.id) =
      .ok [4, 3, 2] := by decide +kernel
  rw [hrange] at hids
  exact ⟨range, hrange, Except.ok.inj hids, List.rel_of_pairwise_cons hparted List.mem_cons_self rfl⟩

end SnapshotTable
