import SnapshotTable.Proofs.AppendPlan
import SnapshotTable.Proofs.FullScan
import SnapshotTable.Proofs.Provenance

/-! Incremental and full scans agree. The one reads what the snapshots of a range wrote themselves, the
other what their entries have become in the newest one; both are told from the same line, so an
appended file is live under its author exactly as long as nothing later removes its path. -/

namespace SnapshotTable

private theorem Line.dropWhile {ledger line : List Publication} {id : Option SnapshotId}
    {base : SnapshotId} (h : Line ledger id line) (hon : ∃ e ∈ line, e.snapshot.id = base) :
    Line ledger (some base) (line.dropWhile fun e => e.snapshot.id ≠ base) := by
  induction h with
  | root => simp at hon
  | @step e line he older ih =>
    by_cases hid : e.snapshot.id = base
    · subst hid
      rw [List.dropWhile_cons_of_neg (by simp)]
      exact .step he older
    · rw [List.dropWhile_cons_of_pos (by simpa using hid)]
      obtain ⟨b, hb, hbid⟩ := hon
      rcases List.mem_cons.mp hb with rfl | hb
      · exact absurd hbid hid
      · exact ih ⟨b, hb, hbid⟩

private theorem addedOn_split {newer older : List Publication} {e : Publication}
    (h : (newer ++ e :: older).Pairwise fun a b => b.snapshot.id < a.snapshot.id) {file : DataFile} :
    AddedOn (newer ++ e :: older) e.snapshot.id file ↔
      file ∈ e.change.added.items ∧ ∀ n ∈ newer, n.change.removed.contains file.path = false := by
  induction newer with
  | nil =>
    have hnone : ¬AddedOn older e.snapshot.id file := by
      rintro ⟨newer, e', older', rfl, hid, -⟩
      have hlt := (List.pairwise_cons.mp h).1 e' (by simp)
      exact Nat.ne_of_lt hlt hid
    rw [List.nil_append, addedOn_cons]
    simp [hnone]
  | cons n newer ih =>
    obtain ⟨hn, hrest⟩ := List.pairwise_cons.mp h
    have hne : n.snapshot.id ≠ e.snapshot.id := (Nat.ne_of_lt (hn e (by simp))).symm
    rw [List.cons_append, addedOn_cons, ih hrest, List.forall_mem_cons]
    simp only [hne, false_and, false_or]
    rw [and_assoc, and_comm (b := _ = false)]

namespace Kept
variable {p : Production} {g : Graph} {ledger : List Publication} {id : Option SnapshotId}
  {base tip : SnapshotId}

/-- A plan that succeeds lists the tasks of the line of its tip in front of the line of its base. -/
theorem planned_line (h : Kept p g ledger) {tasks : List FileScanTask}
    (hplan : g.planAppends base tip = .ok tasks) :
    ∃ range older, Line ledger (some tip) (range ++ older) ∧ Line ledger (some base) older ∧
      tasks = range.reverse.flatMap Publication.tasks := by
  rw [Graph.planAppends] at hplan
  have hne : base ≠ tip := by
    rintro rfl
    rw [Graph.range, if_pos rfl] at hplan
    cases hplan
  have htip : ∃ e ∈ ledger, e.snapshot.id = tip := by
    by_contra hno
    rw [Graph.range, if_neg hne, h.find_unpublished hno] at hplan
    cases hplan
  obtain ⟨e, he, rfl⟩ := htip
  have hbase : ∃ b ∈ ledger, b.snapshot.id = base := by
    by_contra hno
    rw [Graph.range, if_neg hne, h.find_published he, h.find_unpublished hno] at hplan
    cases hplan
  obtain ⟨rest, hline, -⟩ := h.exists_line he
  generalize e :: rest = line at hline
  have hrange := h.range_line hne hbase hline
  by_cases hon : ∃ b ∈ line, b.snapshot.id = base
  · rw [if_pos hon] at hrange
    have hsub : (line.takeWhile fun e => e.snapshot.id ≠ base) ⊆ ledger :=
      fun _ hm => hline.subset (List.takeWhile_subset _ hm)
    have htasks := h.planAppends_range hsub hrange
    rw [Graph.planAppends] at htasks
    have hok := hplan.symm.trans htasks
    split at hok
    · cases hok
    refine ⟨line.takeWhile fun e => e.snapshot.id ≠ base,
      line.dropWhile fun e => e.snapshot.id ≠ base, ?_, ?_, Except.ok.inj hok⟩
    · rwa [List.takeWhile_append_dropWhile]
    · exact hline.dropWhile hon
  · rw [hrange, if_neg hon] at hplan
    cases hplan

private theorem recordsAt_range (h : Kept p g ledger) {range older : List Publication}
    (hl : Line ledger id (range ++ older))
    (hkeep : ∀ e ∈ range, ∀ path, e.change.removed.contains path = false) :
    (recordsAt (headOf (range ++ older))).Perm
      ((range.flatMap fun e => e.change.added.items.map fun f => (e.snapshot.id, f)) ++
        recordsAt (headOf older)) := by
  induction range generalizing id with
  | nil => exact .refl _
  | cons e range ih =>
    obtain ⟨he, hrange⟩ := List.forall_mem_cons.mp hkeep
    rw [List.cons_append] at hl ⊢
    cases hl with
    | step hmem hlater =>
      obtain ⟨-, -, fresh, now, hbuild⟩ := h.made_on hmem hlater
      have hperm := Production.recordsAt_build p (headOf (range ++ older)) e.snapshot.id
        e.change fresh now
      rw [← hbuild, List.filter_eq_self.mpr fun r _ => by rw [he r.2.path]; rfl] at hperm
      rw [List.flatMap_cons, List.append_assoc]
      exact hperm.trans ((ih hlater hrange).append_left _)

private theorem mem_tasks_range (h : Kept p g ledger) {range : List Publication} (hsub : range ⊆ ledger)
    {e : Publication} (he : e ∈ range) (happend : e.change.operation = .append) {f : DataFile} :
    ⟨f, e.snapshot.id⟩ ∈ range.reverse.flatMap Publication.tasks ↔ f ∈ e.change.added.items := by
  constructor
  · intro hm
    obtain ⟨e', he', hm⟩ := List.mem_flatMap.mp hm
    obtain ⟨hid, hf⟩ := e'.of_mem_tasks hm
    obtain rfl := h.eq_of_id_eq (hsub he) (hsub (List.mem_reverse.mp he')) hid
    exact hf
  · intro hf
    refine List.mem_flatMap.mpr ⟨e, List.mem_reverse.mpr he, ?_⟩
    rw [Publication.tasks, if_pos happend]
    exact List.mem_map_of_mem hf

/-- Where append builders made a range, the files of its tip are those of its base and those that its
tasks name, each path once. -/
theorem filesAt_appended (h : Kept p g ledger) {range older : List Publication}
    (hl : Line ledger id (range ++ older))
    (happend : ∀ e ∈ range, ∃ files, e.change = (Change.start .append).addAll files) :
    let planned : FileSet :=
      Keyed.ofList ((range.reverse.flatMap Publication.tasks).map FileScanTask.file)
    (filesAt (headOf (range ++ older))).items.Perm
        ((filesAt (headOf older)).items ++ planned.items) ∧
      ∀ f ∈ (filesAt (headOf older)).items, ∀ g ∈ planned.items, f.path ≠ g.path := by
  intro planned
  have hkeep : ∀ e ∈ range, ∀ path, e.change.removed.contains path = false := by
    intro e he path
    obtain ⟨files, hchange⟩ := happend e he
    rw [hchange, Change.addAll_eq]
    rfl
  have hadded : (range.reverse.flatMap Publication.tasks).map FileScanTask.file =
      range.reverse.flatMap fun e => e.change.added.items := by
    rw [List.map_flatMap]
    apply List.flatMap_congr
    intro e he
    obtain ⟨files, hchange⟩ := happend e (List.mem_reverse.mp he)
    have hop : e.change.operation = .append := by
      rw [hchange, Change.addAll_eq]
      rfl
    rw [Publication.tasks, if_pos hop, List.map_map]
    exact List.map_id _
  have honce := (h.line_orderly hl).once
  have hbase : LiveOnce (headOf older) := by
    have hperm := (h.recordsAt_range hl hkeep).map fun r => r.2.path
    rw [List.map_append] at hperm
    exact (List.nodup_append.mp (hperm.nodup_iff.mp honce)).2.1
  have hrecords : ((recordsAt (headOf (range ++ older))).map Prod.snd).Perm
      ((range.flatMap fun e => e.change.added.items) ++ (recordsAt (headOf older)).map Prod.snd) := by
    have hperm := (h.recordsAt_range hl hkeep).map Prod.snd
    rw [List.map_append, List.map_flatMap] at hperm
    simpa only [List.map_map, Function.comp_def, List.map_id'] using hperm
  have hplanned : planned.items.Perm (range.flatMap fun e => e.change.added.items) := by
    have hrev : (range.reverse.flatMap fun e => e.change.added.items).Perm
        (range.flatMap fun e => e.change.added.items) := (List.reverse_perm range).flatMap_right _
    have hkeys : ((range.flatMap fun e => e.change.added.items).map DataFile.path).Nodup := by
      have hall := (hrecords.map DataFile.path).nodup_iff.mp (by rwa [List.map_map])
      rw [List.map_append] at hall
      exact (List.nodup_append.mp hall).1
    have hnodup := (hrev.map DataFile.path).nodup_iff.mpr hkeys
    rw [← hadded] at hnodup hrev
    exact (Keyed.perm_ofList hnodup).trans hrev
  have hperm : (filesAt (headOf (range ++ older))).items.Perm
      ((filesAt (headOf older)).items ++ planned.items) := by
    apply ((perm_filesAt honce).trans hrecords).trans
    exact (hplanned.symm.append (perm_filesAt hbase).symm).trans List.perm_append_comm
  refine ⟨hperm, fun f hf g hg => ?_⟩
  have hkeys := (hperm.map DataFile.path).nodup_iff.mp (Keyed.nodup_keys _)
  rw [List.map_append] at hkeys
  exact (List.nodup_append.mp hkeys).2.2 _ (List.mem_map_of_mem hf) _ (List.mem_map_of_mem hg)

end Kept

variable {t : Table MemoryPointer} {ledger : List Publication}

/-- On a reachable table, what an incremental scan plans and what full scans answer agree: a planned
file is live at the tip under its author if and only if nothing later in the range removed its path,
and where append builders made the whole range, a full scan of the tip is that of the base and the
planned files, without overlap. -/
theorem planTasks_agrees (h : Reachable t ledger) {base tip : SnapshotId} {tasks : List FileScanTask}
    (hplan : (t.planTasks (appendsBetween base tip)).1 = .ok tasks) :
    ∃ range older s, Line ledger (some tip) (range ++ older) ∧ Line ledger (some base) older ∧
      s ∈ t.graph.items ∧ s.id = tip ∧
      (∀ newer e rest, range = newer ++ e :: rest → e.snapshot.operation = .append → ∀ f,
        (∃ m ∈ s.manifests, ∃ a ∈ m.liveEntries, a.snapshotId = e.snapshot.id ∧ a.file = f) ↔
          ⟨f, e.snapshot.id⟩ ∈ tasks ∧ ∀ n ∈ newer, n.change.removed.contains f.path = false) ∧
      ((∀ e ∈ range, ∃ files, e.change = (Change.start .append).addAll files) →
        ∃ before added after, (t.planFiles (some base)).1 = .ok before ∧
          (t.planAppendedFiles (appendsBetween base tip)).1 = .ok added ∧
          (t.planFiles (some tip)).1 = .ok after ∧
          after.toList.Perm (before.toList ++ added.toList) ∧
          ∀ f ∈ before.toList, ∀ g ∈ added.toList, f.path ≠ g.path) := by
  have hk := h.kept
  have hgraph := hplan
  rw [Table.planTasks_between h.unbroken] at hgraph
  obtain ⟨range, older, hline, hbase, rfl⟩ := hk.planned_line hgraph
  obtain ⟨e, he, htip, htipHead⟩ := hline.head
  obtain ⟨b, hb, hbid, hbaseHead⟩ := hbase.head
  refine ⟨range, older, e.snapshot, hline, hbase, hk.mem_graph he, htip, ?_, ?_⟩
  · rintro newer a rest rfl happend f
    have hsub : newer ++ a :: rest ⊆ ledger :=
      fun n hn => hline.subset (List.mem_append_left _ hn)
    have hmem : a ∈ newer ++ a :: rest := List.mem_append_right _ List.mem_cons_self
    rw [hk.operation_eq (hsub hmem)] at happend
    have hlive : (a.snapshot.id, f) ∈ recordsAt (headOf ((newer ++ a :: rest) ++ older)) ↔
        AddedOn ((newer ++ a :: rest) ++ older) a.snapshot.id f := hk.mem_recordsAt_line hline
    have hdesc := hk.line_descends hline
    rw [htipHead, List.append_assoc, List.cons_append] at hlive
    rw [List.append_assoc, List.cons_append] at hdesc
    rw [hk.mem_tasks_range hsub hmem happend, ← addedOn_split hdesc, ← hlive, recordsAt,
      mem_liveRecords]
    simp only [ManifestEntry.record, Prod.mk.injEq]
    rfl
  · intro happend
    obtain ⟨hperm, hapart⟩ := hk.filesAt_appended hline happend
    refine ⟨_, _, _, ?_, ?_, ?_, hperm, hapart⟩
    · rw [hbaseHead, ← hbid]
      exact planFiles_published h hb
    · rw [Table.planAppendedFiles, ← Prod.eta (t.planTasks (appendsBetween base tip)), hplan]
    · rw [htipHead, ← htip]
      exact planFiles_published h he

/-- On the branch of the run, one append lies between the scanned snapshots, and the full scans of the
two differ by what it staged. -/
theorem planTasks_agrees_forked :
    (Table.forked.2.planTasks (appendsBetween 1 3)).1 = .ok [⟨{ path := "c" }, 3⟩] ∧
    ∃ before added after, (Table.forked.2.planFiles (some 1)).1 = .ok before ∧
      (Table.forked.2.planAppendedFiles (appendsBetween 1 3)).1 = .ok added ∧
      (Table.forked.2.planFiles (some 3)).1 = .ok after ∧
      after.toList.Perm (before.toList ++ added.toList) := by
  have hk := reachable_forked.kept
  have hbase : Line Table.forked.1 (some 1) [Table.forked.1[0]] :=
    .step (e := Table.forked.1[0]) (by simp) .root
  have htip : Line Table.forked.1 (some 3) [Table.forked.1[2], Table.forked.1[0]] :=
    .step (e := Table.forked.1[2]) (by simp) hbase
  have hne : (1 : SnapshotId) ≠ 3 := by decide
  have hrange := hk.range_line hne ⟨Table.forked.1[0], by simp, rfl⟩ htip
  have hplan : (Table.forked.2.planTasks (appendsBetween 1 3)).1 = .ok [⟨{ path := "c" }, 3⟩] := by
    rw [Table.planTasks_between reachable_forked.unbroken]
    have hsub : [Table.forked.1[2]] ⊆ Table.forked.1 :=
      fun e he => htip.subset (List.mem_of_mem_take (i := 1) he)
    exact (hk.planAppends_range hsub hrange).trans rfl
  refine ⟨hplan, ?_⟩
  obtain ⟨range, older, s, hl, ho, -, -, -, hfull⟩ := planTasks_agrees reachable_forked hplan
  obtain rfl := hk.line_unique ho hbase
  have hone : range = [Table.forked.1[2]] :=
    List.append_cancel_right (hk.line_unique htip hl)
  subst hone
  obtain ⟨before, added, after, hb, ha, hf, hperm, -⟩ := hfull fun e he =>
    ⟨[{ path := "c" }], by rw [List.mem_singleton.mp he]; rfl⟩
  exact ⟨before, added, after, hb, ha, hf, hperm⟩

end SnapshotTable
