import SnapshotTable.Proofs.Acceptance
import SnapshotTable.Proofs.LiveRecords

/-! The files of a produced snapshot. Its live records are those of its parent outside the removed
paths, and one for each added file. Where no path was live twice and no added path was live, its
files are the change applied to the files of the parent, and again no path is live twice. -/

namespace SnapshotTable

def recordsAt (s : Option Snapshot) : List (SnapshotId × DataFile) :=
  liveRecords (s.elim [] Snapshot.manifests)

def LiveOnce (s : Option Snapshot) : Prop := ((recordsAt s).map fun r => r.2.path).Nodup

theorem liveOnce_none : LiveOnce none := List.nodup_nil

private theorem filesAt_eq_ofList (s : Option Snapshot) :
    filesAt s = Keyed.ofList ((recordsAt s).map Prod.snd) := by
  cases s with
  | none => rfl
  | some s => rw [filesAt, Snapshot.files, Snapshot.liveFiles_eq]; rfl

/-- A path is among the files just if a record with it is live. -/
theorem contains_filesAt {s : Option Snapshot} {path : String} :
    (filesAt s).contains path = true ↔ ∃ r ∈ recordsAt s, r.2.path = path := by
  rw [filesAt_eq_ofList, Keyed.contains_ofList]
  constructor
  · rintro ⟨f, hf, he⟩
    obtain ⟨r, hr, rfl⟩ := List.mem_map.mp hf
    exact ⟨r, hr, he⟩
  · rintro ⟨r, hr, he⟩
    exact ⟨r.2, List.mem_map_of_mem hr, he⟩

private theorem nodup_paths {s : Option Snapshot} (h : LiveOnce s) :
    (((recordsAt s).map Prod.snd).map DataFile.path).Nodup := by
  rw [List.map_map]
  exact h

/-- Without repetition, the files are the live files in path order. -/
theorem perm_filesAt {s : Option Snapshot} (h : LiveOnce s) :
    (filesAt s).items.Perm ((recordsAt s).map Prod.snd) := by
  rw [filesAt_eq_ofList]
  exact Keyed.perm_ofList (nodup_paths h)

private theorem mem_filesAt {s : Option Snapshot} (h : LiveOnce s) {f : DataFile} :
    f ∈ (filesAt s).items ↔ ∃ r ∈ recordsAt s, r.2 = f := by
  rw [(perm_filesAt h).mem_iff, List.mem_map]

namespace Change

/-- Adding files one by one is inserting them all. -/
theorem addAll_eq (c : Change) (files : List DataFile) :
    c.addAll files = { c with added := files.foldl Keyed.insert c.added } := by
  rw [addAll]
  induction files generalizing c with
  | nil => rfl
  | cons f rest ih => rw [List.foldl_cons, ih]; rfl

/-- The files after a change: those added, and those left that neither are removed nor share a path
with an added one. -/
theorem mem_apply {c : Change} {files : FileSet} {f : DataFile} :
    f ∈ (c.apply files).items ↔ f ∈ c.added.items ∨
      (f ∈ files.items ∧ c.removed.contains f.path = false) ∧
        f.path ∉ c.added.items.map DataFile.path := by
  rw [apply, Keyed.mem_foldl_insert c.added.nodup_keys, Keyed.mem_filter]
  simp

/-- Where nothing is removed and all paths are new, the files are those added and those before. -/
theorem mem_apply_new {c : Change} {files : FileSet}
    (hkeep : ∀ path, c.removed.contains path = false)
    (hnew : ∀ g ∈ c.added.items, files.contains g.path = false) {f : DataFile} :
    f ∈ (c.apply files).items ↔ f ∈ c.added.items ∨ f ∈ files.items := by
  rw [mem_apply]
  refine or_congr_right ⟨fun h => h.1.1, fun hf => ⟨⟨hf, hkeep f.path⟩, fun hm => ?_⟩⟩
  obtain ⟨g, hg, hpath⟩ := List.mem_map.mp hm
  have hlive : files.contains g.path = true := Keyed.contains_iff.mpr ⟨f, hf, hpath.symm⟩
  exact Bool.false_ne_true ((hnew g hg).symm.trans hlive)

end Change

namespace Production
variable (p : Production) (parent : Option Snapshot) (id : SnapshotId) (change : Change)
  (fresh : ManifestId) (now : Instant)

variable {parent change} in
/-- The path of a live file is among the live removals just if the change removes it. -/
theorem contains_liveRemovals {r : SnapshotId × DataFile} (h : r ∈ recordsAt parent) :
    (liveRemovals (filesAt parent) change).contains r.2.path = change.removed.contains r.2.path := by
  rw [Bool.eq_iff_iff, Keyed.contains_iff, Keyed.contains_iff]
  have hlive : (filesAt parent).contains r.2.path = true := contains_filesAt.mpr ⟨r, h, rfl⟩
  constructor
  · rintro ⟨path, hp, he⟩
    exact ⟨path, (Keyed.mem_filter.mp hp).1, he⟩
  · rintro ⟨path, hp, he⟩
    refine ⟨path, Keyed.mem_filter.mpr ⟨hp, ?_⟩, he⟩
    rw [show path = r.2.path from he]
    exact hlive

/-- Production keeps and adds exactly the right live records, whatever the parent looks like. -/
theorem recordsAt_build :
    (recordsAt (some (p.build parent id change fresh now))).Perm
      (change.added.items.map (fun f => (id, f)) ++
        (recordsAt parent).filter fun r => !change.removed.contains r.2.path) := by
  refine (liveRecords_consolidate p.config id _ (draft parent id fresh change)).trans (.of_eq ?_)
  rw [draft, liveRecords_append, liveRecords_additions, liveRecords_inherit]
  congr 1
  apply List.filter_congr
  intro r hr
  rw [contains_liveRemovals hr]

private theorem nodup_added_paths :
    ((change.added.items.map fun f => (id, f)).map fun r => r.2.path).Nodup := by
  rw [List.map_map]
  exact change.added.nodup_keys

variable {parent change}

/-- A change with new paths only leaves no path live twice. -/
theorem liveOnce_build (h : LiveOnce parent)
    (hnew : ∀ f ∈ change.added.items, (filesAt parent).contains f.path = false) :
    LiveOnce (some (p.build parent id change fresh now)) := by
  have hperm := (recordsAt_build p parent id change fresh now).map fun r => r.2.path
  refine hperm.nodup_iff.mpr ?_
  rw [List.map_append, List.nodup_append]
  refine ⟨nodup_added_paths id change, h.sublist (List.filter_sublist.map _), ?_⟩
  intro a ha b hb hab
  obtain ⟨r, hr, rfl⟩ := List.mem_map.mp ha
  obtain ⟨f, hf, rfl⟩ := List.mem_map.mp hr
  obtain ⟨q, hq, rfl⟩ := List.mem_map.mp hb
  have hlive : (filesAt parent).contains f.path = true :=
    contains_filesAt.mpr ⟨q, (List.mem_filter.mp hq).1, hab.symm⟩
  exact Bool.false_ne_true ((hnew f hf).symm.trans hlive)

/-- The files of a produced snapshot are the change applied to those of its parent. -/
theorem filesAt_build (h : LiveOnce parent)
    (hnew : ∀ f ∈ change.added.items, (filesAt parent).contains f.path = false) :
    filesAt (some (p.build parent id change fresh now)) = change.apply (filesAt parent) := by
  apply Keyed.ext_mem
  intro f
  rw [mem_filesAt (liveOnce_build p id fresh now h hnew), Change.mem_apply, mem_filesAt h]
  have hmem (r : SnapshotId × DataFile) :=
    (recordsAt_build p parent id change fresh now).mem_iff (a := r)
  simp only [hmem, List.mem_append, List.mem_map, List.mem_filter, Bool.not_eq_eq_eq_not,
    Bool.not_true]
  constructor
  · rintro ⟨r, ⟨g, hg, rfl⟩ | ⟨hr, hk⟩, rfl⟩
    · exact .inl hg
    · refine .inr ⟨⟨⟨r, hr, rfl⟩, hk⟩, ?_⟩
      rintro ⟨g, hg, he⟩
      have hlive := contains_filesAt.mpr ⟨r, hr, he.symm⟩
      exact Bool.false_ne_true ((hnew g hg).symm.trans hlive)
  · rintro (hf | ⟨⟨⟨r, hr, rfl⟩, hk⟩, -⟩)
    · exact ⟨(id, f), .inl ⟨f, hf, rfl⟩, rfl⟩
    · exact ⟨r, .inr ⟨hr, hk⟩, rfl⟩

/-- So where the standard rules accept a change, it leaves the files that it says, with no path live twice. -/
theorem build_files (h : LiveOnce parent)
    (haccept : Validator.evaluate (filesAt parent) change Validator.standard = .ok ()) :
    LiveOnce (some (p.build parent id change fresh now)) ∧
      filesAt (some (p.build parent id change fresh now)) = change.apply (filesAt parent) := by
  have hnew := (Validator.evaluate_standard_eq_ok_iff.mp haccept).1
  exact ⟨liveOnce_build p id fresh now h hnew, filesAt_build p id fresh now h hnew⟩

end Production
end SnapshotTable
