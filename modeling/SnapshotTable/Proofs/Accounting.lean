import SnapshotTable.Proofs.RemovedFiles
import SnapshotTable.Proofs.Totals

/-! What the figures of a snapshot say. They are derived from the files of the parent and the change, and never
read from the manifests that are written; still they tell of exactly the entries that rewriting and merging
leave: what is live before and what is added is what is live afterwards and what is marked as removed. -/

namespace SnapshotTable

def liveFilesAt (s : Option Snapshot) : List DataFile := s.elim [] Snapshot.liveFiles

/-- Live files are the live records without their authors. -/
theorem liveFilesAt_eq (s : Option Snapshot) : liveFilesAt s = (recordsAt s).map Prod.snd := by
  cases s with
  | none => rfl
  | some s => exact s.liveFiles_eq

/-- Where no path is live twice, the live files are the files of the table. -/
theorem perm_liveFilesAt {s : Option Snapshot} (h : LiveOnce s) :
    (filesAt s).items.Perm (liveFilesAt s) := by
  rw [liveFilesAt_eq]
  exact perm_filesAt h

namespace Production
variable (base : FileSet) (change : Change)

def removedFiles : List DataFile := (liveRemovals base change).toList.filterMap base.get?

private theorem perm_removedFiles :
    (removedFiles base change).Perm (base.items.filter fun f => change.removed.contains f.path) := by
  have hnodup : (removedFiles base change).Nodup := by
    refine (Keyed.nodup_items _).filterMap ?_
    intro path path' f hf hf'
    exact (Keyed.key_of_get? hf).symm.trans (Keyed.key_of_get? hf')
  refine (List.perm_ext_iff_of_nodup hnodup (base.nodup_items.filter _)).mpr fun f => ?_
  rw [removedFiles, List.mem_filterMap, List.mem_filter, Keyed.contains_iff]
  constructor
  · rintro ⟨path, hpath, hf⟩
    exact ⟨Keyed.mem_of_get? hf, path, (Keyed.mem_filter.mp hpath).1, (Keyed.key_of_get? hf).symm⟩
  · rintro ⟨hf, path, hpath, hkey⟩
    have hfound : base.get? path = some f := Keyed.get?_eq_some_iff.mpr ⟨hf, hkey.symm⟩
    refine ⟨path, Keyed.mem_filter.mpr ⟨hpath, ?_⟩, hfound⟩
    rw [Keyed.contains_eq_isSome, hfound]
    rfl

private theorem length_removedFiles :
    (removedFiles base change).length = (liveRemovals base change).size := by
  refine List.filterMap_length_eq_length.mpr fun path hpath => ?_
  rw [← Keyed.contains_eq_isSome]
  exact (Keyed.mem_filter.mp hpath).2

end Production

/-- What the figures of a snapshot say of a change of its parent. -/
structure Accounts (parent : Option Snapshot) (change : Change) (s : Snapshot) : Prop where
  /-- What the snapshot says it added is what was staged, in the order of paths. -/
  added : s.addedFiles = change.added.toList
  /-- What it says it removed is the live file of the parent at each removed path that has one. -/
  deleted : s.deletedFiles.Perm
    ((liveFilesAt parent).filter fun f => change.removed.contains f.path)
  deletedOnce : (s.deletedFiles.map DataFile.path).Nodup
  counts : s.summary.addedFiles = s.addedFiles.length ∧
    s.summary.deletedFiles = s.deletedFiles.length
  /-- The live files before and those added are as many as those live afterwards and those removed. -/
  files : s.summary.totalFiles = s.liveFiles.length ∧
    s.summary.totalFiles + s.summary.deletedFiles =
      (liveFilesAt parent).length + s.summary.addedFiles
  records : s.summary.addedRecords = min (sumOf DataFile.recordCount s.addedFiles) maxTotal ∧
    s.summary.deletedRecords = min (sumOf DataFile.recordCount s.deletedFiles) maxTotal
  /-- Totals are exact as long as the live files before and those added are within the limit. -/
  totalRecords : sumOf DataFile.recordCount (liveFilesAt parent) +
      sumOf DataFile.recordCount s.addedFiles ≤ maxTotal →
    s.summary.totalRecords = sumOf DataFile.recordCount s.liveFiles
  totalSizeBytes : sumOf DataFile.sizeBytes (liveFilesAt parent) +
      sumOf DataFile.sizeBytes s.addedFiles ≤ maxTotal →
    s.summary.totalSizeBytes = sumOf DataFile.sizeBytes s.liveFiles

structure Derived (parent : Option Snapshot) (s : Snapshot) : Prop where
  balance : (liveFilesAt parent ++ s.addedFiles).Perm (s.liveFiles ++ s.deletedFiles)
  totalRecords : s.summary.totalRecords =
    derivedTotal DataFile.recordCount (liveFilesAt parent) s.addedFiles s.deletedFiles
  totalSizeBytes : s.summary.totalSizeBytes =
    derivedTotal DataFile.sizeBytes (liveFilesAt parent) s.addedFiles s.deletedFiles

namespace Production
variable {parent : Option Snapshot} {id : SnapshotId} {change : Change} (p : Production)
  (fresh : ManifestId) (now : Instant)

private theorem liveFiles_build :
    (p.build parent id change fresh now).liveFiles.Perm (change.added.items ++
      (liveFilesAt parent).filter fun f => !change.removed.contains f.path) := by
  have hperm := (recordsAt_build p parent id change fresh now).map Prod.snd
  rw [← liveFilesAt_eq, List.map_append, List.map_map] at hperm
  refine hperm.trans (.of_eq (congrArg₂ (· ++ ·) (List.map_id _) ?_))
  rw [liveFilesAt_eq, List.filter_map]
  rfl

section Tidy
open scoped List
variable (honce : LiveOnce parent) (h : AuthoredBefore id (parent.elim [] Snapshot.manifests))
include honce h

private theorem deletedFiles_perm :
    (p.build parent id change fresh now).deletedFiles.Perm (removedFiles (filesAt parent) change) := by
  refine (deletedFiles_build p fresh now h).trans ?_
  rw [← liveFilesAt_eq]
  exact ((perm_liveFilesAt honce).symm.filter _).trans (perm_removedFiles _ _).symm

/-- The totals of a produced snapshot follow from its parent and from what it added and removed. -/
theorem derived_build : Derived parent (p.build parent id change fresh now) := by
  let gone (f : DataFile) : Bool := change.removed.contains f.path
  have hadded : (p.build parent id change fresh now).addedFiles = change.added.items :=
    addedFiles_build p fresh now h
  have hdeleted : (p.build parent id change fresh now).deletedFiles ~
      (liveFilesAt parent).filter gone := by
    rw [liveFilesAt_eq]
    exact deletedFiles_build p fresh now h
  have hfigure {measure : DataFile → Nat} :
      derivedTotal measure (filesAt parent).items change.added.items
          (removedFiles (filesAt parent) change) =
        derivedTotal measure (liveFilesAt parent) (p.build parent id change fresh now).addedFiles
          (p.build parent id change fresh now).deletedFiles :=
    derivedTotal_congr (perm_liveFilesAt honce) (.of_eq hadded.symm)
      (deletedFiles_perm p fresh now honce h).symm
  refine ⟨?_, hfigure, hfigure⟩
  calc liveFilesAt parent ++ (p.build parent id change fresh now).addedFiles
    _ = liveFilesAt parent ++ change.added.items := by rw [hadded]
    _ ~ change.added.items ++ liveFilesAt parent := List.perm_append_comm
    _ ~ change.added.items ++ ((liveFilesAt parent).filter (fun f => !gone f) ++
          (liveFilesAt parent).filter gone) := by
        refine List.Perm.append_left _ ?_
        exact (List.perm_append_comm.trans (List.filter_append_perm gone _)).symm
    _ = (change.added.items ++ (liveFilesAt parent).filter fun f => !gone f) ++
          (liveFilesAt parent).filter gone := (List.append_assoc _ _ _).symm
    _ ~ _ := (liveFiles_build p fresh now).symm.append hdeleted.symm

/-- The figures of a produced snapshot tell what the change made of its parent. -/
theorem accounts_build : Accounts parent change (p.build parent id change fresh now) := by
  have hadded : (p.build parent id change fresh now).addedFiles = change.added.items :=
    addedFiles_build p fresh now h
  have hdeleted : (p.build parent id change fresh now).deletedFiles ~
      removedFiles (filesAt parent) change := deletedFiles_perm p fresh now honce h
  have hremoved := length_removedFiles (filesAt parent) change
  obtain ⟨hbalance, hrecords, hbytes⟩ : Derived parent (p.build parent id change fresh now) :=
    derived_build p fresh now honce h
  have hcounts : (p.build parent id change fresh now).summary.addedFiles =
        (p.build parent id change fresh now).addedFiles.length ∧
      (p.build parent id change fresh now).summary.deletedFiles =
        (p.build parent id change fresh now).deletedFiles.length := by
    rw [hadded, hdeleted.length_eq, hremoved]
    exact ⟨rfl, rfl⟩
  -- As many files are live before and added as are live afterwards and removed, so nothing is cut off.
  have hlength := hbalance.length_eq
  rw [List.length_append, List.length_append, ← hcounts.1, ← hcounts.2] at hlength
  have hbase : (filesAt parent).size = (liveFilesAt parent).length := (perm_liveFilesAt honce).length_eq
  have htotal : (p.build parent id change fresh now).summary.totalFiles =
      (filesAt parent).size + (p.build parent id change fresh now).summary.addedFiles -
        (p.build parent id change fresh now).summary.deletedFiles := rfl
  exact {
    added := hadded
    deleted := by
      rw [liveFilesAt_eq]
      exact deletedFiles_build p fresh now h
    deletedOnce := by
      refine ((hdeleted.trans (perm_removedFiles _ _)).map DataFile.path).nodup_iff.mpr ?_
      exact (filesAt parent).nodup_keys.sublist (List.filter_sublist.map _)
    counts := hcounts
    files := by omega
    records := by
      rw [hadded, sumOf_perm hdeleted]
      exact ⟨clampedTotal_map _, clampedTotal_map _⟩
    totalRecords := fun hfits => hrecords.trans (derivedTotal_exact hbalance hfits)
    totalSizeBytes := fun hfits => hbytes.trans (derivedTotal_exact hbalance hfits) }

end Tidy
end Production

end SnapshotTable
