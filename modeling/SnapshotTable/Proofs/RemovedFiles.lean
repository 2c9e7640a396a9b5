import SnapshotTable.Proofs.ManifestShape

/-! What a produced snapshot says it removed: the files of its parent at the removed paths. Each of them
leaves a removal in the copy of the manifest that it was live in, and consolidation loses none. -/

namespace SnapshotTable.Production
variable {id : SnapshotId} {removed : PathSet} {parent : Option Snapshot} {change : Change}

private theorem ownFiles_strike {es : List ManifestEntry} (h : ∀ e ∈ es, e.snapshotId < id) :
    ownFiles id .deleted (es.filterMap (strike? id removed)) =
      ((liveOf es).map Prod.snd).filter fun f => removed.contains f.path := by
  rw [ownFiles, List.filterMap_filterMap, liveOf, List.map_map, List.filter_map, List.filter_filter,
    ← List.filterMap_eq_map, List.filterMap_filter]
  apply List.filterMap_congr
  intro e he
  rw [strike_of_lt (h e he)]
  by_cases hl : e.isLive = true
  · by_cases hr : removed.contains e.path = true
    · have hr' : removed.contains e.file.path = true := hr
      simp [hl, hr, hr', ManifestEntry.record]
    · have hr' : ¬removed.contains e.file.path = true := hr
      simp [hl, hr, hr', ManifestEntry.record]
  · simp [hl]

private theorem ownFilesIn_struck {fresh : ManifestId} {ms : List Manifest}
    (h : AuthoredBefore id ms) :
    ownFilesIn id .deleted (inherit id removed fresh ms) =
      ((liveRecords ms).map Prod.snd).filter fun f => removed.contains f.path := by
  induction ms generalizing fresh with
  | nil => rfl
  | cons m ms ih =>
    obtain ⟨hm, hms⟩ := List.forall_mem_cons.mp h
    rw [inherit, liveRecords_cons, List.map_append, List.filter_append]
    split
    · rename_i hdead
      rw [ih hms, liveOf_eq_nil hdead]
      rfl
    split
    · rw [ownFilesIn, List.flatMap_cons, if_pos rfl, ownFiles_strike hm, ← ownFilesIn, ih hms]
    · rename_i hno
      have hnone : ((liveOf m.entries).map Prod.snd).filter (fun f => removed.contains f.path) = [] := by
        rw [List.filter_eq_nil_iff]
        intro f hf hr
        obtain ⟨r, hr', rfl⟩ := List.mem_map.mp hf
        obtain ⟨e, he, rfl⟩ := List.mem_map.mp hr'
        obtain ⟨he, hl⟩ := List.mem_filter.mp he
        exact hno (List.any_eq_true.mpr ⟨e, he, Bool.and_eq_true_iff.mpr ⟨hl, hr⟩⟩)
      have hown : (if m.addedSnapshotId = id then ownFiles id .deleted m.entries else []) = [] := by
        rw [ownFiles_eq_nil fun e he => Nat.ne_of_lt (hm e he), ite_self]
      rw [hnone, ownFilesIn, List.flatMap_cons, hown, ← ownFilesIn, ih hms]

private theorem ownFilesIn_additions_deleted (id : SnapshotId) (fresh : ManifestId)
    (added : FileSet) : ownFilesIn id .deleted (additions id fresh added) = [] := by
  unfold additions
  split
  · rfl
  · rw [ownFilesIn, List.flatMap_singleton, if_pos rfl, ownFiles, List.filterMap_eq_nil_iff]
    intro e he
    obtain ⟨f, -, rfl⟩ := List.mem_map.mp he
    rfl

/-- What a snapshot says it removed are the live files of its parent at the paths that its change
removes. -/
theorem deletedFiles_build (p : Production) (fresh : ManifestId) (now : Instant)
    (h : AuthoredBefore id (parent.elim [] Snapshot.manifests)) :
    (p.build parent id change fresh now).deletedFiles.Perm
      (((recordsAt parent).map Prod.snd).filter fun f => change.removed.contains f.path) := by
  rw [Snapshot.deletedFiles, Snapshot.authoredFiles_eq]
  refine (ownFilesIn_consolidate (ownedApart_draft fresh h) .deleted p.config _).trans ?_
  rw [draft, ownFilesIn_append, ownFilesIn_additions_deleted, ownFilesIn_struck h, List.nil_append]
  apply List.Perm.of_eq
  apply List.filter_congr
  intro f hf
  obtain ⟨r, hr, rfl⟩ := List.mem_map.mp hf
  exact contains_liveRemovals hr

end SnapshotTable.Production
