import SnapshotTable.Production
import SnapshotTable.Proofs.Carrying
import SnapshotTable.Proofs.Layouts

/-! Live records: the files that a manifest list says are part of the table, each with the snapshot
that added it. Consolidation keeps them, removal takes away those of the removed paths and no
others, and a manifest of additions brings one for each added file. Which manifest holds a record
plays no part. -/

namespace SnapshotTable

def ManifestEntry.record (e : ManifestEntry) : SnapshotId × DataFile := (e.snapshotId, e.file)

def liveOf (es : List ManifestEntry) : List (SnapshotId × DataFile) :=
  (es.filter ManifestEntry.isLive).map ManifestEntry.record

def liveRecords (ms : List Manifest) : List (SnapshotId × DataFile) :=
  ms.flatMap fun m => liveOf m.entries

@[simp] theorem liveRecords_nil : liveRecords [] = [] := rfl

@[simp] theorem liveRecords_cons (m : Manifest) (ms : List Manifest) :
    liveRecords (m :: ms) = liveOf m.entries ++ liveRecords ms := rfl

@[simp] theorem liveRecords_append (ms ns : List Manifest) :
    liveRecords (ms ++ ns) = liveRecords ms ++ liveRecords ns := List.flatMap_append

/-- Live files are the files of the live records, in their order. -/
theorem Snapshot.liveFiles_eq (s : Snapshot) :
    s.liveFiles = (liveRecords s.manifests).map Prod.snd := by
  simp only [liveFiles, liveEntries, liveRecords, liveOf, Manifest.liveEntries, List.map_flatMap,
    List.map_map]
  rfl

private theorem liveOf_append (es fs : List ManifestEntry) :
    liveOf (es ++ fs) = liveOf es ++ liveOf fs := by
  simp [liveOf]

private theorem liveOf_flatMap (ms : List Manifest) :
    liveOf (ms.flatMap Manifest.entries) = liveRecords ms := by
  induction ms with
  | nil => rfl
  | cons m ms ih => rw [List.flatMap_cons, liveOf_append, ih, liveRecords_cons]

private theorem liveOf_filterMap_cons (f : ManifestEntry → Option ManifestEntry)
    (e : ManifestEntry) (es : List ManifestEntry) :
    liveOf ((e :: es).filterMap f) = liveOf (f e).toList ++ liveOf (es.filterMap f) := by
  rw [← liveOf_append]
  cases h : f e <;> simp [h]

private theorem liveOf_singleton (e : ManifestEntry) :
    liveOf [e] = if e.isLive then [e.record] else [] := by
  by_cases h : e.isLive <;> simp [liveOf, h]

private theorem liveOf_carry_one (id : SnapshotId) (e : ManifestEntry) :
    liveOf (e.carry? id).toList = liveOf [e] := by
  by_cases h : e.snapshotId = id
  · rw [ManifestEntry.carry_of_own h, Option.toList_some]
  · rw [ManifestEntry.carry_of_foreign h, liveOf_singleton]
    split <;> rfl

private theorem liveOf_strike_one (id : SnapshotId) (removed : PathSet) (e : ManifestEntry) :
    liveOf (Production.strike? id removed e).toList =
      (liveOf [e]).filter fun r => !removed.contains r.2.path := by
  have hstruck : liveOf [⟨.deleted, id, e.file⟩] = [] := rfl
  rw [Production.strike?, ManifestEntry.isLiveAt]
  by_cases hl : e.isLive
  · by_cases hr : removed.contains e.file.path
    · simp [liveOf_singleton, hl, hr, ManifestEntry.record, hstruck]
    · simp [liveOf_singleton, hl, hr, ManifestEntry.record, liveOf_carry_one]
  · simp [liveOf_singleton, hl, liveOf_carry_one]

private theorem liveOf_carry (id : SnapshotId) (es : List ManifestEntry) :
    liveOf (es.filterMap (·.carry? id)) = liveOf es := by
  induction es with
  | nil => rfl
  | cons e es ih =>
    rw [liveOf_filterMap_cons, liveOf_carry_one, ih, ← liveOf_append, List.singleton_append]

private theorem liveOf_strike (id : SnapshotId) (removed : PathSet) (es : List ManifestEntry) :
    liveOf (es.filterMap (Production.strike? id removed)) =
      (liveOf es).filter fun r => !removed.contains r.2.path := by
  induction es with
  | nil => rfl
  | cons e es ih =>
    rw [liveOf_filterMap_cons, liveOf_strike_one, ih, ← List.filter_append, ← liveOf_append,
      List.singleton_append]

/-- Consolidation reshapes a manifest list and keeps its live records. -/
theorem liveRecords_consolidate (config : TableConfig) (id : SnapshotId) (fresh : ManifestId)
    (ms : List Manifest) : (liveRecords (consolidate config id fresh ms)).Perm (liveRecords ms) := by
  have hperm : (liveRecords (smallManifests config ms ++ largeManifests config ms)).Perm
      (liveRecords ms) := small_append_large_perm.flatMap_right _
  cases consolidate_layout config id fresh ms with
  | untouched _ shape => rw [shape]
  | arranged _ _ shape => exact shape ▸ hperm
  | merged _ _ shape =>
    rw [shape, liveRecords_cons, mergedManifest, liveOf_carry, liveOf_flatMap, ← liveRecords_append]
    exact hperm

/-- A manifest that counts no live file has none. -/
theorem liveOf_eq_nil {m : Manifest} (h : m.counts.live = 0) : liveOf m.entries = [] := by
  simp only [ManifestCounts.live, Manifest.counts, Manifest.countOf, Nat.add_eq_zero_iff,
    List.countP_eq_zero, beq_iff_eq] at h
  simp only [liveOf, List.map_eq_nil_iff, List.filter_eq_nil_iff]
  intro e he
  have ha := h.1 e he
  have hx := h.2 e he
  cases hs : e.status <;> simp_all [ManifestEntry.isLive]

/-- Of a parent's manifests, dropped, copied or kept, exactly the records outside the removed paths
remain. -/
theorem liveRecords_inherit (id : SnapshotId) (removed : PathSet) (fresh : ManifestId)
    (ms : List Manifest) :
    liveRecords (Production.inherit id removed fresh ms) =
      (liveRecords ms).filter fun r => !removed.contains r.2.path := by
  induction ms generalizing fresh with
  | nil => rfl
  | cons m ms ih =>
    rw [Production.inherit, liveRecords_cons, List.filter_append]
    split
    · rename_i hdead
      rw [ih, liveOf_eq_nil hdead, List.filter_nil, List.nil_append]
    split
    · rw [liveRecords_cons, ih, liveOf_strike]
    · rename_i hno
      rw [liveRecords_cons, ih]
      congr 1
      refine (List.filter_eq_self.mpr ?_).symm
      intro r hr
      obtain ⟨e, he, rfl⟩ := List.mem_map.mp hr
      have hn := mt (fun h => List.any_eq_true.mpr ⟨e, (List.mem_filter.mp he).1, h⟩) hno
      simpa [ManifestEntry.isLiveAt, (List.mem_filter.mp he).2, ManifestEntry.record] using hn

/-- An added file is live under the snapshot that adds it. -/
theorem liveRecords_additions (id : SnapshotId) (fresh : ManifestId) (added : FileSet) :
    liveRecords (Production.additions id fresh added) = added.items.map fun f => (id, f) := by
  have hall : liveOf (added.items.map fun f => ⟨.added, id, f⟩) = added.items.map fun f => (id, f) := by
    rw [liveOf, List.filter_eq_self.mpr (by simp [ManifestEntry.isLive]), List.map_map]
    rfl
  unfold Production.additions
  split
  · rename_i h
    rw [List.isEmpty_iff.mp h]
    rfl
  · simpa [Keyed.toList] using hall

end SnapshotTable
