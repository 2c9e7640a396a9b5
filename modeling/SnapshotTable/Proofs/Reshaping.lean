import SnapshotTable.Proofs.Layouts
import SnapshotTable.Proofs.LiveRecords

/-! What consolidation does to the entries of a manifest list. It takes some manifests out and writes at
most one for them. Of their entries it forgets the removals by other snapshots, turns the additions by
other snapshots into files that existed, and copies the rest; the manifests that it did not take stay
what they are. -/

namespace SnapshotTable

namespace ManifestEntry

def isForeignRemoval (id : SnapshotId) (e : ManifestEntry) : Bool :=
  e.status == .deleted && e.snapshotId != id

def isOwnMark (id : SnapshotId) (e : ManifestEntry) : Bool :=
  e.status != .existing && e.snapshotId == id

def settled (id : SnapshotId) (e : ManifestEntry) : ManifestEntry :=
  if e.status = .added ∧ e.snapshotId ≠ id then { e with status := .existing } else e

variable (id : SnapshotId) (e : ManifestEntry)

private theorem carry_eq_settled :
    e.carry? id = if e.isForeignRemoval id then none else some (e.settled id) := by
  by_cases h : e.snapshotId = id
  · simp [carry_of_own h, isForeignRemoval, settled, h]
  · rw [carry_of_foreign h]
    obtain ⟨status, author, file⟩ := e
    cases status <;> simp_all [isLive, isForeignRemoval, settled]

end ManifestEntry

private theorem filterMap_carry (id : SnapshotId) (es : List ManifestEntry) :
    es.filterMap (·.carry? id) =
      (es.filter fun e => !e.isForeignRemoval id).map (ManifestEntry.settled id) := by
  induction es with
  | nil => rfl
  | cons e es ih =>
    rw [List.filterMap_cons, List.filter_cons, ManifestEntry.carry_eq_settled, ih]
    cases e.isForeignRemoval id <;> rfl

private theorem filter_ownMark_carry (id : SnapshotId) (es : List ManifestEntry) :
    (es.filterMap (·.carry? id)).filter (·.isOwnMark id) = es.filter (·.isOwnMark id) := by
  induction es with
  | nil => rfl
  | cons e es ih =>
    by_cases h : e.snapshotId = id
    · rw [List.filterMap_cons_some (ManifestEntry.carry_of_own h), List.filter_cons, List.filter_cons, ih]
    · have hforeign {e' : ManifestEntry} (h' : e'.snapshotId = e.snapshotId) : ¬ e'.isOwnMark id = true := by
        simp [ManifestEntry.isOwnMark, h', h]
      rw [List.filter_cons_of_neg (hforeign rfl), ← ih]
      cases he : e.carry? id with
      | none => rw [List.filterMap_cons_none he]
      | some e' =>
        rw [List.filterMap_cons_some he,
          List.filter_cons_of_neg (hforeign (ManifestEntry.snapshotId_of_carry he))]

def ownMarks (id : SnapshotId) (ms : List Manifest) : List ManifestEntry :=
  (ms.flatMap Manifest.entries).filter (·.isOwnMark id)

/-- A manifest list taken apart by consolidation: the manifests that are gone, the manifests that are
written for them, and those that are kept. -/
structure Reshaped (config : TableConfig) (id : SnapshotId) (fresh : ManifestId)
    (ms gone written kept : List Manifest) : Prop where
  /-- Every manifest is gone or kept, as often as it was there. -/
  parts : (gone ++ kept).Perm ms
  due : gone ≠ [] ↔ config.mergeEnabled = true ∧ max config.minMergeCount 2 ≤ smallCount config ms
  small : ∀ m ∈ gone, m.entries.length < config.targetEntries
  large : gone ≠ [] → ∀ m ∈ kept, config.targetEntries ≤ m.entries.length
  one : written.length = if gone = [] then 0 else 1
  new : ∀ m ∈ written, m.id = fresh ∧ m.addedSnapshotId = id
  /-- Nothing but removals by other snapshots gets lost, nothing is invented, and the only entries that
  change are additions by other snapshots. -/
  entries : written.flatMap Manifest.entries =
    ((gone.flatMap Manifest.entries).filter fun e => !e.isForeignRemoval id).map
      (ManifestEntry.settled id)

private theorem reshaped_nothing {config : TableConfig} {id : SnapshotId} {fresh : ManifestId}
    {ms kept : List Manifest} (hparts : kept.Perm ms)
    (hoff : ¬ (config.mergeEnabled = true ∧ max config.minMergeCount 2 ≤ smallCount config ms)) :
    Reshaped config id fresh ms [] [] kept where
  parts := hparts
  due := iff_of_false (fun h => h rfl) hoff
  small := nofun
  large := fun h => absurd rfl h
  one := rfl
  new := nofun
  entries := rfl

private theorem exists_reshaped (config : TableConfig) (id : SnapshotId) (fresh : ManifestId)
    (ms : List Manifest) : ∃ gone written kept,
      consolidate config id fresh ms = written ++ kept ∧
      Reshaped config id fresh ms gone written kept := by
  cases consolidate_layout config id fresh ms with
  | untouched off shape =>
    exact ⟨[], [], ms, shape, reshaped_nothing (.refl _) fun h => by simp [off] at h⟩
  | arranged on few shape =>
    exact ⟨[], [], _, shape,
      reshaped_nothing small_append_large_perm fun h => absurd h.2 (Nat.not_le_of_lt few)⟩
  | merged on many shape =>
    have hsome := smallManifests_ne_nil many
    refine ⟨smallManifests config ms, [mergedManifest config id fresh ms], largeManifests config ms,
      shape, ?_⟩
    exact {
      parts := small_append_large_perm
      due := iff_of_true hsome ⟨on, many⟩
      small := fun m hm => (mem_smallManifests.mp hm).2
      large := fun _ m hm => Nat.le_of_not_lt (mem_largeManifests.mp hm).2
      one := (if_neg hsome).symm
      new := fun m hm => by rw [List.mem_singleton.mp hm]; exact ⟨rfl, rfl⟩
      entries := (List.flatMap_singleton _ _).trans (filterMap_carry id _) }

private theorem ownMarks_append (id : SnapshotId) (ms ns : List Manifest) :
    ownMarks id (ms ++ ns) = ownMarks id ms ++ ownMarks id ns := by
  rw [ownMarks, List.flatMap_append, List.filter_append, ← ownMarks, ← ownMarks]

private theorem Reshaped.ownMarks_eq {config : TableConfig} {id : SnapshotId} {fresh : ManifestId}
    {ms gone written kept : List Manifest} (h : Reshaped config id fresh ms gone written kept) :
    ownMarks id written = ownMarks id gone := by
  rw [ownMarks, h.entries, ← filterMap_carry, filter_ownMark_carry, ← ownMarks]

/-- Consolidation reshapes a manifest list. It keeps the live records with their authors, and every
addition and removal that the snapshot made itself. -/
theorem consolidate_reshapes (config : TableConfig) (id : SnapshotId) (fresh : ManifestId)
    (ms : List Manifest) :
    (∃ gone written kept, consolidate config id fresh ms = written ++ kept ∧
      Reshaped config id fresh ms gone written kept) ∧
    (liveRecords (consolidate config id fresh ms)).Perm (liveRecords ms) ∧
    (ownMarks id (consolidate config id fresh ms)).Perm (ownMarks id ms) := by
  obtain ⟨gone, written, kept, hshape, h⟩ := exists_reshaped config id fresh ms
  refine ⟨⟨gone, written, kept, hshape, h⟩, liveRecords_consolidate config id fresh ms, ?_⟩
  rw [hshape, ownMarks_append, h.ownMarks_eq, ← ownMarks_append]
  exact (h.parts.flatMap_right _).filter _

end SnapshotTable
