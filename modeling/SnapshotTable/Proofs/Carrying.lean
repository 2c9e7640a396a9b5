import SnapshotTable.Manifest.Consolidation

/-! Carrying an entry into a manifest that is written anew. A snapshot copies its own entries; of those by
others it keeps what is live, as files that existed. -/

namespace SnapshotTable.ManifestEntry
variable {id : SnapshotId} {e e' : ManifestEntry}

/-- Entries of its own are carried over unchanged. -/
theorem carry_of_own (h : e.snapshotId = id) : e.carry? id = some e := by
  obtain ⟨status, author, file⟩ := e
  cases status with
  | existing => rfl
  | added => exact if_pos h
  | deleted => exact if_pos h

/-- Of others a snapshot carries over the live ones, as existing. -/
theorem carry_of_foreign (h : e.snapshotId ≠ id) :
    e.carry? id = if e.isLive then some { e with status := .existing } else none := by
  obtain ⟨status, author, file⟩ := e
  cases status with
  | existing => rfl
  | added => exact if_neg h
  | deleted => exact if_neg h

/-- A carried entry keeps its author. -/
theorem snapshotId_of_carry (h : e.carry? id = some e') : e'.snapshotId = e.snapshotId := by
  by_cases hown : e.snapshotId = id
  · rw [carry_of_own hown] at h
    cases h
    rfl
  · rw [carry_of_foreign hown] at h
    split at h
    · cases h
      rfl
    · cases h

end SnapshotTable.ManifestEntry
