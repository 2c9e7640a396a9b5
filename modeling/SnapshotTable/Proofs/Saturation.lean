import SnapshotTable.Proofs.Audits

/-! Totals at the limit. A total that was held at the greatest one has lost what is above it, and what is removed
is taken from the held one. So where the live files and the added ones exceed the limit, the recorded total is
not what counting the live files again gives, but lacks what was removed. -/

namespace SnapshotTable

/-- How far a recorded total tells the sum over the live files of a snapshot. -/
structure Held (measure : DataFile → Nat) (recorded : Nat) (parent : Option Snapshot) (s : Snapshot) :
    Prop where
  /-- Beyond the limit, what was removed is taken from the greatest total. -/
  beyond : maxTotal < sumOf measure (liveFilesAt parent) + sumOf measure s.addedFiles →
    recorded = maxTotal - sumOf measure s.deletedFiles
  /-- It is never more than counting gives. -/
  bounded : recorded ≤ clampedTotal (s.files.toList.map measure)
  /-- It is what counting gives exactly within the limit, or if nothing was taken away or nothing is left. -/
  truthful : recorded = clampedTotal (s.files.toList.map measure) ↔
    sumOf measure (liveFilesAt parent) + sumOf measure s.addedFiles ≤ maxTotal ∨
      sumOf measure s.deletedFiles = 0 ∨ sumOf measure s.liveFiles = 0

private theorem held_derived {measure : DataFile → Nat} {recorded : Nat} {parent : Option Snapshot}
    {s : Snapshot}
    (hbalance : (liveFilesAt parent ++ s.addedFiles).Perm (s.liveFiles ++ s.deletedFiles))
    (hrecorded : recorded =
      derivedTotal measure (liveFilesAt parent) s.addedFiles s.deletedFiles)
    (honce : LiveOnce (some s)) : Held measure recorded parent s := by
  have hcounted : clampedTotal (s.files.toList.map measure) = clampedTotal (s.liveFiles.map measure) := by
    rw [clampedTotal_map, clampedTotal_map]
    exact congrArg (min · maxTotal) (sumOf_perm (perm_liveFilesAt honce))
  refine ⟨fun hbeyond => ?_, ?_, ?_⟩
  · rw [hrecorded, derivedTotal_eq hbalance, Nat.min_eq_right (Nat.le_of_lt hbeyond)]
  · rw [hrecorded, hcounted]
    exact derivedTotal_le hbalance
  · rw [hrecorded, hcounted]
    exact derivedTotal_eq_clampedTotal_iff hbalance

variable {t : Table MemoryPointer} {ledger : List Publication}

/-- The totals of every snapshot ever published on a reachable table are those of its live files within the
limit, and beyond it only if what the snapshot removed adds up to nothing, or what it leaves. -/
theorem totals_held (h : Reachable t ledger) {s : Snapshot} (hs : s ∈ t.graph.items) :
    ∃ parent, t.graph.resolve s.parentId = .ok parent ∧
      Held DataFile.recordCount s.summary.totalRecords parent s ∧
      Held DataFile.sizeBytes s.summary.totalSizeBytes parent s := by
  obtain ⟨e, he, rfl⟩ := h.kept.exists_publication hs
  obtain ⟨older, -, holder⟩ := h.kept.exists_line he
  have haudit := h.kept.audit_line he holder
  obtain ⟨hbalance, hrecords, hbytes⟩ := haudit.derived
  have hlive : LiveOnce (some e.snapshot) := haudit.orderly.once
  exact ⟨headOf older, h.kept.resolve_line holder, held_derived hbalance hrecords hlive,
    held_derived hbalance hbytes hlive⟩

def Table.overfull : List Publication × Table MemoryPointer := blank.serveAll [
  .commit ⟨.ok none, (Change.start .append).addAll
    [{ path := "a", sizeBytes := maxTotal, recordCount := maxTotal },
      { path := "b", sizeBytes := 7, recordCount := 5 }]⟩,
  .commit ⟨.ok (some 1), (Change.start .delete).remove "b"⟩]

private theorem reachable_overfull :
    Reachable Table.overfull.2 Table.overfull.1 := reachable_blank.serveAll _

/-- The removed file is missing from both totals. -/
theorem totals_held_overfull :
    let first := Table.overfull.1[0].snapshot
    let second := Table.overfull.1[1].snapshot
    Held DataFile.recordCount second.summary.totalRecords (some first) second ∧
      Held DataFile.sizeBytes second.summary.totalSizeBytes (some first) second ∧
      second.summary.totalRecords = maxTotal - 5 ∧ second.summary.totalSizeBytes = maxTotal - 7 := by
  intro first second
  have hmem : second ∈ Table.overfull.2.graph.items := by decide +kernel
  obtain ⟨parent, hparent, hrecords, hbytes⟩ := totals_held reachable_overfull hmem
  have hfirst : Table.overfull.2.graph.resolve second.parentId = .ok (some first) := by decide +kernel
  obtain rfl := Except.ok.inj (hparent.symm.trans hfirst)
  exact ⟨hrecords, hbytes, hrecords.beyond (by decide +kernel), hbytes.beyond (by decide +kernel)⟩

/-- So beyond the limit totals need not be those of the live files: what is left is as large as the greatest
total, which counting finds and the figures do not say. -/
theorem totals_fall_short :
    let first := Table.overfull.1[0].snapshot
    let second := Table.overfull.1[1].snapshot
    Reachable Table.overfull.2 Table.overfull.1 ∧ second ∈ Table.overfull.2.graph.items ∧
      Table.overfull.2.graph.resolve second.parentId = .ok (some first) ∧
      maxTotal < sumOf DataFile.recordCount (liveFilesAt (some first)) ∧
      maxTotal < sumOf DataFile.sizeBytes (liveFilesAt (some first)) ∧
      totalRecords second.files.toList = maxTotal ∧ second.summary.totalRecords ≠ maxTotal ∧
      totalSizeBytes second.files.toList = maxTotal ∧ second.summary.totalSizeBytes ≠ maxTotal := by
  intro first second
  refine ⟨reachable_overfull, ?_, ?_, ?_, ?_, ?_, ?_, ?_, ?_⟩
  all_goals decide +kernel

end SnapshotTable
