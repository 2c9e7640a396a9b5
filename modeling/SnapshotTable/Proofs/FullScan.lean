import SnapshotTable.Proofs.Lines
import SnapshotTable.Table.Scan

/-! What a full scan of a published snapshot answers. The manifests are shared, rewritten and merged
on the way, and still they hold exactly what replaying the changes of the line by hand gives, with
no path live twice. -/

namespace SnapshotTable

def replayed (changes : List Change) : FileSet :=
  changes.foldl (fun files change => change.apply files) Keyed.empty

variable {t : Table MemoryPointer} {ledger : List Publication}

/-- The scan of the current snapshot, or of an empty table. -/
theorem planFiles_current (hsound : t.poisoned = false) {s : Option Snapshot}
    (hs : t.graph.resolve t.pointer.value = .ok s) :
    (t.planFiles none).1 = .ok (filesAt s) := by
  simp only [Table.planFiles, Table.scannedSnapshot, Table.current, Table.state_sound hsound,
    Table.currentId_memory, hs]

/-- A full scan of a published snapshot answers the files that are live in it. -/
theorem planFiles_snapshot (hsound : t.poisoned = false) {s : Snapshot} (hs : s ∈ t.graph.items) :
    (t.planFiles (some s.id)).1 = .ok (filesAt (some s)) := by
  have hfind : t.snapshot s.id = .ok s := by
    rw [Table.snapshot, Table.state_sound hsound]
    exact Graph.find_of_mem hs
  simp only [Table.planFiles, Table.scannedSnapshot, hfind, Except.map]

private theorem filesAt_replayed (h : Reachable t ledger) {id : Option SnapshotId}
    {line : List Publication} (hl : Line ledger id line) :
    filesAt (headOf line) = replayed (line.reverse.map Publication.change) := by
  rw [h.kept.line_files hl, replayed, List.foldl_map, List.foldl_reverse]

/-- The full scan of a publication answers the files of its snapshot. -/
theorem planFiles_published (h : Reachable t ledger) {e : Publication} (he : e ∈ ledger) :
    (t.planFiles (some e.snapshot.id)).1 = .ok (filesAt (some e.snapshot)) :=
  planFiles_snapshot h.unbroken (h.kept.mem_graph he)

/-- A full scan of any snapshot that was ever published on a reachable table answers the files that
replaying the changes of its line gives, and its live files are these, each once. -/
theorem planFiles_replayed (h : Reachable t ledger) {s : Snapshot} (hs : s ∈ t.graph.items) :
    ∃ line, Line ledger (some s.id) line ∧
      (t.planFiles (some s.id)).1 = .ok (replayed (line.reverse.map Publication.change)) ∧
      s.files = replayed (line.reverse.map Publication.change) ∧
      (s.liveFiles.map DataFile.path).Nodup ∧
      s.liveFiles.Perm (replayed (line.reverse.map Publication.change)).toList := by
  have hk := h.kept
  obtain ⟨e, he, rfl⟩ := hk.exists_publication hs
  obtain ⟨older, hline, -⟩ := hk.exists_line he
  have hfiles : e.snapshot.files = replayed ((e :: older).reverse.map Publication.change) :=
    filesAt_replayed h hline
  have honce : (e.snapshot.liveFiles.map DataFile.path).Nodup := by
    rw [Snapshot.liveFiles_eq, List.map_map]
    exact (hk.line_orderly hline).once
  refine ⟨e :: older, hline, ?_, hfiles, honce, ?_⟩
  · rw [← hfiles]
    exact planFiles_published h he
  · rw [← hfiles]
    exact (Keyed.perm_ofList honce).symm

/-- A full scan of a branch that was left sees that branch alone. -/
theorem planFiles_forked :
    (Table.forked.2.planFiles (some 2)).1 = .ok (Keyed.ofList [{ path := "a" }, { path := "b" }]) := by
  have hmem : Table.forked.1[1].snapshot ∈ Table.forked.2.graph.items := by decide
  have hline : Line Table.forked.1 (some 2) [Table.forked.1[1], Table.forked.1[0]] :=
    .step (e := Table.forked.1[1]) (by simp) (.step (e := Table.forked.1[0]) (by simp) .root)
  obtain ⟨line, hl, hplan, -⟩ := planFiles_replayed reachable_forked hmem
  rw [reachable_forked.kept.line_unique hline hl] at hplan
  exact hplan

end SnapshotTable
