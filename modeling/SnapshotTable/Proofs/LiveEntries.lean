import SnapshotTable.Proofs.ProducedFiles

/-! The live entries of a produced snapshot. They are one for each added file and those of the parent outside
the removed paths, as a bag of pairs of an author and a file. Nothing is asked of the parent: paths may be
live several times, under any authors, and manifests may hold nothing but what was removed long ago. -/

namespace SnapshotTable

def liveEntriesAt (s : Option Snapshot) : List ManifestEntry := s.elim [] Snapshot.liveEntries

private theorem recordsAt_eq_map (s : Option Snapshot) :
    recordsAt s = (liveEntriesAt s).map ManifestEntry.record := by
  cases s with
  | none => rfl
  | some s =>
    simp only [recordsAt, liveEntriesAt, Option.elim, liveRecords, Snapshot.liveEntries, liveOf,
      Manifest.liveEntries, List.map_flatMap]

private theorem filter_recordsAt (s : Option Snapshot) (removed : PathSet) :
    (recordsAt s).filter (fun r => !removed.contains r.2.path) =
      ((liveEntriesAt s).filter fun e => !removed.contains e.file.path).map ManifestEntry.record := by
  rw [recordsAt_eq_map, List.filter_map]
  rfl

namespace Production

/-- Rules that accept a change let it be produced, and the snapshot has one live entry of its own for each
added file and the live entries of its parent outside the removed paths, each as often as there. So none is
lost, doubled, given another author or brought back, whichever manifests are dropped, copied or merged. -/
theorem produce_liveEntries (p : Production) (parent : Option Snapshot) (id : SnapshotId)
    (change : Change) (supply : Supply)
    (h : Validator.evaluate (filesAt parent) change p.validators = .ok ()) :
    ∃ s left, p.produce parent id change supply = (.ok s, left) ∧
      (s.liveEntries.map ManifestEntry.record).Perm
        (change.added.toList.map (fun f => (id, f)) ++
          ((liveEntriesAt parent).filter fun e =>
            !change.removed.contains e.file.path).map ManifestEntry.record) := by
  have hmade : (p.produce parent id change supply).1 =
      .ok (p.build parent id change supply.freshManifest supply.clock.now) := by
    simp only [produce, h]
  refine ⟨_, _, Prod.ext hmade rfl, ?_⟩
  have hperm := p.recordsAt_build parent id change supply.freshManifest supply.clock.now
  rw [filter_recordsAt, recordsAt_eq_map] at hperm
  exact hperm

/-- A parent whose first manifest is dead, and which has one path live three times. -/
def untidyParent : Snapshot where
  id := 4
  parentId := none
  timestamp := Instant.ofNanos 0
  operation := .append
  manifests := [
    ⟨0, 2, [⟨.deleted, 2, { path := "b" }⟩]⟩,
    ⟨1, 9, [⟨.added, 9, { path := "a" }⟩, ⟨.existing, 3, { path := "b" }⟩,
      ⟨.deleted, 9, { path := "c" }⟩, ⟨.added, 1, { path := "a", recordCount := 7 }⟩]⟩,
    ⟨2, 3, [⟨.added, 3, { path := "b" }⟩]⟩,
    ⟨3, 2, [⟨.existing, 2, { path := "a" }⟩]⟩]
  summary := {}

/-- All of them go when the path is removed, and the change may add it again; the other path stays live
twice under its author, in one merged manifest. -/
theorem produce_liveEntries_untidy :
    let p : Production := ⟨{ minMergeCount := 1 }, []⟩
    let change := ((Change.start .overwrite).removeAll ["a", "d"]).add { path := "a", recordCount := 5 }
    let made := p.produce (some untidyParent) 5 change { clock := Clock.still 0, freshManifest := 4 }
    ∃ s, made.1 = .ok s ∧ s.manifests.length = 1 ∧
      (s.liveEntries.map ManifestEntry.record).Perm
        [(5, { path := "a", recordCount := 5 }), (3, { path := "b" }), (3, { path := "b" })] := by
  intro p change made
  obtain ⟨s, left, hs, hperm⟩ := produce_liveEntries p (some untidyParent) 5 change
    { clock := Clock.still 0, freshManifest := 4 } (by decide)
  have hmade : made.1 = .ok s := congrArg Prod.fst hs
  have hone : made.1.map (fun s => s.manifests.length) = .ok 1 := by decide +kernel
  rw [hmade] at hone
  refine ⟨s, hmade, Except.ok.inj hone, hperm.trans (.of_eq ?_)⟩
  decide +kernel

end Production
end SnapshotTable
