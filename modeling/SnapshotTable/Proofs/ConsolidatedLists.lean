import SnapshotTable.Proofs.Layouts
import SnapshotTable.Proofs.PointerHistory

/-! Consolidated lists. What consolidation leaves has fewer small manifests than it takes to merge them, and
those first, so that a second pass finds nothing to do. In a table every list comes straight from
consolidation: this holds of each new snapshot, however its change shrank the manifests of its parent, and
what is published stays as it is. -/

namespace SnapshotTable

section
variable {config : TableConfig} {id : SnapshotId} {fresh : ManifestId} {ms : List Manifest}

private theorem smallCount_consolidate (on : config.mergeEnabled = true) :
    smallCount config (consolidate config id fresh ms) < max config.minMergeCount 2 := by
  cases consolidate_layout config id fresh ms with
  | untouched off _ => simp [on] at off
  | arranged _ few shape => rwa [shape, smallCount_perm small_append_large_perm]
  | merged _ _ shape =>
    -- The merged manifest may be small itself, and then it is the only one.
    have hone : smallCount config (mergedManifest config id fresh ms :: largeManifests config ms) ≤ 1 := by
      rw [smallCount_cons, smallCount_large]
      split <;> omega
    rw [shape]
    omega

private theorem smallFirst_consolidate (on : config.mergeEnabled = true) :
    SmallFirst config (consolidate config id fresh ms) := by
  cases consolidate_layout config id fresh ms with
  | untouched off _ => simp [on] at off
  | arranged _ _ shape => exact shape ▸ smallFirst_small_append_large
  | merged _ _ shape =>
    rw [shape]
    exact List.pairwise_cons.mpr
      ⟨fun n hn hsmall => absurd hsmall (mem_largeManifests.mp hn).2, smallFirst_large⟩

private theorem consolidate_eq_self (h : config.mergeEnabled = true →
    smallCount config ms < max config.minMergeCount 2 ∧ SmallFirst config ms) :
    consolidate config id fresh ms = ms := by
  cases consolidate_layout config id fresh ms with
  | untouched _ shape => exact shape
  | arranged on _ shape => exact shape.trans (small_append_large_eq_iff.mpr (h on).2)
  | merged on many _ => exact absurd many (Nat.not_le_of_lt (h on).1)

/-- Consolidation is stable: a second pass keeps every manifest, and the order. -/
theorem consolidate_consolidate (config : TableConfig) (id other : SnapshotId)
    (fresh fresh' : ManifestId) (ms : List Manifest) :
    consolidate config other fresh' (consolidate config id fresh ms) = consolidate config id fresh ms :=
  consolidate_eq_self fun on => ⟨smallCount_consolidate on, smallFirst_consolidate on⟩

end

structure Table.Consolidated {σ : Type} (config : TableConfig) (t : Table σ) : Prop where
  settings : t.config = config
  few : config.mergeEnabled = true → ∀ s ∈ t.graph.items,
    smallCount config s.manifests < max config.minMergeCount 2

private theorem Production.Builds.consolidated {p : Production} {parent : Option Snapshot}
    {id : SnapshotId} {changes : List Change} {chain : List Snapshot}
    (h : p.Builds parent id changes chain) (on : p.config.mergeEnabled = true) :
    ∀ s ∈ chain, smallCount p.config s.manifests < max p.config.minMergeCount 2 :=
  h.forall_built (P := fun _ _ => True) trivial
    fun _ _ _ _ => ⟨smallCount_consolidate on, trivial⟩

section AnyStore
variable {σ : Type} [PointerStore σ] {t t' : Table σ} {config : TableConfig}

private theorem Reaches.consolidated (h : Reaches t t') (ht : t.Consolidated config) :
    t'.Consolidated config := by
  refine ⟨(congrArg Production.config h.production_eq).trans ht.settings, fun on => ?_⟩
  apply h.published (P := fun g => ∀ s ∈ g.items,
    smallCount config s.manifests < max config.minMergeCount 2) (ht.few on)
  intro g base parent changes supply left chain hg _ hreplay
  have hbuilds := Production.builds_of_replay hreplay
  have hconfig : t.production.config = config := ht.settings
  rw [Graph.items_extend hbuilds]
  refine List.forall_mem_append.mpr ⟨hg, ?_⟩
  rw [← hconfig]
  exact hbuilds.consolidated (hconfig ▸ on)

/-- Whatever clients do to a new table, with any rules and any store that its pointer is put into, the manifest
lists of its snapshots stay consolidated; and of any list at all, what consolidation makes is what it makes
of it again. -/
theorem manifests_stay_consolidated {uuid : Uuid} {clock : Clock}
    {created : Table MemoryPointer} (h : Table.create uuid config clock = .ok created)
    (validators : List Validator) {store : σ} {start : Table σ}
    (hstart : (created.withValidators validators).withPointerStore store = .ok start)
    (hr : Reaches start t) :
    (config.mergeEnabled = true → ∀ s ∈ t.graph.items,
      smallCount config s.manifests < max config.minMergeCount 2) ∧
    ∀ (config : TableConfig) (id : SnapshotId) (fresh fresh' : ManifestId) (ms : List Manifest),
      consolidate config id fresh' (consolidate config id fresh ms) = consolidate config id fresh ms := by
  refine ⟨?_, fun config id => consolidate_consolidate config id id⟩
  have hconsolidated : start.Consolidated config := by
    obtain rfl := Table.eq_of_create h
    obtain ⟨left, -, rfl⟩ := Table.eq_of_withPointerStore hstart
    exact ⟨rfl, fun _ => List.forall_mem_nil _⟩
  exact (hr.consolidated hconsolidated).few

end AnyStore

/-- A table that merges two manifests with fewer than two entries each, and a run on it: two files in one
manifest, two more one by one, a removal, and a rollback to the second snapshot with a commit that exchanges
its file. -/
def Table.compacted : Table MemoryPointer :=
  let append : Change := Change.start .append
  (fresh 0#128 { minMergeCount := 1, targetEntries := 2 } (Clock.still 0)).after [
    .publish none [append.addAll [{ path := "a" }, { path := "b" }]],
    .publish (some 1) [append.add { path := "c" }],
    .publish (some 2) [append.add { path := "d" }],
    .publish (some 3) [(Change.start .delete).remove "b"],
    .move (some 4) 2,
    .publish (some 2) [((Change.start .overwrite).remove "c").add { path := "e" }]]

/-- Two of its commits merge; in the second snapshot one small manifest stands before a large one. -/
theorem manifests_stay_consolidated_compacted :
    let t := Table.compacted
    (∀ s ∈ t.graph.items, smallCount { minMergeCount := 1, targetEntries := 2 } s.manifests < 2) ∧
      t.graph.items.map (fun s => s.manifests.map fun m => (m.addedSnapshotId, m.entries.length)) =
        [[(1, 2)], [(2, 1), (1, 2)], [(3, 2), (1, 2)], [(3, 2), (4, 2)], [(5, 2), (1, 2)]] := by
  intro t
  let start : Table MemoryPointer :=
    .fresh 0#128 { minMergeCount := 1, targetEntries := 2 } (Clock.still 0)
  have hcreate : Table.create 0#128 { minMergeCount := 1, targetEntries := 2 } (Clock.still 0) =
      .ok start := rfl
  have hstart : (start.withValidators Validator.standard).withPointerStore ({} : MemoryPointer) =
      .ok start := rfl
  have hreached : Reaches start t := Reaches.here.after _
  exact ⟨(manifests_stay_consolidated hcreate Validator.standard hstart hreached).1 rfl,
    by decide +kernel⟩

end SnapshotTable
