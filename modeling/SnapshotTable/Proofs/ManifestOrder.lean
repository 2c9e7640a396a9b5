import SnapshotTable.Proofs.Layouts

/-! The order of a consolidated manifest list. The small manifests that are carried over keep their
order, and so do the large ones. Between the two classes the order is lost where too few manifests are
small: nothing is written then, and still the small ones come first. -/

namespace SnapshotTable

structure CarriedOver (config : TableConfig) (ms written carried : List Manifest) : Prop where
  due : written ≠ [] ↔ config.mergeEnabled = true ∧ max config.minMergeCount 2 ≤ smallCount config ms
  small : smallManifests config carried = if written = [] then smallManifests config ms else []
  large : largeManifests config carried = largeManifests config ms
  front : config.mergeEnabled = false ∨ SmallFirst config carried
  /-- When the original order survives. -/
  order : carried.Sublist ms ↔ config.mergeEnabled = false ∨ written ≠ [] ∨ SmallFirst config ms

variable {config : TableConfig} {ms : List Manifest}

private theorem carriedOver_untouched (off : config.mergeEnabled = false) :
    CarriedOver config ms [] ms where
  due := iff_of_false (fun h => h rfl) fun h => by simp [off] at h
  small := (if_pos rfl).symm
  large := rfl
  front := .inl off
  order := iff_of_true (.refl ms) (.inl off)

private theorem carriedOver_arranged (on : config.mergeEnabled = true)
    (few : smallCount config ms < max config.minMergeCount 2) :
    CarriedOver config ms [] (smallManifests config ms ++ largeManifests config ms) where
  due := iff_of_false (fun h => h rfl) fun h => Nat.not_le_of_lt few h.2
  small := smallManifests_arranged.trans (if_pos rfl).symm
  large := largeManifests_arranged
  front := .inr smallFirst_small_append_large
  order := by
    constructor
    · intro h
      have heq := h.eq_of_length small_append_large_perm.length_eq
      exact .inr (.inr (small_append_large_eq_iff.mp heq))
    · rintro (off | hnil | hfirst)
      · simp [on] at off
      · exact absurd rfl hnil
      · simpa only [small_append_large_eq_iff.mpr hfirst] using List.Sublist.refl ms

private theorem carriedOver_merged {merged : Manifest} (on : config.mergeEnabled = true)
    (many : max config.minMergeCount 2 ≤ smallCount config ms) :
    CarriedOver config ms [merged] (largeManifests config ms) where
  due := iff_of_true (List.cons_ne_nil _ _) ⟨on, many⟩
  small := smallManifests_large.trans (if_neg (List.cons_ne_nil _ _)).symm
  large := largeManifests_large
  front := .inr smallFirst_large
  order := iff_of_true List.filter_sublist (.inr (.inl (List.cons_ne_nil _ _)))

private theorem merged_ne {merged : Manifest} (many : 2 ≤ smallCount config ms) :
    merged :: largeManifests config ms ≠ ms := by
  intro h
  have hcount := congrArg (smallCount config) h
  rw [smallCount_cons, smallCount_large] at hcount
  split at hcount <;> omega

/-- Consolidation keeps the order of the small manifests and that of the large ones. The original order
survives where merging is off, where a manifest was written, and where no small manifest stood behind a
large one; in the first and, below the threshold, in the last case the list is what it was. -/
theorem consolidate_order (config : TableConfig) (id : SnapshotId) (fresh : ManifestId)
    (ms : List Manifest) :
    (∃ written carried, consolidate config id fresh ms = written ++ carried ∧
      (written.length ≤ 1 ∧ ∀ m ∈ written, m.id = fresh ∧ m.addedSnapshotId = id) ∧
      CarriedOver config ms written carried) ∧
    (consolidate config id fresh ms = ms ↔ config.mergeEnabled = false ∨
      smallCount config ms < max config.minMergeCount 2 ∧ SmallFirst config ms) := by
  cases consolidate_layout config id fresh ms with
  | untouched off shape =>
    exact ⟨⟨[], ms, shape, ⟨Nat.zero_le _, nofun⟩, carriedOver_untouched off⟩,
      iff_of_true shape (.inl off)⟩
  | arranged on few shape =>
    refine ⟨⟨[], _, shape, ⟨Nat.zero_le _, nofun⟩, carriedOver_arranged on few⟩, ?_⟩
    rw [shape, small_append_large_eq_iff]
    simp [on, few]
  | merged on many shape =>
    have hnew : ∀ m ∈ [mergedManifest config id fresh ms], m.id = fresh ∧ m.addedSnapshotId = id :=
      List.forall_mem_singleton.mpr ⟨rfl, rfl⟩
    refine ⟨⟨[_], _, shape, ⟨Nat.le_refl _, hnew⟩, carriedOver_merged on many⟩, ?_⟩
    rw [shape]
    refine iff_of_false (merged_ne (Nat.le_trans (Nat.le_max_right _ _) many)) ?_
    rintro (off | ⟨few, -⟩)
    · simp [on] at off
    · exact absurd many (Nat.not_le_of_lt few)

/-- With one small manifest behind a large one, fewer than the threshold, the two change places. -/
theorem consolidate_reorders :
    let config : TableConfig := { targetEntries := 2 }
    let big : Manifest := ⟨0, 1, [⟨.added, 1, { path := "a" }⟩, ⟨.added, 1, { path := "b" }⟩]⟩
    let little : Manifest := ⟨1, 2, [⟨.added, 2, { path := "c" }⟩]⟩
    smallCount config [big, little] < max config.minMergeCount 2 ∧
      consolidate config 3 2 [big, little] = [little, big] ∧ little ≠ big := by
  decide

end SnapshotTable
