import SnapshotTable.Manifest.Consolidation

/-! The layouts of a consolidated manifest list. Consolidation leaves a list as it is, puts its small
manifests first, or merges them into one, and only the configuration and the number of small manifests
decide which. In the last two layouts no small manifest stands behind a large one. -/

namespace SnapshotTable

private theorem Manifest.counts_total (m : Manifest) : m.counts.total = m.entries.length := by
  obtain ⟨id, writer, entries⟩ := m
  simp only [counts, countOf, ManifestCounts.total]
  induction entries with
  | nil => rfl
  | cons e es ih =>
    simp only [List.countP_cons, List.length_cons, ← ih]
    cases e.status <;> simp <;> omega

/-- A manifest is small if it has fewer entries than is aimed at. -/
theorem Manifest.isSmall_iff {target : Nat} {m : Manifest} :
    m.isSmall target = true ↔ m.entries.length < target := by
  rw [isSmall, counts_total, decide_eq_true_iff]

def smallCount (config : TableConfig) (ms : List Manifest) : Nat :=
  ms.countP fun m => m.entries.length < config.targetEntries

/-- No manifest with fewer entries than the target stands behind one that reaches it. -/
def SmallFirst (config : TableConfig) (ms : List Manifest) : Prop :=
  ms.Pairwise fun m n => n.entries.length < config.targetEntries → m.entries.length < config.targetEntries

section
variable {config : TableConfig} {m : Manifest} {ms ns : List Manifest}

/-- Small manifests are those with fewer entries than is aimed at. -/
theorem mem_smallManifests :
    m ∈ smallManifests config ms ↔ m ∈ ms ∧ m.entries.length < config.targetEntries := by
  rw [smallManifests, List.mem_filter, Manifest.isSmall_iff]

/-- Large manifests are all the others. -/
theorem mem_largeManifests :
    m ∈ largeManifests config ms ↔ m ∈ ms ∧ ¬ m.entries.length < config.targetEntries := by
  rw [largeManifests, List.mem_filter, Bool.not_eq_true', Bool.eq_false_iff, Ne, Manifest.isSmall_iff]

/-- Small and large manifests together are all of them. -/
theorem small_append_large_perm : (smallManifests config ms ++ largeManifests config ms).Perm ms :=
  List.filter_append_perm _ ms

private theorem length_smallManifests : (smallManifests config ms).length = smallCount config ms := by
  rw [smallManifests, ← List.countP_eq_length_filter, smallCount]
  simp only [Manifest.isSmall, Manifest.counts_total]

/-- Where as many manifests are small as a merge takes, there are some. -/
theorem smallManifests_ne_nil (h : max config.minMergeCount 2 ≤ smallCount config ms) :
    smallManifests config ms ≠ [] := by
  apply List.ne_nil_of_length_pos
  rw [length_smallManifests]
  omega

@[simp] theorem smallCount_cons : smallCount config (m :: ms) =
    smallCount config ms + if m.entries.length < config.targetEntries then 1 else 0 := by
  simp only [smallCount, List.countP_cons, decide_eq_true_eq]

/-- How many manifests are small does not depend on their order. -/
theorem smallCount_perm (h : ms.Perm ns) : smallCount config ms = smallCount config ns :=
  h.countP_eq _

/-- None of the large manifests is small. -/
theorem smallManifests_large : smallManifests config (largeManifests config ms) = [] :=
  List.filter_eq_nil_iff.mpr fun _ hm hsmall =>
    (mem_largeManifests.mp hm).2 (Manifest.isSmall_iff.mp hsmall)

/-- Putting the small manifests first keeps their order. -/
theorem smallManifests_arranged :
    smallManifests config (smallManifests config ms ++ largeManifests config ms) =
      smallManifests config ms := by
  have hsmall : smallManifests config (smallManifests config ms) = smallManifests config ms :=
    List.filter_eq_self.mpr fun _ hm => (List.mem_filter.mp hm).2
  rw [smallManifests, List.filter_append, ← smallManifests, ← smallManifests, hsmall,
    smallManifests_large, List.append_nil]

/-- The large manifests are all large. -/
theorem largeManifests_large :
    largeManifests config (largeManifests config ms) = largeManifests config ms :=
  List.filter_eq_self.mpr fun _ hm => (List.mem_filter.mp hm).2

/-- Putting the small manifests first keeps the order of the large ones. -/
theorem largeManifests_arranged :
    largeManifests config (smallManifests config ms ++ largeManifests config ms) =
      largeManifests config ms := by
  have hnone : largeManifests config (smallManifests config ms) = [] :=
    List.filter_eq_nil_iff.mpr fun _ hm hlarge => by
      simp [(List.mem_filter.mp hm).2] at hlarge
  rw [largeManifests, List.filter_append, ← largeManifests, ← largeManifests, hnone,
    largeManifests_large, List.nil_append]

/-- Among the large manifests no small one is counted. -/
theorem smallCount_large : smallCount config (largeManifests config ms) = 0 := by
  rw [← length_smallManifests, smallManifests_large, List.length_nil]

/-- A list without small manifests has them first. -/
theorem smallFirst_large : SmallFirst config (largeManifests config ms) :=
  List.pairwise_of_forall_mem_list fun _ _ _ hn hsmall => absurd hsmall (mem_largeManifests.mp hn).2

/-- A list that was put into this order has its small manifests first. -/
theorem smallFirst_small_append_large :
    SmallFirst config (smallManifests config ms ++ largeManifests config ms) := by
  refine List.pairwise_append.mpr ⟨?_, smallFirst_large, ?_⟩
  · exact List.pairwise_of_forall_mem_list fun _ hm _ _ _ => (mem_smallManifests.mp hm).2
  · exact fun m hm n _ _ => (mem_smallManifests.mp hm).2

/-- Putting the small manifests first changes nothing where they are first already. -/
theorem small_append_large_eq_iff :
    smallManifests config ms ++ largeManifests config ms = ms ↔ SmallFirst config ms := by
  constructor
  · intro h
    exact h ▸ smallFirst_small_append_large
  · intro h
    induction ms with
    | nil => rfl
    | cons m ms ih =>
      obtain ⟨hm, hms⟩ := List.pairwise_cons.mp h
      by_cases hsmall : m.isSmall config.targetEntries = true
      · have hs : smallManifests config (m :: ms) = m :: smallManifests config ms :=
          List.filter_cons_of_pos hsmall
        have hl : largeManifests config (m :: ms) = largeManifests config ms :=
          List.filter_cons_of_neg (by simpa using hsmall)
        rw [hs, hl, List.cons_append, ih hms]
      · have hnone : smallManifests config (m :: ms) = [] := by
          refine List.filter_eq_nil_iff.mpr (List.forall_mem_cons.mpr ⟨hsmall, fun n hn hn' => ?_⟩)
          exact hsmall (Manifest.isSmall_iff.mpr (hm n hn (Manifest.isSmall_iff.mp hn')))
        have hall : largeManifests config (m :: ms) = m :: ms := by
          refine List.filter_eq_self.mpr fun n hn => ?_
          rw [Bool.not_eq_true', Bool.eq_false_iff]
          exact List.filter_eq_nil_iff.mp hnone n hn
        rw [hnone, hall, List.nil_append]

/-- Manifests are merged where this is enabled and as many are small as it takes, but two at least. -/
theorem consolidates_iff : consolidates config ms = true ↔
    config.mergeEnabled = true ∧ max config.minMergeCount 2 ≤ smallCount config ms := by
  rw [consolidates, Bool.and_eq_true, decide_eq_true_iff, length_smallManifests]

end

def mergedManifest (config : TableConfig) (id : SnapshotId) (fresh : ManifestId)
    (ms : List Manifest) : Manifest :=
  ⟨fresh, id, ((smallManifests config ms).flatMap Manifest.entries).filterMap (·.carry? id)⟩

inductive Layout (config : TableConfig) (id : SnapshotId) (fresh : ManifestId)
    (ms out : List Manifest) : Prop where
  | untouched (off : config.mergeEnabled = false) (shape : out = ms)
  | arranged (on : config.mergeEnabled = true)
      (few : smallCount config ms < max config.minMergeCount 2)
      (shape : out = smallManifests config ms ++ largeManifests config ms)
  | merged (on : config.mergeEnabled = true)
      (many : max config.minMergeCount 2 ≤ smallCount config ms)
      (shape : out = mergedManifest config id fresh ms :: largeManifests config ms)

/-- Whatever the settings, consolidation has one of the three layouts. -/
theorem consolidate_layout (config : TableConfig) (id : SnapshotId) (fresh : ManifestId)
    (ms : List Manifest) : Layout config id fresh ms (consolidate config id fresh ms) := by
  cases hmerge : config.mergeEnabled with
  | false => exact .untouched hmerge (if_pos (by rw [hmerge]; rfl))
  | true =>
    have hbody : consolidate config id fresh ms = if consolidates config ms then
        mergedManifest config id fresh ms :: largeManifests config ms
        else smallManifests config ms ++ largeManifests config ms :=
      if_neg (by simp [hmerge])
    by_cases hc : consolidates config ms = true
    · exact .merged hmerge (consolidates_iff.mp hc).2 (hbody.trans (if_pos hc))
    · refine .arranged hmerge (Nat.lt_of_not_le fun hmany => ?_) (hbody.trans (if_neg hc))
      exact hc (consolidates_iff.mpr ⟨hmerge, hmany⟩)

end SnapshotTable
