import SnapshotTable.Proofs.ProducedFiles

/-! The authors of the entries in a produced snapshot. Under an identifier that no entry of the
parent carries, what the snapshot says it added is what its change added, wherever consolidation
put the entries. -/

namespace SnapshotTable

def ownFiles (id : SnapshotId) (status : EntryStatus) (es : List ManifestEntry) : List DataFile :=
  es.filterMap fun e => if e.status = status ∧ e.snapshotId = id then some e.file else none

def ownFilesIn (id : SnapshotId) (status : EntryStatus) (ms : List Manifest) : List DataFile :=
  ms.flatMap fun m => if m.addedSnapshotId = id then ownFiles id status m.entries else []

def AuthoredBefore (id : SnapshotId) (ms : List Manifest) : Prop :=
  ∀ m ∈ ms, ∀ e ∈ m.entries, e.snapshotId < id

def OwnedApart (id : SnapshotId) (ms : List Manifest) : Prop :=
  ∀ m ∈ ms, m.addedSnapshotId = id ∨ ∀ e ∈ m.entries, e.snapshotId ≠ id

/-- What a snapshot says it authored are its own files in the manifests that it wrote. -/
theorem Snapshot.authoredFiles_eq (s : Snapshot) (status : EntryStatus) :
    s.authoredFiles status = ownFilesIn s.id status s.manifests := by
  unfold authoredFiles ownFilesIn
  induction s.manifests with
  | nil => rfl
  | cons m ms ih =>
    rw [List.flatMap_cons, ← ih, List.filter_cons]
    by_cases h : m.addedSnapshotId = s.id
    · rw [if_pos (beq_iff_eq.mpr h), if_pos h, List.flatMap_cons, List.filterMap_append]
      rfl
    · rw [if_neg (mt beq_iff_eq.mp h), if_neg h, List.nil_append]

private theorem ownFiles_append (id : SnapshotId) (status : EntryStatus)
    (es fs : List ManifestEntry) :
    ownFiles id status (es ++ fs) = ownFiles id status es ++ ownFiles id status fs :=
  List.filterMap_append

/-- Own files are searched manifest by manifest. -/
theorem ownFilesIn_append (id : SnapshotId) (status : EntryStatus) (ms ns : List Manifest) :
    ownFilesIn id status (ms ++ ns) = ownFilesIn id status ms ++ ownFilesIn id status ns :=
  List.flatMap_append

/-- Who authored no entry has no own files. -/
theorem ownFiles_eq_nil {id : SnapshotId} {es : List ManifestEntry}
    (h : ∀ e ∈ es, e.snapshotId ≠ id) (status : EntryStatus) : ownFiles id status es = [] := by
  rw [ownFiles, List.filterMap_eq_nil_iff]
  intro e he
  simp [h e he]

private theorem ownFiles_carry (id : SnapshotId) (status : EntryStatus) (es : List ManifestEntry) :
    ownFiles id status (es.filterMap (·.carry? id)) = ownFiles id status es := by
  rw [ownFiles, List.filterMap_filterMap]
  apply List.filterMap_congr
  intro e _
  by_cases h : e.snapshotId = id
  · rw [ManifestEntry.carry_of_own h, Option.bind_some]
  · rw [ManifestEntry.carry_of_foreign h]
    split <;> simp [h]

private theorem ownFilesIn_sublist (id : SnapshotId) (status : EntryStatus) (ms : List Manifest) :
    (ownFilesIn id status ms).Sublist (ownFiles id status (ms.flatMap Manifest.entries)) := by
  induction ms with
  | nil => exact .slnil
  | cons m ms ih =>
    rw [ownFilesIn, List.flatMap_cons, List.flatMap_cons, ownFiles_append]
    split
    · exact (List.Sublist.refl _).append ih
    · exact List.sublist_append_of_sublist_right ih

/-- To look only into manifests that the snapshot wrote is enough exactly where it authored nothing in
the others. -/
theorem ownFilesIn_eq_iff {id : SnapshotId} {status : EntryStatus} {ms : List Manifest} :
    ownFilesIn id status ms = ownFiles id status (ms.flatMap Manifest.entries) ↔
      ∀ m ∈ ms, m.addedSnapshotId = id ∨ ownFiles id status m.entries = [] := by
  induction ms with
  | nil => exact iff_of_true rfl nofun
  | cons m ms ih =>
    rw [List.forall_mem_cons, ← ih, ownFilesIn, List.flatMap_cons, List.flatMap_cons, ownFiles_append,
      ← ownFilesIn]
    by_cases hm : m.addedSnapshotId = id
    · rw [if_pos hm, List.append_cancel_left_eq, and_iff_right (.inl hm)]
    · rw [if_neg hm, List.nil_append, or_iff_right hm]
      constructor
      · -- What is skipped here is not made up for by the rest of the list, which finds no more than there is.
        intro h
        have hle := (ownFilesIn_sublist id status ms).length_le
        have hlength := congrArg List.length h
        rw [List.length_append] at hlength
        have hnil : ownFiles id status m.entries = [] := List.length_eq_zero_iff.mp (by omega)
        rw [hnil, List.nil_append] at h
        exact ⟨hnil, h⟩
      · rintro ⟨hnil, h⟩
        rw [hnil, List.nil_append, h]

private theorem ownFiles_flatMap {id : SnapshotId} {ms : List Manifest} (h : OwnedApart id ms)
    (status : EntryStatus) :
    ownFiles id status (ms.flatMap Manifest.entries) = ownFilesIn id status ms :=
  (ownFilesIn_eq_iff.mpr fun m hm => (h m hm).imp_right fun he => ownFiles_eq_nil he status).symm

private theorem ownFilesIn_consolidate_eq {id : SnapshotId} {ms : List Manifest} (h : OwnedApart id ms)
    (status : EntryStatus) (config : TableConfig) (fresh : ManifestId) :
    ownFilesIn id status (consolidate config id fresh ms) =
      if config.mergeEnabled then
        ownFilesIn id status (smallManifests config ms) ++ ownFilesIn id status (largeManifests config ms)
      else ownFilesIn id status ms := by
  have hsmall : OwnedApart id (smallManifests config ms) :=
    fun m hm => h m (List.mem_filter.mp hm).1
  cases consolidate_layout config id fresh ms with
  | untouched off shape => rw [shape, off, if_neg Bool.false_ne_true]
  | arranged on _ shape => rw [shape, on, if_pos rfl, ownFilesIn_append]
  | merged on _ shape =>
    rw [shape, on, if_pos rfl, ownFilesIn, List.flatMap_cons, mergedManifest, if_pos rfl,
      ownFiles_carry, ownFiles_flatMap hsmall, ← ownFilesIn]

/-- Consolidation keeps what the snapshot added and removed. -/
theorem ownFilesIn_consolidate {id : SnapshotId} {ms : List Manifest} (h : OwnedApart id ms)
    (status : EntryStatus) (config : TableConfig) (fresh : ManifestId) :
    (ownFilesIn id status (consolidate config id fresh ms)).Perm (ownFilesIn id status ms) := by
  rw [ownFilesIn_consolidate_eq h]
  split
  · rw [← ownFilesIn_append]
    exact small_append_large_perm.flatMap_right _
  · exact .refl _

namespace Production

/-- An entry that survives a removal is a removal by the snapshot itself, or keeps its author and
is an addition only if the snapshot made it. -/
theorem strike_cases {id : SnapshotId} {removed : PathSet} {e e' : ManifestEntry}
    (h : strike? id removed e = some e') :
    e' = ⟨.deleted, id, e.file⟩ ∨
      e'.snapshotId = e.snapshotId ∧ (e'.status = .added → e.snapshotId = id) := by
  unfold strike? at h
  split at h
  · cases h
    exact .inl rfl
  · refine .inr ⟨ManifestEntry.snapshotId_of_carry h, fun ha => ?_⟩
    by_contra hid
    rw [ManifestEntry.carry_of_foreign hid] at h
    split at h
    · cases h
      cases ha
    · cases h

/-- A manifest that is inherited is one of the parent's, or was written anew with what survived of
one of them. -/
theorem inherit_cases {id : SnapshotId} {removed : PathSet} {fresh : ManifestId}
    {ms : List Manifest} {m : Manifest} (h : m ∈ inherit id removed fresh ms) :
    m ∈ ms ∨ m.addedSnapshotId = id ∧
      ∃ n ∈ ms, m.entries = n.entries.filterMap (strike? id removed) := by
  induction ms generalizing fresh with
  | nil => cases h
  | cons n ms ih =>
    have later {fresh : ManifestId} (h : m ∈ inherit id removed fresh ms) :
        m ∈ n :: ms ∨ m.addedSnapshotId = id ∧
          ∃ k ∈ n :: ms, m.entries = k.entries.filterMap (strike? id removed) :=
      (ih h).imp (List.mem_cons_of_mem _) fun ⟨hm, k, hk, he⟩ =>
        ⟨hm, k, List.mem_cons_of_mem _ hk, he⟩
    rw [inherit] at h
    split at h
    · exact later h
    split at h
    · rcases List.mem_cons.mp h with rfl | h
      · exact .inr ⟨rfl, n, List.mem_cons_self, rfl⟩
      · exact later h
    · rcases List.mem_cons.mp h with rfl | h
      · exact .inl List.mem_cons_self
      · exact later h

/-- A manifest of a list after consolidation is one of the list, or was written anew with what was
carried over from manifests of the list. -/
theorem consolidate_cases {config : TableConfig} {id : SnapshotId} {fresh : ManifestId}
    {ms : List Manifest} {m : Manifest} (h : m ∈ consolidate config id fresh ms) :
    m ∈ ms ∨ m.addedSnapshotId = id ∧
      ∀ e ∈ m.entries, ∃ n ∈ ms, ∃ e' ∈ n.entries, e'.carry? id = some e := by
  cases consolidate_layout config id fresh ms with
  | untouched _ shape => exact .inl (shape ▸ h)
  | arranged _ _ shape => exact .inl (small_append_large_perm.subset (shape ▸ h))
  | merged _ _ shape =>
    rcases List.mem_cons.mp (shape ▸ h) with rfl | h
    · refine .inr ⟨rfl, fun e he => ?_⟩
      obtain ⟨e', he', hc⟩ := List.mem_filterMap.mp he
      obtain ⟨n, hn, he'⟩ := List.mem_flatMap.mp he'
      exact ⟨n, (mem_smallManifests.mp hn).1, e', he', hc⟩
    · exact .inl (mem_largeManifests.mp h).1

variable (p : Production) {parent : Option Snapshot} {id : SnapshotId} {change : Change}
  (fresh : ManifestId) (now : Instant)

private theorem draft_cases {m : Manifest} (h : m ∈ draft parent id fresh change) :
    m ∈ parent.elim [] Snapshot.manifests ∨ m.addedSnapshotId = id ∧
      ∀ e ∈ m.entries, e.snapshotId = id ∨
        ∃ n ∈ parent.elim [] Snapshot.manifests, ∃ e' ∈ n.entries, e.snapshotId = e'.snapshotId := by
  rcases List.mem_append.mp h with h | h
  · unfold additions at h
    split at h
    · cases h
    · cases List.mem_singleton.mp h
      refine .inr ⟨rfl, fun e he => .inl ?_⟩
      obtain ⟨f, -, rfl⟩ := List.mem_map.mp he
      rfl
  · refine (inherit_cases h).imp_right fun ⟨hid, n, hn, he⟩ => ⟨hid, fun e hm => ?_⟩
    obtain ⟨e', he', hs⟩ := List.mem_filterMap.mp (he ▸ hm)
    rcases strike_cases hs with rfl | ⟨ha, -⟩
    · exact .inl rfl
    · exact .inr ⟨n, hn, e', he', ha⟩

private theorem authoredBefore_draft
    (h : AuthoredBefore id (parent.elim [] Snapshot.manifests)) :
    AuthoredBefore (id + 1) (draft parent id fresh change) := by
  intro m hm e he
  rcases draft_cases fresh hm with hm | ⟨-, hall⟩
  · exact Nat.lt_succ_of_lt (h m hm e he)
  · rcases hall e he with hid | ⟨n, hn, e', he', ha⟩
    · exact hid ▸ Nat.lt_succ_self _
    · exact ha ▸ Nat.lt_succ_of_lt (h n hn e' he')

/-- Authors stay at or before the snapshot. -/
theorem authoredBefore_build (h : AuthoredBefore id (parent.elim [] Snapshot.manifests)) :
    AuthoredBefore (id + 1) (p.build parent id change fresh now).manifests := by
  have hd : AuthoredBefore (id + 1) (draft parent id fresh change) := authoredBefore_draft fresh h
  intro m hm e he
  rcases consolidate_cases hm with hm | ⟨-, hall⟩
  · exact hd m hm e he
  · obtain ⟨n, hn, e', he', hc⟩ := hall e he
    exact ManifestEntry.snapshotId_of_carry hc ▸ hd n hn e' he'

/-- In a draft, the entries of the new snapshot are in manifests that it wrote. -/
theorem ownedApart_draft (h : AuthoredBefore id (parent.elim [] Snapshot.manifests)) :
    OwnedApart id (draft parent id fresh change) := by
  intro m hm
  rcases draft_cases fresh hm with hm | ⟨hid, -⟩
  · exact .inr fun e he => Nat.ne_of_lt (h m hm e he)
  · exact .inl hid

private theorem ownFilesIn_inherit {removed : PathSet} {ms ns : List Manifest}
    (h : AuthoredBefore id ms) (hsub : ns ⊆ inherit id removed fresh ms) :
    ownFilesIn id .added ns = [] := by
  rw [ownFilesIn, List.flatMap_eq_nil_iff]
  intro m hm
  split
  · rcases inherit_cases (hsub hm) with hm | ⟨-, n, hn, he⟩
    · exact ownFiles_eq_nil (fun e he => Nat.ne_of_lt (h m hm e he)) _
    · rw [he, ownFiles, List.filterMap_eq_nil_iff]
      intro e hm
      obtain ⟨e', he', hs⟩ := List.mem_filterMap.mp hm
      rcases strike_cases hs with rfl | ⟨-, hadd⟩
      · rfl
      · exact if_neg fun hc => Nat.ne_of_lt (h n hn e' he') (hadd hc.1)
  · rfl

private theorem ownFilesIn_additions (id : SnapshotId) (added : FileSet) :
    ownFilesIn id .added (additions id fresh added) = added.items := by
  have hall : ownFiles id .added (added.items.map fun f => ⟨.added, id, f⟩) = added.items := by
    simp [ownFiles, List.filterMap_map]
  unfold additions
  split
  · rename_i hnil
    exact (List.isEmpty_iff.mp hnil).symm
  · simpa [ownFilesIn, Keyed.toList] using hall

private theorem additions_split (id : SnapshotId) (added : FileSet) (p : Manifest → Bool) :
    (additions id fresh added).filter p ++ (additions id fresh added).filter (fun m => !p m) =
      additions id fresh added := by
  unfold additions
  split
  · rfl
  · rw [List.filter_singleton, List.filter_singleton]
    cases p _ <;> rfl

/-- What a snapshot says it added is what its change added, in the order of paths. -/
theorem addedFiles_build (h : AuthoredBefore id (parent.elim [] Snapshot.manifests)) :
    (p.build parent id change fresh now).addedFiles = change.added.items := by
  rw [Snapshot.addedFiles, Snapshot.authoredFiles_eq]
  refine (ownFilesIn_consolidate_eq (ownedApart_draft fresh h) .added p.config _).trans ?_
  split
  · rw [smallManifests, largeManifests, draft, List.filter_append, List.filter_append,
      ownFilesIn_append, ownFilesIn_append, ownFilesIn_inherit _ h (List.filter_subset_self _),
      ownFilesIn_inherit _ h (List.filter_subset_self _), List.append_nil, List.append_nil,
      ← ownFilesIn_append, additions_split, ownFilesIn_additions]
  · rw [draft, ownFilesIn_append, ownFilesIn_additions,
      ownFilesIn_inherit _ h (List.Subset.refl _), List.append_nil]

end Production
end SnapshotTable
