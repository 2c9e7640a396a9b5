import SnapshotTable.Proofs.Atomicity
import SnapshotTable.Proofs.Renaming

/-! Manifests that a new snapshot shares with its parent. A manifest that loses nothing is not written again:
it is in the new list under its identity, unless consolidation takes it in, and whatever else is in the list
was written by the new snapshot. Production goes in three steps, and each of them is described here by what
it does to the manifests that were there before. -/

namespace SnapshotTable

def manifestsAt (s : Option Snapshot) : List Manifest := s.elim [] Snapshot.manifests

def Unwritten (id : SnapshotId) (ms : List Manifest) : Prop :=
  ∀ m ∈ ms, m.addedSnapshotId ≠ id ∧ ∀ e ∈ m.entries, e.snapshotId ≠ id

instance (id : SnapshotId) (ms : List Manifest) : Decidable (Unwritten id ms) :=
  inferInstanceAs (Decidable (∀ m ∈ ms, m.addedSnapshotId ≠ id ∧ ∀ e ∈ m.entries, e.snapshotId ≠ id))

structure Identified (fresh : ManifestId) (ms : List Manifest) : Prop where
  drawn : ∀ m ∈ ms, m.id < fresh
  apart : ∀ m ∈ ms, ∀ n ∈ ms, m.id = n.id → m = n

def Manifest.tellsAdditions (id : SnapshotId) (m : Manifest) : Bool :=
  m.entries.any fun e => e.status == .added && e.snapshotId == id

private theorem Manifest.tellsAdditions_iff {id : SnapshotId} {m : Manifest} :
    m.tellsAdditions id = true ↔ ∃ e ∈ m.entries, e.status = .added ∧ e.snapshotId = id := by
  simp [tellsAdditions]

namespace Production
variable {id : SnapshotId} {removed : PathSet} {fresh : ManifestId} {m : Manifest} {ms : List Manifest}

private theorem mem_inherit_drawn (h : m.id < fresh) : m ∈ inherit id removed fresh ms ↔
    m ∈ ms ∧ m.counts.live ≠ 0 ∧ m.hasLiveAt removed.contains = false := by
  induction ms generalizing fresh with
  | nil => simp [inherit]
  | cons n rest ih =>
    rw [inherit]
    split
    · rename_i hdead
      rw [ih h, List.mem_cons]
      constructor
      · exact And.imp_left .inr
      · rintro ⟨rfl | hm, hkeep⟩
        · exact absurd hdead hkeep.1
        · exact ⟨hm, hkeep⟩
    split
    · rename_i hloses
      rw [List.mem_cons, ih (Nat.lt_succ_of_lt h), List.mem_cons]
      constructor
      · rintro (rfl | ⟨hm, hkeep⟩)
        · exact absurd h (Nat.lt_irrefl fresh)
        · exact ⟨.inr hm, hkeep⟩
      · rintro ⟨rfl | hm, hkeep⟩
        · exact absurd (hloses.symm.trans hkeep.2) (by simp)
        · exact .inr ⟨hm, hkeep⟩
    · rename_i hlive hwhole
      rw [List.mem_cons, ih h, List.mem_cons]
      constructor
      · rintro (rfl | ⟨hm, hkeep⟩)
        · exact ⟨.inl rfl, hlive, Bool.eq_false_iff.mpr hwhole⟩
        · exact ⟨.inr hm, hkeep⟩
      · rintro ⟨rfl | hm, hkeep⟩
        · exact .inl rfl
        · exact .inr ⟨hm, hkeep⟩

private theorem inherit_origin (h : m ∈ inherit id removed fresh ms) :
    m ∈ ms ∨ fresh ≤ m.id ∧ m.addedSnapshotId = id := by
  induction ms generalizing fresh with
  | nil => cases h
  | cons n rest ih =>
    have later {k : ManifestId} (hk : fresh ≤ k) (h : m ∈ inherit id removed k rest) :
        m ∈ n :: rest ∨ fresh ≤ m.id ∧ m.addedSnapshotId = id :=
      (ih h).imp (List.mem_cons_of_mem n) fun ⟨hm, hid⟩ => ⟨Nat.le_trans hk hm, hid⟩
    rw [inherit] at h
    split at h
    · exact later (Nat.le_refl _) h
    split at h
    · rcases List.mem_cons.mp h with rfl | h
      · exact .inr ⟨Nat.le_refl _, rfl⟩
      · exact later (Nat.le_succ _) h
    · rcases List.mem_cons.mp h with rfl | h
      · exact .inl List.mem_cons_self
      · exact later (Nat.le_refl _) h

private theorem tellsAdditions_inherit (hnew : Unwritten id ms) (h : m ∈ inherit id removed fresh ms) :
    m.tellsAdditions id = false := by
  rw [Bool.eq_false_iff, Ne, Manifest.tellsAdditions_iff]
  rintro ⟨e, he, hadded, hown⟩
  rcases inherit_cases h with hm | ⟨-, n, hn, hentries⟩
  · exact (hnew m hm).2 e he hown
  · obtain ⟨e', he', hstruck⟩ := List.mem_filterMap.mp (hentries ▸ he)
    rcases strike_cases hstruck with rfl | ⟨-, hmine⟩
    · cases hadded
    · exact (hnew n hn).2 e' he' (hmine hadded)

section Draft
variable {parent : Option Snapshot} {change : Change}

private theorem hasLiveAt_liveRemovals (h : m ∈ manifestsAt parent) :
    m.hasLiveAt (liveRemovals (filesAt parent) change).contains =
      m.hasLiveAt change.removed.contains := by
  have hsame : ∀ e ∈ m.entries, e.isLiveAt (liveRemovals (filesAt parent) change).contains =
      e.isLiveAt change.removed.contains := by
    intro e he
    rw [ManifestEntry.isLiveAt, ManifestEntry.isLiveAt]
    by_cases hlive : e.isLive = true
    · have hrecord : e.record ∈ recordsAt parent := by
        cases parent with
        | none => cases h
        | some q =>
          refine List.mem_flatMap.mpr ⟨m, h, List.mem_map_of_mem (List.mem_filter.mpr ⟨he, hlive⟩)⟩
      have hpath : (liveRemovals (filesAt parent) change).contains e.file.path =
          change.removed.contains e.file.path := contains_liveRemovals hrecord
      rw [hpath]
    · rw [Bool.eq_false_iff.mpr hlive, Bool.false_and, Bool.false_and]
  rw [Bool.eq_iff_iff, Manifest.hasLiveAt, Manifest.hasLiveAt, List.any_eq_true, List.any_eq_true]
  exact exists_congr fun e => and_congr_right fun he => by rw [hsame e he]

private theorem mem_draft_drawn (h : m.id < fresh) : m ∈ draft parent id fresh change ↔
    m ∈ manifestsAt parent ∧ m.counts.live ≠ 0 ∧ m.hasLiveAt change.removed.contains = false := by
  have hadded : m ∉ additions id fresh change.added := by
    rw [additions]
    split
    · exact List.not_mem_nil
    · rw [List.mem_singleton]
      rintro rfl
      exact Nat.lt_irrefl _ h
  rw [draft, List.mem_append, or_iff_right hadded, mem_inherit_drawn (Nat.lt_succ_of_lt h)]
  refine and_congr_right fun hm => ?_
  rw [hasLiveAt_liveRemovals hm]

private theorem draft_origin (h : m ∈ draft parent id fresh change) :
    m ∈ manifestsAt parent ∨ fresh ≤ m.id ∧ m.addedSnapshotId = id := by
  rcases List.mem_append.mp h with h | h
  · rw [additions] at h
    split at h
    · cases h
    · cases List.mem_singleton.mp h
      exact .inr ⟨Nat.le_refl _, rfl⟩
  · exact (inherit_origin h).imp_right (And.imp_left Nat.le_of_succ_le)

private theorem countP_draft (hnew : Unwritten id (manifestsAt parent)) :
    (draft parent id fresh change).countP (Manifest.tellsAdditions id) =
      if change.added.isEmpty then 0 else 1 := by
  have hrest : (inherit id (liveRemovals (filesAt parent) change) (fresh + 1)
      (manifestsAt parent)).countP (Manifest.tellsAdditions id) = 0 :=
    List.countP_eq_zero.mpr fun m hm => by simp [tellsAdditions_inherit hnew hm]
  have hadded : (additions id fresh change.added).countP (Manifest.tellsAdditions id) =
      if change.added.isEmpty then 0 else 1 := by
    rw [additions]
    split
    · rfl
    · rename_i hsome
      obtain ⟨f, hf⟩ := List.exists_mem_of_ne_nil _ (mt List.isEmpty_iff.mpr hsome)
      rw [List.countP_singleton, if_pos]
      exact Manifest.tellsAdditions_iff.mpr ⟨_, List.mem_map_of_mem hf, rfl, rfl⟩
  rw [draft, List.countP_append, hadded]
  exact Nat.add_eq_left.mpr hrest

end Draft
end Production

section Consolidation
variable {config : TableConfig} {id : SnapshotId} {fresh : ManifestId} {m : Manifest} {ms : List Manifest}

private theorem mem_consolidate_drawn (h : m.id < fresh) : m ∈ consolidate config id fresh ms ↔
    m ∈ ms ∧ ¬ (m.isSmall config.targetEntries = true ∧ consolidates config ms = true) := by
  cases consolidate_layout config id fresh ms with
  | untouched off shape =>
    have hno : ¬ consolidates config ms = true := fun hc => absurd off (by simp [(consolidates_iff.mp hc).1])
    rw [shape]
    exact (and_iff_left fun hc => hno hc.2).symm
  | arranged on few shape =>
    have hno : ¬ consolidates config ms = true :=
      fun hc => Nat.not_le_of_lt few (consolidates_iff.mp hc).2
    rw [shape, small_append_large_perm.mem_iff]
    exact (and_iff_left fun hc => hno hc.2).symm
  | merged on many shape =>
    have hyes : consolidates config ms = true := consolidates_iff.mpr ⟨on, many⟩
    have hother : m ≠ mergedManifest config id fresh ms := by
      rintro rfl
      exact Nat.lt_irrefl fresh h
    rw [shape, List.mem_cons, or_iff_right hother, mem_largeManifests, ← Manifest.isSmall_iff]
    exact and_congr_right fun _ => not_congr (and_iff_left hyes).symm

private theorem consolidate_origin (h : m ∈ consolidate config id fresh ms) :
    m ∈ ms ∨ m.id = fresh ∧ m.addedSnapshotId = id := by
  cases consolidate_layout config id fresh ms with
  | untouched _ shape => exact .inl (shape ▸ h)
  | arranged _ _ shape => exact .inl (small_append_large_perm.subset (shape ▸ h))
  | merged _ _ shape =>
    rcases List.mem_cons.mp (shape ▸ h) with rfl | h
    · exact .inr ⟨rfl, rfl⟩
    · exact .inl (mem_largeManifests.mp h).1

private theorem tellsAdditions_merged : (mergedManifest config id fresh ms).tellsAdditions id =
    (smallManifests config ms).any (Manifest.tellsAdditions id) := by
  rw [Bool.eq_iff_iff, Manifest.tellsAdditions_iff, List.any_eq_true]
  constructor
  · rintro ⟨e, he, hadded, hown⟩
    obtain ⟨e', he', hcarried⟩ := List.mem_filterMap.mp he
    obtain ⟨n, hn, hmem⟩ := List.mem_flatMap.mp he'
    have hmine : e'.snapshotId = id := (ManifestEntry.snapshotId_of_carry hcarried).symm.trans hown
    obtain rfl : e' = e := Option.some.inj ((ManifestEntry.carry_of_own hmine).symm.trans hcarried)
    exact ⟨n, hn, Manifest.tellsAdditions_iff.mpr ⟨e', hmem, hadded, hmine⟩⟩
  · rintro ⟨n, hn, htells⟩
    obtain ⟨e, he, hadded, hown⟩ := Manifest.tellsAdditions_iff.mp htells
    refine ⟨e, ?_, hadded, hown⟩
    exact List.mem_filterMap.mpr ⟨e, List.mem_flatMap.mpr ⟨n, hn, he⟩, ManifestEntry.carry_of_own hown⟩

private theorem countP_consolidate (h : ms.countP (Manifest.tellsAdditions id) ≤ 1) :
    (consolidate config id fresh ms).countP (Manifest.tellsAdditions id) =
      ms.countP (Manifest.tellsAdditions id) := by
  cases consolidate_layout config id fresh ms with
  | untouched _ shape => rw [shape]
  | arranged _ _ shape => rw [shape, small_append_large_perm.countP_eq]
  | merged _ _ shape =>
    have hparts : (smallManifests config ms ++ largeManifests config ms).countP (Manifest.tellsAdditions id) =
        ms.countP (Manifest.tellsAdditions id) := small_append_large_perm.countP_eq _
    rw [List.countP_append] at hparts
    rw [shape, List.countP_cons, tellsAdditions_merged]
    split
    · rename_i hany
      have hpos := List.countP_pos_iff.mpr (List.any_eq_true.mp hany)
      omega
    · rename_i hnone
      rw [List.any_eq_true] at hnone
      have hzero := mt List.countP_pos_iff.mp hnone
      omega

end Consolidation

namespace Production
variable (p : Production) {parent : Option Snapshot} {id : SnapshotId} {change : Change}
  {fresh : ManifestId} (now : Instant) {m : Manifest}

private theorem fresh_le_merged : fresh ≤ nextFresh parent fresh - 1 :=
  Nat.le_succ_of_le (Nat.le_add_right fresh _)

/-- What becomes of a manifest that was drawn before, in all three steps. -/
theorem mem_build_drawn (h : m.id < fresh) : m ∈ (p.build parent id change fresh now).manifests ↔
    m ∈ manifestsAt parent ∧ m.counts.live ≠ 0 ∧ m.hasLiveAt change.removed.contains = false ∧
      ¬ (m.isSmall p.config.targetEntries = true ∧
        consolidates p.config (draft parent id fresh change) = true) := by
  change m ∈ consolidate p.config id _ (draft parent id fresh change) ↔ _
  rw [mem_consolidate_drawn (Nat.lt_of_lt_of_le h fresh_le_merged), mem_draft_drawn h, and_assoc,
    and_assoc]

private theorem build_origin (h : m ∈ (p.build parent id change fresh now).manifests) :
    m ∈ manifestsAt parent ∨ fresh ≤ m.id ∧ m.addedSnapshotId = id := by
  rcases consolidate_origin h with h | ⟨hdrawn, hid⟩
  · exact draft_origin h
  · exact .inr ⟨hdrawn ▸ fresh_le_merged, hid⟩

private theorem countP_build (h : Unwritten id (manifestsAt parent)) :
    (p.build parent id change fresh now).manifests.countP (Manifest.tellsAdditions id) =
      if change.added.isEmpty then 0 else 1 := by
  have hdraft : (draft parent id fresh change).countP (Manifest.tellsAdditions id) =
      if change.added.isEmpty then 0 else 1 := countP_draft h
  refine (countP_consolidate ?_).trans hdraft
  rw [hdraft]
  split
  · exact Nat.zero_le 1
  · exact Nat.le_refl 1

end Production

structure Shares (id : SnapshotId) (config : TableConfig) (change : Change)
    (before draft after : List Manifest) : Prop where
  /-- A manifest of the new list is one of the old list, or the snapshot wrote it and its identity is new. -/
  origin : ∀ n ∈ after, n ∈ before ∨ n.addedSnapshotId = id ∧ ∀ m ∈ before, n.same m = false
  /-- A manifest of the old list is in the new one under its identity exactly if it has a live file, loses
  none, and is not taken in by a consolidation. -/
  kept : ∀ m ∈ before, (∃ n ∈ after, n.same m = true) ↔
    m.counts.live ≠ 0 ∧ m.hasLiveAt change.removed.contains = false ∧
      ¬ (m.isSmall config.targetEntries = true ∧ consolidates config draft = true)
  /-- One manifest has the additions of the snapshot, if it adds anything. -/
  additions : after.countP (Manifest.tellsAdditions id) = if change.added.isEmpty then 0 else 1

/-- What was drawn before under an identity is the only manifest that has it. -/
theorem Production.build_shares (p : Production) {parent : Option Snapshot} {id : SnapshotId}
    {change : Change} {fresh : ManifestId} (now : Instant) (hnew : Unwritten id (manifestsAt parent))
    (hids : Identified fresh (manifestsAt parent)) :
    Shares id p.config change (manifestsAt parent) (draft parent id fresh change)
      (p.build parent id change fresh now).manifests where
  origin n hn := by
    refine (p.build_origin now hn).imp_right fun ⟨hdrawn, hid⟩ => ⟨hid, fun m hm => ?_⟩
    exact beq_eq_false_iff_ne.mpr (Nat.ne_of_gt (Nat.lt_of_lt_of_le (hids.drawn m hm) hdrawn))
  kept m hm := by
    have hbuilt : m ∈ (p.build parent id change fresh now).manifests ↔ _ :=
      p.mem_build_drawn now (hids.drawn m hm)
    rw [and_iff_right hm] at hbuilt
    rw [← hbuilt]
    constructor
    · rintro ⟨n, hn, hsame⟩
      have hid : n.id = m.id := beq_iff_eq.mp hsame
      rcases p.build_origin now hn with hold | ⟨hdrawn, -⟩
      · rwa [← hids.apart n hold m hm hid]
      · exact absurd (hids.drawn m hm) (Nat.not_lt.mpr (hid ▸ hdrawn))
    · exact fun hkept => ⟨m, hkept, beq_self_eq_true m.id⟩
  additions := p.countP_build now hnew

structure WrittenBefore (id : SnapshotId) (ms : List Manifest) : Prop where
  writers : ∀ m ∈ ms, m.addedSnapshotId < id
  authors : AuthoredBefore id ms

namespace WrittenBefore
variable {id : SnapshotId} {ms : List Manifest}

/-- What was written before is written before any later snapshot. -/
theorem mono {later : SnapshotId} (h : WrittenBefore id ms) (hle : id ≤ later) :
    WrittenBefore later ms where
  writers m hm := Nat.lt_of_lt_of_le (h.writers m hm) hle
  authors m hm e he := Nat.lt_of_lt_of_le (h.authors m hm e he) hle

/-- What was written before is not written by the snapshot itself. -/
theorem unwritten (h : WrittenBefore id ms) : Unwritten id ms := fun m hm =>
  ⟨Nat.ne_of_lt (h.writers m hm), fun e he => Nat.ne_of_lt (h.authors m hm e he)⟩

private theorem build {parent : Option Snapshot} (h : WrittenBefore id (manifestsAt parent))
    (p : Production) (change : Change) (fresh : ManifestId) (now : Instant) :
    WrittenBefore (id + 1) (p.build parent id change fresh now).manifests where
  writers m hm := by
    rcases p.build_origin now hm with hm | ⟨-, hid⟩
    · exact Nat.lt_succ_of_lt (h.writers m hm)
    · exact hid ▸ Nat.lt_succ_self _
  authors := Production.authoredBefore_build p fresh now h.authors

end WrittenBefore

private theorem Production.Builds.written {p : Production} {parent : Option Snapshot} {id : SnapshotId}
    {changes : List Change} {chain : List Snapshot} (h : p.Builds parent id changes chain)
    (hparent : WrittenBefore id (manifestsAt parent)) :
    ∀ s ∈ chain, WrittenBefore (s.id + 1) s.manifests :=
  h.forall_built (P := fun parent id => WrittenBefore id (manifestsAt parent)) hparent
    fun change fresh now hparent =>
      have hfirst := hparent.build p change fresh now
      ⟨hfirst, hfirst⟩

def Graph.Written (g : Graph) : Prop := ∀ s ∈ g.items, WrittenBefore (s.id + 1) s.manifests

/-- So nothing that a base holds was written under the next identifier. -/
theorem Graph.Written.next {g : Graph} (h : g.Written) {base : Option SnapshotId}
    {parent : Option Snapshot} (hparent : g.resolve base = .ok parent) :
    WrittenBefore g.nextId (manifestsAt parent) := by
  cases parent with
  | none => exact ⟨nofun, nofun⟩
  | some q =>
    have hq : q ∈ g.items := mem_of_resolve hparent rfl
    exact (h q hq).mono (id_lt_nextId hq)

/-- A chain on a published base is written under identifiers of its own. -/
theorem Graph.Written.extend {g : Graph} (h : g.Written) {p : Production} {base : Option SnapshotId}
    {parent : Option Snapshot} {changes : List Change} {chain : List Snapshot}
    (hparent : g.resolve base = .ok parent) (hbuilds : p.Builds parent g.nextId changes chain) :
    (g.extend chain).Written := by
  rw [Written, items_extend hbuilds]
  exact List.forall_mem_append.mpr ⟨h, hbuilds.written (h.next hparent)⟩

section AnyStore
variable {σ : Type} [PointerStore σ] {t t' : Table σ}

/-- Whatever clients do, snapshots write under identifiers of their own. -/
theorem Reaches.written (h : Reaches t t') (ht : t.graph.Written) : t'.graph.Written := by
  apply h.published (P := Graph.Written) ht
  intro g base parent changes supply left chain hg hparent hreplay
  exact hg.extend hparent (Production.builds_of_replay hreplay)

end AnyStore

/-- An accepted change on any parent makes a snapshot that shares with it every manifest it can, under an identifier
that the parent does not know; and the next identifier of a table is one, whatever clients did to it. -/
theorem produce_shares :
    (∀ (p : Production) (parent : Option Snapshot) (id : SnapshotId) (change : Change) (supply : Supply),
      Validator.evaluate (filesAt parent) change p.validators = .ok () →
      Unwritten id (manifestsAt parent) → Identified supply.freshManifest (manifestsAt parent) →
      ∃ s left, p.produce parent id change supply = (.ok s, left) ∧
        Shares id p.config change (manifestsAt parent)
          (Production.draft parent id supply.freshManifest change) s.manifests) ∧
    ∀ (uuid : Uuid) (config : TableConfig) (clock : Clock) (created : Table MemoryPointer),
      Table.create uuid config clock = .ok created →
      ∀ (validators : List Validator) (σ : Type) [PointerStore σ] (store : σ) (start t : Table σ),
        (created.withValidators validators).withPointerStore store = .ok start → Reaches start t →
        ∀ base parent, t.graph.resolve base = .ok parent → Unwritten t.graph.nextId (manifestsAt parent) := by
  constructor
  · intro p parent id change supply haccepted hnew hids
    have hmade : (p.produce parent id change supply).1 =
        .ok (p.build parent id change supply.freshManifest supply.clock.now) := by
      simp only [Production.produce, haccepted]
    exact ⟨_, _, Prod.ext hmade rfl, p.build_shares supply.clock.now hnew hids⟩
  · intro uuid config clock created hcreate validators σ _ store start t hstart hr base parent hparent
    obtain rfl := Table.eq_of_create hcreate
    obtain ⟨left, -, rfl⟩ := Table.eq_of_withPointerStore hstart
    exact ((hr.written (List.forall_mem_nil _)).next hparent).unwritten

def sharingParent : Snapshot where
  id := 4
  parentId := some 3
  timestamp := Instant.ofNanos 0
  operation := .append
  manifests := [
    ⟨0, 2, [⟨.deleted, 2, { path := "a" }⟩]⟩,
    ⟨1, 1, [⟨.added, 1, { path := "b" }⟩, ⟨.added, 1, { path := "c" }⟩]⟩,
    ⟨2, 3, [⟨.added, 3, { path := "d" }⟩]⟩,
    ⟨3, 4, [⟨.added, 4, { path := "e" }⟩, ⟨.added, 4, { path := "f" }⟩]⟩]
  summary := {}

/-- The large one alone is shared where small ones are merged, and the additions are in the merged one. In a new
table with one commit, nothing is by snapshot 2. -/
theorem produce_shares_merged :
    (let p : Production := ⟨{ minMergeCount := 2, targetEntries := 2 }, []⟩
      let change := ((Change.start .overwrite).removeAll ["b", "x"]).add { path := "g" }
      let supply : Supply := { clock := Clock.still 0, freshManifest := 4 }
      ∃ s left, p.produce (some sharingParent) 5 change supply = (.ok s, left) ∧
        Shares 5 p.config change sharingParent.manifests
          (Production.draft (some sharingParent) 5 4 change) s.manifests ∧
        s.manifests.map (fun m => (m.id, m.addedSnapshotId)) = [(9, 5), (5, 5), (3, 4)]) ∧
    let t := (Table.blank.publish none [(Change.start .append).add { path := "a" }]).2
    ∃ parent, t.graph.resolve (some 1) = .ok parent ∧ (manifestsAt parent).length = 1 ∧
      Unwritten 2 (manifestsAt parent) := by
  constructor
  · intro p change supply
    have hids : Identified 4 sharingParent.manifests := ⟨by decide, by decide⟩
    have hnew : Unwritten 5 sharingParent.manifests := by decide
    obtain ⟨s, left, hs, hshares⟩ :=
      produce_shares.1 p (some sharingParent) 5 change supply (by decide) hnew hids
    have hlist : (p.produce (some sharingParent) 5 change supply).1.map
        (fun s => s.manifests.map fun m => (m.id, m.addedSnapshotId)) = .ok [(9, 5), (5, 5), (3, 4)] := by
      decide +kernel
    rw [hs] at hlist
    exact ⟨s, left, hs, hshares, Except.ok.inj hlist⟩
  · intro t
    have hone : (t.graph.resolve (some 1)).map (fun q => (manifestsAt q).length) = .ok 1 := by
      decide +kernel
    have hnext : t.graph.nextId = 2 := by decide +kernel
    cases hparent : t.graph.resolve (some 1) with
    | error e =>
      rw [hparent] at hone
      cases hone
    | ok parent =>
      rw [hparent] at hone
      refine ⟨parent, rfl, Except.ok.inj hone, hnext ▸ ?_⟩
      exact produce_shares.2 0#128 {} (Clock.still 0) Table.blank Table.create_blank Validator.standard
        MemoryPointer {} Table.blank t rfl (Reaches.here.publish _ _) (some 1) parent hparent

end SnapshotTable
