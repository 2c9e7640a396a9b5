import Mathlib.Data.List.Flatten
import SnapshotTable.Proofs.ProducedAuthors

/-! The shape of manifests. In the list of a produced snapshot every manifest holds something, has no
path twice, and shows by the status of an entry whether its writer is the author; one that the
snapshot did not write itself still has a live file. Consolidation keeps to this because of each path
only one entry survives being carried over, which is counted here before any list is merged. -/

namespace SnapshotTable

namespace ManifestEntry

def path (e : ManifestEntry) : String := e.file.path

/-- Additions and removals in a manifest are by its writer, files that existed by someone before. -/
def WrittenBy (writer : SnapshotId) (e : ManifestEntry) : Prop :=
  (e.status ≠ .existing → e.snapshotId = writer) ∧ (e.status = .existing → e.snapshotId < writer)

/-- An entry that snapshot `id` may come across while it writes its manifests: one by an earlier
snapshot, or an addition or a removal of its own. -/
def KnownTo (id : SnapshotId) (e : ManifestEntry) : Prop :=
  e.snapshotId < id ∨ e.snapshotId = id ∧ e.status ≠ .existing

variable {id : SnapshotId} {e e' : ManifestEntry}

private theorem WrittenBy.known (h : e.WrittenBy id) : e.KnownTo id := by
  by_cases hs : e.status = .existing
  · exact .inl (h.2 hs)
  · exact .inr ⟨h.1 hs, hs⟩

private theorem KnownTo.writtenBy (h : e.KnownTo id) (hc : e.carry? id = some e') : e'.WrittenBy id := by
  rcases h with hlt | ⟨hown, hs⟩
  · rw [carry_of_foreign (Nat.ne_of_lt hlt)] at hc
    split at hc
    · cases hc
      exact ⟨fun hne => absurd rfl hne, fun _ => hlt⟩
    · cases hc
  · rw [carry_of_own hown] at hc
    cases hc
    exact ⟨fun _ => hown, fun he => absurd he hs⟩

end ManifestEntry

structure Manifest.WellFormed (m : Manifest) : Prop where
  nonempty : m.entries ≠ []
  paths : (m.entries.map ManifestEntry.path).Nodup
  written : ∀ e ∈ m.entries, e.WrittenBy m.addedSnapshotId

def keptPaths (id : SnapshotId) (es : List ManifestEntry) : List String :=
  es.filterMap fun e => (e.carry? id).map ManifestEntry.path

def livePaths (es : List ManifestEntry) : List String :=
  (liveOf es).map fun r => r.2.path

private theorem livePaths_eq_filterMap (es : List ManifestEntry) :
    livePaths es = es.filterMap fun e => if e.isLive then some e.path else none := by
  unfold livePaths liveOf
  induction es with
  | nil => rfl
  | cons e es ih =>
    rw [List.filterMap_cons, List.filter_cons]
    by_cases h : e.isLive = true
    · rw [if_pos h, if_pos h, List.map_cons, List.map_cons, ih]
      rfl
    · rw [if_neg h, if_neg h, ih]

private theorem keptPaths_append (id : SnapshotId) (es fs : List ManifestEntry) :
    keptPaths id (es ++ fs) = keptPaths id es ++ keptPaths id fs := List.filterMap_append

private theorem map_path_carry (id : SnapshotId) (es : List ManifestEntry) :
    (es.filterMap (·.carry? id)).map ManifestEntry.path = keptPaths id es := List.map_filterMap

private theorem keptPaths_before {id : SnapshotId} {es : List ManifestEntry}
    (h : ∀ e ∈ es, e.snapshotId < id) : keptPaths id es = livePaths es := by
  rw [livePaths_eq_filterMap]
  apply List.filterMap_congr
  intro e he
  rw [ManifestEntry.carry_of_foreign (Nat.ne_of_lt (h e he))]
  split <;> rfl

namespace Production
variable {id : SnapshotId} {removed : PathSet} {e e' : ManifestEntry} {m n : Manifest}

/-- Striking paths from an entry by an earlier snapshot: it goes on if it is live, and is marked if its path
is struck. -/
theorem strike_of_lt (h : e.snapshotId < id) :
    strike? id removed e =
      if e.isLive then
        some (if removed.contains e.path then ⟨.deleted, id, e.file⟩
          else { e with status := .existing })
      else none := by
  rw [strike?, ManifestEntry.carry_of_foreign (Nat.ne_of_lt h), ManifestEntry.isLiveAt, ManifestEntry.path]
  by_cases hl : e.isLive = true
  · by_cases hr : removed.contains e.file.path = true <;> simp [hl, hr]
  · simp [hl]

private theorem strike_some (h : e.snapshotId < id) (hs : strike? id removed e = some e') :
    e'.path = e.path ∧ e'.WrittenBy id := by
  rw [strike_of_lt h] at hs
  split at hs
  · cases hs
    split
    · exact ⟨rfl, fun _ => rfl, by rintro ⟨⟩⟩
    · exact ⟨rfl, fun hne => absurd rfl hne, fun _ => h⟩
  · cases hs

private theorem map_path_strike_sublist {es : List ManifestEntry} (h : ∀ e ∈ es, e.snapshotId < id) :
    ((es.filterMap (strike? id removed)).map ManifestEntry.path).Sublist
      (es.map ManifestEntry.path) := by
  induction es with
  | nil => exact .slnil
  | cons e es ih =>
    obtain ⟨he, hes⟩ := List.forall_mem_cons.mp h
    rw [List.map_cons]
    cases hs : strike? id removed e with
    | none =>
      rw [List.filterMap_cons_none hs]
      exact (ih hes).cons _
    | some e' =>
      rw [List.filterMap_cons_some hs, List.map_cons, (strike_some he hs).1]
      exact (ih hes).cons_cons _

private theorem keptPaths_strike {es : List ManifestEntry} (h : ∀ e ∈ es, e.snapshotId < id) :
    keptPaths id (es.filterMap (strike? id removed)) = livePaths es := by
  rw [keptPaths, List.filterMap_filterMap, livePaths_eq_filterMap]
  apply List.filterMap_congr
  intro e he
  rw [strike_of_lt (h e he)]
  by_cases hl : e.isLive = true
  · rw [if_pos hl, if_pos hl, Option.bind_some]
    split
    · have hown : (⟨.deleted, id, e.file⟩ : ManifestEntry).carry? id = some ⟨.deleted, id, e.file⟩ :=
        ManifestEntry.carry_of_own rfl
      rw [hown]
      rfl
    · rfl
  · rw [if_neg hl, if_neg hl, Option.bind_none]

private theorem livePaths_ne_nil (h : ¬ m.counts.live = 0) : livePaths m.entries ≠ [] := by
  intro hnil
  have hdead := List.filter_eq_nil_iff.mp (List.map_eq_nil_iff.mp (List.map_eq_nil_iff.mp hnil))
  apply h
  simp only [ManifestCounts.live, Manifest.counts, Manifest.countOf, Nat.add_eq_zero_iff,
    List.countP_eq_zero]
  constructor <;>
  · intro e he
    have hd := hdead e he
    cases hs : e.status <;> simp_all [ManifestEntry.isLive]

private theorem inherit_live {fresh : ManifestId} {ms : List Manifest}
    (h : m ∈ inherit id removed fresh ms) :
    ∃ n ∈ ms, livePaths n.entries ≠ [] ∧
      (m = n ∨ m.addedSnapshotId = id ∧ m.entries = n.entries.filterMap (strike? id removed)) := by
  induction ms generalizing fresh with
  | nil => cases h
  | cons n ms ih =>
    have later {fresh : ManifestId} (h : m ∈ inherit id removed fresh ms) :
        ∃ k ∈ n :: ms, livePaths k.entries ≠ [] ∧
          (m = k ∨ m.addedSnapshotId = id ∧ m.entries = k.entries.filterMap (strike? id removed)) := by
      obtain ⟨k, hk, hlive⟩ := ih h
      exact ⟨k, List.mem_cons_of_mem _ hk, hlive⟩
    rw [inherit] at h
    split at h
    · exact later h
    rename_i hlive
    have hn := livePaths_ne_nil hlive
    split at h
    · rcases List.mem_cons.mp h with rfl | h
      · exact ⟨n, List.mem_cons_self, hn, .inr ⟨rfl, rfl⟩⟩
      · exact later h
    · rcases List.mem_cons.mp h with rfl | h
      · exact ⟨m, List.mem_cons_self, hn, .inl rfl⟩
      · exact later h

private theorem keptPaths_inherit {fresh : ManifestId} {ms : List Manifest}
    (h : AuthoredBefore id ms) :
    keptPaths id ((inherit id removed fresh ms).flatMap Manifest.entries) =
      (liveRecords ms).map fun r => r.2.path := by
  induction ms generalizing fresh with
  | nil => rfl
  | cons n ms ih =>
    obtain ⟨hn, hms⟩ := List.forall_mem_cons.mp h
    have hcons : (liveRecords (n :: ms)).map (fun r => r.2.path) =
        livePaths n.entries ++ (liveRecords ms).map fun r => r.2.path := List.map_append
    rw [hcons, inherit]
    split
    · rename_i hdead
      rw [ih hms, livePaths, liveOf_eq_nil hdead]
      rfl
    split
    · rw [List.flatMap_cons, keptPaths_append, keptPaths_strike hn, ih hms]
    · rw [List.flatMap_cons, keptPaths_append, keptPaths_before hn, ih hms]

private theorem keptPaths_added (id : SnapshotId) (files : List DataFile) :
    keptPaths id (files.map fun f => ⟨.added, id, f⟩) = files.map DataFile.path := by
  rw [keptPaths, List.filterMap_map, ← List.filterMap_eq_map]
  apply List.filterMap_congr
  intro f _
  simp [ManifestEntry.carry?, ManifestEntry.path]

private theorem keptPaths_additions (id : SnapshotId) (fresh : ManifestId) (added : FileSet) :
    keptPaths id ((additions id fresh added).flatMap Manifest.entries) =
      added.items.map DataFile.path := by
  unfold additions
  split
  · rename_i hnil
    rw [List.isEmpty_iff.mp hnil]
    rfl
  · rw [List.flatMap_cons, List.flatMap_nil, List.append_nil]
    exact keptPaths_added id added.items

structure Drafted (id : SnapshotId) (ms : List Manifest) (m : Manifest) : Prop where
  wellFormed : m.WellFormed
  known : ∀ e ∈ m.entries, e.KnownTo id
  kept : keptPaths id m.entries ≠ []
  owned : m.addedSnapshotId = id ∨ m ∈ ms ∧ livePaths m.entries ≠ []

private theorem drafted_additions {fresh : ManifestId} {added : FileSet}
    (h : m ∈ additions id fresh added) (ms : List Manifest) : Drafted id ms m := by
  unfold additions at h
  split at h
  · cases h
  rename_i hne
  have hsome : added.items ≠ [] := mt List.isEmpty_iff.mpr hne
  cases List.mem_singleton.mp h
  have hwritten : ∀ e ∈ added.items.map (fun f => (⟨.added, id, f⟩ : ManifestEntry)),
      e.WrittenBy id := by
    intro e he
    obtain ⟨f, -, rfl⟩ := List.mem_map.mp he
    exact ⟨fun _ => rfl, nofun⟩
  refine ⟨⟨?_, ?_, hwritten⟩, fun e he => (hwritten e he).known, ?_, .inl rfl⟩
  · exact mt List.map_eq_nil_iff.mp hsome
  · have hkeys := added.nodup_keys
    rwa [Keyed.toList, List.map_map]
  · rw [Keyed.toList, keptPaths_added]
    exact mt List.map_eq_nil_iff.mp hsome

private theorem drafted_copy {ms : List Manifest} (hn : n.WellFormed)
    (hbefore : ∀ e ∈ n.entries, e.snapshotId < id) (hlive : livePaths n.entries ≠ [])
    (hid : m.addedSnapshotId = id) (he : m.entries = n.entries.filterMap (strike? id removed)) :
    Drafted id ms m := by
  have hkept : keptPaths id m.entries = livePaths n.entries := he ▸ keptPaths_strike hbefore
  have hwritten : ∀ e ∈ m.entries, e.WrittenBy id := by
    intro e hm
    obtain ⟨e', he', hs⟩ := List.mem_filterMap.mp (he ▸ hm)
    exact (strike_some (hbefore e' he') hs).2
  refine ⟨⟨?_, ?_, hid ▸ hwritten⟩, fun e hm => (hwritten e hm).known, hkept ▸ hlive, .inl hid⟩
  · intro hnil
    rw [hnil] at hkept
    exact hlive hkept.symm
  · rw [he]
    exact hn.paths.sublist (map_path_strike_sublist hbefore)

variable {parent : Option Snapshot} {change : Change} (fresh : ManifestId)

private theorem drafted_draft (hbefore : AuthoredBefore id (parent.elim [] Snapshot.manifests))
    (hparent : ∀ m ∈ parent.elim [] Snapshot.manifests, m.WellFormed)
    (h : m ∈ draft parent id fresh change) :
    Drafted id (parent.elim [] Snapshot.manifests) m := by
  rcases List.mem_append.mp h with h | h
  · exact drafted_additions h _
  obtain ⟨n, hn, hlive, rfl | ⟨hid, he⟩⟩ := inherit_live h
  · have hlt := hbefore m hn
    exact ⟨hparent m hn, fun e he => .inl (hlt e he), keptPaths_before hlt ▸ hlive, .inr ⟨hn, hlive⟩⟩
  · exact drafted_copy (hparent n hn) (hbefore n hn) hlive hid he

private theorem nodup_keptPaths_draft
    (hbefore : AuthoredBefore id (parent.elim [] Snapshot.manifests)) (honce : LiveOnce parent)
    (hnew : ∀ f ∈ change.added.items, (filesAt parent).contains f.path = false) :
    (keptPaths id ((draft parent id fresh change).flatMap Manifest.entries)).Nodup := by
  rw [draft, List.flatMap_append, keptPaths_append, keptPaths_additions, keptPaths_inherit hbefore]
  refine List.nodup_append.mpr ⟨change.added.nodup_keys, honce, ?_⟩
  rintro _ ha _ hb rfl
  obtain ⟨f, hf, rfl⟩ := List.mem_map.mp ha
  obtain ⟨r, hr, hpath⟩ := List.mem_map.mp hb
  have hlive : (filesAt parent).contains f.path = true := contains_filesAt.mpr ⟨r, hr, hpath⟩
  exact Bool.false_ne_true ((hnew f hf).symm.trans hlive)

private theorem wellFormed_merged {ms small : List Manifest} (hsome : small ≠ [])
    (hdraft : ∀ n ∈ small, Drafted id ms n)
    (honce : (keptPaths id (small.flatMap Manifest.entries)).Nodup) :
    Manifest.WellFormed ⟨fresh, id, (small.flatMap Manifest.entries).filterMap (·.carry? id)⟩ := by
  refine ⟨?_, map_path_carry id _ ▸ honce, ?_⟩
  · obtain ⟨n, hn⟩ := List.exists_mem_of_ne_nil _ hsome
    obtain ⟨path, hpath⟩ := List.exists_mem_of_ne_nil _ (hdraft n hn).kept
    obtain ⟨e, he, hcarried⟩ := List.mem_filterMap.mp hpath
    obtain ⟨e', hc, -⟩ := Option.map_eq_some_iff.mp hcarried
    exact List.ne_nil_of_mem (List.mem_filterMap.mpr ⟨e, List.mem_flatMap.mpr ⟨n, hn, he⟩, hc⟩)
  · intro e he
    obtain ⟨e', he', hc⟩ := List.mem_filterMap.mp he
    obtain ⟨n, hn, he'⟩ := List.mem_flatMap.mp he'
    exact ((hdraft n hn).known e' he').writtenBy hc

/-- The manifests of a produced snapshot are well formed; those that it did not write itself are its
parent's, with a live file. -/
theorem manifests_build (p : Production) (now : Instant)
    (hbefore : AuthoredBefore id (parent.elim [] Snapshot.manifests)) (honce : LiveOnce parent)
    (hparent : ∀ m ∈ parent.elim [] Snapshot.manifests, m.WellFormed)
    (hnew : ∀ f ∈ change.added.items, (filesAt parent).contains f.path = false)
    (h : m ∈ (p.build parent id change fresh now).manifests) :
    m.WellFormed ∧ (m.addedSnapshotId = id ∨
      m ∈ parent.elim [] Snapshot.manifests ∧ livePaths m.entries ≠ []) := by
  let ds := draft parent id fresh change
  have hdraft : ∀ n ∈ ds, Drafted id (parent.elim [] Snapshot.manifests) n :=
    fun n hn => drafted_draft fresh hbefore hparent hn
  have hkeep (hm : m ∈ ds) : m.WellFormed ∧ (m.addedSnapshotId = id ∨
      m ∈ parent.elim [] Snapshot.manifests ∧ livePaths m.entries ≠ []) :=
    ⟨(hdraft m hm).wellFormed, (hdraft m hm).owned⟩
  have hsub : (smallManifests p.config ds).Sublist ds := List.filter_sublist
  change m ∈ consolidate p.config id (nextFresh parent fresh - 1) ds at h
  cases consolidate_layout p.config id (nextFresh parent fresh - 1) ds with
  | untouched _ shape => exact hkeep (shape ▸ h)
  | arranged _ _ shape => exact hkeep (small_append_large_perm.subset (shape ▸ h))
  | merged _ many shape =>
    rcases List.mem_cons.mp (shape ▸ h) with rfl | h
    · have hall := nodup_keptPaths_draft fresh hbefore honce hnew
      exact ⟨wellFormed_merged _ (smallManifests_ne_nil many) (fun n hn => hdraft n (hsub.subset hn))
        (hall.sublist ((hsub.flatMap _).filterMap _)), .inl rfl⟩
    · exact hkeep (mem_largeManifests.mp h).1

end Production

/-- No path is live twice in a snapshot, and nobody behind it wrote in its manifests. -/
structure Snapshot.Tidy (s : Snapshot) : Prop where
  once : LiveOnce (some s)
  authored : AuthoredBefore (s.id + 1) s.manifests

structure Snapshot.Orderly (s : Snapshot) : Prop extends s.Tidy where
  wellFormed : ∀ m ∈ s.manifests, m.WellFormed

def OrderlyAt (s : Option Snapshot) : Prop := ∀ q, s = some q → q.Orderly

/-- Everything in a tidy snapshot was written before any later one. -/
theorem Snapshot.Tidy.authoredBefore {s : Snapshot} (h : s.Tidy) {id : SnapshotId} (hid : s.id < id) :
    AuthoredBefore id s.manifests :=
  fun m hm e he => Nat.lt_of_lt_of_le (h.authored m hm e he) hid

namespace OrderlyAt
variable {parent : Option Snapshot}

/-- Where what is there is orderly, no path is live twice. -/
theorem once (h : OrderlyAt parent) : LiveOnce parent := by
  cases parent with
  | none => exact liveOnce_none
  | some q => exact (h q rfl).once

/-- Where what is there is orderly, everything was written before any later snapshot. -/
theorem authored (h : OrderlyAt parent) {id : SnapshotId} (hid : ∀ q, parent = some q → q.id < id) :
    AuthoredBefore id (parent.elim [] Snapshot.manifests) := by
  cases parent with
  | none => exact nofun
  | some q => exact (h q rfl).authoredBefore (hid q rfl)

/-- Where what is there is orderly, all manifests are well formed. -/
theorem wellFormed (h : OrderlyAt parent) : ∀ m ∈ parent.elim [] Snapshot.manifests, m.WellFormed := by
  cases parent with
  | none => exact nofun
  | some q => exact (h q rfl).wellFormed

end OrderlyAt

namespace Production
variable (p : Production) {parent : Option Snapshot} {id : SnapshotId} {change : Change} (fresh : ManifestId)
  (now : Instant)

/-- What a change with new paths only makes of a tidy snapshot is tidy again. -/
theorem tidy_build (honce : LiveOnce parent)
    (hbefore : AuthoredBefore id (parent.elim [] Snapshot.manifests))
    (hnew : ∀ f ∈ change.added.items, (filesAt parent).contains f.path = false) :
    (p.build parent id change fresh now).Tidy :=
  ⟨liveOnce_build p id fresh now honce hnew, authoredBefore_build p fresh now hbefore⟩

/-- What a change with new paths only makes of an orderly snapshot is orderly again. -/
theorem orderly_build (h : OrderlyAt parent) (hid : ∀ q, parent = some q → q.id < id)
    (hnew : ∀ f ∈ change.added.items, (filesAt parent).contains f.path = false) :
    (p.build parent id change fresh now).Orderly where
  toTidy := tidy_build p fresh now h.once (h.authored hid) hnew
  wellFormed _ hm := (manifests_build fresh p now (h.authored hid) h.once h.wellFormed hnew hm).1

end Production
end SnapshotTable
