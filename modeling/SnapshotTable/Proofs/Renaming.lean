import Mathlib.Order.Monotone.Defs
import SnapshotTable.Proofs.ReplayChain
import SnapshotTable.Proofs.Twins

/-! Manifests under other identities. Production writes an identity into each manifest that it makes and
never looks at one, so two productions that draw from different identities, at different times, and on
parents whose manifests are named differently make the same snapshot but for these names and the time. -/

namespace SnapshotTable

def Manifest.renamed (σ : ManifestId → ManifestId) (m : Manifest) : Manifest := { m with id := σ m.id }

def Renamed (σ : ManifestId → ManifestId) (s s' : Snapshot) : Prop :=
  ∃ time, s' = { s with timestamp := time, manifests := s.manifests.map (Manifest.renamed σ) }

/-- The identities from `fresh` on are renamed to those from `fresh'` on, one after the other. -/
def Continues (σ : ManifestId → ManifestId) (fresh fresh' : ManifestId) : Prop :=
  ∀ n, σ (fresh + n) = fresh' + n

def Snapshot.Below (fresh : ManifestId) (s : Snapshot) : Prop := ∀ m ∈ s.manifests, m.id < fresh

variable {σ : ManifestId → ManifestId} {fresh fresh' : ManifestId} {s s' : Snapshot}
  {parent parent' : Option Snapshot}

private theorem Continues.add (h : Continues σ fresh fresh') (k : Nat) :
    Continues σ (fresh + k) (fresh' + k) := by
  intro n
  rw [Nat.add_assoc, h, Nat.add_assoc]

def renamedFrom (σ : ManifestId → ManifestId) (fresh fresh' n : ManifestId) : ManifestId :=
  if n < fresh then σ n else fresh' + (n - fresh)

/-- Identities that were known before are renamed as before. -/
theorem renamedFrom_of_lt {n : ManifestId} (h : n < fresh) : renamedFrom σ fresh fresh' n = σ n :=
  if_pos h

/-- A renaming may be continued from any two fresh identities on. -/
theorem continues_renamedFrom (σ : ManifestId → ManifestId) (fresh fresh' : ManifestId) :
    Continues (renamedFrom σ fresh fresh') fresh fresh' := by
  intro n
  rw [renamedFrom, if_neg (Nat.not_lt.mpr (Nat.le_add_right fresh n)), Nat.add_sub_cancel_left]

/-- A renaming in order stays so if it goes on further up. -/
theorem strictMono_renamedFrom (h : StrictMono σ) (hle : σ fresh ≤ fresh') :
    StrictMono (renamedFrom σ fresh fresh') := by
  intro a b hab
  by_cases hb : b < fresh
  · rw [renamedFrom_of_lt (Nat.lt_trans hab hb), renamedFrom_of_lt hb]
    exact h hab
  · rw [renamedFrom, renamedFrom, if_neg hb]
    split
    · rename_i ha
      exact Nat.lt_of_lt_of_le (h ha) (Nat.le_trans hle (Nat.le_add_right _ _))
    · rename_i ha
      exact Nat.add_lt_add_left (Nat.sub_lt_sub_right (Nat.not_lt.mp ha) hab) fresh'

private theorem Continues.manifest (h : Continues σ fresh fresh') (id : SnapshotId)
    (es : List ManifestEntry) :
    Manifest.renamed σ ⟨fresh, id, es⟩ = ⟨fresh', id, es⟩ := congrArg (Manifest.mk · id es) (h 0)

namespace Manifest
variable (m : Manifest)

@[simp] theorem renamed_entries : (m.renamed σ).entries = m.entries := rfl
@[simp] theorem renamed_addedSnapshotId : (m.renamed σ).addedSnapshotId = m.addedSnapshotId := rfl
@[simp] theorem renamed_counts : (m.renamed σ).counts = m.counts := rfl
@[simp] theorem renamed_liveEntries : (m.renamed σ).liveEntries = m.liveEntries := rfl
@[simp] theorem renamed_hasLiveAt (test : String → Bool) :
    (m.renamed σ).hasLiveAt test = m.hasLiveAt test := rfl

/-- Consolidation goes by the entries alone. -/
theorem consolidate_renamed (config : TableConfig) (id : SnapshotId) (ms : List Manifest) :
    consolidate config id (σ fresh) (ms.map (renamed σ)) =
      (consolidate config id fresh ms).map (renamed σ) := by
  have hsmall : smallManifests config (ms.map (renamed σ)) =
      (smallManifests config ms).map (renamed σ) := by
    rw [smallManifests, List.filter_map]
    rfl
  have hlarge : largeManifests config (ms.map (renamed σ)) =
      (largeManifests config ms).map (renamed σ) := by
    rw [largeManifests, List.filter_map]
    rfl
  have hmerges : consolidates config (ms.map (renamed σ)) = consolidates config ms := by
    rw [consolidates, consolidates, hsmall, List.length_map]
  rw [consolidate, consolidate, hmerges, hsmall, hlarge]
  split
  · rfl
  split
  · simp only [List.map_cons, List.flatMap_map, renamed_entries]
    rfl
  · rw [List.map_append]

end Manifest

namespace Renamed

theorem id_eq (h : Renamed σ s s') : s'.id = s.id := by
  obtain ⟨time, rfl⟩ := h
  rfl

/-- Only the identities that a snapshot uses count. -/
theorem congr {σ' : ManifestId → ManifestId} (h : Renamed σ s s') (hbelow : s.Below fresh)
    (hsame : ∀ n < fresh, σ' n = σ n) : Renamed σ' s s' := by
  obtain ⟨time, rfl⟩ := h
  refine ⟨time, ?_⟩
  have hmanifests : s.manifests.map (Manifest.renamed σ') = s.manifests.map (Manifest.renamed σ) := by
    apply List.map_congr_left
    intro m hm
    rw [Manifest.renamed, Manifest.renamed, hsame m.id (hbelow m hm)]
  rw [hmanifests]

private theorem files_eq (h : Renamed σ s s') : s'.files = s.files := by
  obtain ⟨time, rfl⟩ := h
  simp only [Snapshot.files, Snapshot.liveFiles, Snapshot.liveEntries, List.flatMap_map,
    Manifest.renamed_liveEntries]

private theorem filesAt_eq (h : Option.Rel (Renamed σ) parent parent') :
    filesAt parent' = filesAt parent := by
  cases h with
  | none => rfl
  | some h => exact h.files_eq

private theorem manifests_eq (h : Option.Rel (Renamed σ) parent parent') :
    parent'.elim [] Snapshot.manifests =
      (parent.elim [] Snapshot.manifests).map (Manifest.renamed σ) := by
  cases h with
  | none => rfl
  | some h =>
    obtain ⟨time, rfl⟩ := h
    rfl

private theorem parentId_eq (h : Option.Rel (Renamed σ) parent parent') :
    parent'.map Snapshot.id = parent.map Snapshot.id := by
  cases h with
  | none => rfl
  | some h => exact congrArg some h.id_eq

end Renamed

namespace Production

private theorem inherit_renamed (id : SnapshotId) (removed : PathSet) (h : Continues σ fresh fresh')
    (ms : List Manifest) :
    inherit id removed fresh' (ms.map (Manifest.renamed σ)) =
      (inherit id removed fresh ms).map (Manifest.renamed σ) := by
  induction ms generalizing fresh fresh' with
  | nil => rfl
  | cons m rest ih =>
    rw [List.map_cons, inherit, inherit, Manifest.renamed_counts, Manifest.renamed_hasLiveAt]
    split
    · exact ih h
    split
    · rw [ih (h.add 1), List.map_cons, h.manifest, Manifest.renamed_entries]
    · rw [ih h, List.map_cons]

private theorem additions_renamed (id : SnapshotId) (h : Continues σ fresh fresh') (added : FileSet) :
    additions id fresh' added = (additions id fresh added).map (Manifest.renamed σ) := by
  rw [additions, additions]
  split
  · rfl
  · rw [List.map_singleton, h.manifest]

private theorem draft_renamed (hp : Option.Rel (Renamed σ) parent parent') (h : Continues σ fresh fresh')
    (id : SnapshotId) (change : Change) :
    draft parent' id fresh' change = (draft parent id fresh change).map (Manifest.renamed σ) := by
  rw [draft, draft, Renamed.filesAt_eq hp, Renamed.manifests_eq hp, additions_renamed id h,
    inherit_renamed id _ (h.add 1), List.map_append]

private theorem nextFresh_continues (hp : Option.Rel (Renamed σ) parent parent')
    (h : Continues σ fresh fresh') :
    Continues σ (nextFresh parent fresh) (nextFresh parent' fresh') := by
  rw [nextFresh, nextFresh, Renamed.manifests_eq hp, List.length_map]
  exact (h.add _).add 2

/-- The same change makes the same snapshot on a renamed parent, but for the names of the manifests. -/
theorem build_renamed (hp : Option.Rel (Renamed σ) parent parent') (h : Continues σ fresh fresh')
    (p : Production) (id : SnapshotId) (change : Change) (now now' : Instant) :
    Renamed σ (p.build parent id change fresh now) (p.build parent' id change fresh' now') := by
  have hlast : nextFresh parent' fresh' - 1 = σ (nextFresh parent fresh - 1) := by
    have hnext := h ((parent.elim [] Snapshot.manifests).length + 1)
    rw [nextFresh, nextFresh, Renamed.manifests_eq hp, List.length_map]
    exact hnext.symm
  refine ⟨timestamp parent' now', ?_⟩
  rw [build, Renamed.parentId_eq hp, Renamed.filesAt_eq hp, draft_renamed hp h, hlast,
    Manifest.consolidate_renamed]
  rfl

private theorem produce_renamed (hp : Option.Rel (Renamed σ) parent parent') {supply supply' : Supply}
    (h : Continues σ supply.freshManifest supply'.freshManifest) (p : Production) (id : SnapshotId)
    (change : Change) :
    Matches (Renamed σ) (p.produce parent id change supply).1 (p.produce parent' id change supply').1 ∧
      Continues σ (p.produce parent id change supply).2.freshManifest
        (p.produce parent' id change supply').2.freshManifest := by
  rw [produce, produce, Renamed.filesAt_eq hp]
  cases Validator.evaluate (filesAt parent) change p.validators with
  | error refusal => exact ⟨.error refusal, h⟩
  | ok _ => exact ⟨.ok (build_renamed hp h p id change _ _), nextFresh_continues hp h⟩

/-- The same changes are refused for the same reason, or make the same snapshots one by one. -/
theorem replay_renamed (hp : Option.Rel (Renamed σ) parent parent') {supply supply' : Supply}
    (h : Continues σ supply.freshManifest supply'.freshManifest) (p : Production) (id : SnapshotId)
    (changes : List Change) :
    Matches (List.Forall₂ (Renamed σ)) (p.replay parent id changes supply).1
        (p.replay parent' id changes supply').1 ∧
      Continues σ (p.replay parent id changes supply).2.freshManifest
        (p.replay parent' id changes supply').2.freshManifest := by
  induction changes generalizing parent parent' id supply supply' with
  | nil => exact ⟨.ok .nil, h⟩
  | cons change rest ih =>
    obtain ⟨hmatch, hleft⟩ := produce_renamed hp h p id change
    rw [replay, replay]
    cases hone : p.produce parent id change supply with
    | mk answer left =>
      cases hone' : p.produce parent' id change supply' with
      | mk answer' left' =>
        rw [hone, hone'] at hmatch hleft
        cases hmatch with
        | error refusal => exact ⟨.error refusal, hleft⟩
        | @ok s s' hs =>
          obtain ⟨hrest, hends⟩ := ih (.some hs) hleft (id + 1)
          dsimp only
          cases hr : p.replay (some s) (id + 1) rest left with
          | mk chain more =>
            cases hr' : p.replay (some s') (id + 1) rest left' with
            | mk chain' more' =>
              rw [hr, hr'] at hrest hends
              cases hrest with
              | error refusal => exact ⟨.error refusal, hends⟩
              | ok hchain => exact ⟨.ok (.cons hs hchain), hends⟩

private theorem inherit_below {id : SnapshotId} {removed : PathSet} {ms : List Manifest}
    (h : ∀ m ∈ ms, m.id < fresh) :
    ∀ m ∈ inherit id removed fresh ms, m.id < fresh + ms.length := by
  induction ms generalizing fresh with
  | nil => nofun
  | cons n rest ih =>
    obtain ⟨hn, hrest⟩ := List.forall_mem_cons.mp h
    have hkeep : ∀ m ∈ inherit id removed fresh rest, m.id < fresh + (n :: rest).length :=
      fun m hm => Nat.lt_succ_of_lt (ih hrest m hm)
    rw [inherit]
    split
    · exact hkeep
    split
    · refine List.forall_mem_cons.mpr ⟨Nat.lt_add_of_pos_right (Nat.succ_pos _), ?_⟩
      intro m hm
      have hlater : m.id < fresh + 1 + rest.length :=
        ih (fun m hm => Nat.lt_succ_of_lt (hrest m hm)) m hm
      rwa [Nat.add_right_comm] at hlater
    · exact List.forall_mem_cons.mpr ⟨Nat.lt_add_right _ hn, hkeep⟩

private theorem draft_below {id : SnapshotId} {change : Change}
    (h : ∀ m ∈ parent.elim [] Snapshot.manifests, m.id < fresh) :
    ∀ m ∈ draft parent id fresh change, m.id < nextFresh parent fresh - 1 := by
  have hlast : nextFresh parent fresh - 1 = fresh + 1 + (parent.elim [] Snapshot.manifests).length :=
    Nat.add_right_comm _ _ 1
  rw [hlast]
  intro m hm
  rcases List.mem_append.mp hm with hm | hm
  · rw [additions] at hm
    split at hm
    · cases hm
    · obtain rfl := List.mem_singleton.mp hm
      exact Nat.lt_add_right _ (Nat.lt_succ_self fresh)
  · exact inherit_below (fun m hm => Nat.lt_succ_of_lt (h m hm)) m hm

private theorem consolidate_below {config : TableConfig} {id : SnapshotId} {ms : List Manifest}
    (h : ∀ m ∈ ms, m.id < fresh) : ∀ m ∈ consolidate config id fresh ms, m.id < fresh + 1 := by
  have hpart {part : List Manifest} (hsub : part ⊆ ms) : ∀ m ∈ part, m.id < fresh + 1 :=
    fun m hm => Nat.lt_succ_of_lt (h m (hsub hm))
  cases consolidate_layout config id fresh ms with
  | untouched _ shape =>
    rw [shape]
    exact hpart (List.Subset.refl ms)
  | arranged _ _ shape =>
    rw [shape]
    exact hpart small_append_large_perm.subset
  | merged _ _ shape =>
    have hlarge : ∀ m ∈ largeManifests config ms, m.id < fresh + 1 :=
      hpart fun m hm => (mem_largeManifests.mp hm).1
    rw [shape]
    exact List.forall_mem_cons.mpr ⟨Nat.lt_succ_self fresh, hlarge⟩

private theorem build_below (h : ∀ q, parent = some q → q.Below fresh) (p : Production) (id : SnapshotId)
    (change : Change) (now : Instant) :
    (p.build parent id change fresh now).Below (nextFresh parent fresh) := by
  have hparent : ∀ m ∈ parent.elim [] Snapshot.manifests, m.id < fresh := by
    cases parent with
    | none => nofun
    | some q => exact h q rfl
  exact consolidate_below (draft_below hparent)

private theorem produce_fresh_le (p : Production) (parent : Option Snapshot) (id : SnapshotId)
    (change : Change) (supply : Supply) :
    supply.freshManifest ≤ (p.produce parent id change supply).2.freshManifest := by
  rw [produce]
  cases Validator.evaluate (filesAt parent) change p.validators with
  | error refusal => exact Nat.le_refl _
  | ok _ => exact Nat.le_trans (Nat.le_add_right _ _) (Nat.le_add_right _ 2)

/-- A replay never takes an identity back, not even one that is refused in the end. -/
theorem replay_fresh_le (p : Production) (parent : Option Snapshot) (id : SnapshotId)
    (changes : List Change) (supply : Supply) :
    supply.freshManifest ≤ (p.replay parent id changes supply).2.freshManifest := by
  induction changes generalizing parent id supply with
  | nil => exact Nat.le_refl _
  | cons change rest ih =>
    have hone := p.produce_fresh_le parent id change supply
    rw [replay]
    cases hp : p.produce parent id change supply with
    | mk answer left =>
      rw [hp] at hone
      cases answer with
      | error refusal => exact hone
      | ok s =>
        have hrest := Nat.le_trans hone (ih (some s) (id + 1) left)
        dsimp only
        cases hr : p.replay (some s) (id + 1) rest left with
        | mk chain more =>
          rw [hr] at hrest
          cases chain <;> exact hrest

private theorem produce_below {p : Production} {id : SnapshotId} {change : Change} {supply left : Supply}
    (h : ∀ q, parent = some q → q.Below supply.freshManifest)
    (hs : p.produce parent id change supply = (.ok s, left)) : s.Below left.freshManifest := by
  rw [produce] at hs
  split at hs
  · cases hs
  · cases hs
    exact build_below h p id change supply.clock.now

/-- A replayed chain stays below the first identity that it leaves unused. -/
theorem replay_below {p : Production} {id : SnapshotId} {changes : List Change} {supply left : Supply}
    {chain : List Snapshot} (h : ∀ q, parent = some q → q.Below supply.freshManifest)
    (hchain : p.replay parent id changes supply = (.ok chain, left)) :
    ∀ s ∈ chain, s.Below left.freshManifest := by
  induction changes generalizing parent id supply chain with
  | nil =>
    cases hchain
    nofun
  | cons change rest ih =>
    rw [replay] at hchain
    cases hp : p.produce parent id change supply with
    | mk answer more =>
      rw [hp] at hchain
      cases answer with
      | error refusal => cases hchain
      | ok s =>
        have hs := produce_below h hp
        have hle := p.replay_fresh_le (some s) (id + 1) rest more
        dsimp only at hchain
        cases hr : p.replay (some s) (id + 1) rest more with
        | mk later left =>
          rw [hr] at hchain hle
          cases later with
          | error refusal => cases hchain
          | ok later =>
            cases hchain
            refine List.forall_mem_cons.mpr ⟨fun m hm => Nat.lt_of_lt_of_le (hs m hm) hle, ?_⟩
            apply ih _ hr
            rintro _ ⟨⟩
            exact hs

end Production
end SnapshotTable
