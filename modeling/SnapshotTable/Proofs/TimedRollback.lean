import SnapshotTable.Proofs.Timestamps
import SnapshotTable.Table.Rollback

/-! Going back to a time. The target is the latest snapshot before the time among what is current and its
ancestors. As times fall on the way to the root, this is the first one that a walk meets, the root is the last
that could be before the time, and a later time never leads to an older snapshot. -/

namespace SnapshotTable

private theorem find?_weaker {α : Type} {R : α → α → Prop} {p q : α → Bool} {xs : List α}
    (hR : xs.Pairwise R)
    (hpq : ∀ a ∈ xs, p a = true → q a = true) {a : α} (h : xs.find? p = some a) :
    ∃ b, xs.find? q = some b ∧ (a = b ∨ R b a) := by
  induction xs with
  | nil => cases h
  | cons x rest ih =>
    obtain ⟨hx, hrest⟩ := List.pairwise_cons.mp hR
    obtain ⟨hpx, hprest⟩ := List.forall_mem_cons.mp hpq
    rw [List.find?_cons] at h ⊢
    cases hqx : q x with
    | true =>
      refine ⟨x, rfl, ?_⟩
      cases hp : p x with
      | true =>
        rw [hp] at h
        exact .inl (Option.some.inj h).symm
      | false =>
        rw [hp] at h
        exact .inr (hx a (List.mem_of_find?_eq_some h))
    | false =>
      have hp : p x = false := Bool.eq_false_iff.mpr fun hp => by simp [hpx hp] at hqx
      rw [hp] at h
      exact ih hrest hprest h

def Descending (line : List Snapshot) : Prop :=
  line.Pairwise fun a b => b.timestamp.before a.timestamp = true

private theorem Descending.latest {line : List Snapshot} (h : Descending line) :
    latestSnapshot? line = line.head? := by
  cases line with
  | nil => rfl
  | cons s rest =>
    rw [latestSnapshot?, List.foldl_cons, List.head?_cons]
    have hbehind := (List.pairwise_cons.mp h).1
    clear h
    -- Nothing that follows takes the place of the first.
    induction rest with
    | nil => rfl
    | cons q rest ih =>
      obtain ⟨hq, hrest⟩ := List.forall_mem_cons.mp hbehind
      have hne : s.timestamp ≠ q.timestamp := by
        intro he
        rw [he, Instant.before_irrefl] at hq
        cases hq
      have hkept : s.notLater q = false := by simp [Snapshot.notLater, Instant.before_asymm hq, hne]
      rw [List.foldl_cons]
      simp only [hkept]
      exact ih hrest

namespace Graph
variable {g : Graph} {id : Option SnapshotId} {line : List Snapshot}

private theorem Lineage.precedes (h : g.Lineage id line) :
    line.Pairwise fun a b => g.Precedes b.id a.id := by
  induction h with
  | root => exact .nil
  | @step s line hs older ih =>
    refine List.pairwise_cons.mpr ⟨?_, ih⟩
    generalize hp : s.parentId = parent at older
    cases older with
    | root => nofun
    | @step p older hp' holder =>
      have hparent : g.IsParent p.id s.id := ⟨s, hs, rfl, hp⟩
      intro q hq
      rcases List.mem_cons.mp hq with rfl | hq
      · exact .single hparent
      · exact .tail ((List.pairwise_cons.mp ih).1 q hq) hparent

private theorem Timely.descending (h : g.Timely) (hl : g.Lineage id line) : Descending line :=
  hl.precedes.imp_of_mem fun ha hb hab => h.before (hl.subset hb) (hl.subset ha) hab

private theorem Timely.root_before (h : g.Timely) (hl : g.Lineage id line) {root s : Snapshot}
    (hroot : line.getLast? = some root) (hs : s ∈ line) :
    s = root ∨ root.timestamp.before s.timestamp = true := by
  obtain ⟨front, rfl⟩ := List.getLast?_eq_some_iff.mp hroot
  rcases List.mem_append.mp hs with hs | hs
  · exact .inr ((List.pairwise_append.mp (h.descending hl)).2.2 s hs root List.mem_cons_self)
  · exact .inl (List.mem_singleton.mp hs)

end Graph

namespace Table

/-- The target is the first snapshot of the lineage that is before the time. -/
theorem resolveTime_eq {σ : Type} {t : Table σ} (hp : t.poisoned = false) (hg : t.graph.Grounded)
    (ht : t.graph.Timely) {base : Option SnapshotId} {line : List Snapshot} (hl : t.graph.Lineage base line)
    (time : Instant) :
    t.resolveTime base time =
      match line.find? fun s => s.timestamp.before time with
      | some s => .ok s.id
      | none => .error (.noSnapshotBeforeTime time) := by
  have hlatest : latestSnapshot? (line.filter fun s => s.timestamp.before time) =
      line.find? fun s => s.timestamp.before time := by
    have hfiltered : Descending (line.filter fun s => s.timestamp.before time) :=
      List.Pairwise.filter _ (ht.descending hl)
    rw [hfiltered.latest, List.head?_filter]
  cases base with
  | none =>
    cases hl
    rfl
  | some tip =>
    rw [← hlatest, resolveTime, ancestors_sound hp hg hl]
    rfl

def rollbackBefore {σ : Type} [PointerStore σ] (t : Table σ) (time : Instant) :
    Except TableError Snapshot × Table σ :=
  match t.beginRollback with
  | (.error e, t) => (.error e, t)
  | (.ok r, t) => t.commitRollback { r with target := some (.before time) }

end Table

variable {t : Table MemoryPointer} {line : List Snapshot}

structure Retraces (t : Table MemoryPointer) (line : List Snapshot) : Prop where
  lineage : t.graph.Lineage t.pointer.value line
  walk : ∀ tip, t.pointer.value = some tip → t.ancestors none tip = .ok line
  /-- It goes to the first snapshot of its lineage that is before the time. Where that is current, it does
  nothing at all; where there is none, it says so and does nothing either. -/
  answer : ∀ time, t.rollbackBefore time =
    match line.find? fun s => s.timestamp.before time with
    | some s => (.ok s, if t.pointer.value = some s.id then t else t.rewound s)
    | none => (.error (.noSnapshotBeforeTime time), t)
  absent : ∀ time, (t.rollbackBefore time).1 = .error (.noSnapshotBeforeTime time) ↔
    t.graph.items = [] ∨
      ∃ root ∈ t.graph.items, root.parentId = none ∧ root.timestamp.before time = false
  /-- Snapshots of other branches are not chosen. -/
  chosen : ∀ time s, (t.rollbackBefore time).1 = .ok s → s ∈ line
  /-- A later time leads to the same snapshot or to one that it is an ancestor of. -/
  monotone : ∀ earlier later s, later.before earlier = false →
    (t.rollbackBefore earlier).1 = .ok s →
    ∃ q, (t.rollbackBefore later).1 = .ok q ∧ (s = q ∨ t.graph.Precedes s.id q.id)

namespace Numbered

/-- There is one root, and all lineages end at it. -/
theorem root_of_lineage (h : Numbered t) (hl : t.graph.Lineage t.pointer.value line) {root : Snapshot}
    (hroot : root ∈ t.graph.items) (hnone : root.parentId = none) : line.getLast? = some root := by
  cases hp : t.pointer.value with
  | none =>
    rw [h.empty hp] at hroot
    cases hroot
  | some tip =>
    obtain ⟨last, hlast, hends, hlastnone⟩ := hl.ends hp
    have hid : last.id = root.id := (h.root last hlast hlastnone).trans (h.root root hroot hnone).symm
    rwa [Keyed.eq_of_key_eq hlast hroot hid] at hends

private theorem find?_eq_none_iff (h : Numbered t) (ht : t.graph.Timely)
    (hl : t.graph.Lineage t.pointer.value line) (time : Instant) :
    (line.find? fun s => s.timestamp.before time) = none ↔ t.graph.items = [] ∨
      ∃ root ∈ t.graph.items, root.parentId = none ∧ root.timestamp.before time = false := by
  rw [List.find?_eq_none]
  constructor
  · intro hall
    cases hp : t.pointer.value with
    | none => exact .inl (h.empty hp)
    | some tip =>
      obtain ⟨root, hroot, hends, hnone⟩ := hl.ends hp
      exact .inr ⟨root, hroot, hnone, Bool.eq_false_iff.mpr (hall root (List.mem_of_getLast? hends))⟩
  · rintro (hempty | ⟨root, hroot, hnone, hlate⟩) s hs hbefore
    · have hmem := hl.subset hs
      rw [hempty] at hmem
      cases hmem
    · rcases ht.root_before hl (h.root_of_lineage hl hroot hnone) hs with rfl | hroots
      · rw [hlate] at hbefore
        cases hbefore
      · rw [Instant.before_mono hroots (Instant.before_asymm hbefore)] at hlate
        cases hlate

private theorem rollbackBefore_eq (h : Numbered t) (ht : t.graph.Timely) (hp : t.poisoned = false)
    (hl : t.graph.Lineage t.pointer.value line) (time : Instant) :
    t.rollbackBefore time =
      match line.find? fun s => s.timestamp.before time with
      | some s => (.ok s, if t.pointer.value = some s.id then t else t.rewound s)
      | none => (.error (.noSnapshotBeforeTime time), t) := by
  have hbegun : t.rollbackBefore time =
      t.commitRollback { base := t.pointer.value, target := some (.before time) } := rfl
  rw [hbegun, Table.commitRollback]
  dsimp only
  rw [Table.resolveTime_eq hp h.grounded ht hl]
  cases hfind : line.find? fun s => s.timestamp.before time with
  | none => rfl
  | some s => exact Table.movePointer_current hp (hl.subset (List.mem_of_find?_eq_some hfind))

private theorem retraces (h : Numbered t) (ht : t.graph.Timely) (hp : t.poisoned = false)
    (hl : t.graph.Lineage t.pointer.value line) : Retraces t line := by
  have hanswer := h.rollbackBefore_eq ht hp hl
  have hok : ∀ time s, (t.rollbackBefore time).1 = .ok s ↔
      (line.find? fun s => s.timestamp.before time) = some s := by
    intro time s
    rw [hanswer]
    cases line.find? fun s => s.timestamp.before time <;> simp
  refine ⟨hl, ?_, hanswer, ?_, ?_, ?_⟩
  · intro tip htip
    exact Table.ancestors_sound hp h.grounded (htip ▸ hl)
  · intro time
    rw [← h.find?_eq_none_iff ht hl, hanswer]
    cases line.find? fun s => s.timestamp.before time <;> simp
  · intro time s hs
    exact List.mem_of_find?_eq_some ((hok time s).mp hs)
  · intro earlier later s hle hs
    have hweaker : ∀ q ∈ line, q.timestamp.before earlier = true → q.timestamp.before later = true :=
      fun _ _ hq => Instant.before_mono hq hle
    obtain ⟨q, hq, hsq⟩ := find?_weaker hl.precedes hweaker ((hok earlier s).mp hs)
    exact ⟨q, (hok later q).mpr hq, hsq⟩

end Numbered

/-- Whatever the clock of a new table shows and whatever clients do to it, going back to a time retraces its
current lineage, unless a rule broke down. -/
theorem rollbackBefore_retraces {uuid : Uuid} {config : TableConfig} {clock : Clock}
    {created : Table MemoryPointer} (h : Table.create uuid config clock = .ok created)
    (validators : List Validator) (hr : Reaches (created.withValidators validators) t) :
    (Validator.Sturdy validators → t.poisoned = false) ∧
    (t.poisoned = false → ∃ line, Retraces t line) := by
  obtain rfl := Table.eq_of_create h
  have hn : Numbered t := (Numbered.fresh uuid config clock validators).reaches hr
  have ht : t.graph.Timely := hr.timely nofun
  obtain ⟨line, hl⟩ := hn.exists_current
  exact ⟨hr.unbroken rfl, fun hp => ⟨line, hn.retraces ht hp hl⟩⟩

def Clock.steady : Clock := ⟨fun n => 10000000 * n⟩

def Table.detoured : Table MemoryPointer :=
  let append (path : String) : Change := (Change.start .append).add { path }
  (Table.fresh 0#128 {} Clock.steady).after
    [.publish none [append "a"], .publish (some 1) [append "b"], .move (some 2) 1,
      .publish (some 1) [append "c"]]

/-- Before the time of 30 milliseconds it goes back to the first snapshot and not to the second, which is closer
but on the branch that was left; before 60 milliseconds it stays where it is, and nothing is before 0. -/
theorem rollbackBefore_retraces_detoured :
    let t := Table.detoured
    ∃ line, Retraces t line ∧ line.map Snapshot.id = [3, 1] ∧
      t.graph.items.map (fun s => s.timestamp.millis) = [0, 20, 50] ∧
      (t.rollbackBefore (Instant.ofNanos 30000000)).1.map Snapshot.id = .ok 1 ∧
      (t.rollbackBefore (Instant.ofNanos 60000000)).1.map Snapshot.id = .ok 3 ∧
      (t.rollbackBefore (Instant.ofNanos 60000000)).2.log = t.log ∧
      t.rollbackBefore (Instant.ofNanos 0) =
        (.error (.noSnapshotBeforeTime (Instant.ofNanos 0)), t) := by
  intro t
  have hcreate : Table.create 0#128 {} Clock.steady = .ok (Table.fresh 0#128 {} Clock.steady) := rfl
  have hr : Reaches ((Table.fresh 0#128 {} Clock.steady).withValidators Validator.standard) t :=
    Reaches.here.after _
  obtain ⟨hsound, hretraces⟩ := rollbackBefore_retraces hcreate Validator.standard hr
  obtain ⟨line, hline⟩ := hretraces (hsound Validator.sturdy_standard)
  have hids : (t.ancestors none 3).map (List.map Snapshot.id) = .ok [3, 1] := by decide +kernel
  rw [hline.walk 3 (by decide +kernel)] at hids
  refine ⟨line, hline, Except.ok.inj hids, by decide +kernel, by decide +kernel, by decide +kernel,
    by decide +kernel, ?_⟩
  have hroot : ∃ root ∈ t.graph.items, root.parentId = none ∧
      root.timestamp.before (Instant.ofNanos 0) = false := by decide +kernel
  have hnone := (hline.absent (Instant.ofNanos 0)).mpr (.inr hroot)
  rw [hline.answer] at hnone ⊢
  split at hnone
  · cases hnone
  · rfl

end SnapshotTable
