import SnapshotTable.Lineage.Graph
import SnapshotTable.Proofs.ProducedAuthors

/-! Chains of produced snapshots. A replay that succeeds yields one snapshot for each change, in
order: the first on top of the replay's parent, each other one on top of the one before it, each
accepted against the files of exactly that parent, under consecutive identifiers. Such a chain can
be published behind everything that a graph holds. -/

namespace SnapshotTable

def topOf (parent : Option Snapshot) (chain : List Snapshot) : Option Snapshot :=
  chain.getLast?.or parent

@[simp] theorem topOf_nil (parent : Option Snapshot) : topOf parent [] = parent := rfl

@[simp] theorem topOf_cons (parent : Option Snapshot) (s : Snapshot) (chain : List Snapshot) :
    topOf parent (s :: chain) = topOf (some s) chain := by
  cases h : chain.getLast? <;> simp [topOf, List.getLast?_cons, h]

/-- The top of a chain that goes on is the top of what it goes on with. -/
theorem topOf_append (parent : Option Snapshot) (chain more : List Snapshot) :
    topOf parent (chain ++ more) = topOf (topOf parent chain) more := by
  simp [topOf, List.getLast?_append, Option.or_assoc]

def Linked : Option SnapshotId → List Snapshot → Prop
  | _, [] => True
  | base, s :: rest => s.parentId = base ∧ Linked (some s.id) rest

namespace Production

/-- A chain made of changes on top of a parent, from an identifier on: each change was accepted
against the files of the snapshot that it was built on. -/
inductive Builds (p : Production) :
    Option Snapshot → SnapshotId → List Change → List Snapshot → Prop
  | nil {parent : Option Snapshot} {id : SnapshotId} : Builds p parent id [] []
  | cons {parent : Option Snapshot} {id : SnapshotId} {change : Change} {rest : List Change}
      {chain : List Snapshot} (fresh : ManifestId) (now : Instant)
      (accepted : Validator.evaluate (filesAt parent) change p.validators = .ok ())
      (later : Builds p (some (p.build parent id change fresh now)) (id + 1) rest chain) :
      Builds p parent id (change :: rest) (p.build parent id change fresh now :: chain)

variable {p : Production}

/-- A replay that succeeds builds its chain. -/
theorem builds_of_replay {parent : Option Snapshot} {id : SnapshotId} {changes : List Change}
    {supply left : Supply} {chain : List Snapshot}
    (h : p.replay parent id changes supply = (.ok chain, left)) :
    p.Builds parent id changes chain := by
  induction changes generalizing parent id supply chain with
  | nil => cases h; exact .nil
  | cons change rest ih =>
    rw [replay, produce] at h
    cases hv : Validator.evaluate (filesAt parent) change p.validators with
    | error refusal => simp [hv] at h
    | ok _ =>
      simp only [hv] at h
      split at h
      · cases h
      · rename_i hrest
        cases h
        exact .cons _ _ hv (ih hrest)

/-- The replay of one accepted change is the snapshot of it. -/
theorem replay_single {parent : Option Snapshot} {change : Change}
    (h : Validator.evaluate (filesAt parent) change p.validators = .ok ()) (id : SnapshotId)
    (supply : Supply) : ∃ left, p.replay parent id [change] supply =
      (.ok [p.build parent id change supply.freshManifest supply.clock.now], left) := by
  simp only [replay, produce, h]
  exact ⟨_, rfl⟩

/-- Rules that nothing breaks down let no replay crash. -/
theorem replay_ne_crashed (h : Validator.Sturdy p.validators) (parent : Option Snapshot)
    (id : SnapshotId) (changes : List Change) (supply : Supply) :
    (p.replay parent id changes supply).1 ≠ .error .crashed := by
  induction changes generalizing parent id supply with
  | nil => simp [replay]
  | cons change rest ih =>
    rw [replay, produce]
    cases hv : Validator.evaluate (filesAt parent) change p.validators with
    | error refusal =>
      cases refusal with
      | rejected violation => simp
      | crashed => exact absurd hv (Validator.evaluate_ne_crashed h _ _)
    | ok _ =>
      simp only
      split
      · rename_i hrest
        intro hc
        exact ih _ _ _ (hrest ▸ hc)
      · simp

namespace Builds

/-- What every snapshot of a chain is like, if being built makes it so on a parent that keeps an
invariant, and the snapshot keeps it as the next parent. -/
theorem forall_built {parent : Option Snapshot} {id : SnapshotId} {changes : List Change}
    {chain : List Snapshot} (h : p.Builds parent id changes chain)
    {P : Option Snapshot → SnapshotId → Prop} {Q : Snapshot → Prop} (start : P parent id)
    (built : ∀ {parent id} change fresh now, P parent id →
      Q (p.build parent id change fresh now) ∧
        P (some (p.build parent id change fresh now)) (id + 1)) : ∀ s ∈ chain, Q s := by
  induction h with
  | nil => nofun
  | @cons _ _ change _ _ fresh now _ _ ih =>
    obtain ⟨hfirst, hnext⟩ := built change fresh now start
    exact List.forall_mem_cons.mpr ⟨hfirst, ih hnext⟩

/-- A chain has one snapshot for each change. -/
theorem length_eq {parent : Option Snapshot} {id : SnapshotId} {changes : List Change}
    {chain : List Snapshot} (h : p.Builds parent id changes chain) :
    chain.length = changes.length := by
  induction h with
  | nil => rfl
  | cons _ _ _ _ ih => simp [ih]

/-- The identifiers of a chain follow each other from the first one on. -/
theorem ids_eq {parent : Option Snapshot} {id : SnapshotId} {changes : List Change}
    {chain : List Snapshot} (h : p.Builds parent id changes chain) :
    chain.map Snapshot.id = List.range' id chain.length := by
  induction h with
  | nil => rfl
  | cons _ _ _ _ ih =>
    rw [List.map_cons, ih, List.length_cons, List.range'_succ]
    rfl

/-- Each snapshot of a chain has the one before it as its parent. -/
theorem linked {parent : Option Snapshot} {id : SnapshotId} {changes : List Change}
    {chain : List Snapshot} (h : p.Builds parent id changes chain) :
    Linked (parent.map Snapshot.id) chain := by
  induction h with
  | nil => trivial
  | cons _ _ _ _ ih => exact ⟨rfl, ih⟩

/-- A chain that is made on top of another one continues it. -/
theorem append {parent : Option Snapshot} {id : SnapshotId} {changes more : List Change}
    {chain added : List Snapshot} (h : p.Builds parent id changes chain)
    (h' : p.Builds (topOf parent chain) (id + chain.length) more added) :
    p.Builds parent id (changes ++ more) (chain ++ added) := by
  induction h with
  | nil => simpa using h'
  | cons fresh now accepted _ ih =>
    refine .cons fresh now accepted (ih ?_)
    rwa [topOf_cons, List.length_cons, ← Nat.add_assoc, Nat.add_right_comm] at h'

private theorem ids_increase {parent : Option Snapshot} {id : SnapshotId} {changes : List Change}
    {chain : List Snapshot} (h : p.Builds parent id changes chain) :
    chain.Pairwise fun a b => a.id < b.id := by
  apply List.pairwise_map.mp
  rw [h.ids_eq]
  exact List.pairwise_lt_range'

/-- The identifiers of a chain lie in the range that starts with the first. -/
theorem id_le {parent : Option Snapshot} {id : SnapshotId} {changes : List Change}
    {chain : List Snapshot} (h : p.Builds parent id changes chain) {s : Snapshot} (hs : s ∈ chain) :
    id ≤ s.id ∧ s.id < id + chain.length := by
  have hm : s.id ∈ chain.map Snapshot.id := List.mem_map_of_mem hs
  rw [h.ids_eq, List.mem_range'_1] at hm
  exact hm

private theorem last_id {parent : Option Snapshot} {id : SnapshotId} {changes : List Change}
    {chain : List Snapshot} (h : p.Builds parent id changes chain) {last : Snapshot}
    (hl : chain.getLast? = some last) : last.id + 1 = id + chain.length := by
  obtain ⟨front, rfl⟩ := List.getLast?_eq_some_iff.mp hl
  have hids := h.ids_eq
  rw [List.length_append, List.length_singleton, List.range'_1_concat, List.map_append,
    List.map_singleton] at hids
  have hlast : last.id = id + front.length :=
    List.singleton_inj.mp (List.append_inj_right' hids (by simp))
  rw [hlast, List.length_append, List.length_singleton, Nat.add_assoc]

/-- A chain starts with the identifier that it was asked for. -/
theorem head_id {parent : Option Snapshot} {id : SnapshotId} {changes : List Change}
    {chain : List Snapshot} (h : p.Builds parent id changes chain) {first : Snapshot}
    (hfirst : chain.head? = some first) : first.id = id := by
  cases h with
  | nil => cases hfirst
  | cons => exact congrArg Snapshot.id (Option.some.inj hfirst).symm

/-- A snapshot without a parent can only be the first of a chain that is built on nothing. -/
theorem root {parent : Option Snapshot} {id : SnapshotId} {changes : List Change}
    {chain : List Snapshot} (h : p.Builds parent id changes chain) {s : Snapshot} (hs : s ∈ chain)
    (hnone : s.parentId = none) : parent = none ∧ chain.head? = some s := by
  induction h with
  | nil => cases hs
  | cons _ _ _ _ ih =>
    rcases List.mem_cons.mp hs with rfl | hs
    · exact ⟨Option.map_eq_none_iff.mp hnone, rfl⟩
    · exact absurd (ih hs).1 (by simp)

end Builds
end Production

namespace Graph
variable {p : Production} {g : Graph} {parent : Option Snapshot} {changes : List Change}
  {chain : List Snapshot}

/-- The snapshot that a base names is published. -/
theorem mem_of_resolve {base : Option SnapshotId} (h : g.resolve base = .ok parent)
    {q : Snapshot} (hq : parent = some q) : q ∈ g.items := by
  subst hq
  cases base with
  | none => cases h
  | some id =>
    rw [resolve, find] at h
    split at h
    · cases h
      exact Keyed.mem_of_get? ‹_›
    · cases h

/-- A base is the identifier of the snapshot that it resolves to. -/
theorem resolve_id {base : Option SnapshotId} (h : g.resolve base = .ok parent) :
    base = parent.map Snapshot.id := by
  cases base with
  | none => cases h; rfl
  | some id =>
    rw [resolve, find] at h
    split at h
    · rename_i s hs
      cases h
      exact congrArg some (Keyed.key_of_get? hs).symm
    · cases h

/-- A base fails to resolve only by not being published. -/
theorem resolve_error {base : Option SnapshotId} {e : TableError} (h : g.resolve base = .error e) :
    ∃ id, e = .snapshotNotFound id := by
  cases base with
  | none => cases h
  | some id =>
    rw [resolve, find] at h
    split at h
    · cases h
    · cases h
      exact ⟨id, rfl⟩

/-- The identifier of a published snapshot resolves to it, and none to none. -/
theorem resolve_of_mem (h : ∀ q, parent = some q → q ∈ g.items) :
    g.resolve (parent.map Snapshot.id) = .ok parent := by
  cases parent with
  | none => rfl
  | some q =>
    have hq : g.get? q.id = some q := Keyed.get?_eq_some_iff.mpr ⟨h q rfl, rfl⟩
    simp only [Option.map_some, resolve, find, hq]
    rfl

/-- The top of a chain is found in a graph into which the chain was published. -/
theorem resolve_topOf {g' : Graph} {base : Option SnapshotId} (h : g.resolve base = .ok parent)
    (hg : g'.items = g.items ++ chain) :
    g'.resolve ((topOf parent chain).map Snapshot.id) = .ok (topOf parent chain) := by
  apply resolve_of_mem
  intro q hq
  rw [hg]
  rcases Option.or_eq_some_iff.mp hq with hlast | ⟨-, hq⟩
  · exact List.mem_append_right _ (List.mem_of_getLast? hlast)
  · exact List.mem_append_left _ (mem_of_resolve h hq)

/-- The next identifier is behind all that are published. -/
theorem id_lt_nextId {s : Snapshot} (h : s ∈ g.items) : s.id < g.nextId := by
  cases hl : g.items.getLast? with
  | none => simp [List.getLast?_eq_none_iff.mp hl] at h
  | some last =>
    have hle : s.id ≤ last.id := by
      obtain ⟨front, hfront⟩ := List.getLast?_eq_some_iff.mp hl
      have ho := g.ordered
      rw [hfront, List.pairwise_append] at ho
      rw [hfront] at h
      rcases List.mem_append.mp h with h | h
      · exact Nat.le_of_lt (ho.2.2 s h last List.mem_cons_self)
      · exact Nat.le_of_eq (congrArg Snapshot.id (List.mem_singleton.mp h))
    simp only [nextId, lastId?, hl, Option.map_some]
    exact Nat.lt_succ_of_le hle

private theorem validateFrom_builds {id : SnapshotId} (h : p.Builds parent id changes chain)
    {last : Option SnapshotId} {staged : List SnapshotId} (hlast : ∀ l, last = some l → l < id)
    (hparent : ∀ q, parent = some q → q.id ∈ staged ∨ g.contains q.id = true) :
    g.validateFrom last staged chain = .ok () := by
  induction h generalizing last staged with
  | nil => rfl
  | @cons parent id change rest chain fresh now accepted later ih =>
    -- What is staged grows with the chain, so the next parent is always found there.
    have hnext : g.validateFrom (some id) (id :: staged) chain = .ok () := by
      apply ih
      · intro l hl
        cases hl
        exact Nat.lt_succ_self _
      · intro q hq
        cases hq
        exact .inl List.mem_cons_self
    rw [validateFrom]
    split
    · rename_i hc
      obtain ⟨l, rfl, hle⟩ := (Option.any_eq_true _ _).mp hc
      exact absurd (of_decide_eq_true hle) (Nat.not_le.mpr (hlast l rfl))
    · cases parent with
      | none => exact hnext
      | some q =>
        have hq : (staged.contains q.id || g.contains q.id) = true := by
          rw [Bool.or_eq_true, List.contains_iff_mem]
          exact hparent q rfl
        exact (if_pos hq).trans hnext

/-- A chain built from the next identifier on can be published. -/
theorem validateChain_builds (h : p.Builds parent g.nextId changes chain)
    (hparent : ∀ q, parent = some q → q ∈ g.items) : g.validateChain chain = .ok () := by
  apply validateFrom_builds h
  · intro l hl
    obtain ⟨s, hs, rfl⟩ := Option.map_eq_some_iff.mp hl
    exact id_lt_nextId (List.mem_of_getLast? hs)
  · intro q hq
    exact .inr (Keyed.contains_iff.mpr ⟨q, hparent q hq, rfl⟩)

/-- Publishing such a chain puts it behind everything published before. -/
theorem items_extend (h : p.Builds parent g.nextId changes chain) :
    (g.extend chain).items = g.items ++ chain := by
  apply Keyed.items_foldl_insert _ h.ids_increase
  intro s hs q hq
  exact Nat.lt_of_lt_of_le (id_lt_nextId hs) (h.id_le hq).1

/-- Behind a chain that was built from the next identifier on comes the one after its last. -/
theorem nextId_append {g' : Graph} (h : p.Builds parent g.nextId changes chain)
    (hg : g'.items = g.items ++ chain) : g'.nextId = g.nextId + chain.length := by
  cases hl : chain.getLast? with
  | none =>
    cases List.getLast?_eq_none_iff.mp hl
    rw [List.append_nil] at hg
    rw [nextId, nextId, lastId?, lastId?, hg]
    rfl
  | some last =>
    rw [← h.last_id hl, nextId, lastId?, hg, List.getLast?_append, hl]
    rfl

end Graph
end SnapshotTable
