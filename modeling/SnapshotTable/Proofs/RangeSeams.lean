import Mathlib.Logic.Relation
import SnapshotTable.Proofs.Readings
import SnapshotTable.Proofs.ReplayChain

/-! Ranges that are read in parts. In a graph that grew by checked chains, the range behind `a` up to `c` is
the range up to any snapshot `b` in between, and behind it the range from `b` on. So a plan of the whole is
the plans of the parts in a row, and the overwrite that it fails for is that of the older part, if this one
fails, and of the newer part otherwise. -/

namespace SnapshotTable

namespace Graph
variable {g g' : Graph} {a b c : SnapshotId}

/-- The graphs that an empty one becomes where chains and single snapshots are checked before they are
published. What the snapshots hold is not looked at. -/
inductive Built : Graph → Prop
  | empty : Built Keyed.empty
  | extend {g : Graph} {chain : List Snapshot} (h : Built g)
      (valid : g.validateChain chain = .ok ()) : Built (g.extend chain)
  | publish {g g' : Graph} {s : Snapshot} (h : Built g) (published : g.publish s = .ok g') : Built g'

private theorem validateFrom_ok {last : Option SnapshotId} {staged : List SnapshotId}
    {chain : List Snapshot} (h : g.validateFrom last staged chain = .ok ()) :
    (∀ l, last = some l → ∀ s ∈ chain, l < s.id) ∧ (chain.Pairwise fun s q => s.id < q.id) ∧
      ∀ s ∈ chain, ∀ p, s.parentId = some p →
        p ∈ staged ∨ g.contains p = true ∨ ∃ q ∈ chain, q.id = p ∧ q.id < s.id := by
  induction chain generalizing last staged with
  | nil => exact ⟨nofun, .nil, nofun⟩
  | cons s rest ih =>
    rw [validateFrom] at h
    split at h
    · cases h
    rename_i hlast
    -- Whether it has a parent or not, the rest of the chain is checked behind this snapshot.
    have hrest : g.validateFrom (some s.id) (s.id :: staged) rest = .ok () ∧
        ∀ p, s.parentId = some p → p ∈ staged ∨ g.contains p = true := by
      split at h
      · rename_i hnone
        exact ⟨h, by simp [hnone]⟩
      · rename_i parent hparent
        split at h
        · rename_i hknown
          refine ⟨h, ?_⟩
          rintro p hp
          obtain rfl : parent = p := Option.some.inj (hparent.symm.trans hp)
          simpa using hknown
        · cases h
    obtain ⟨hrest, hparent⟩ := hrest
    obtain ⟨hbehind, hordered, hparents⟩ := ih hrest
    have hfirst : ∀ l, last = some l → l < s.id := by
      rintro l rfl
      simpa using hlast
    refine ⟨?_, List.pairwise_cons.mpr ⟨hbehind s.id rfl, hordered⟩, ?_⟩
    · intro l hl q hq
      rcases List.mem_cons.mp hq with rfl | hq
      · exact hfirst l hl
      · exact Nat.lt_trans (hfirst l hl) (hbehind s.id rfl q hq)
    · intro q hq p hp
      rcases List.mem_cons.mp hq with rfl | hq
      · exact (hparent p hp).imp_right .inl
      · rcases hparents q hq p hp with hp | hp | ⟨r, hr, hid, hlt⟩
        · rcases List.mem_cons.mp hp with rfl | hp
          · exact .inr (.inr ⟨s, List.mem_cons_self, rfl, hbehind s.id rfl q hq⟩)
          · exact .inl hp
        · exact .inr (.inl hp)
        · exact .inr (.inr ⟨r, List.mem_cons_of_mem _ hr, hid, hlt⟩)

private theorem id_le_lastId {l : SnapshotId} (h : g.lastId? = some l) {s : Snapshot}
    (hs : s ∈ g.items) :
    s.id ≤ l := by
  have hlt := id_lt_nextId hs
  rw [nextId, h] at hlt
  exact Nat.le_of_lt_succ hlt

/-- A checked chain goes behind everything published before. -/
theorem items_extend_checked {chain : List Snapshot} (h : g.validateChain chain = .ok ()) :
    (g.extend chain).items = g.items ++ chain := by
  obtain ⟨hbehind, hordered, -⟩ := validateFrom_ok h
  apply Keyed.items_foldl_insert _ hordered
  intro s hs q hq
  cases hl : g.lastId? with
  | none =>
    have hnil : g.items = [] := by simpa [lastId?] using hl
    rw [hnil] at hs
    cases hs
  | some l => exact Nat.lt_of_le_of_lt (id_le_lastId hl hs) (hbehind l hl q hq)

/-- A checked chain goes behind its parents. -/
theorem Grounded.extend (hg : g.Grounded) {chain : List Snapshot}
    (h : g.validateChain chain = .ok ()) : (g.extend chain).Grounded := by
  obtain ⟨hbehind, -, hparents⟩ := validateFrom_ok h
  intro s hs p hp
  rw [items_extend_checked h] at hs ⊢
  rcases List.mem_append.mp hs with hs | hs
  · obtain ⟨q, hq, hid, hlt⟩ := hg s hs p hp
    exact ⟨q, List.mem_append_left _ hq, hid, hlt⟩
  · rcases hparents s hs p hp with hp | hp | ⟨q, hq, hid, hlt⟩
    · cases hp
    · obtain ⟨q, hq, hid⟩ := Keyed.contains_iff.mp hp
      refine ⟨q, List.mem_append_left _ hq, hid, ?_⟩
      obtain ⟨last, hlast⟩ : ∃ l, g.lastId? = some l := by
        cases hl : g.items.getLast? with
        | none => simp [List.getLast?_eq_none_iff.mp hl] at hq
        | some r => exact ⟨r.id, by rw [lastId?, hl]; rfl⟩
      exact Nat.lt_of_le_of_lt (id_le_lastId hlast hq) (hbehind last hlast s hs)
    · exact ⟨q, List.mem_append_right _ hq, hid, hlt⟩

/-- A graph that checks what it publishes has every parent before its children. -/
theorem Built.grounded (h : Built g) : g.Grounded := by
  induction h with
  | empty => exact nofun
  | extend _ valid ih => exact ih.extend valid
  | @publish g g' s _ published ih =>
    rw [Graph.publish] at published
    cases hvalid : g.validateChain [s] with
    | error e =>
      rw [hvalid] at published
      cases published
    | ok _ =>
      rw [hvalid] at published
      cases published
      exact ih.extend hvalid

def IsParent (g : Graph) (a b : SnapshotId) : Prop := ∃ s ∈ g.items, s.id = b ∧ s.parentId = some a

def Precedes (g : Graph) : SnapshotId → SnapshotId → Prop := Relation.TransGen g.IsParent

/-- The lineage of `b`, cut in front of its proper ancestor `a`. What is in front of the cut is behind `a` in
the order of identifiers. -/
structure Cut (g : Graph) (a b : SnapshotId) (newer older : List Snapshot) : Prop where
  lineage : g.Lineage (some b) (newer ++ older)
  ancestor : g.Lineage (some a) older
  between : ∀ s ∈ newer, a < s.id ∧ s.id ≤ b
  proper : a < b

namespace Cut
variable {newer middle older : List Snapshot}

/-- The range behind an ancestor is what is in front of it on the lineage. -/
theorem range (h : g.Cut a b newer older) (hg : g.Grounded) : g.range a b = .ok newer := by
  obtain ⟨q, hq, rfl⟩ := h.ancestor.published
  obtain ⟨rest, rfl, -⟩ := h.ancestor.eq_cons hq
  have hon : ∃ s ∈ newer ++ q :: rest, s.id = q.id := ⟨q, by simp, rfl⟩
  have hwhile : (newer ++ q :: rest).takeWhile (fun s => s.id ≠ q.id) = newer := by
    rw [List.takeWhile_append_of_pos, List.takeWhile_cons]
    · simp
    · intro s hs
      simpa using Nat.ne_of_gt (h.between s hs).1
  rw [h.lineage.range hg (Nat.ne_of_lt h.proper) ⟨q, hq, rfl⟩, cutAt, if_pos hon, hwhile]

/-- Two cuts of one lineage, one behind the other, are one cut at the older ancestor. -/
theorem trans (h : g.Cut a b middle older) (h' : g.Cut b c newer (middle ++ older)) :
    g.Cut a c (newer ++ middle) older where
  lineage := by
    rw [List.append_assoc]
    exact h'.lineage
  ancestor := h.ancestor
  between := by
    intro s hs
    rcases List.mem_append.mp hs with hs | hs
    · obtain ⟨hlow, hhigh⟩ := h'.between s hs
      exact ⟨Nat.lt_trans h.proper hlow, hhigh⟩
    · obtain ⟨hlow, hhigh⟩ := h.between s hs
      exact ⟨hlow, Nat.le_trans hhigh (Nat.le_of_lt h'.proper)⟩
  proper := Nat.lt_trans h.proper h'.proper

private theorem subset (h : g.Cut a b newer older) : newer ⊆ g.items :=
  fun _ hs => h.lineage.subset (List.mem_append_left _ hs)

end Cut

/-- The lineage of a snapshot has a cut at each of its proper ancestors. The induction is on the path between
them, from the ancestor on. -/
theorem Precedes.cut (h : g.Precedes a b) (hg : g.Grounded) :
    ∃ newer older, g.Cut a b newer older := by
  have hstep {p n : SnapshotId} (hparent : g.IsParent p n) {older : List Snapshot}
      (holder : g.Lineage (some p) older) : ∃ s, g.Cut p n [s] older := by
    obtain ⟨s, hs, rfl, hp⟩ := hparent
    obtain ⟨q, -, rfl, hlt⟩ := hg s hs p hp
    exact ⟨s, .step hs (hp ▸ holder), holder, by simpa using hlt, hlt⟩
  induction h with
  | single hparent =>
    obtain ⟨s, hs, hid, hp⟩ := hparent
    obtain ⟨q, hq, rfl, -⟩ := hg s hs a hp
    obtain ⟨older, holder⟩ := hg.exists_lineage hq
    obtain ⟨s, hcut⟩ := hstep ⟨s, hs, hid, hp⟩ holder
    exact ⟨[s], older, hcut⟩
  | tail _ hparent ih =>
    obtain ⟨newer, older, hcut⟩ := ih
    obtain ⟨s, hlast⟩ := hstep hparent hcut.lineage
    exact ⟨[s] ++ newer, older, hcut.trans hlast⟩

structure Seamless (g : Graph) (a b c : SnapshotId) : Prop where
  planned : (∃ tasks, g.planAppends a c = .ok tasks) ↔
    (∃ xs, g.planAppends a b = .ok xs) ∧ ∃ ys, g.planAppends b c = .ok ys
  /-- The tasks are those of the parts in a row, and none is in both. -/
  tasks : ∀ xs ys, g.planAppends a b = .ok xs → g.planAppends b c = .ok ys →
    g.planAppends a c = .ok (xs ++ ys) ∧ ∀ x ∈ xs, ∀ y ∈ ys, x.snapshotId ≤ b ∧ b < y.snapshotId
  /-- The older part fails for an overwrite, and then the whole fails for the same one. -/
  older : ∀ e, g.planAppends a b = .error e → ∃ s ∈ g.items, s.operation = .overwrite ∧
    e = .unsupportedIncrementalOperation s.id .overwrite a b ∧
    g.planAppends a c = .error (.unsupportedIncrementalOperation s.id .overwrite a c)
  /-- Otherwise the newer part decides. -/
  newer : ∀ xs e, g.planAppends a b = .ok xs → g.planAppends b c = .error e →
    ∃ s ∈ g.items, s.operation = .overwrite ∧
      e = .unsupportedIncrementalOperation s.id .overwrite b c ∧
      g.planAppends a c = .error (.unsupportedIncrementalOperation s.id .overwrite a c)

/-- The seam of two cuts of one lineage, one behind the other. -/
theorem Cut.seamless (hg : g.Grounded) {newer middle older : List Snapshot}
    (hab : g.Cut a b middle older) (hbc : g.Cut b c newer (middle ++ older)) : g.Seamless a b c := by
  have hac := hab.trans hbc
  have hover {s : Snapshot} {part : List Snapshot} (hp : part ⊆ g.items)
      (h : part.reverse.find? (fun s => s.operation = .overwrite) = some s) :
      s ∈ g.items ∧ s.operation = .overwrite :=
    ⟨hp (List.mem_reverse.mp (List.mem_of_find?_eq_some h)), by simpa using List.find?_some h⟩
  have hwhole := planAppends_of_range (hac.range hg)
  rw [List.reverse_append, List.find?_append, List.flatMap_append] at hwhole
  have holder := planAppends_of_range (hab.range hg)
  have hnewer := planAppends_of_range (hbc.range hg)
  -- The oldest overwrite of the whole is that of the older part, or else that of the newer part.
  cases ho : middle.reverse.find? fun s => s.operation = .overwrite with
  | some s =>
    simp only [ho, Option.some_or] at holder hwhole
    obtain ⟨hs, hop⟩ := hover hab.subset ho
    exact {
      planned := by simp [holder, hwhole]
      tasks := by simp [holder]
      older := by
        intro e he
        exact ⟨s, hs, hop, (Except.error.inj (holder.symm.trans he)).symm, hwhole⟩
      newer := by simp [holder] }
  | none =>
    simp only [ho, Option.none_or] at holder hwhole
    cases hn : newer.reverse.find? fun s => s.operation = .overwrite with
    | some s =>
      simp only [hn] at hnewer hwhole
      obtain ⟨hs, hop⟩ := hover hbc.subset hn
      exact {
        planned := by simp [hnewer, hwhole]
        tasks := by simp [hnewer]
        older := by simp [holder]
        newer := by
          intro xs e _ he
          exact ⟨s, hs, hop, (Except.error.inj (hnewer.symm.trans he)).symm, hwhole⟩ }
    | none =>
      simp only [hn] at hnewer hwhole
      refine ⟨by simp [holder, hnewer, hwhole], ?_, by simp [holder], by simp [hnewer]⟩
      intro xs ys hxs hys
      obtain rfl := Except.ok.inj (holder.symm.trans hxs)
      obtain rfl := Except.ok.inj (hnewer.symm.trans hys)
      refine ⟨hwhole, ?_⟩
      intro x hx y hy
      obtain ⟨s, hs, hx⟩ := List.mem_flatMap.mp hx
      obtain ⟨q, hq, hy⟩ := List.mem_flatMap.mp hy
      rw [Snapshot.snapshotId_of_mem_tasks hx, Snapshot.snapshotId_of_mem_tasks hy]
      exact ⟨(hab.between s (List.mem_reverse.mp hs)).2, (hbc.between q (List.mem_reverse.mp hq)).1⟩

/-- Whoever reads the range up to an ancestor and then the range from it on has read the whole range, once,
and meets the overwrite that the whole range fails for. -/
theorem planAppends_seamless (h : g.Built) (hab : g.Precedes a b) (hbc : g.Precedes b c) :
    g.Seamless a b c := by
  have hg := h.grounded
  obtain ⟨middle, older, hcut⟩ := hab.cut hg
  obtain ⟨newer, line, hcut'⟩ := hbc.cut hg
  obtain rfl := hcut.lineage.unique hcut'.ancestor
  exact hcut.seamless hg hcut'

def twoBranches : Graph :=
  let made (id : SnapshotId) (parentId : Option SnapshotId) (operation : Operation) (path : String) :
      Snapshot :=
    { id, parentId, operation
      timestamp := Instant.ofNanos 0
      manifests := [⟨id, id, [⟨.added, id, { path }⟩]⟩]
      summary := {} }
  extend
    (extend Keyed.empty
      [made 1 none .append "a", made 2 (some 1) .append "c", made 3 (some 2) .append "b"])
    [made 4 (some 2) .overwrite "d", made 5 (some 4) .append "e"]

/-- On the one branch the seam at 2 loses nothing; on the other one both the newer part and the whole fail
for the overwrite. -/
theorem planAppends_twoBranches :
    twoBranches.Seamless 1 2 3 ∧ twoBranches.Seamless 1 2 5 ∧
    twoBranches.planAppends 1 3 = .ok [⟨{ path := "c" }, 2⟩, ⟨{ path := "b" }, 3⟩] ∧
    twoBranches.planAppends 1 5 =
      .error (.unsupportedIncrementalOperation 4 .overwrite 1 5) := by
  have hbuilt : twoBranches.Built := .extend (.extend .empty (by decide)) (by decide)
  have hparent : ∀ pair ∈ [(1, 2), (2, 3), (2, 4), (4, 5)],
      ∃ s ∈ twoBranches.items, s.id = pair.2 ∧ s.parentId = some pair.1 := by decide
  have h12 : twoBranches.Precedes 1 2 := .single (hparent (1, 2) (by decide))
  have h23 : twoBranches.Precedes 2 3 := .single (hparent (2, 3) (by decide))
  have h25 : twoBranches.Precedes 2 5 :=
    .tail (.single (hparent (2, 4) (by decide))) (hparent (4, 5) (by decide))
  have happends := planAppends_seamless hbuilt h12 h23
  have hoverwrite := planAppends_seamless hbuilt h12 h25
  refine ⟨happends, hoverwrite, ?_, ?_⟩
  · exact (happends.tasks [⟨{ path := "c" }, 2⟩] [⟨{ path := "b" }, 3⟩] (by decide +kernel)
      (by decide +kernel)).1
  · obtain ⟨s, -, -, he, hwhole⟩ := hoverwrite.newer [⟨{ path := "c" }, 2⟩]
      (.unsupportedIncrementalOperation 4 .overwrite 2 5) (by decide +kernel) (by decide)
    obtain ⟨hid, -⟩ := TableError.unsupportedIncrementalOperation.inj he
    rw [hwhole, ← hid]

end Graph
end SnapshotTable
