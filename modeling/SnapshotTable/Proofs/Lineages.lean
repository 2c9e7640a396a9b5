import Mathlib.Data.List.TakeWhile
import SnapshotTable.Lineage.Appends
import SnapshotTable.Proofs.KeyedEntries

/-! Lineages in a graph of snapshots: a snapshot, its parent, and so on down to a root. Where every
parent is published and comes before its children, every published snapshot has exactly one, and a walk
is the lineage of its tip, cut in front of the base: lineages never come back to a snapshot, which is why
the bound on the steps does not cut a walk short. Snapshots published later are on no earlier lineage. -/

namespace SnapshotTable.Graph
section Sequence
variable {α β : Type}

private theorem sequence_map_ok (f : α → β) (xs : List α) :
    sequence (xs.map fun a => (.ok (f a) : Except TableError β)) = .ok (xs.map f) := by
  induction xs with
  | nil => rfl
  | cons a rest ih =>
    rw [List.map_cons, sequence, ih]
    rfl

private theorem sequence_map_ok_append_error (f : α → β) (xs : List α) (e : TableError)
    (rest : List (Except TableError β)) :
    sequence ((xs.map fun a => .ok (f a)) ++ .error e :: rest) = .error e := by
  induction xs with
  | nil => rfl
  | cons a xs ih =>
    rw [List.map_cons, List.cons_append, sequence, ih]
    rfl

/-- Where some values are refused, the first of these decides. -/
theorem sequence_map_ite (p : α → Bool) (err : α → TableError) (val : α → β) (xs : List α) :
    sequence (xs.map fun a => if p a = true then .error (err a) else .ok (val a)) =
      match xs.find? p with
      | some a => .error (err a)
      | none => .ok (xs.map val) := by
  induction xs with
  | nil => rfl
  | cons a rest ih =>
    rw [List.map_cons, List.find?_cons]
    cases hp : p a with
    | true => rfl
    | false =>
      rw [if_neg (by simp), sequence, ih]
      cases hf : rest.find? p with
      | some b => rfl
      | none => rfl

end Sequence

/-- The lineage of an identifier, newest snapshot first. -/
inductive Lineage (g : Graph) : Option SnapshotId → List Snapshot → Prop
  | root : Lineage g none []
  | step {s : Snapshot} {line : List Snapshot} (hs : s ∈ g.items)
      (older : Lineage g s.parentId line) : Lineage g (some s.id) (s :: line)

def Grounded (g : Graph) : Prop :=
  ∀ s ∈ g.items, ∀ id, s.parentId = some id → ∃ q ∈ g.items, q.id = id ∧ q.id < s.id

def walkEnd (base : Option SnapshotId) (tip : SnapshotId) (line : List Snapshot) :
    List (Except TableError Snapshot) :=
  match base with
  | some base =>
    if ∃ s ∈ line, s.id = base then [] else [.error (.unreachableAncestor base tip)]
  | none => []

def yielded (base : Option SnapshotId) (tip : SnapshotId) (line : List Snapshot) :
    List (Except TableError Snapshot) :=
  ((line.takeWhile fun s => base ≠ some s.id).map .ok) ++ walkEnd base tip line

/-- The part of a lineage in front of `base`, which must be on it; all of it without a base. -/
def cutAt (base : Option SnapshotId) (tip : SnapshotId) (line : List Snapshot) :
    Except TableError (List Snapshot) :=
  match base with
  | some base =>
    if ∃ s ∈ line, s.id = base then .ok (line.takeWhile fun s => s.id ≠ base)
    else .error (.unreachableAncestor base tip)
  | none => .ok line

variable {g g' : Graph} {id : Option SnapshotId} {line : List Snapshot} {s : Snapshot}

/-- A published snapshot is found under its identifier. -/
theorem get?_of_mem (h : s ∈ g.items) : g.get? s.id = some s := Keyed.get?_eq_some_iff.mpr ⟨h, rfl⟩

theorem find_of_mem (h : s ∈ g.items) : g.find s.id = .ok s := by
  rw [find, get?_of_mem h]

private theorem mem_of_find {n : SnapshotId} (h : g.find n = .ok s) : s ∈ g.items ∧ s.id = n := by
  rw [find] at h
  split at h
  · rename_i hfound
    exact Except.ok.inj h ▸ Keyed.get?_eq_some_iff.mp hfound
  · cases h

namespace Lineage

/-- A lineage is made of published snapshots. -/
theorem subset (h : Lineage g id line) : line ⊆ g.items := by
  induction h with
  | root => exact List.nil_subset _
  | step hs _ ih => exact List.cons_subset.mpr ⟨hs, ih⟩

/-- The lineage of a published snapshot starts with it. -/
theorem eq_cons (hs : s ∈ g.items) (h : Lineage g (some s.id) line) :
    ∃ older, line = s :: older ∧ Lineage g s.parentId older := by
  generalize hid : some s.id = id at h
  cases h with
  | root => cases hid
  | @step q older hq holder =>
    obtain rfl := Keyed.eq_of_key_eq hs hq (Option.some.inj hid)
    exact ⟨older, rfl, holder⟩

/-- The tip of a lineage is published. -/
theorem published {tip : SnapshotId} (h : Lineage g (some tip) line) :
    ∃ s ∈ g.items, s.id = tip := by
  cases h with
  | step hs _ => exact ⟨_, hs, rfl⟩

/-- An identifier has one lineage. -/
theorem unique (h : Lineage g id line) {line' : List Snapshot} (h' : Lineage g id line') :
    line' = line := by
  induction h generalizing line' with
  | root => cases h'; rfl
  | step hs _ ih =>
    obtain ⟨older, rfl, holder⟩ := eq_cons hs h'
    rw [ih holder]

/-- A lineage stays what it is when more is published. -/
theorem mono (hsub : g.items ⊆ g'.items) (h : Lineage g id line) : Lineage g' id line := by
  induction h with
  | root => exact .root
  | step hs _ ih => exact .step (hsub hs) ih

/-- Identifiers grow along a lineage, so it never comes back to a snapshot. -/
theorem descends (hg : g.Grounded) (h : Lineage g id line) :
    (∀ n, id = some n → ∀ s ∈ line, s.id ≤ n) ∧ line.Pairwise fun a b => b.id < a.id := by
  induction h with
  | root =>
    refine ⟨?_, .nil⟩
    rintro _ ⟨⟩
  | @step s line hs older ih =>
    have hlt : ∀ a ∈ line, a.id < s.id := by
      intro a ha
      cases hp : s.parentId with
      | none =>
        rw [hp] at older
        cases older
        cases ha
      | some n =>
        obtain ⟨q, -, rfl, hq⟩ := hg s hs n hp
        exact Nat.lt_of_le_of_lt (ih.1 q.id hp a ha) hq
    refine ⟨?_, List.pairwise_cons.mpr ⟨hlt, ih.2⟩⟩
    rintro _ ⟨⟩ a ha
    rcases List.mem_cons.mp ha with rfl | ha
    · exact Nat.le_refl _
    · exact Nat.le_of_lt (hlt a ha)

private theorem length_le (hg : g.Grounded) (h : Lineage g id line) : line.length ≤ g.size := by
  have hnodup : line.Nodup := by
    refine (h.descends hg).2.imp ?_
    rintro a _ hlt rfl
    exact Nat.lt_irrefl _ hlt
  exact hnodup.length_le_of_subset h.subset

/-- A lineage ends at a root. -/
theorem ends (h : Lineage g id line) {n : SnapshotId} (hid : id = some n) :
    ∃ root ∈ g.items, line.getLast? = some root ∧ root.parentId = none := by
  induction h generalizing n with
  | root => cases hid
  | @step s line hs older ih =>
    cases hp : s.parentId with
    | none =>
      rw [hp] at older
      cases older
      exact ⟨s, hs, rfl, hp⟩
    | some n =>
      obtain ⟨root, hroot, hlast, hnone⟩ := ih hp
      exact ⟨root, hroot, by rw [List.getLast?_cons, hlast]; rfl, hnone⟩

end Lineage

/-- Every published snapshot has a lineage. The induction is on its identifier, as parents come
before. -/
theorem Grounded.exists_lineage (hg : g.Grounded) (hs : s ∈ g.items) :
    ∃ line, Lineage g (some s.id) line := by
  induction hn : s.id using Nat.strongRecOn generalizing s with
  | ind n ih =>
    -- It is enough to find the lineage of the parent, whose identifier is smaller.
    suffices hline : ∃ line, Lineage g s.parentId line by
      obtain ⟨line, hline⟩ := hline
      exact ⟨s :: line, hn ▸ .step hs hline⟩
    cases hp : s.parentId with
    | none => exact ⟨[], .root⟩
    | some p =>
      obtain ⟨q, hq, rfl, hlt⟩ := hg s hs p hp
      exact ih q.id (hn ▸ hlt) hq rfl

/-- What a walk has still to yield: nothing once it is done, and until then the lineage of the identifier
that it comes to, up to the base. -/
inductive Ahead : Walk → List (Except TableError Snapshot) → Prop
  | ended {w : Walk} (h : w.done = true) : Ahead w []
  | along {w : Walk} {line : List Snapshot} (h : w.done = false) (hl : Lineage w.graph w.next line) :
      Ahead w (yielded w.base w.tip line)

/-- A step of a walk yields the first of what is ahead of it, and leaves the others ahead. -/
theorem Ahead.advance {w : Walk} {items : List (Except TableError Snapshot)} (h : Ahead w items) :
    w.advance.1 = items.head? ∧ Ahead w.advance.2 items.tail := by
  cases h with
  | ended h =>
    rw [Walk.advance, if_pos h]
    exact ⟨rfl, .ended h⟩
  | along h hl =>
    obtain ⟨g, next, base, tip, done⟩ := w
    dsimp only at h hl ⊢
    subst h
    cases hl with
    | root =>
      cases base with
      | none => exact ⟨rfl, .ended rfl⟩
      | some b => exact ⟨by simp [Walk.advance, yielded, walkEnd], .ended rfl⟩
    | @step s line hs older =>
      by_cases hb : base = some s.id
      · have hnone : yielded base tip (s :: line) = [] := by
          subst hb
          simp [yielded, walkEnd]
        rw [hnone, hb]
        simp only [Walk.advance, if_true]
        exact ⟨rfl, .ended rfl⟩
      · have hcons : yielded base tip (s :: line) = .ok s :: yielded base tip line := by
          have hend : walkEnd base tip (s :: line) = walkEnd base tip line := by
            cases base with
            | none => rfl
            | some b =>
              have hne : s.id ≠ b := fun hid => hb (congrArg some hid.symm)
              simp [walkEnd, hne]
          rw [yielded, List.takeWhile_cons, if_pos (by simpa using hb), hend]
          rfl
        have hfound : g.get? s.id = some s := get?_of_mem hs
        rw [hcons]
        simp only [Walk.advance, if_neg hb, hfound]
        exact ⟨rfl, .along rfl older⟩

private theorem Ahead.take {w : Walk} {items : List (Except TableError Snapshot)}
    (h : Ahead w items) {n : Nat} (hn : items.length ≤ n) : w.take n = items := by
  induction n generalizing w items with
  | zero => exact (List.length_eq_zero_iff.mp (Nat.le_zero.mp hn)).symm
  | succ n ih =>
    obtain ⟨hfirst, hrest⟩ := h.advance
    rw [Walk.take, ← Prod.eta w.advance, hfirst]
    cases items with
    | nil => rfl
    | cons item rest => exact congrArg (item :: ·) (ih hrest (Nat.le_of_succ_le_succ hn))

/-- All that a walk from a published snapshot yields. The bound on the items cuts nothing off, since a
lineage is no longer than the graph. -/
theorem Lineage.walk (hg : g.Grounded) {tip : SnapshotId} (h : Lineage g (some tip) line)
    (base : Option SnapshotId) : g.walk base tip = .ok (yielded base tip line) := by
  obtain ⟨s, hs, rfl⟩ := h.published
  have hend : (walkEnd base s.id line).length ≤ 1 := by
    unfold walkEnd
    split
    · split <;> simp
    · simp
  have hlength : (yielded base s.id line).length ≤ g.size + 1 := by
    rw [yielded, List.length_append, List.length_map]
    exact Nat.add_le_add ((List.takeWhile_sublist _).length_le.trans (h.length_le hg)) hend
  rw [Graph.walk, beginWalk, find_of_mem hs]
  exact congrArg Except.ok (Ahead.take (.along rfl h) hlength)

private theorem sequence_cut (base : Option SnapshotId) (tip : SnapshotId) (line : List Snapshot) :
    sequence (yielded base tip line) = cutAt base tip line := by
  rw [yielded]
  cases base with
  | none =>
    have hall : (line.takeWhile fun s => (none : Option SnapshotId) ≠ some s.id) = line := by simp
    rw [hall, walkEnd, List.append_nil]
    exact (sequence_map_ok id line).trans (congrArg Except.ok (List.map_id line))
  | some b =>
    have hwhile : (line.takeWhile fun s => some b ≠ some s.id) = line.takeWhile fun s => s.id ≠ b := by
      congr 1
      funext s
      simp [eq_comm]
    rw [hwhile, walkEnd, cutAt]
    split
    · rw [List.append_nil]
      exact (sequence_map_ok id _).trans (congrArg Except.ok (List.map_id _))
    · exact sequence_map_ok_append_error id _ _ []

/-- A walk with its bound on the steps is the lineage of its tip, up to the base. -/
theorem Lineage.ancestors (hg : g.Grounded) {tip : SnapshotId} (h : Lineage g (some tip) line)
    (base : Option SnapshotId) : g.ancestors base tip = cutAt base tip line := by
  rw [Graph.ancestors, h.walk hg, ← sequence_cut]
  rfl

/-- So is a range, whose bounds must be published and differ. -/
theorem Lineage.range (hg : g.Grounded) {base tip : SnapshotId} (hne : base ≠ tip)
    (hbase : ∃ s ∈ g.items, s.id = base) (h : Lineage g (some tip) line) :
    g.range base tip = cutAt (some base) tip line := by
  obtain ⟨b, hb, rfl⟩ := hbase
  have hall := h.ancestors hg (some b.id)
  obtain ⟨s, hs, rfl⟩ := h.published
  rw [Graph.range, if_neg hne, find_of_mem hs, find_of_mem hb]
  exact hall

/-- Where there is a range, it is the lineage of its tip in front of the base. -/
theorem Grounded.lineage_range (hg : g.Grounded) {base tip : SnapshotId} {range : List Snapshot}
    (h : g.range base tip = .ok range) : ∃ older, g.Lineage (some tip) (range ++ older) := by
  have hne : base ≠ tip := by
    rintro rfl
    rw [Graph.range, if_pos rfl] at h
    cases h
  cases htip : g.find tip with
  | error e =>
    rw [Graph.range, if_neg hne, htip] at h
    cases h
  | ok s =>
    cases hbase : g.find base with
    | error e =>
      rw [Graph.range, if_neg hne, htip, hbase] at h
      cases h
    | ok b =>
      obtain ⟨hs, rfl⟩ := mem_of_find htip
      obtain ⟨line, hl⟩ := hg.exists_lineage hs
      rw [hl.range hg hne ⟨b, mem_of_find hbase⟩, cutAt] at h
      split at h
      · cases h
        exact ⟨_, by rwa [List.takeWhile_append_dropWhile]⟩
      · cases h

end SnapshotTable.Graph
