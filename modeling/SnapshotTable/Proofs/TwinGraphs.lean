import SnapshotTable.Proofs.Twins
import SnapshotTable.Table.Rollback

/-! Graphs of twins. What is looked up, walked or planned on two graphs that hold twins one by one is the
same, down to the error, since none of it looks at a manifest. -/

namespace SnapshotTable

def TwinGraphs (g g' : Graph) : Prop := List.Forall₂ Twin g.items g'.items

private theorem twins_place {s s' : Snapshot} (hs : Twin s s') {xs xs' : List Snapshot}
    (h : List.Forall₂ Twin xs xs') :
    List.Forall₂ Twin (Keyed.place Snapshot.id s xs) (Keyed.place Snapshot.id s' xs') := by
  induction h with
  | nil => exact .cons hs .nil
  | cons hb hrest ih =>
    rw [Keyed.place, Keyed.place, hs.id, hb.id]
    split
    · exact .cons hs (.cons hb hrest)
    split
    · exact .cons hb ih
    · exact .cons hs hrest

/-- Twins are listed under the same identifiers. -/
theorem Twin.ids {xs xs' : List Snapshot} (h : List.Forall₂ Twin xs xs') :
    xs'.map Snapshot.id = xs.map Snapshot.id := Snapshot.ids_rel (fun _ _ hs => hs.id) h

theorem Twin.getLast? {xs xs' : List Snapshot} (h : List.Forall₂ Twin xs xs') :
    xs'.getLast?.map Snapshot.id = xs.getLast?.map Snapshot.id :=
  Snapshot.last_id_rel (fun _ _ hs => hs.id) h

namespace Graph

private theorem sequence_matches {α β : Type} {R : α → β → Prop} {xs : List (Except TableError α)}
    {ys : List (Except TableError β)} (h : List.Forall₂ (Matches R) xs ys) :
    Matches (List.Forall₂ R) (sequence xs) (sequence ys) := by
  induction h with
  | nil => exact .ok .nil
  | cons hx _ ih =>
    cases hx with
    | error e => exact .error e
    | ok hab => exact ih.map fun _ _ hrest => .cons hab hrest

private theorem tasksOf_twins (base tip : SnapshotId) {xs xs' : List Snapshot}
    (h : List.Forall₂ Twin xs xs') :
    xs'.map (tasksOf base tip) = xs.map (tasksOf base tip) := by
  induction h with
  | nil => rfl
  | @cons s s' _ _ hs _ ih =>
    have hone : tasksOf base tip s' = tasksOf base tip s := by
      obtain ⟨set, hset, hset'⟩ := hs.added
      rw [tasksOf, tasksOf, hs.operation, hs.id, DataFile.sortByPath_of_perm hset,
        DataFile.sortByPath_of_perm hset']
    rw [List.map_cons, List.map_cons, hone, ih]

/-- The latest of several snapshots is chosen by times and identifiers. -/
theorem latestSnapshot_twins {xs xs' : List Snapshot} (h : List.Forall₂ Twin xs xs') :
    Option.Rel Twin (latestSnapshot? xs) (latestSnapshot? xs') := by
  refine List.rel_foldl (P := Option.Rel Twin) (R := Twin) ?_ .none h
  intro best best' hbest s s' hs
  cases hbest with
  | none => exact .some hs
  | @some b b' hb =>
    have hlater : b'.notLater s' = b.notLater s := by
      rw [Snapshot.notLater, Snapshot.notLater, hs.timestamp, hb.timestamp, hs.id, hb.id]
    dsimp only
    rw [hlater]
    split
    · exact .some hs
    · exact .some hb

end Graph

namespace TwinGraphs
variable {g g' : Graph} {chain chain' : List Snapshot}

/-- Twins are found alike. -/
theorem get? (h : TwinGraphs g g') (id : SnapshotId) :
    Option.Rel Twin (g.get? id) (g'.get? id) := Snapshot.find?_rel (fun _ _ hs => hs.id) h id

private theorem contains (h : TwinGraphs g g') (id : SnapshotId) : g'.contains id = g.contains id := by
  have hs := h.get? id
  rw [Keyed.contains_eq_isSome, Keyed.contains_eq_isSome]
  generalize g.get? id = found, g'.get? id = found' at hs ⊢
  cases hs with
  | none => rfl
  | some _ => rfl

/-- Looking up an identifier finds twins or fails alike. -/
theorem find (h : TwinGraphs g g') (id : SnapshotId) : Matches Twin (g.find id) (g'.find id) := by
  have hs := h.get? id
  rw [Graph.find, Graph.find]
  generalize g.get? id = found, g'.get? id = found' at hs ⊢
  cases hs with
  | none => exact .error _
  | some hs => exact .ok hs

/-- A base resolves to twins on graphs of twins. -/
theorem resolve (h : TwinGraphs g g') (id : Option SnapshotId) :
    Matches (Option.Rel Twin) (g.resolve id) (g'.resolve id) := by
  cases id with
  | none => exact .ok .none
  | some id => exact (h.find id).map fun _ _ hs => .some hs

private theorem lastId? (h : TwinGraphs g g') : g'.lastId? = g.lastId? := Twin.getLast? h

/-- Graphs of twins give out the same next identifier. -/
theorem nextId (h : TwinGraphs g g') : g'.nextId = g.nextId := by
  rw [Graph.nextId, Graph.nextId, h.lastId?]

/-- Chains of twins pass the same checks. -/
theorem validateChain (h : TwinGraphs g g') (hc : List.Forall₂ Twin chain chain') :
    g'.validateChain chain' = g.validateChain chain := by
  have hfrom (last : Option SnapshotId) (staged : List SnapshotId) :
      g'.validateFrom last staged chain' = g.validateFrom last staged chain := by
    induction hc generalizing last staged with
    | nil => rfl
    | cons hs _ ih =>
      rw [Graph.validateFrom, Graph.validateFrom, hs.id, hs.parentId]
      simp only [h.contains, ih]
  rw [Graph.validateChain, Graph.validateChain, h.lastId?]
  exact hfrom _ _

/-- Publishing chains of twins keeps the graphs twins. -/
theorem extend (h : TwinGraphs g g') (hc : List.Forall₂ Twin chain chain') :
    TwinGraphs (g.extend chain) (g'.extend chain') := by
  induction hc generalizing g g' with
  | nil => exact h
  | cons hs _ ih => exact ih (twins_place hs h)

private structure Walks (w w' : Walk) : Prop where
  graph : TwinGraphs w.graph w'.graph
  next : w'.next = w.next
  base : w'.base = w.base
  tip : w'.tip = w.tip
  done : w'.done = w.done

private theorem Walks.advance {w w' : Walk} (h : Walks w w') :
    Option.Rel (Matches Twin) w.advance.1 w'.advance.1 ∧ Walks w.advance.2 w'.advance.2 := by
  obtain ⟨g, _, _, _, _⟩ := w
  obtain ⟨g', next, base, tip, done⟩ := w'
  obtain ⟨hg, rfl, rfl, rfl, rfl⟩ := h
  dsimp only at hg ⊢
  have hended {done : Bool} :
      Walks ⟨g, next, base, tip, done⟩ ⟨g', next, base, tip, done⟩ := ⟨hg, rfl, rfl, rfl, rfl⟩
  rw [Walk.advance, Walk.advance]
  dsimp only
  split
  · exact ⟨.none, hended⟩
  cases next with
  | none =>
    cases base with
    | none => exact ⟨.none, hended⟩
    | some b => exact ⟨.some (.error _), hended⟩
  | some id =>
    dsimp only
    split
    · exact ⟨.none, hended⟩
    have hs := hg.get? id
    generalize Keyed.get? g id = found, Keyed.get? g' id = found' at hs ⊢
    cases hs with
    | none => exact ⟨.some (.error _), hended⟩
    | some hs => exact ⟨.some (.ok hs), hg, hs.parentId, rfl, rfl, rfl⟩

private theorem Walks.take {w w' : Walk} (h : Walks w w') (n : Nat) :
    List.Forall₂ (Matches Twin) (w.take n) (w'.take n) := by
  induction n generalizing w w' with
  | zero => exact .nil
  | succ n ih =>
    obtain ⟨hfirst, hrest⟩ := h.advance
    rw [Walk.take, Walk.take, ← Prod.eta w.advance, ← Prod.eta w'.advance]
    generalize w.advance.1 = item, w'.advance.1 = item' at hfirst ⊢
    cases hfirst with
    | none => exact .nil
    | some hitem => exact .cons hitem (ih hrest)

/-- Walks on graphs of twins yield twins. -/
theorem ancestors (h : TwinGraphs g g') (base : Option SnapshotId) (tip : SnapshotId) :
    Matches (List.Forall₂ Twin) (g.ancestors base tip) (g'.ancestors base tip) := by
  have hsize : g'.size = g.size := (List.Forall₂.length_eq h).symm
  have hbegun : Matches Walks (g.beginWalk base tip) (g'.beginWalk base tip) :=
    (h.find tip).map fun _ _ _ => ⟨h, rfl, rfl, rfl, rfl⟩
  rw [Graph.ancestors, Graph.ancestors, Graph.walk, Graph.walk, hsize]
  apply Matches.bind (R := List.Forall₂ (Matches Twin))
  · exact hbegun.map fun _ _ hw => hw.take _
  · exact fun _ _ hwalk => Graph.sequence_matches hwalk

/-- Ranges on graphs of twins are ranges of twins. -/
theorem range (h : TwinGraphs g g') (base tip : SnapshotId) :
    Matches (List.Forall₂ Twin) (g.range base tip) (g'.range base tip) := by
  rw [Graph.range, Graph.range]
  split
  · exact .error _
  · exact (h.find tip).bind fun _ _ _ => (h.find base).bind fun _ _ _ => h.ancestors _ _

/-- Plans do not tell graphs of twins apart. -/
theorem planAppends (h : TwinGraphs g g') (base tip : SnapshotId) :
    g'.planAppends base tip = g.planAppends base tip := by
  have hplan : Matches Eq (g.planAppends base tip) (g'.planAppends base tip) := by
    rw [Graph.planAppends, Graph.planAppends]
    refine (h.range base tip).bind fun xs xs' hxs => .of_eq ?_
    rw [Graph.tasksOf_twins base tip (List.forall₂_reverse_iff.mpr hxs)]
  exact hplan.eq.symm

end TwinGraphs
end SnapshotTable
