import SnapshotTable.Proofs.FrozenHistory
import SnapshotTable.Proofs.FullScan
import SnapshotTable.Proofs.PointerHistory
import SnapshotTable.Proofs.RangeSeams

/-! Branches. The order in which snapshots were published, the order of their identifiers and their ancestry
agree until a table goes back for the first time. Behind that, what commits publish is one chain on top of
the snapshot that it went back to, so the lineage of what is current is this chain and that snapshot's
lineage, and whatever was published on other branches is in reach, but not as an ancestor. -/

namespace SnapshotTable

private theorem Production.Builds.lineage {p : Production} {g : Graph} {parent : Option Snapshot}
    {id : SnapshotId} {changes : List Change} {chain older : List Snapshot}
    (h : p.Builds parent id changes chain) (hsub : chain ⊆ g.items)
    (holder : g.Lineage (parent.map Snapshot.id) older) :
    g.Lineage ((topOf parent chain).map Snapshot.id) (chain.reverse ++ older) := by
  induction h generalizing older with
  | nil => exact holder
  | cons fresh now _ _ ih =>
    obtain ⟨hs, hrest⟩ := List.cons_subset.mp hsub
    rw [topOf_cons, List.reverse_cons, List.append_assoc]
    exact ih hrest (.step hs holder)

/-- There is no range behind a published snapshot that is not on the lineage. -/
theorem Graph.Lineage.range_unreachable {g : Graph} {tip : SnapshotId} {line : List Snapshot}
    (h : g.Lineage (some tip) line) (hg : g.Grounded) {q : Snapshot} (hq : q ∈ g.items)
    (hne : q.id ≠ tip) (hoff : q ∉ line) :
    g.range q.id tip = .error (.unreachableAncestor q.id tip) := by
  have hcut : ¬ ∃ p ∈ line, p.id = q.id := by
    rintro ⟨p, hp, hid⟩
    obtain rfl : p = q := Keyed.eq_of_key_eq (h.subset hp) hq hid
    exact hoff hp
  rw [h.range hg hne ⟨q, hq, rfl⟩, cutAt, if_neg hcut]

namespace Table
variable {t u t' : Table MemoryPointer} {news more : List Snapshot}

/-- The table after these snapshots were published, oldest first, in one chain on top of what was
current. -/
structure Onward (t : Table MemoryPointer) (news : List Snapshot) (t' : Table MemoryPointer) : Prop where
  graph : t'.graph.items = t.graph.items ++ news
  pointer : t'.pointer.value = (news.getLast?.map Snapshot.id).or t.pointer.value
  lineage : ∀ line, t.graph.Lineage t.pointer.value line →
    t'.graph.Lineage t'.pointer.value (news.reverse ++ line)

private theorem Unmoved.onward (h : t.Unmoved t') : t.Onward [] t' where
  graph := by rw [h.graph, List.append_nil]
  pointer := congrArg MemoryPointer.value h.pointer
  lineage := by
    intro line hline
    rw [h.graph, h.pointer]
    exact hline

private theorem Grown.onward {base : Option SnapshotId} {changes : List Change} {chain : List Snapshot}
    (h : t.Grown base changes chain t') : t.Onward chain t' := by
  obtain rfl := h.current
  obtain ⟨parent, hparent, hbuilt⟩ := h.built
  have hbase := Graph.resolve_id hparent
  refine ⟨h.graph, h.pointer, ?_⟩
  intro line hline
  have hsub : t.graph.items ⊆ t'.graph.items := h.graph ▸ List.subset_append_left _ _
  have hchain : chain ⊆ t'.graph.items := h.graph ▸ List.subset_append_right _ _
  have htop : (topOf parent chain).map Snapshot.id = t'.pointer.value := by
    rw [h.pointer, hbase, topOf, Option.map_or]
  rw [hbase] at hline
  rw [← htop]
  exact hbuilt.lineage hchain (hline.mono hsub)

private theorem Onward.behind (h : t.Onward news t') {s q : Snapshot} (hs : s ∈ t.graph.items)
    (hq : q ∈ news) :
    s.id < q.id := by
  have hordered := t'.graph.ordered
  rw [h.graph, List.pairwise_append] at hordered
  exact hordered.2.2 s hs q hq

private theorem Onward.trans (h : t.Onward news u) (h' : u.Onward more t') :
    t.Onward (news ++ more) t' where
  graph := by rw [h'.graph, h.graph, List.append_assoc]
  pointer := by rw [h'.pointer, h.pointer, List.getLast?_append, Option.map_or, Option.or_assoc]
  lineage := by
    intro line hline
    rw [List.reverse_append, List.append_assoc]
    exact h'.lineage _ (h.lineage line hline)

end Table

private theorem Deed.onward (d : Deed) (h : ∀ move, d.move? = some move → move.2 = .commit) :
    ∃ news, d.table.Onward news (d.table.take d.action) ∧ (news = [] ↔ d.move? = none) := by
  obtain ⟨t, action⟩ := d
  cases action with
  | read => exact ⟨[], (Table.Unmoved.refl t).onward, by simp [move?]⟩
  | report e => exact ⟨[], (t.unmoved_report e).onward, by simp [move?]⟩
  | publish base changes =>
    simp only [move?, Table.take]
    rcases t.publish_cases base changes with ⟨f, hf, hr⟩ | ⟨chain, hc, hg⟩
    · rw [hf]
      exact ⟨[], hr.unmoved.onward, by simp⟩
    · rw [hc]
      exact ⟨chain, hg.onward, by simp⟩
  | move base target =>
    simp only [move?, Table.take] at h ⊢
    rcases t.movePointer_outcome base target with ⟨e, heq, -⟩ | ⟨s, -, -, -, -, heq⟩
    · rw [heq]
      exact ⟨[], (Table.Unmoved.refl t).onward, by simp⟩
    · rw [heq] at h ⊢
      by_cases hsame : t.pointer.value = some s.id
      · simp only [if_pos hsame]
        exact ⟨[], (Table.Unmoved.refl t).onward, by simp⟩
      · simp only [if_neg hsame] at h
        cases h _ rfl

namespace Table

/-- A run that does not go back publishes one chain on top of what is current at its start. -/
theorem onward_after (t : Table MemoryPointer) (actions : List Action)
    (h : ∀ move ∈ t.moves actions, move.2 = .commit) :
    ∃ news, t.Onward news (t.after actions) ∧ (news = [] ↔ t.moves actions = []) := by
  induction actions generalizing t with
  | nil => exact ⟨[], (Unmoved.refl t).onward, by simp [moves, deeds]⟩
  | cons a rest ih =>
    rw [moves_cons] at h ⊢
    obtain ⟨hfirst, hrest⟩ := List.forall_mem_append.mp h
    have hdeed : ∀ move, Deed.move? ⟨t, a⟩ = some move → move.2 = .commit :=
      fun move hmove => hfirst move (Option.mem_toList.mpr hmove)
    obtain ⟨news, honward, hnews⟩ := Deed.onward ⟨t, a⟩ hdeed
    obtain ⟨more, honward', hmore⟩ := ih (t.take a) hrest
    refine ⟨news ++ more, honward.trans honward', ?_⟩
    rw [List.append_eq_nil_iff, List.append_eq_nil_iff, hnews, hmore, Option.toList_eq_nil_iff]

variable {t : Table MemoryPointer} {s : Snapshot}

/-- Nothing keeps an undisturbed table from going back to a published snapshot. -/
theorem rollbackTo_published (h : t.poisoned = false) (hs : s ∈ t.graph.items) :
    (t.rollbackTo s.id).1 = .ok s ∧ t.Rewound s (t.rollbackTo s.id).2 := by
  have hmove : t.rollbackTo s.id = t.movePointer t.pointer.value s.id := rfl
  have hanswer : (t.movePointer t.pointer.value s.id).1 = .ok s :=
    congrArg Prod.fst (movePointer_current h hs)
  rw [hmove]
  rcases t.movePointer_cases t.pointer.value s.id with ⟨e, he, -⟩ | ⟨q, hq, -, hback⟩
  · cases he.symm.trans hanswer
  · obtain rfl := Except.ok.inj (hq.symm.trans hanswer)
    exact ⟨hanswer, hback⟩

private theorem planTasks_current (hp : t.poisoned = false) (hs : t.pointer.value = some s.id)
    (base : SnapshotId) :
    (t.planTasks (t.appendsAfter base).1).1 = t.graph.planAppends base s.id := by
  rw [appendsAfter_current hs]
  exact planTasks_between hp base s.id

private theorem scanRange_current (hp : t.poisoned = false) (hs : t.pointer.value = some s.id)
    (base : SnapshotId) : t.scanRange (t.appendsAfter base).1 = t.graph.range base s.id := by
  rw [appendsAfter_current hs, scanRange_eq, state_sound hp]
  rfl

structure Returned (s : Snapshot) (t : Table MemoryPointer) : Prop where
  pointer : t.pointer.value = some s.id
  files : (t.planFiles none).1 = (t.planFiles (some s.id)).1 ∧
    (t.planFiles none).1 = .ok (filesAt (some s))
  empty : (t.planTasks (t.appendsAfter s.id).1).1 = .error (.invalidRange
    ("from and to snapshots cannot be the same, but both are " ++ s.id.display))

/-- What `t'` answers if `t` went back to `s`, the lineage behind which is `older`, and these snapshots were
published since, oldest first. -/
structure Branched (t : Table MemoryPointer) (older news : List Snapshot) (s : Snapshot)
    (t' : Table MemoryPointer) (current : Snapshot) : Prop where
  published : t'.graph.items = t.graph.items ++ news
  last : news.getLast? = some current
  pointer : t'.pointer.value = some current.id
  lineage : t'.ancestors none current.id = .ok (news.reverse ++ older)
  /-- The range behind `s` holds the new snapshots and no other, and has a plan unless one of them is an
  overwrite. -/
  range : t'.scanRange (t'.appendsAfter s.id).1 = .ok news.reverse
  tasks : (t'.planTasks (t'.appendsAfter s.id).1).1 =
    match news.find? fun q => q.operation = .overwrite with
    | some q => .error (.unsupportedIncrementalOperation q.id .overwrite s.id current.id)
    | none => .ok (news.flatMap Snapshot.tasks)
  overwrite : (∃ id, (t'.planTasks (t'.appendsAfter s.id).1).1 =
      .error (.unsupportedIncrementalOperation id .overwrite s.id current.id)) ↔
    ∃ q ∈ news, q.operation = .overwrite
  /-- A snapshot of an abandoned branch is no ancestor of what is current. -/
  abandoned : ∀ q ∈ t.graph.items, q ∉ older → q ∉ news.reverse ++ older ∧
    t'.scanRange (t'.appendsAfter q.id).1 = .error (.unreachableAncestor q.id current.id) ∧
    (t'.planTasks (t'.appendsAfter q.id).1).1 = .error (.unreachableAncestor q.id current.id)
  /-- What was published before is still found and scanned, and bounds the ranges behind its ancestors. -/
  readable : ∀ q ∈ t.graph.items, t'.snapshot q.id = .ok q ∧
    (t'.planFiles (some q.id)).1 = .ok (filesAt (some q)) ∧
    ∀ base, t.graph.Precedes base q.id → let scan := appendsBetween base q.id
      (∃ chain, t'.scanRange scan = .ok chain) ∧ t'.scanRange scan = t.scanRange scan ∧
        (t'.planTasks scan).1 = (t.planTasks scan).1

end Table

variable {t t' : Table MemoryPointer} {s current : Snapshot} {older news : List Snapshot}

private theorem Table.returned (hp : t.poisoned = false) (hs : t.pointer.value = some s.id)
    (hmem : s ∈ t.graph.items) : Table.Returned s t := by
  have hcurrent : t.graph.resolve t.pointer.value = .ok (some s) := by
    have hid : t.pointer.value = (some s).map Snapshot.id := hs
    rw [hid]
    exact Graph.resolve_of_mem fun q hq => Option.some.inj hq ▸ hmem
  have hfiles := planFiles_current hp hcurrent
  refine ⟨hs, ⟨hfiles.trans (planFiles_snapshot hp hmem).symm, hfiles⟩, ?_⟩
  rw [Table.planTasks_current hp hs, Graph.planAppends, Graph.range, if_pos rfl]
  rfl

private theorem Numbered.cut_onward (h : Numbered t') (honward : t.Onward news t')
    (hs : t.pointer.value = some s.id) (holder : t.graph.Lineage (some s.id) older)
    (hlast : news.getLast? = some current) : t'.graph.Cut s.id current.id news.reverse older := by
  have hpointer : t'.pointer.value = some current.id := by rw [honward.pointer, hlast]; rfl
  have hlineage := honward.lineage older (hs ▸ holder)
  rw [hpointer] at hlineage
  have hbehind : ∀ q ∈ news, s.id < q.id := by
    obtain ⟨p, hp, he⟩ := holder.published
    exact fun q hq => he ▸ honward.behind hp hq
  refine ⟨hlineage, holder.mono (honward.graph ▸ List.subset_append_left _ _), ?_, ?_⟩
  · intro q hq
    have hle := (hlineage.descends h.grounded).1 current.id rfl q (List.mem_append_left _ hq)
    exact ⟨hbehind q (List.mem_reverse.mp hq), hle⟩
  · exact hbehind current (List.mem_of_getLast? hlast)

/-- What is planned behind `s` is what was published since, unless one of these snapshots is an overwrite. -/
theorem Graph.Cut.planAppends {g : Graph} {base tip : SnapshotId}
    (h : g.Cut base tip news.reverse older) (hg : g.Grounded) :
    g.planAppends base tip =
      match news.find? fun q => q.operation = .overwrite with
      | some q => .error (.unsupportedIncrementalOperation q.id .overwrite base tip)
      | none => .ok (news.flatMap Snapshot.tasks) := by
  have hplan := planAppends_of_range (h.range hg)
  rwa [List.reverse_reverse] at hplan

/-- What a table has published can be read from any table that it becomes. -/
theorem Numbered.readable (h : Numbered t) (hr : Reaches t t') (hp : t'.poisoned = false) {q : Snapshot}
    (hq : q ∈ t.graph.items) (hq' : q ∈ t'.graph.items) : t'.snapshot q.id = .ok q ∧
      (t'.planFiles (some q.id)).1 = .ok (filesAt (some q)) ∧
      ∀ base, t.graph.Precedes base q.id → let scan := appendsBetween base q.id
        (∃ chain, t'.scanRange scan = .ok chain) ∧ t'.scanRange scan = t.scanRange scan ∧
          (t'.planTasks scan).1 = (t.planTasks scan).1 := by
  have hfrozen := h.frozen hr hp
  obtain ⟨-, hfound⟩ := hfrozen.snapshots q hq
  refine ⟨hfound, planFiles_snapshot hp hq', ?_⟩
  intro base hbase scan
  obtain ⟨front, rest, hcut⟩ := hbase.cut h.grounded
  obtain ⟨b, hb, rfl⟩ := hcut.ancestor.published
  obtain ⟨hsame, hplanned, -⟩ := hfrozen.scans b hb q hq
  refine ⟨⟨front, ?_⟩, hsame, hplanned⟩
  rw [hsame, Table.scanRange_eq, Table.state_sound (hr.sound_before hp)]
  exact hcut.range h.grounded

private theorem Numbered.branched (h : Numbered t) (hr : Reaches t t') (hp : t'.poisoned = false)
    {u : Table MemoryPointer} (hgraph : u.graph = t.graph) (hs : u.pointer.value = some s.id)
    (holder : t.graph.Lineage (some s.id) older) (honward : u.Onward news t')
    (hlast : news.getLast? = some current) : Table.Branched t older news s t' current := by
  have hlater : Numbered t' := h.reaches hr
  have hcut := hlater.cut_onward honward hs (hgraph ▸ holder) hlast
  have hpointer : t'.pointer.value = some current.id := by rw [honward.pointer, hlast]; rfl
  have hplan := Table.planTasks_current hp hpointer
  have hrange := Table.scanRange_current hp hpointer
  have htasks := (hplan s.id).trans (hcut.planAppends hlater.grounded)
  have hgrows : t'.graph.items = t.graph.items ++ news := by rw [honward.graph, hgraph]
  have hkept {q : Snapshot} (hq : q ∈ t.graph.items) : q ∈ t'.graph.items :=
    hgrows ▸ List.mem_append_left _ hq
  refine ⟨hgrows, hlast, hpointer, ?_, (hrange s.id).trans (hcut.range hlater.grounded), htasks, ?_, ?_,
    fun q hq => h.readable hr hp hq (hkept hq)⟩
  · exact Table.ancestors_sound hp hlater.grounded hcut.lineage
  · rw [htasks]
    cases hfind : news.find? fun q => q.operation = .overwrite with
    | none => simpa using hfind
    | some q =>
      have hover : q.operation = .overwrite := by simpa using List.find?_some hfind
      exact iff_of_true ⟨q.id, rfl⟩ ⟨q, List.mem_of_find?_eq_some hfind, hover⟩
  · intro q hq hoff
    have hbehind : ∀ p ∈ news, q.id < p.id := fun p hp => honward.behind (hgraph ▸ hq) hp
    have habsent : q ∉ news.reverse ++ older := by
      intro hon
      rcases List.mem_append.mp hon with hon | hon
      · exact Nat.lt_irrefl _ (hbehind q (List.mem_reverse.mp hon))
      · exact hoff hon
    have hunreachable := hcut.lineage.range_unreachable hlater.grounded (hkept hq)
      (Nat.ne_of_lt (hbehind current (List.mem_of_getLast? hlast))) habsent
    refine ⟨habsent, (hrange q.id).trans hunreachable, ?_⟩
    rw [hplan, Graph.planAppends, hunreachable]
    rfl

/-- Whatever clients did to a new table, it can go back to any of its snapshots, and if it does not go back
again then the branch that it left is abandoned: what is published later is all that is in front of the
lineage of the snapshot that it went back to. -/
theorem rollbackTo_branches {uuid : Uuid} {config : TableConfig} {clock : Clock}
    {created t : Table MemoryPointer} (h : Table.create uuid config clock = .ok created)
    (validators : List Validator) (hr : Reaches (created.withValidators validators) t) {s : Snapshot}
    (hs : s ∈ t.graph.items) (actions : List Action)
    (hmoves : ∀ move ∈ (t.rollbackTo s.id).2.moves actions, move.2 = .commit) :
    let u := (t.rollbackTo s.id).2
    (Validator.Sturdy validators → (u.after actions).poisoned = false) ∧
    ((u.after actions).poisoned = false → (t.rollbackTo s.id).1 = .ok s ∧ u.graph = t.graph ∧
      ∃ older, t.ancestors none s.id = .ok older ∧
        (u.moves actions = [] → Table.Returned s (u.after actions)) ∧
        (u.moves actions ≠ [] → ∃ news current,
          Table.Branched t older news s (u.after actions) current)) := by
  intro u
  obtain rfl := Table.eq_of_create h
  have hn : Numbered t := (Numbered.fresh uuid config clock validators).reaches hr
  have hlater : Reaches t (u.after actions) := (Reaches.here.move _ _).after actions
  refine ⟨fun hsturdy => ?_, fun hp => ?_⟩
  · exact hlater.unbroken (hr.unbroken rfl hsturdy) (hr.validators_eq ▸ hsturdy)
  · obtain ⟨hback, hrewound⟩ := Table.rollbackTo_published (hlater.sound_before hp) hs
    obtain ⟨older, holder⟩ := hn.grounded.exists_lineage hs
    obtain ⟨news, honward, hnews⟩ := u.onward_after actions hmoves
    refine ⟨hback, hrewound.graph, older,
      Table.ancestors_sound (hlater.sound_before hp) hn.grounded holder, ?_, ?_⟩
    · intro hnone
      obtain rfl := hnews.mpr hnone
      apply Table.returned hp
      · rw [honward.pointer, hrewound.pointer]
        rfl
      · rw [honward.graph, hrewound.graph, List.append_nil]
        exact hs
    · intro hsome
      cases hlast : news.getLast? with
      | none => exact absurd (hnews.mp (List.getLast?_eq_none_iff.mp hlast)) hsome
      | some current =>
        refine ⟨news, current, ?_⟩
        exact hn.branched hlater hp hrewound.graph hrewound.pointer holder honward hlast

def Table.branching : List Action :=
  let change (operation : Operation) (path : String) : Change := (Change.start operation).add { path }
  [.publish (some 2) [change .append "c"], .publish (some 1) [change .append "d"],
    .publish (some 3) [change .append "e", change .overwrite "f"]]

/-- Behind the first of two snapshots it publishes three, and abandons the second. -/
theorem rollbackTo_branches_twoAppends :
    let u := (Table.twoAppends.rollbackTo 1).2
    u.moves Table.branching = [(3, .commit), (5, .commit)] ∧ ∃ s older news current,
      Table.Branched Table.twoAppends older news s (u.after Table.branching) current ∧
      (s :: news).map Snapshot.id = [1, 3, 4, 5] := by
  intro u
  have hmoves : u.moves Table.branching = [(3, .commit), (5, .commit)] := by decide +kernel
  have hr : Reaches (Table.blank.withValidators Validator.standard) Table.twoAppends :=
    Reaches.here.respond _
  have hfirst : ∃ s ∈ Table.twoAppends.graph.items, s.id = 1 := by decide +kernel
  obtain ⟨s, hs, hid⟩ := hfirst
  have hbranches :=
    rollbackTo_branches Table.create_blank Validator.standard hr hs Table.branching
  rw [hid] at hbranches
  obtain ⟨hsound, hanswers⟩ := hbranches (by rw [hmoves]; decide)
  obtain ⟨-, -, older, -, -, hbranched⟩ := hanswers (hsound Validator.sturdy_standard)
  obtain ⟨news, current, hbranched⟩ := hbranched (by rw [hmoves]; decide)
  have hids : Table.twoAppends.graph.ids ++ news.map Snapshot.id = [1, 2] ++ [3, 4, 5] := by
    rw [Graph.ids, ← List.map_append, ← hbranched.published]
    decide +kernel
  have hnews : news.map Snapshot.id = [3, 4, 5] := List.append_cancel_left hids
  exact ⟨hmoves, s, older, news, current, hbranched, by rw [List.map_cons, hid, hnews]⟩

end SnapshotTable
