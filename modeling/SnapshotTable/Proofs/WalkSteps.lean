import SnapshotTable.Proofs.RangeSeams

/-! Walks item by item. Whoever asks a walk again and again gets the lineage of its tip up to the base, an
error behind it if the base is not there, and then nothing however often it is asked. This holds in every
graph that checks what it publishes, whatever identifiers and parents it is called with: such calls put
snapshots behind those that there are, and each behind its parent. -/

namespace SnapshotTable

def Walk.item (w : Walk) : Nat → Option (Except TableError Snapshot)
  | 0 => w.advance.1
  | n + 1 => w.advance.2.item n

namespace Graph
variable {g : Graph} {base : Option SnapshotId} {s : Snapshot} {line : List Snapshot}

/-- What is ahead of a walk is what it yields, one item after the other, and behind it there is nothing. -/
theorem Ahead.item {w : Walk} {items : List (Except TableError Snapshot)} (h : Ahead w items) (n : Nat) :
    w.item n = items[n]? := by
  induction n generalizing w items with
  | zero => rw [Walk.item, h.advance.1, List.head?_eq_getElem?]
  | succ n ih => rw [Walk.item, ih h.advance.2, List.getElem?_tail]

inductive Call where
  | insert (s : Snapshot)
  | extend (chain : List Snapshot)

/-- The graph after a call. A call that is refused leaves it as it is. -/
def after (g : Graph) : Call → Graph
  | .insert s =>
    match g.publish s with
    | .ok g' => g'
    | .error _ => g
  | .extend chain =>
    match g.validateChain chain with
    | .ok () => g.extend chain
    | .error _ => g

def afterAll (g : Graph) (calls : List Call) : Graph := calls.foldl after g

private theorem after_cases (g : Graph) (call : Call) :
    g.after call = g ∨ ∃ chain, g.validateChain chain = .ok () ∧ g.after call = g.extend chain := by
  cases call with
  | insert s =>
    rw [after, publish]
    cases hvalid : g.validateChain [s] with
    | error e => exact .inl rfl
    | ok _ => exact .inr ⟨[s], hvalid, rfl⟩
  | extend chain =>
    rw [after]
    cases hvalid : g.validateChain chain with
    | error e => exact .inl rfl
    | ok _ => exact .inr ⟨chain, hvalid, rfl⟩

private theorem Built.after (h : g.Built) (call : Call) : (g.after call).Built := by
  rcases g.after_cases call with heq | ⟨chain, hvalid, heq⟩
  · rwa [heq]
  · rw [heq]
    exact h.extend hvalid

private theorem subset_after (g : Graph) (call : Call) : g.items ⊆ (g.after call).items := by
  rcases g.after_cases call with heq | ⟨chain, hvalid, heq⟩
  · rw [heq]
    exact List.Subset.refl _
  · rw [heq, items_extend_checked hvalid]
    exact List.subset_append_left _ _

private theorem Built.afterAll (h : g.Built) (calls : List Call) : (g.afterAll calls).Built := by
  induction calls generalizing g with
  | nil => exact h
  | cons call rest ih => exact ih (h.after call)

private theorem subset_afterAll (g : Graph) (calls : List Call) :
    g.items ⊆ (g.afterAll calls).items := by
  induction calls generalizing g with
  | nil => exact List.Subset.refl _
  | cons call rest ih => exact List.Subset.trans (g.subset_after call) (ih _)

private theorem yielded_none (tip : SnapshotId) (line : List Snapshot) :
    yielded none tip line = line.map .ok := by
  have hwhile : line.takeWhile (fun s => (none : Option SnapshotId) ≠ some s.id) = line := by simp
  rw [yielded, hwhile, walkEnd, List.append_nil]

private theorem yielded_cut {newer older : List Snapshot} {q : Snapshot} (tip : SnapshotId)
    (h : (newer ++ q :: older).Pairwise fun a b => b.id < a.id) :
    yielded (some q.id) tip (newer ++ q :: older) = newer.map .ok := by
  have hnewer : ∀ a ∈ newer, decide (some q.id ≠ some a.id) = true := by
    intro a ha
    have hlt : q.id < a.id := (List.pairwise_append.mp h).2.2 a ha q List.mem_cons_self
    simpa using Nat.ne_of_lt hlt
  have hwhile : (newer ++ q :: older).takeWhile (fun s => some q.id ≠ some s.id) = newer := by
    rw [List.takeWhile_append_of_pos hnewer, List.takeWhile_cons_of_neg (by simp), List.append_nil]
  rw [yielded, hwhile, walkEnd, if_pos ⟨q, by simp, rfl⟩, List.append_nil]

private theorem yielded_missed {b : SnapshotId} (tip : SnapshotId) (h : ∀ q ∈ line, q.id ≠ b) :
    yielded (some b) tip line = line.map .ok ++ [.error (.unreachableAncestor b tip)] := by
  have hwhile : line.takeWhile (fun s => some b ≠ some s.id) = line := by
    rw [List.takeWhile_eq_self_iff]
    intro q hq
    simpa using (h q hq).symm
  have hoff : ¬∃ q ∈ line, q.id = b := fun ⟨q, hq, hid⟩ => h q hq hid
  rw [yielded, hwhile, walkEnd, if_neg hoff]

private theorem mem_yielded_error {tip : SnapshotId} {e : TableError}
    (h : .error e ∈ yielded base tip line) :
    ∃ b, base = some b ∧ e = .unreachableAncestor b tip := by
  rcases List.mem_append.mp h with h | h
  · obtain ⟨a, -, ha⟩ := List.mem_map.mp h
    cases ha
  · cases base with
    | none => cases h
    | some b =>
      rw [walkEnd] at h
      split at h
      · cases h
      · exact ⟨b, rfl, Except.error.inj (List.mem_singleton.mp h)⟩

/-- What a walk from `s` yields that is asked again and again, where `line` is the lineage of `s`. -/
structure Follows (w : Walk) (base : Option SnapshotId) (s : Snapshot) (line : List Snapshot) : Prop where
  whole : base = none → ∀ n, w.item n = (line.map Except.ok)[n]?
  cut : ∀ newer q older, line = newer ++ q :: older → base = some q.id →
    ∀ n, w.item n = (newer.map Except.ok)[n]?
  missed : ∀ b, base = some b → (∀ q ∈ line, q.id ≠ b) →
    ∀ n, w.item n = (line.map Except.ok ++ [.error (.unreachableAncestor b s.id)])[n]?
  sound : ∀ n id reason, w.item n ≠ some (.error (.invalidLineage id reason))

private theorem follows_of_ahead {w : Walk} (h : Ahead w (yielded base s.id line))
    (hdesc : line.Pairwise fun a b => b.id < a.id) : Follows w base s line where
  whole := by
    rintro rfl n
    rw [h.item, yielded_none]
  cut := by
    rintro newer q older rfl rfl n
    rw [h.item, yielded_cut _ hdesc]
  missed := by
    rintro b rfl hoff n
    rw [h.item, yielded_missed _ hoff]
  sound := by
    intro n id reason hn
    rw [h.item] at hn
    obtain ⟨b, -, he⟩ := mem_yielded_error (List.mem_of_getElem? hn)
    cases he

structure Walkable (g : Graph) : Prop where
  /-- No call takes a published snapshot away or puts another one in its place. -/
  kept : ∀ calls, ∀ s ∈ g.items, (g.afterAll calls).get? s.id = some s
  parents : ∀ s ∈ g.items, ∀ id, s.parentId = some id → ∃ q ∈ g.items, q.id = id ∧ q.id < s.id
  unpublished : ∀ base tip, (∀ s ∈ g.items, s.id ≠ tip) →
    g.beginWalk base tip = .error (.snapshotNotFound tip)
  /-- Identifiers fall along the lineage of a published snapshot, which it is the first of. -/
  lineages : ∀ s ∈ g.items, ∃ line, g.Lineage (some s.id) line ∧ line.head? = some s ∧
    line.Pairwise fun a b => b.id < a.id
  walks : ∀ s ∈ g.items, ∀ base line, g.Lineage (some s.id) line →
    ∃ w items, g.beginWalk base s.id = .ok w ∧ Follows w base s line ∧
      g.walk base s.id = .ok items ∧ ∀ n, w.item n = items[n]?

/-- Whatever is published on an empty graph, in checked chains or one by one, and whatever is refused in
between, its walks follow lineages. -/
theorem walkable_afterAll (calls : List Call) : Walkable (afterAll Keyed.empty calls) := by
  have hbuilt : (afterAll Keyed.empty calls).Built := Built.empty.afterAll calls
  -- from here on it does not matter by which calls the graph came about
  generalize afterAll Keyed.empty calls = g at hbuilt ⊢
  have hg := hbuilt.grounded
  refine ⟨?_, hg, ?_, ?_, ?_⟩
  · intro more s hs
    exact get?_of_mem (g.subset_afterAll more hs)
  · intro base tip htip
    have hnone : g.get? tip = none := by
      cases hfound : g.get? tip with
      | none => rfl
      | some s =>
        obtain ⟨hs, hid⟩ := Keyed.get?_eq_some_iff.mp hfound
        exact absurd hid (htip s hs)
    rw [beginWalk, find, hnone]
    rfl
  · intro s hs
    obtain ⟨line, hl⟩ := hg.exists_lineage hs
    obtain ⟨older, rfl, -⟩ := hl.eq_cons hs
    exact ⟨_, hl, rfl, (hl.descends hg).2⟩
  · intro s hs base line hl
    have hahead : Ahead { graph := g, next := some s.id, base, tip := s.id } (yielded base s.id line) :=
      .along rfl hl
    refine ⟨_, _, ?_, follows_of_ahead hahead (hl.descends hg).2, hl.walk hg base, hahead.item⟩
    rw [beginWalk, find_of_mem hs]
    rfl

def link (id : SnapshotId) (parentId : Option SnapshotId) : Snapshot :=
  ⟨id, parentId, .ofNanos 0, .append, [], {}⟩

/-- A root and two snapshots on top of it in one chain; a chain and a snapshot that are refused, the one for its
identifier and the other for its parent; and a snapshot behind a gap that branches off from the root. -/
def branchingCalls : List Call :=
  [.insert (link 1 none), .extend [link 2 (some 1), link 3 (some 2)], .extend [link 3 none],
    .insert (link 4 (some 7)), .insert (link 5 (some 1))]

/-- Down to the root a walk yields the other snapshots of its branch and then nothing; a base on the other branch
is an error behind the whole of it. -/
theorem walkable_afterAll_branchingCalls :
    let g := afterAll Keyed.empty branchingCalls
    g.ids = [1, 2, 3, 5] ∧
    (∃ w, g.beginWalk (some 1) 3 = .ok w ∧
      ∀ n, w.item n = [.ok (link 3 (some 2)), .ok (link 2 (some 1))][n]?) ∧
    ∃ w, g.beginWalk (some 2) 5 = .ok w ∧ ∀ n, w.item n =
      [.ok (link 5 (some 1)), .ok (link 1 none), .error (.unreachableAncestor 2 5)][n]? := by
  intro g
  have hwalkable : Walkable g := walkable_afterAll branchingCalls
  have hroot : g.Lineage (some 1) [link 1 none] := .step (s := link 1 none) (by decide) .root
  have hline : g.Lineage (some 3) [link 3 (some 2), link 2 (some 1), link 1 none] :=
    .step (s := link 3 (some 2)) (by decide) (.step (s := link 2 (some 1)) (by decide) hroot)
  have hbranch : g.Lineage (some 5) [link 5 (some 1), link 1 none] :=
    .step (s := link 5 (some 1)) (by decide) hroot
  refine ⟨by decide, ?_, ?_⟩
  · obtain ⟨w, _, hbegin, hfollows, -⟩ := hwalkable.walks (link 3 (some 2)) (by decide) (some 1) _ hline
    exact ⟨w, hbegin, hfollows.cut [link 3 (some 2), link 2 (some 1)] (link 1 none) [] rfl rfl⟩
  · obtain ⟨w, _, hbegin, hfollows, -⟩ := hwalkable.walks (link 5 (some 1)) (by decide) (some 2) _ hbranch
    exact ⟨w, hbegin, hfollows.missed 2 rfl (by decide)⟩

end Graph
end SnapshotTable
