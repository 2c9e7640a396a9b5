import SnapshotTable.Proofs.Ledger
import SnapshotTable.Proofs.Twins

/-! Transactions against commits one by one. A transaction makes each snapshot on top of one that is not
published yet, a commit reads its parent back from the graph, and between two commits the clock is read
once more for the log. So the same changes make the same snapshots but for their times, under the same
identifiers and with the same manifests, and the first change that is refused is the same one. -/

namespace SnapshotTable

def Retimed (s s' : Snapshot) : Prop := ∃ time, s' = { s with timestamp := time }

namespace Retimed
variable {s s' : Snapshot} {parent parent' : Option Snapshot}

private theorem refl (s : Snapshot) : Retimed s s := ⟨s.timestamp, rfl⟩

private theorem id_eq (h : Retimed s s') : s'.id = s.id := by
  obtain ⟨time, rfl⟩ := h
  rfl

private theorem filesAt_eq (h : Option.Rel Retimed parent parent') :
    filesAt parent' = filesAt parent := by
  cases h with
  | none => rfl
  | some h =>
    obtain ⟨time, rfl⟩ := h
    rfl

private theorem nextFresh_eq (h : Option.Rel Retimed parent parent') (fresh : ManifestId) :
    Production.nextFresh parent' fresh = Production.nextFresh parent fresh := by
  cases h with
  | none => rfl
  | some h =>
    obtain ⟨time, rfl⟩ := h
    rfl

private theorem build (h : Option.Rel Retimed parent parent') (p : Production) (id : SnapshotId)
    (change : Change) (fresh : ManifestId) (now now' : Instant) :
    Retimed (p.build parent id change fresh now) (p.build parent' id change fresh now') := by
  cases h with
  | none => exact ⟨_, rfl⟩
  | some h =>
    obtain ⟨time, rfl⟩ := h
    exact ⟨_, rfl⟩

private theorem produce (h : Option.Rel Retimed parent parent') {supply supply' : Supply}
    (hfresh : supply'.freshManifest = supply.freshManifest) (p : Production) (id : SnapshotId)
    (change : Change) :
    Matches Retimed (p.produce parent id change supply).1 (p.produce parent' id change supply').1 ∧
      (p.produce parent' id change supply').2.freshManifest =
        (p.produce parent id change supply).2.freshManifest := by
  rw [Production.produce, Production.produce, filesAt_eq h, hfresh]
  cases Validator.evaluate (filesAt parent) change p.validators with
  | error refusal => exact ⟨.error refusal, hfresh⟩
  | ok _ => exact ⟨.ok (build h p id change _ _ _), nextFresh_eq h _⟩

private theorem refl_option (parent : Option Snapshot) : Option.Rel Retimed parent parent := by
  cases parent with
  | none => exact .none
  | some s => exact .some (refl s)

private theorem refl_list (snapshots : List Snapshot) : List.Forall₂ Retimed snapshots snapshots :=
  List.forall₂_same.mpr fun s _ => refl s

private theorem last_id {chain chain' : List Snapshot} (h : List.Forall₂ Retimed chain chain') :
    chain'.getLast?.map Snapshot.id = chain.getLast?.map Snapshot.id :=
  Snapshot.last_id_rel (fun _ _ hs => hs.id_eq) h

end Retimed

private theorem Production.produce_id {p : Production} {parent : Option Snapshot} {id : SnapshotId}
    {change : Change} {supply left : Supply} {s : Snapshot}
    (h : p.produce parent id change supply = (.ok s, left)) : s.id = id := by
  rw [produce] at h
  split at h
  · cases h
  · cases h
    rfl

namespace Table
section AnyStore
variable {σ : Type} [PointerStore σ]

def commitNext (t : Table σ) (change : Change) : Except Failure Snapshot × Table σ :=
  let (c, t) := t.beginCommit change.operation
  t.commit { c with change }

/-- Commits changes one by one, each begun behind the one before, up to the first failure. -/
def commitEach (t : Table σ) : List Change → Except Failure (List Snapshot) × Table σ
  | [] => (.ok [], t)
  | change :: rest =>
    match t.commitNext change with
    | (.error f, t) => (.error f, t)
    | (.ok s, t) =>
      match t.commitEach rest with
      | (.error f, t) => (.error f, t)
      | (.ok chain, t) => (.ok (s :: chain), t)

def transact (t : Table σ) (changes : List Change) : Except Failure (List Snapshot) × Table σ :=
  match t.beginTransaction with
  | (.error e, t) => (.error (.error e), t)
  | (.ok txn, t) => t.commitTransaction (changes.foldl Transaction.stage txn)

end AnyStore

/-- The table after a chain was published on top of what was current, and these of its snapshots were
entered in the log. -/
structure Published (t : Table MemoryPointer) (chain logged : List Snapshot) (t' : Table MemoryPointer) :
    Prop where
  config : t'.config = t.config
  validators : t'.validators = t.validators
  poisoned : t'.poisoned = t.poisoned
  graph : t'.graph.items = t.graph.items ++ chain
  pointer : t'.pointer.value = (chain.getLast?.map Snapshot.id).or t.pointer.value
  log : ∃ news, Extended t news t' ∧
    news.map (fun e => (e.snapshotId, e.change)) = logged.map fun s => (s.id, .commit)

variable {t u t' : Table MemoryPointer} {change : Change} {changes : List Change}

private theorem Published.refl (t : Table MemoryPointer) : t.Published [] [] t :=
  ⟨rfl, rfl, rfl, (List.append_nil _).symm, rfl, [], .refl t, rfl⟩

private theorem Published.trans {chain more logged others : List Snapshot}
    (h : t.Published chain logged u)
    (h' : u.Published more others t') : t.Published (chain ++ more) (logged ++ others) t' where
  config := h'.config.trans h.config
  validators := h'.validators.trans h.validators
  poisoned := h'.poisoned.trans h.poisoned
  graph := by rw [h'.graph, h.graph, List.append_assoc]
  pointer := by rw [h'.pointer, h.pointer, List.getLast?_append, Option.map_or, Option.or_assoc]
  log := by
    obtain ⟨news, hnews, hpairs⟩ := h.log
    obtain ⟨news', hnews', hpairs'⟩ := h'.log
    refine ⟨news ++ news', hnews.trans hnews', ?_⟩
    rw [List.map_append, List.map_append, hpairs, hpairs']

private theorem Published.report {chain logged : List Snapshot} (h : t.Published chain logged u)
    (e : Event) :
    t.Published chain logged (u.report e) := by
  obtain ⟨news, hnews, hpairs⟩ := h.log
  exact ⟨h.config, h.validators, h.poisoned, h.graph, h.pointer, news,
    hnews.untouched (Untouched.refl u).supply, hpairs⟩

section Current
variable {parent : Option Snapshot} {chain : List Snapshot} {left : Supply}

private theorem publish_published (h : t.poisoned = false)
    (hparent : t.graph.resolve t.pointer.value = .ok parent)
    (hreplay : t.production.replay parent t.graph.nextId changes t.supply = (.ok chain, left))
    {last : Snapshot} (hlast : chain.getLast? = some last) :
    (t.publish t.pointer.value changes).1 = .ok chain ∧
      t.Published chain [last] (t.publish t.pointer.value changes).2 ∧
      (t.publish t.pointer.value changes).2.supply.freshManifest = left.freshManifest := by
  obtain ⟨hanswer, hg⟩ := publish_grown h hparent hreplay
  refine ⟨hanswer, ⟨hg.config, hg.validators, hg.sound.2.trans h.symm, hg.graph, hg.pointer, ?_⟩, ?_⟩
  · rcases t.publish_settles t.pointer.value changes with ⟨f, hf, -⟩ | ⟨-, hnil, -⟩ | ⟨_, s, hc, -, hs, ha⟩
    · cases hf.symm.trans hanswer
    · cases Except.ok.inj (hnil.symm.trans hanswer)
      cases hlast
    · obtain rfl := Except.ok.inj (hc.symm.trans hanswer)
      obtain rfl := Option.some.inj (hs.symm.trans hlast)
      obtain ⟨e, hid, hchange, hextended⟩ := (Extended.refl t).advanced ha
      refine ⟨[e], hextended, ?_⟩
      rw [List.map_singleton, List.map_singleton, hid, hchange]
  · obtain ⟨events, heq⟩ := publish_made h hparent hreplay hlast
    rw [heq]

private theorem commitNext_eq (t : Table MemoryPointer) (change : Change) :
    t.commitNext change = t.attempt t.pointer.value change :=
  t.commitFrom_current change 0 t.config.commitRetries

private theorem commitNext_made (h : t.poisoned = false)
    (hparent : t.graph.resolve t.pointer.value = .ok parent) {s : Snapshot}
    (hproduce : t.production.produce parent t.graph.nextId change t.supply = (.ok s, left)) :
    (t.commitNext change).1 = .ok s ∧ t.Published [s] [s] (t.commitNext change).2 ∧
      (t.commitNext change).2.supply.freshManifest = left.freshManifest := by
  have hreplay : t.production.replay parent t.graph.nextId [change] t.supply = (.ok [s], left) := by
    simp only [Production.replay, hproduce]
  obtain ⟨hanswer, hpublished, hfresh⟩ := publish_published h hparent hreplay rfl
  rw [commitNext_eq, attempt, ← Prod.eta (t.publish t.pointer.value [change]), hanswer]
  exact ⟨rfl, hpublished, hfresh⟩

private theorem commitNext_failed {f : Failure}
    (hf : (t.publish t.pointer.value [change]).1 = .error f) : (t.commitNext change).1 = .error f := by
  rw [commitNext_eq, attempt, ← Prod.eta (t.publish t.pointer.value [change]), hf]

private theorem commitNext_refused (h : t.poisoned = false)
    (hparent : t.graph.resolve t.pointer.value = .ok parent) {refusal : Refusal}
    (hproduce : t.production.produce parent t.graph.nextId change t.supply = (.error refusal, left)) :
    (t.commitNext change).1 = .error refusal.toFailure := by
  have hreplay : t.production.replay parent t.graph.nextId [change] t.supply =
      (.error refusal, left) := by
    simp only [Production.replay, hproduce]
  apply commitNext_failed
  rw [publish_refused h hparent hreplay]

private theorem Published.next {s : Snapshot} (h : t.Published [s] [s] u) (hid : s.id = t.graph.nextId) :
    u.production = t.production ∧ u.graph.resolve u.pointer.value = .ok (some s) ∧
      u.graph.nextId = t.graph.nextId + 1 := by
  have hmem : s ∈ u.graph.items := by
    rw [h.graph]
    exact List.mem_append_right _ List.mem_cons_self
  refine ⟨production_congr h.config h.validators, ?_, ?_⟩
  · have hcur : u.pointer.value = (some s).map Snapshot.id := h.pointer
    rw [hcur]
    exact Graph.resolve_of_mem fun q hq => Option.some.inj hq ▸ hmem
  · rw [Graph.nextId, Graph.lastId?, h.graph, List.getLast?_concat, ← hid]
    rfl

end Current

/-- Changes that are committed one by one fail with `f`: those before one of them are published, and the
commit of that one fails. -/
structure FailsAt (t : Table MemoryPointer) (done : List Change) (change : Change) (f : Failure) :
    Prop where
  published : ∃ chain, (t.commitEach done).1 = .ok chain ∧
    t.Published chain chain (t.commitEach done).2
  fails : ((t.commitEach done).2.commitNext change).1 = .error f

private theorem commitEach_cons_ok {s : Snapshot} (h : (t.commitNext change).1 = .ok s)
    {rest : List Change}
    {chain : List Snapshot} (hrest : ((t.commitNext change).2.commitEach rest).1 = .ok chain) :
    t.commitEach (change :: rest) =
      (.ok (s :: chain), ((t.commitNext change).2.commitEach rest).2) := by
  rw [commitEach, ← Prod.eta (t.commitNext change), h]
  dsimp only
  rw [← Prod.eta ((t.commitNext change).2.commitEach rest), hrest]

private theorem commitEach_cons_error {s : Snapshot} (h : (t.commitNext change).1 = .ok s)
    {rest : List Change}
    {f : Failure} (hrest : ((t.commitNext change).2.commitEach rest).1 = .error f) :
    (t.commitEach (change :: rest)).1 = .error f := by
  rw [commitEach, ← Prod.eta (t.commitNext change), h]
  dsimp only
  rw [← Prod.eta ((t.commitNext change).2.commitEach rest), hrest]

private theorem commitEach_replay {parent parent' : Option Snapshot} (h : u.poisoned = false)
    (hparent : u.graph.resolve u.pointer.value = .ok parent')
    (hretimed : Option.Rel Retimed parent parent') {supply : Supply}
    (hfresh : u.supply.freshManifest = supply.freshManifest) (changes : List Change) :
    (∃ refusal left done change rest, changes = done ++ change :: rest ∧
      u.production.replay parent u.graph.nextId changes supply = (.error refusal, left) ∧
      (u.commitEach changes).1 = .error refusal.toFailure ∧
      u.FailsAt done change refusal.toFailure) ∨
    ∃ chain left chain', u.production.replay parent u.graph.nextId changes supply = (.ok chain, left) ∧
      (u.commitEach changes).1 = .ok chain' ∧ List.Forall₂ Retimed chain chain' ∧
      u.Published chain' chain' (u.commitEach changes).2 ∧
      (u.commitEach changes).2.supply.freshManifest = left.freshManifest := by
  -- Each commit leaves a table whose current snapshot is the next parent, but perhaps at another time.
  induction changes generalizing u parent parent' supply with
  | nil => exact .inr ⟨[], supply, [], rfl, rfl, .nil, .refl u, hfresh⟩
  | cons change rest ih =>
    obtain ⟨hmatch, hleft⟩ := Retimed.produce hretimed hfresh u.production u.graph.nextId change
    rw [Production.replay]
    cases hp : u.production.produce parent u.graph.nextId change supply with
    | mk answer left =>
      cases hp' : u.production.produce parent' u.graph.nextId change u.supply with
      | mk answer' left' =>
        rw [hp, hp'] at hmatch hleft
        cases hmatch with
        | error refusal =>
          left
          have hfails := commitNext_refused h hparent hp'
          refine ⟨refusal, left, [], change, rest, rfl, rfl, ?_, ⟨⟨[], rfl, .refl u⟩, hfails⟩⟩
          rw [commitEach, ← Prod.eta (u.commitNext change), hfails]
        | @ok s s' hs =>
          obtain ⟨hanswer, hpublished, hnext⟩ := commitNext_made h hparent hp'
          obtain ⟨hrules, hcurrent, hid⟩ := hpublished.next (Production.produce_id hp')
          have hlater := ih (hpublished.poisoned.trans h) hcurrent (.some hs) (hnext.trans hleft)
          rw [hrules, hid] at hlater
          dsimp only
          rcases hlater with ⟨refusal, more, done, at', behind, rfl, hr, he, hfails⟩ |
            ⟨chain, more, chain', hr, he, hchain, hpub, hends⟩
          · left
            obtain ⟨⟨chain, hdone, hpub⟩, hfail⟩ := hfails
            have hcons := commitEach_cons_ok hanswer hdone
            have herror := commitEach_cons_error hanswer he
            refine ⟨refusal, more, change :: done, at', behind, rfl, ?_, herror, ?_⟩
            · rw [hr]
            · refine ⟨⟨s' :: chain, ?_, ?_⟩, ?_⟩
              · rw [hcons]
              · rw [hcons]
                exact hpublished.trans hpub
              · rw [hcons]
                exact hfail
          · right
            have hcons := commitEach_cons_ok hanswer he
            refine ⟨s :: chain, more, s' :: chain', ?_, ?_, .cons hs hchain, ?_, ?_⟩
            · rw [hr]
            · rw [hcons]
            · rw [hcons]
              exact hpublished.trans hpub
            · rw [hcons]
              exact hends

theorem foldl_stage (base : Option SnapshotId) (changes staged : List Change) :
    changes.foldl Transaction.stage ⟨base, staged⟩ = ⟨base, staged ++ changes⟩ := by
  induction changes generalizing staged with
  | nil => rw [List.append_nil]; rfl
  | cons change rest ih =>
    rw [List.foldl_cons, Transaction.stage, ih, List.append_assoc]
    rfl

private theorem transact_eq (t : Table MemoryPointer) (first : Change) (rest : List Change) :
    t.transact (first :: rest) = t.commitTransaction ⟨t.pointer.value, first :: rest⟩ := by
  have hstaged : (first :: rest).foldl Transaction.stage ⟨t.pointer.value, []⟩ =
      ⟨t.pointer.value, first :: rest⟩ := foldl_stage _ _ _
  rw [← hstaged]
  rfl

private theorem transact_failed {first : Change} {rest : List Change} {f : Failure}
    (hf : (t.publish t.pointer.value (first :: rest)).1 = .error f) :
    (t.transact (first :: rest)).1 = .error f ∧ t.Refused f (t.transact (first :: rest)).2 := by
  rcases t.publish_cases t.pointer.value (first :: rest) with ⟨f', hf', hr⟩ | ⟨chain, hc, -⟩
  · obtain rfl := Except.error.inj (hf'.symm.trans hf)
    rw [transact_eq, commitTransaction, ← Prod.eta (t.publish t.pointer.value (first :: rest)), hf]
    exact ⟨rfl, hr⟩
  · cases hc.symm.trans hf

private theorem transact_published (h : t.poisoned = false) {parent : Option Snapshot}
    (hparent : t.graph.resolve t.pointer.value = .ok parent) {first : Change} {rest : List Change}
    {chain : List Snapshot} {left : Supply}
    (hreplay : t.production.replay parent t.graph.nextId (first :: rest) t.supply = (.ok chain, left)) :
    (t.transact (first :: rest)).1 = .ok chain ∧
      t.Published chain chain.getLast?.toList (t.transact (first :: rest)).2 ∧
      (t.transact (first :: rest)).2.supply.freshManifest = left.freshManifest := by
  have hlength := (Production.builds_of_replay hreplay).length_eq
  cases hlast : chain.getLast? with
  | none =>
    rw [List.getLast?_eq_none_iff.mp hlast] at hlength
    cases hlength
  | some last =>
    obtain ⟨hanswer, hpublished, hfresh⟩ := publish_published h hparent hreplay hlast
    rw [transact_eq, commitTransaction, ← Prod.eta (t.publish t.pointer.value (first :: rest)), hanswer]
    exact ⟨rfl, hpublished.report _, hfresh⟩

/-- What is left where all changes are committed: on both sides snapshots were published that differ in their
times at most, and the log has one entry for the transaction, and one for each single commit. -/
structure SamePublished (t : Table MemoryPointer) (chain chain' : List Snapshot)
    (t₁ t₂ : Table MemoryPointer) : Prop where
  transaction : t.Published chain chain.getLast?.toList t₁
  commits : t.Published chain' chain' t₂
  retimed : List.Forall₂ Retimed chain chain'
  graph : List.Forall₂ Retimed t₁.graph.items t₂.graph.items
  pointer : t₂.pointer = t₁.pointer
  manifests : t₂.supply.freshManifest = t₁.supply.freshManifest

private theorem failsAt_first {first : Change} {f : Failure}
    (hf : (t.publish t.pointer.value [first]).1 = .error f) (rest : List Change) :
    (t.commitEach (first :: rest)).1 = .error f ∧ t.FailsAt [] first f := by
  have hfails := commitNext_failed hf
  refine ⟨?_, ⟨[], rfl, .refl t⟩, hfails⟩
  rw [commitEach, ← Prod.eta (t.commitNext first), hfails]

/-- On any table and under any rules, a transaction of changes and single commits of them one after the
other all succeed, and publish the same, or fail alike: at some change the commit is refused for the same
reason, behind commits that the transaction did not make. -/
theorem transact_eq_commitEach (t : Table MemoryPointer) (first : Change) (rest : List Change) :
    let changes := first :: rest
    (∃ chain chain', (t.transact changes).1 = .ok chain ∧ (t.commitEach changes).1 = .ok chain' ∧
      t.SamePublished chain chain' (t.transact changes).2 (t.commitEach changes).2) ∨
    ∃ f done change later, changes = done ++ change :: later ∧
      (t.transact changes).1 = .error f ∧ t.Refused f (t.transact changes).2 ∧
      (t.commitEach changes).1 = .error f ∧ t.FailsAt done change f := by
  intro changes
  -- Where nothing is even tried on the current snapshot, both fail at the first change.
  have hfirst {f : Failure} (hf : ∀ changes, (t.publish t.pointer.value changes).1 = .error f) :
      ∃ f done change later, changes = done ++ change :: later ∧
        (t.transact changes).1 = .error f ∧ t.Refused f (t.transact changes).2 ∧
        (t.commitEach changes).1 = .error f ∧ t.FailsAt done change f := by
    obtain ⟨hanswer, hrefused⟩ := transact_failed (hf (first :: rest))
    obtain ⟨heach, hfails⟩ := failsAt_first (hf [first]) rest
    exact ⟨f, [], first, rest, rfl, hanswer, hrefused, heach, hfails⟩
  cases hp : t.poisoned with
  | true => exact .inr (hfirst fun _ => by rw [publish_poisoned hp])
  | false =>
    cases hparent : t.graph.resolve t.pointer.value with
    | error e => exact .inr (hfirst fun _ => by rw [publish_unresolved hp hparent])
    | ok parent =>
      rcases commitEach_replay hp hparent (Retimed.refl_option parent) rfl changes with
        ⟨refusal, left, done, change, later, hsplit, hreplay, heach, hfails⟩ |
        ⟨chain, left, chain', hreplay, heach, hretimed, hpublished, hfresh⟩
      · have hpublish : (t.publish t.pointer.value (first :: rest)).1 = .error refusal.toFailure := by
          rw [publish_refused hp hparent hreplay]
        obtain ⟨hanswer, hrefused⟩ := transact_failed hpublish
        exact .inr ⟨refusal.toFailure, done, change, later, hsplit, hanswer, hrefused, heach, hfails⟩
      · obtain ⟨hanswer, htransaction, hmanifests⟩ := transact_published hp hparent hreplay
        refine .inl ⟨chain, chain', hanswer, heach, htransaction, hpublished, hretimed, ?_, ?_, ?_⟩
        · rw [htransaction.graph, hpublished.graph]
          exact List.rel_append (Retimed.refl_list t.graph.items) hretimed
        · have hvalue : (t.commitEach changes).2.pointer.value = (t.transact changes).2.pointer.value := by
            rw [hpublished.pointer, htransaction.pointer, Retimed.last_id hretimed]
          exact congrArg MemoryPointer.mk hvalue
        · rw [hfresh, hmanifests]

/-- On a branch, a file is appended and the last one removed. Both ways this makes two snapshots with the same
files; the transaction is one move of the pointer, the single commits are two. -/
theorem transact_eq_commitEach_forked :
    let t := Table.forked.2
    let changes := [(Change.start .append).add { path := "d" }, (Change.start .delete).remove "c"]
    ∃ chain chain', (t.transact changes).1 = .ok chain ∧ (t.commitEach changes).1 = .ok chain' ∧
      t.SamePublished chain chain' (t.transact changes).2 (t.commitEach changes).2 ∧
      chain.map (fun s => (s.parentId, s.id)) = [(some 3, 4), (some 4, 5)] ∧
      (t.transact changes).2.log.entries.map LogEntry.snapshotId = [1, 2, 1, 3, 5] ∧
      (t.commitEach changes).2.log.entries.map LogEntry.snapshotId = [1, 2, 1, 3, 4, 5] := by
  intro t changes
  have hids : (t.transact changes).1.map (·.map fun s => (s.parentId, s.id)) =
      .ok [(some 3, 4), (some 4, 5)] := by decide +kernel
  rcases t.transact_eq_commitEach ((Change.start .append).add { path := "d" })
    [(Change.start .delete).remove "c"] with
    ⟨chain, chain', hchain, hchain', hsame⟩ | ⟨f, -, -, -, -, hfailed, -⟩
  · refine ⟨chain, chain', hchain, hchain', hsame, ?_, by decide +kernel, by decide +kernel⟩
    rw [show (t.transact changes).1 = .ok chain from hchain] at hids
    exact Except.ok.inj hids
  · rw [show (t.transact changes).1 = .error f from hfailed] at hids
    cases hids

end Table
end SnapshotTable
