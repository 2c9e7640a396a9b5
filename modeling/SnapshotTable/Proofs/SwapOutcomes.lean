import SnapshotTable.Proofs.PointerMoves
import SnapshotTable.Proofs.StoreCalls
import SnapshotTable.Table.Commit
import SnapshotTable.Table.Rollback
import SnapshotTable.Table.Transaction

/-! What an operation leaves behind, whatever its pointer store does. Until a swap is granted, graph and
log stay as they are, and behind it nothing fails. So an attempt to publish or to go back ends in one of
two ways: no swap was granted and nothing else happened either, or exactly one was, and the log and the
graph go with it. -/

namespace SnapshotTable

def Failure.isCrash : Failure → Bool
  | .error _ => false
  | .crashed => true

private theorem Refusal.toFailure_inj {r r' : Refusal} (h : r.toFailure = r'.toFailure) : r = r' := by
  cases r <;> cases r' <;> cases h <;> rfl

private theorem PointerError.toTableError_ne (e : PointerError) (violation : Violation) :
    e.toTableError ≠ .validation violation := by
  cases e <;> simp [toTableError]

private theorem Graph.get?_extend_last (g : Graph) {chain : List Snapshot} {last : Snapshot}
    (h : chain.getLast? = some last) : (g.extend chain).get? last.id = some last := by
  obtain ⟨front, rfl⟩ := List.getLast?_eq_some_iff.mp h
  rw [extend, List.foldl_append]
  exact (Keyed.get?_insert _ _ _).trans (if_pos rfl)

namespace Table
variable {σ : Type} [PointerStore σ]

/-- The table after calls none of which moved the pointer, with graph and log as they were. A validator
that broke down leaves it poisoned. -/
structure Untouched (t : Table σ) (crash : Bool) (t' : Table σ) : Prop where
  config : t'.config = t.config
  validators : t'.validators = t.validators
  graph : t'.graph = t.graph
  log : t'.log = t.log
  pointer : Calls t.pointer [] t'.pointer
  poisoned : t'.poisoned = (t.poisoned || crash)

/-- The table after exactly one swap was granted, to snapshot `s`: the log has one more entry for it, and
the graph, into which a chain was published, holds it. -/
structure Advanced (t : Table σ) (chain : List Snapshot) (s : Snapshot) (change : PointerChange)
    (t' : Table σ) : Prop where
  config : t'.config = t.config
  validators : t'.validators = t.validators
  sound : t.poisoned = false ∧ t'.poisoned = false
  pointer : Calls t.pointer [s.id] t'.pointer
  graph : t'.graph = t.graph.extend chain
  target : t'.graph.get? s.id = some s
  log : ∃ now, t'.log.entries = t.log.entries ++ [t.log.nextEntry s.id change now]

variable {t u t' : Table σ} {crash : Bool}

namespace Untouched

theorem refl (t : Table σ) : t.Untouched false t :=
  ⟨rfl, rfl, rfl, rfl, .none, (Bool.or_false _).symm⟩

/-- To leave a table untouched twice is to leave it untouched. -/
theorem trans (h : t.Untouched false u) (h' : u.Untouched crash t') : t.Untouched crash t' where
  config := h'.config.trans h.config
  validators := h'.validators.trans h.validators
  graph := h'.graph.trans h.graph
  log := h'.log.trans h.log
  pointer := h.pointer.trans h'.pointer
  poisoned := by rw [h'.poisoned, h.poisoned, Bool.or_false]

/-- The supply is not part of what is touched. -/
theorem supply {s : Supply} (h : t.Untouched crash t') : t.Untouched crash { t' with supply := s } :=
  ⟨h.config, h.validators, h.graph, h.log, h.pointer, h.poisoned⟩

/-- A swap behind steps that touch nothing is the only one of them all. -/
theorem advanced {chain : List Snapshot} {s : Snapshot} {change : PointerChange}
    (h : t.Untouched false u) (h' : u.Advanced chain s change t') :
    t.Advanced chain s change t' where
  config := h'.config.trans h.config
  validators := h'.validators.trans h.validators
  sound := by
    have hsame := h.poisoned
    rw [Bool.or_false] at hsame
    exact ⟨hsame ▸ h'.sound.1, h'.sound.2⟩
  pointer := h.pointer.trans h'.pointer
  graph := h.graph ▸ h'.graph
  target := h'.target
  log := h.log ▸ h'.log

end Untouched

private theorem Advanced.supply {chain : List Snapshot} {s : Snapshot} {change : PointerChange}
    {more : Supply} (h : t.Advanced chain s change t') :
    t.Advanced chain s change { t' with supply := more } :=
  ⟨h.config, h.validators, h.sound, h.pointer, h.graph, h.target, h.log⟩

/-- Reading the pointer touches nothing. -/
theorem currentId_untouched (t : Table σ) : t.Untouched false t.currentId.2 := by
  rw [currentId]
  split
  · rename_i hread
    exact ⟨rfl, rfl, rfl, rfl, .of_read hread, (Bool.or_false _).symm⟩
  · rename_i hread
    exact ⟨rfl, rfl, rfl, rfl, .of_read hread, (Bool.or_false _).symm⟩

/-- A reading fails only as the store does. -/
theorem currentId_error {e : TableError} (h : t.currentId.1 = .error e) :
    ∃ refusal : PointerError, (PointerStore.current t.pointer).1 = .error refusal ∧
      e = refusal.toTableError := by
  rw [currentId] at h
  split at h
  · rename_i refusal _ hread
    cases h
    exact ⟨refusal, congrArg Prod.fst hread, rfl⟩
  · cases h

private theorem publishChain_settles (h : t.poisoned = false) {chain : List Snapshot}
    {last : Snapshot} (hlast : chain.getLast? = some last) (base : Option SnapshotId) :
    (∃ refusal : PointerError,
      (t.publishChain base chain last.id).1 = .error (.error refusal.toTableError) ∧
      t.Untouched false (t.publishChain base chain last.id).2) ∨
    (t.publishChain base chain last.id).1 = .ok chain ∧
      t.Advanced chain last .commit (t.publishChain base chain last.id).2 := by
  cases hswap : PointerStore.compareAndSwap t.pointer base last.id with
  | mk answer pointer =>
    cases answer with
    | error e =>
      left
      rw [publishChain, hswap]
      exact ⟨_, rfl, rfl, rfl, rfl, rfl, .of_refused hswap, (Bool.or_false _).symm⟩
    | ok granted =>
      right
      obtain ⟨events, heq⟩ := publishChain_swapped hswap chain
      rw [heq]
      have htarget := Graph.get?_extend_last t.graph hlast
      exact ⟨rfl, rfl, rfl, ⟨h, h⟩, .of_granted hswap, rfl, htarget, _, rfl⟩

/-- Publishing fails without a trace, or replays its changes on top of the base. Then it is refused for what the
replay came upon, which no other failure is told as, or has nothing to publish, or publishes what was made with
one swap. -/
theorem publish_outcome (t : Table σ) (base : Option SnapshotId) (changes : List Change) :
    (∃ e, (∀ violation, e ≠ .validation violation) ∧ (t.publish base changes).1 = .error (.error e) ∧
      t.Untouched false (t.publish base changes).2) ∨
    (∃ refusal parent supply left, t.graph.resolve base = .ok parent ∧
      t.production.replay parent t.graph.nextId changes supply = (.error refusal, left) ∧
      (t.publish base changes).1 = .error refusal.toFailure ∧
      t.Untouched refusal.toFailure.isCrash (t.publish base changes).2) ∨
    ∃ parent supply chain left, t.graph.resolve base = .ok parent ∧
      t.production.replay parent t.graph.nextId changes supply = (.ok chain, left) ∧
      (t.publish base changes).1 = .ok chain ∧
      (chain = [] ∧ t.Untouched false (t.publish base changes).2 ∨
        ∃ last, chain.getLast? = some last ∧
          t.Advanced chain last .commit (t.publish base changes).2) := by
  by_cases h : t.poisoned = true
  · rw [publish_poisoned h]
    exact .inl ⟨_, by simp, rfl, .refl t⟩
  rw [publish, if_neg h]
  have hread := t.currentId_untouched
  cases hcur : t.currentId with
  | mk answer u =>
    rw [hcur] at hread
    cases answer with
    | error e =>
      obtain ⟨refused, -, rfl⟩ := currentId_error (congrArg Prod.fst hcur)
      exact .inl ⟨_, refused.toTableError_ne, rfl, hread⟩
    | ok actual =>
      dsimp only
      split
      · exact .inl ⟨_, by simp, rfl, hread.supply⟩
      have hgraph : u.graph = t.graph := hread.graph
      have hrules : u.production = t.production := production_congr hread.config hread.validators
      cases hparent : u.graph.resolve base with
      | error e =>
        obtain ⟨id, rfl⟩ := Graph.resolve_error hparent
        exact .inl ⟨_, by simp, rfl, hread⟩
      | ok parent =>
        dsimp only
        cases hreplay : u.production.replay parent u.graph.nextId changes u.supply with
        | mk answer left =>
          have hmade := hreplay
          have hbase := hparent
          rw [hrules, hgraph] at hmade
          rw [hgraph] at hbase
          cases answer with
          | error refusal =>
            refine .inr (.inl ⟨refusal, parent, _, left, hbase, hmade, ?_⟩)
            cases refusal with
            | rejected violation => exact ⟨rfl, hread.supply⟩
            | crashed =>
              exact ⟨rfl, hread.config, hread.validators, hread.graph, hread.log, hread.pointer,
                (Bool.or_true _).symm⟩
          | ok chain =>
            dsimp only
            cases hlast : chain.getLast? with
            | none =>
              cases List.getLast?_eq_none_iff.mp hlast
              exact .inr (.inr ⟨parent, _, [], left, hbase, hmade, rfl, .inl ⟨rfl, hread.supply⟩⟩)
            | some last =>
              have hvalid : u.graph.validateChain chain = .ok () :=
                Graph.validateChain_builds (Production.builds_of_replay hreplay)
                  fun _ hq => Graph.mem_of_resolve hparent hq
              dsimp only
              rw [hvalid]
              have hsound : u.poisoned = false := by
                rw [hread.poisoned, Bool.or_false]
                exact Bool.eq_false_iff.mpr h
              rcases publishChain_settles (t := { u with supply := left }) hsound hlast base with
                ⟨refused, he, hu⟩ | ⟨hc, ha⟩
              · exact .inl ⟨_, refused.toTableError_ne, he, hread.supply.trans hu⟩
              · exact .inr (.inr ⟨parent, _, chain, left, hbase, hmade, hc,
                  .inr ⟨last, hlast, hread.supply.advanced ha⟩⟩)

/-- So it fails without a trace, or has nothing to publish, or publishes one snapshot for each change with one
swap. -/
theorem publish_settles (t : Table σ) (base : Option SnapshotId) (changes : List Change) :
    (∃ f, (t.publish base changes).1 = .error f ∧
      t.Untouched f.isCrash (t.publish base changes).2) ∨
    (changes = [] ∧ (t.publish base changes).1 = .ok [] ∧
      t.Untouched false (t.publish base changes).2) ∨
    ∃ chain last, (t.publish base changes).1 = .ok chain ∧ chain.length = changes.length ∧
      chain.getLast? = some last ∧ t.Advanced chain last .commit (t.publish base changes).2 := by
  rcases t.publish_outcome base changes with ⟨e, -, hf, hu⟩ | ⟨refusal, -, -, -, -, -, hf, hu⟩ |
    ⟨parent, supply, chain, left, -, hreplay, hc, hend⟩
  · exact .inl ⟨_, hf, hu⟩
  · exact .inl ⟨_, hf, hu⟩
  have hlength := (Production.builds_of_replay hreplay).length_eq
  rcases hend with ⟨rfl, hu⟩ | ⟨last, hlast, ha⟩
  · exact .inr (.inl ⟨List.length_eq_zero_iff.mp hlength.symm, hc, hu⟩)
  · exact .inr (.inr ⟨chain, last, hc, hlength, hlast, ha⟩)

/-- A change that is refused is one that the replay on top of the base comes upon. -/
theorem publish_refusal {base : Option SnapshotId} {changes : List Change} {refusal : Refusal}
    (h : (t.publish base changes).1 = .error refusal.toFailure) :
    ∃ parent supply left, t.graph.resolve base = .ok parent ∧
      t.production.replay parent t.graph.nextId changes supply = (.error refusal, left) := by
  rcases t.publish_outcome base changes with ⟨e, hother, hf, -⟩ |
    ⟨refused, parent, supply, left, hparent, hreplay, hf, -⟩ | ⟨_, _, chain, _, -, -, hc, -⟩
  · rw [hf] at h
    cases refusal with
    | rejected violation => exact absurd (Failure.error.inj (Except.error.inj h)) (hother violation)
    | crashed => cases h
  · have hsame : refused.toFailure = refusal.toFailure := Except.error.inj (hf.symm.trans h)
    exact ⟨parent, supply, left, hparent, Refusal.toFailure_inj hsame ▸ hreplay⟩
  · cases hc.symm.trans h

/-- Rules that nothing breaks down let no publication crash. -/
theorem publish_ne_crashed {base : Option SnapshotId} {changes : List Change}
    (h : Validator.Sturdy t.validators) : (t.publish base changes).1 ≠ .error .crashed := by
  intro hcrash
  have hrefused : (t.publish base changes).1 = .error (Refusal.toFailure .crashed) := hcrash
  obtain ⟨parent, supply, left, -, hreplay⟩ := publish_refusal hrefused
  have hnone := Production.replay_ne_crashed (p := t.production) h parent t.graph.nextId changes supply
  exact hnone (congrArg Prod.fst hreplay)

/-- One attempt of a commit fails without a trace, or publishes one snapshot with one swap. -/
theorem attempt_settles (t : Table σ) (base : Option SnapshotId) (change : Change) :
    (∃ f, (t.attempt base change).1 = .error f ∧
      t.Untouched f.isCrash (t.attempt base change).2) ∨
    ∃ s, (t.attempt base change).1 = .ok s ∧
      t.Advanced [s] s .commit (t.attempt base change).2 := by
  rw [attempt]
  rcases t.publish_settles base [change] with ⟨f, hf, hu⟩ | ⟨hnil, -⟩ | ⟨chain, last, hc, hlen, hl, ha⟩
  · rw [← Prod.eta (t.publish base [change]), hf]
    exact .inl ⟨f, rfl, hu⟩
  · cases hnil
  · obtain ⟨s, rfl⟩ := List.length_eq_one_iff.mp hlen
    obtain rfl := Option.some.inj hl
    rw [← Prod.eta (t.publish base [change]), hc]
    exact .inr ⟨s, rfl, ha⟩

/-- An attempt does to the table what publishing its change does. -/
theorem attempt_snd (t : Table σ) (base : Option SnapshotId) (change : Change) :
    (t.attempt base change).2 = (t.publish base [change]).2 := by
  rw [attempt]
  split <;> rename_i heq <;> rw [heq]

/-- An attempt answers with the one snapshot that its publication is of, or fails as this does. -/
theorem publish_fst_attempt (t : Table σ) (base : Option SnapshotId) (change : Change) :
    (t.publish base [change]).1 = (t.attempt base change).1.map fun s => [s] := by
  rw [attempt]
  rcases t.publish_settles base [change] with ⟨f, hf, -⟩ | ⟨hnil, -⟩ | ⟨chain, last, hc, hlen, -⟩
  · rw [← Prod.eta (t.publish base [change]), hf]
    rfl
  · cases hnil
  · obtain ⟨s, rfl⟩ := List.length_eq_one_iff.mp hlen
    rw [← Prod.eta (t.publish base [change]), hc]
    rfl

/-- An attempt fails as publishing its change does. -/
theorem attempt_error {base : Option SnapshotId} {change : Change} {f : Failure}
    (h : (t.attempt base change).1 = .error f) : (t.publish base [change]).1 = .error f := by
  rw [publish_fst_attempt, h]
  rfl

/-- A transaction fails without a trace, or is empty, or publishes its chain with one swap. -/
theorem commitTransaction_settles (t : Table σ) (txn : Transaction) :
    (∃ f, (t.commitTransaction txn).1 = .error f ∧
      t.Untouched f.isCrash (t.commitTransaction txn).2) ∨
    (txn.staged = [] ∧ t.commitTransaction txn = (.ok [], t)) ∨
    ∃ chain last, (t.commitTransaction txn).1 = .ok chain ∧ chain.getLast? = some last ∧
      t.Advanced chain last .commit (t.commitTransaction txn).2 := by
  rw [commitTransaction]
  split
  · rename_i hempty
    exact .inr (.inl ⟨List.isEmpty_iff.mp hempty, rfl⟩)
  rename_i hsome
  rcases t.publish_settles txn.base txn.staged with ⟨f, hf, hu⟩ | ⟨hnil, -⟩ | ⟨chain, last, hc, -, hl, ha⟩
  · rw [← Prod.eta (t.publish txn.base txn.staged), hf]
    exact .inl ⟨f, rfl, hu⟩
  · exact absurd (List.isEmpty_iff.mpr hnil) hsome
  · rw [← Prod.eta (t.publish txn.base txn.staged), hc]
    exact .inr (.inr ⟨chain, last, rfl, hl, ha.supply⟩)

private theorem swapBack_settles (h : t.poisoned = false) {s : Snapshot}
    (hs : t.graph.get? s.id = some s) (base : Option SnapshotId) :
    (∃ e, (t.swapBack base s).1 = .error e ∧ t.Untouched false (t.swapBack base s).2) ∨
    (t.swapBack base s).1 = .ok s ∧ t.Advanced [] s .rollback (t.swapBack base s).2 := by
  cases hswap : PointerStore.compareAndSwap t.pointer base s.id with
  | mk answer pointer =>
    cases answer with
    | error e =>
      left
      rw [swapBack, hswap]
      exact ⟨_, rfl, rfl, rfl, rfl, rfl, .of_refused hswap, (Bool.or_false _).symm⟩
    | ok granted =>
      right
      rw [swapBack, hswap]
      simp only [recordMove_eq]
      exact ⟨trivial, rfl, rfl, ⟨h, h⟩, .of_granted hswap, rfl, hs, _, rfl⟩

/-- Going back fails without a trace, or finds the pointer in place, or swaps it once. -/
theorem movePointer_settles (t : Table σ) (base : Option SnapshotId) (target : SnapshotId) :
    (∃ e, (t.movePointer base target).1 = .error e ∧
      t.Untouched false (t.movePointer base target).2) ∨
    ∃ s, (t.movePointer base target).1 = .ok s ∧
      (t.Untouched false (t.movePointer base target).2 ∨
        t.Advanced [] s .rollback (t.movePointer base target).2) := by
  cases h : t.poisoned with
  | true =>
    rw [movePointer_poisoned h]
    exact .inl ⟨_, rfl, .refl t⟩
  | false =>
    cases hs : t.graph.get? target with
    | none =>
      rw [movePointer_unpublished h hs]
      exact .inl ⟨_, rfl, .refl t⟩
    | some s =>
      rw [movePointer_published h hs]
      rw [← Keyed.key_of_get? hs] at hs
      have hswap (u : Table σ) (hu : t.Untouched false u) :
          (∃ e, (u.swapBack base s).1 = .error e ∧ t.Untouched false (u.swapBack base s).2) ∨
          ∃ s', (u.swapBack base s).1 = .ok s' ∧ (t.Untouched false (u.swapBack base s).2 ∨
            t.Advanced [] s' .rollback (u.swapBack base s).2) := by
        have hsound : u.poisoned = false := by rw [hu.poisoned, h, Bool.or_false]
        rcases swapBack_settles hsound (hu.graph ▸ hs) base with ⟨e, he, hv⟩ | ⟨hok, hv⟩
        · exact .inl ⟨e, he, hu.trans hv⟩
        · exact .inr ⟨s, hok, .inr (hu.advanced hv)⟩
      split
      · have hread := t.currentId_untouched
        cases hcur : t.currentId with
        | mk answer u =>
          rw [hcur] at hread
          cases answer with
          | error e => exact .inl ⟨_, rfl, hread⟩
          | ok actual =>
            dsimp only
            split
            · exact .inr ⟨s, rfl, .inl hread⟩
            · exact hswap u hread
      · exact hswap t (.refl t)

/-- So does a rollback, which may find no target. -/
theorem commitRollback_settles (t : Table σ) (r : Rollback) :
    (∃ e, (t.commitRollback r).1 = .error e ∧ t.Untouched false (t.commitRollback r).2) ∨
    ∃ s, (t.commitRollback r).1 = .ok s ∧ (t.Untouched false (t.commitRollback r).2 ∨
      t.Advanced [] s .rollback (t.commitRollback r).2) := by
  rw [commitRollback]
  cases r.target with
  | none => exact .inl ⟨_, rfl, .refl t⟩
  | some target =>
    cases target with
    | snapshot id => exact t.movePointer_settles r.base id
    | before time =>
      cases htime : t.resolveTime r.base time with
      | error e =>
        simp only [htime]
        exact .inl ⟨_, rfl, .refl t⟩
      | ok id =>
        simp only [htime]
        exact t.movePointer_settles r.base id

end Table
end SnapshotTable
