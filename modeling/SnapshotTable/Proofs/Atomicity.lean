import SnapshotTable.Proofs.Attempts

/-! Failures leave no trace. On any table, with any validators and any pointer store, a commit, a
transaction or a rollback that fails has moved nothing and recorded nothing; one that has moved the
pointer does not fail. So over any run of any clients the log tells the granted swaps one by one. -/

namespace SnapshotTable

inductive Request where
  | commit (c : Commit)
  | transaction (txn : Transaction)
  | rollback (r : Rollback)

variable {σ : Type} [PointerStore σ] {t u t' : Table σ}

namespace Table

def respond (t : Table σ) : Request → Except Failure (List Snapshot) × Table σ
  | .commit c => ((t.commit c).1.map fun s => [s], (t.commit c).2)
  | .transaction txn => t.commitTransaction txn
  | .rollback r =>
    match t.commitRollback r with
    | (.error e, t) => (.error (.error e), t)
    | (.ok s, t) => (.ok [s], t)

/-- A request fails without a trace, or it ends well with at most one swap. -/
theorem respond_settles (t : Table σ) (r : Request) :
    (∃ f, (t.respond r).1 = .error f ∧ t.Untouched f.isCrash (t.respond r).2) ∨
    ∃ chain, (t.respond r).1 = .ok chain ∧ (t.Untouched false (t.respond r).2 ∨
      ∃ published s change, chain.getLast? = some s ∧
        t.Advanced published s change (t.respond r).2) := by
  cases r with
  | commit c =>
    have hends := t.commit_ends c
    rw [respond]
    cases hc : (t.commit c).1 with
    | error f =>
      rw [hc] at hends
      exact .inl ⟨f, rfl, hends⟩
    | ok s =>
      rw [hc] at hends
      exact .inr ⟨[s], rfl, .inr ⟨[s], s, .commit, rfl, hends⟩⟩
  | transaction txn =>
    rw [respond]
    rcases t.commitTransaction_settles txn with hf | ⟨-, heq⟩ | ⟨chain, last, hc, hl, ha⟩
    · exact .inl hf
    · rw [heq]
      exact .inr ⟨[], rfl, .inl (.refl t)⟩
    · exact .inr ⟨chain, hc, .inr ⟨chain, last, .commit, hl, ha⟩⟩
  | rollback r =>
    rw [respond]
    rcases t.commitRollback_settles r with ⟨e, he, hu⟩ | ⟨s, hs, hend⟩
    · rw [← Prod.eta (t.commitRollback r), he]
      exact .inl ⟨_, rfl, hu⟩
    · rw [← Prod.eta (t.commitRollback r), hs]
      refine .inr ⟨[s], rfl, hend.imp_right fun ha => ?_⟩
      exact ⟨[], s, .rollback, rfl, ha⟩

/-- What a table answers on which a validator broke down: that its state is out of reach, unless the
request fails or ends before it looks. -/
def brokenAnswer : Request → Except Failure (List Snapshot)
  | .commit ⟨.error e, _⟩ => .error (.error e)
  | .commit ⟨.ok _, _⟩ => .error (.error .lockPoisoned)
  | .transaction txn => if txn.staged.isEmpty then .ok [] else .error (.error .lockPoisoned)
  | .rollback ⟨_, none⟩ => .error (.error (.invalidOperation "rollback has no target snapshot"))
  | .rollback ⟨none, some (.before time)⟩ => .error (.error (.noSnapshotBeforeTime time))
  | .rollback _ => .error (.error .lockPoisoned)

private theorem commitFrom_poisoned (h : t.poisoned = true) (base : Option SnapshotId)
    (change : Change) (made retries : Nat) :
    t.commitFrom base change made retries = (.error (.error .lockPoisoned), t) := by
  have hattempt : t.attempt base change = (.error (.error .lockPoisoned), t) := by
    rw [attempt, publish_poisoned h]
  cases retries with
  | zero => exact hattempt
  | succ retries =>
    rw [commitFrom, hattempt]
    rfl

private theorem respond_poisoned (h : t.poisoned = true) (r : Request) :
    t.respond r = (brokenAnswer r, t) := by
  match r with
  | .commit ⟨.error e, _⟩ => rfl
  | .commit ⟨.ok base, change⟩ =>
    simp only [respond, commit, commitFrom_poisoned h]
    rfl
  | .transaction txn =>
    rw [respond, commitTransaction, brokenAnswer]
    split
    · rfl
    · rw [publish_poisoned h]
  | .rollback ⟨_, none⟩ => rfl
  | .rollback ⟨none, some (.before time)⟩ => rfl
  | .rollback ⟨some base, some (.before time)⟩ =>
    have htime : t.resolveTime (some base) time = .error .lockPoisoned := by
      rw [resolveTime, ancestors, state_poisoned h]
      rfl
    simp only [respond, commitRollback, htime]
    rfl
  | .rollback ⟨base, some (.snapshot id)⟩ =>
    simp only [respond, commitRollback, movePointer_poisoned h]
    rfl

end Table

/-- The tables that a table can become while any clients use it: each of their operations is made of
such steps, and between the steps of one operation there may be steps of others. -/
inductive Reaches (t : Table σ) : Table σ → Prop
  | here : Reaches t t
  | read {u : Table σ} (h : Reaches t u) : Reaches t u.currentId.2
  | publish {u : Table σ} (h : Reaches t u) (base : Option SnapshotId) (changes : List Change) :
      Reaches t (u.publish base changes).2
  | move {u : Table σ} (h : Reaches t u) (base : Option SnapshotId) (target : SnapshotId) :
      Reaches t (u.movePointer base target).2
  | report {u : Table σ} (h : Reaches t u) (e : Event) : Reaches t (u.report e)

namespace Reaches

private theorem attempt (h : Reaches t u) (base : Option SnapshotId) (change : Change) :
    Reaches t (u.attempt base change).2 := by
  rw [Table.attempt_snd]
  exact h.publish base [change]

private theorem attempts {change : Change} {base : Option SnapshotId} {made retries : Nat}
    {steps : List (Table σ × Table σ)} {answer : Except Failure Snapshot}
    (h : Attempts change base made retries steps answer) (hu : Reaches t u)
    (hc : Chained u steps t') : Reaches t t' := by
  induction h generalizing u with
  | last =>
    obtain ⟨rfl, rfl⟩ := hc
    exact hu.attempt _ _
  | unread =>
    obtain ⟨rfl, rfl, rfl⟩ := hc
    exact (hu.attempt _ _).read
  | again _ _ _ _ ih =>
    obtain ⟨rfl, rfl, hc⟩ := hc
    exact ih ((hu.attempt _ _).read.report _) hc

/-- A run of requests is made of such steps. -/
theorem respond (h : Reaches t u) (r : Request) : Reaches t (u.respond r).2 := by
  cases r with
  | commit c =>
    rw [Table.respond, Table.commit]
    cases c.base with
    | error e => exact h
    | ok base =>
      obtain ⟨steps, hs, hc⟩ := Attempts.of_commitFrom u base c.change 0 u.config.commitRetries
      exact attempts hs h hc
  | transaction txn =>
    rw [Table.respond, Table.commitTransaction]
    split
    · exact h
    have hp := h.publish txn.base txn.staged
    split
    · rename_i heq
      rwa [heq] at hp
    · rename_i heq
      rw [heq] at hp
      exact hp.report _
  | rollback r =>
    have hmoved : Reaches t (u.commitRollback r).2 := by
      rw [Table.commitRollback]
      split
      · exact h
      · exact h.move _ _
      · split
        · exact h
        · exact h.move _ _
    rw [Table.respond]
    split
    · rename_i heq
      rwa [heq] at hmoved
    · rename_i heq
      rwa [heq] at hmoved

end Reaches

/-- The table after the moves that these new log entries tell, each of which was one granted swap, to a
snapshot that the graph holds. -/
structure Extended (t : Table σ) (news : List LogEntry) (t' : Table σ) : Prop where
  log : t'.log.entries = t.log.entries ++ news
  sequence : news.map LogEntry.sequence = List.range' (t.log.lastSequence + 1) news.length
  last : t'.log.lastSequence = t.log.lastSequence + news.length
  pointer : Calls t.pointer (news.map LogEntry.snapshotId) t'.pointer
  targets : ∀ e ∈ news, t'.graph.contains e.snapshotId = true
  kept : ∀ id, t.graph.contains id = true → t'.graph.contains id = true

private theorem Graph.contains_extend (g : Graph) (chain : List Snapshot) {id : SnapshotId}
    (h : g.contains id = true) : (g.extend chain).contains id = true := by
  induction chain generalizing g with
  | nil => exact h
  | cons s rest ih =>
    apply ih
    rw [Keyed.contains_eq_isSome] at h ⊢
    rw [Keyed.get?_insert]
    split
    · rfl
    · exact h

namespace Extended
variable {news : List LogEntry}

theorem refl (t : Table σ) : Extended t [] t :=
  ⟨(List.append_nil _).symm, rfl, rfl, .none, nofun, fun _ h => h⟩

/-- Where nothing moves, the log goes on telling the same. -/
theorem untouched {crash : Bool} (h : Extended t news u) (h' : u.Untouched crash t') :
    Extended t news t' where
  log := by rw [h'.log, h.log]
  sequence := h.sequence
  last := by rw [h'.log, h.last]
  pointer := by
    have hcalls := h.pointer.trans h'.pointer
    rwa [List.append_nil] at hcalls
  targets := by
    rw [h'.graph]
    exact h.targets
  kept := by
    rw [h'.graph]
    exact h.kept

/-- A granted swap is told by one more entry, with its target and its kind. -/
theorem advanced {chain : List Snapshot} {s : Snapshot} {change : PointerChange}
    (h : Extended t news u) (h' : u.Advanced chain s change t') :
    ∃ e, e.snapshotId = s.id ∧ e.change = change ∧ Extended t (news ++ [e]) t' := by
  obtain ⟨now, hlog⟩ := h'.log
  refine ⟨u.log.nextEntry s.id change now, rfl, rfl, ?_, ?_, ?_, ?_, ?_, ?_⟩
  · rw [hlog, h.log, List.append_assoc]
  · rw [List.map_append, h.sequence, List.length_append, List.length_singleton,
      List.range'_1_concat, List.map_singleton, PointerLog.nextEntry, h.last,
      Nat.add_right_comm]
  · rw [PointerLog.lastSequence, hlog, List.getLast?_concat, List.length_append,
      List.length_singleton, ← Nat.add_assoc, ← h.last]
    rfl
  · rw [List.map_append]
    exact h.pointer.trans h'.pointer
  · intro e he
    rcases List.mem_append.mp he with he | he
    · rw [h'.graph]
      exact Graph.contains_extend _ _ (h.targets e he)
    · rw [List.mem_singleton.mp he]
      exact (Keyed.contains_eq_isSome _ _).trans (congrArg Option.isSome h'.target)
  · intro id hid
    rw [h'.graph]
    exact Graph.contains_extend _ _ (h.kept id hid)

/-- What two runs in a row tell is the one's entries behind the other's. -/
theorem trans {more : List LogEntry} (h : Extended t news u) (h' : Extended u more t') :
    Extended t (news ++ more) t' where
  log := by rw [h'.log, h.log, List.append_assoc]
  sequence := by
    rw [List.map_append, h.sequence, h'.sequence, h.last, Nat.add_right_comm, List.range'_append_1,
      List.length_append]
  last := by rw [h'.last, h.last, List.length_append, Nat.add_assoc]
  pointer := by
    rw [List.map_append]
    exact h.pointer.trans h'.pointer
  targets := by
    intro e he
    rcases List.mem_append.mp he with he | he
    · exact h'.kept e.snapshotId (h.targets e he)
    · exact h'.targets e he
  kept := fun id hid => h'.kept id (h.kept id hid)

/-- Where nobody else uses the store, it points at the target of the last entry. -/
theorem held_eq (hf : PointerStore.Faithful σ) (h : Extended t news t') :
    PointerStore.held t'.pointer =
      (news.getLast?.map LogEntry.snapshotId).or (PointerStore.held t.pointer) := by
  rw [h.pointer.held_eq hf, List.getLast?_map]

end Extended

/-- What holds at the start, and is kept where nothing moves, where a chain is published and where the pointer
goes back, holds wherever a table can get. Validators break down only among rules that let them. -/
theorem Reaches.steps {P : Table σ → Prop} (h : Reaches t t') (start : P t)
    (untouched : ∀ {u v : Table σ} {crash : Bool}, P u → u.Untouched crash v →
      (Validator.Sturdy u.validators → crash = false) → P v)
    (built : ∀ {u v : Table σ} {base : Option SnapshotId} {parent : Option Snapshot}
      {changes : List Change} {supply left : Supply} {chain : List Snapshot} {last : Snapshot},
      P u → u.graph.resolve base = .ok parent →
      u.production.replay parent u.graph.nextId changes supply = (.ok chain, left) →
      u.Advanced chain last .commit v → P v)
    (back : ∀ {u v : Table σ} {s : Snapshot}, P u → u.Advanced [] s .rollback v → P v) : P t' := by
  have quiet {u v : Table σ} (hu : P u) (hv : u.Untouched false v) : P v := untouched hu hv fun _ => rfl
  induction h with
  | here => exact start
  | @read u _ ih => exact quiet ih u.currentId_untouched
  | @publish u _ base changes ih =>
    rcases u.publish_outcome base changes with ⟨e, -, -, hu⟩ | ⟨refusal, _, _, _, -, -, hf, hu⟩ |
      ⟨parent, supply, chain, left, hparent, hreplay, -, ⟨-, hu⟩ | ⟨last, -, ha⟩⟩
    · exact quiet ih hu
    · refine untouched ih hu fun hsturdy => ?_
      cases refusal with
      | rejected violation => rfl
      | crashed => exact absurd hf (Table.publish_ne_crashed hsturdy)
    · exact quiet ih hu
    · exact built ih hparent hreplay ha
  | @move u _ base target ih =>
    rcases u.movePointer_settles base target with ⟨e, -, hu⟩ | ⟨s, -, hu | ha⟩
    · exact quiet ih hu
    · exact quiet ih hu
    · exact back ih ha
  | @report u _ e ih => exact quiet ih (Table.Untouched.refl u).supply

/-- Whatever clients do, the log grows by one entry for each granted swap. -/
theorem Reaches.extended (h : Reaches t t') : ∃ news, Extended t news t' := by
  have moved {u v : Table σ} {chain : List Snapshot} {s : Snapshot} {change : PointerChange}
      (hu : ∃ news, Extended t news u) (ha : u.Advanced chain s change v) :
      ∃ news, Extended t news v := by
    obtain ⟨news, hn⟩ := hu
    obtain ⟨e, -, -, hmore⟩ := hn.advanced ha
    exact ⟨news ++ [e], hmore⟩
  apply h.steps (P := fun u => ∃ news, Extended t news u) ⟨[], .refl t⟩
  · rintro u v crash ⟨news, hn⟩ hu -
    exact ⟨news, hn.untouched hu⟩
  · exact fun hu _ _ ha => moved hu ha
  · exact fun hu ha => moved hu ha

/-- Nobody changes the settings or the rules of a table. -/
theorem Reaches.production_eq (h : Reaches t t') : t'.production = t.production := by
  apply h.steps (P := fun u => u.production = t.production) rfl
  · exact fun hu hv _ => (Table.production_congr hv.config hv.validators).trans hu
  · exact fun hu _ _ ha => (Table.production_congr ha.config ha.validators).trans hu
  · exact fun hu ha => (Table.production_congr ha.config ha.validators).trans hu

/-- Nobody changes the rules of a table. -/
theorem Reaches.validators_eq (h : Reaches t t') : t'.validators = t.validators :=
  congrArg Production.validators h.production_eq

/-- Rules that nothing breaks down leave the state of a table in reach. -/
theorem Reaches.unbroken (h : Reaches t t') (hp : t.poisoned = false)
    (hsturdy : Validator.Sturdy t.validators) : t'.poisoned = false := by
  refine (h.steps (P := fun u => Validator.Sturdy u.validators ∧ u.poisoned = false)
    ⟨hsturdy, hp⟩ ?_ ?_ ?_).2
  · rintro u v crash ⟨hu, hsound⟩ hv hcrash
    refine ⟨hv.validators ▸ hu, ?_⟩
    rw [hv.poisoned, hsound, hcrash hu]
    rfl
  · exact fun hu _ _ ha => ⟨ha.validators ▸ hu.1, ha.sound.2⟩
  · exact fun hu ha => ⟨ha.validators ▸ hu.1, ha.sound.2⟩

/-- A graph changes only where a chain is made on a published base, so what this keeps holds of the graph wherever
a table can get. -/
theorem Reaches.published {P : Graph → Prop} (h : Reaches t t') (start : P t.graph)
    (made : ∀ {g : Graph} {base : Option SnapshotId} {parent : Option Snapshot}
      {changes : List Change} {supply left : Supply} {chain : List Snapshot}, P g →
      g.resolve base = .ok parent →
      t.production.replay parent g.nextId changes supply = (.ok chain, left) →
      P (g.extend chain)) : P t'.graph := by
  refine (h.steps (P := fun u => u.production = t.production ∧ P u.graph) ⟨rfl, start⟩ ?_ ?_ ?_).2
  · rintro u v crash ⟨hsame, hu⟩ hv -
    exact ⟨(Table.production_congr hv.config hv.validators).trans hsame, hv.graph ▸ hu⟩
  · rintro u v base parent changes supply left chain last ⟨hsame, hu⟩ hparent hreplay ha
    rw [hsame] at hreplay
    exact ⟨(Table.production_congr ha.config ha.validators).trans hsame, ha.graph ▸ made hu hparent hreplay⟩
  · rintro u v s ⟨hsame, hu⟩ ha
    exact ⟨(Table.production_congr ha.config ha.validators).trans hsame, ha.graph ▸ hu⟩

/-- Snapshots are published behind those that there are, and none is ever replaced or taken away. -/
theorem Reaches.grows (h : Reaches t t') : ∃ more, t'.graph.items = t.graph.items ++ more := by
  apply h.published (P := fun g => ∃ more, g.items = t.graph.items ++ more)
  · exact ⟨[], (List.append_nil _).symm⟩
  · rintro g base parent changes supply left chain ⟨more, hmore⟩ - hreplay
    have hitems := Graph.items_extend (Production.builds_of_replay hreplay)
    exact ⟨more ++ chain, by rw [hitems, hmore, List.append_assoc]⟩

/-- Behind a validator that broke down, nothing moves any more. -/
theorem Reaches.poisoned (hp : t.poisoned = true) (h : Reaches t t') : t.Untouched false t' := by
  have hstays {u : Table σ} (hu : t.Untouched false u) : u.poisoned = true := by
    rw [hu.poisoned, Bool.or_false]
    exact hp
  induction h with
  | here => exact .refl t
  | @read u _ ih => exact ih.trans u.currentId_untouched
  | publish _ base changes ih =>
    rw [Table.publish_poisoned (hstays ih)]
    exact ih
  | move _ base target ih =>
    rw [Table.movePointer_poisoned (hstays ih)]
    exact ih
  | report _ e ih => exact ih.supply

structure Atomic (t : Table σ) : Prop where
  /-- A request that fails has been granted no swap, and graph and log are what they were; one that has
  been granted its swap ends well, with one new log entry and its target in the graph. -/
  alone : ∀ r, (∃ f, (t.respond r).1 = .error f ∧ t.Untouched f.isCrash (t.respond r).2) ∨
    ∃ chain, (t.respond r).1 = .ok chain ∧ (t.Untouched false (t.respond r).2 ∨
      ∃ published s change, chain.getLast? = some s ∧
        t.Advanced published s change (t.respond r).2)
  /-- The same holds of the own steps of a commit between whose retries others are at work. -/
  among : ∀ change base made retries (steps : List (Table σ × Table σ)) answer,
    Attempts change base made retries steps answer → ∃ quiet last, steps = quiet ++ [last] ∧
      (∀ step ∈ quiet, step.1.Untouched false step.2) ∧ last.1.Ends answer last.2
  /-- Recording a move is never in conflict with the sequence of the log. -/
  records : ∀ id change now, t.log.record id change now =
    .ok ⟨t.log.entries ++ [t.log.nextEntry id change now]⟩
  steps : ∀ r, Reaches t (t.respond r).2
  /-- Over any run of any clients, the new log entries are the granted swaps in their order, and the
  last of them is where a store points that nobody else uses. -/
  told : ∀ t', Reaches t t' → ∃ news, Extended t news t' ∧
    (PointerStore.Faithful σ → PointerStore.held t'.pointer =
      (news.getLast?.map LogEntry.snapshotId).or (PointerStore.held t.pointer))
  /-- A validator that broke down puts graph and log out of reach and stops every further move. -/
  broken : t.poisoned = true → t.state = .error .lockPoisoned ∧
    (∀ r, t.respond r = (Table.brokenAnswer r, t)) ∧ ∀ t', Reaches t t' → t.Untouched false t'

/-- No failure leaves a trace, on any table and whatever its validators and its pointer store do. -/
theorem operations_atomic (t : Table σ) : Atomic t where
  alone := t.respond_settles
  among _ _ _ _ _ _ h := h.ends
  records := t.log.record_eq
  steps r := Reaches.here.respond r
  told t' h := by
    obtain ⟨news, hn⟩ := h.extended
    exact ⟨news, hn, fun hf => hn.held_eq hf⟩
  broken hp := ⟨Table.state_poisoned hp, fun r => Table.respond_poisoned hp r, fun _ h => h.poisoned hp⟩

/-- An empty table whose store does not answer its first swap, and lets another client in before the
second. -/
def Table.unsteady : Table (Recorded ScriptedPointer) :=
  { Table.blank with
    pointer := ⟨{ swapFaults := [.unavailable "down", .race (some 9)] }, []⟩ }

/-- Two commits fail on it one after the other, and nothing is left of either. -/
theorem operations_atomic_unsteady :
    let request : Request := .commit ⟨.ok none, (Change.start .append).add { path := "a" }⟩
    let first := Table.unsteady.respond request
    let second := first.2.respond request
    first.1 = .error (.error (.pointerStore "down")) ∧
      second.1 = .error (.error (.commitConflict none (some 9))) ∧
      second.2.pointer.swaps = [] ∧ second.2.graph = Keyed.empty ∧ second.2.log = {} := by
  intro request first second
  have hfirst : first.1 = .error (.error (.pointerStore "down")) := rfl
  have hsecond : second.1 = .error (.error (.commitConflict none (some 9))) := rfl
  refine ⟨hfirst, hsecond, ?_⟩
  rcases (operations_atomic Table.unsteady).alone request with ⟨f, hf, hu⟩ | ⟨chain, hc, -⟩
  · rcases (operations_atomic first.2).alone request with ⟨f', hf', hu'⟩ | ⟨chain, hc, -⟩
    · exact ⟨(hu.pointer.trans hu'.pointer).swaps_eq, hu'.graph.trans hu.graph,
        hu'.log.trans hu.log⟩
    · cases hsecond.symm.trans hc
  · cases hfirst.symm.trans hc

end SnapshotTable
