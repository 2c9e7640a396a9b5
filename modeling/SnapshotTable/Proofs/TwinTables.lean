import SnapshotTable.Proofs.CommitOutcomes
import SnapshotTable.Proofs.TwinGraphs
import SnapshotTable.Table.Scan

/-! Tables of twins. On two tables that hold twins, share their rules, their clock and the value of the
pointer, every operation gives the same answer, up to twins, and leaves such tables again. How often a
commit may be staged again plays no part where nobody else is at work: a base that was just read is
never lost. -/

namespace SnapshotTable

/-- Two tables with their pointers in memory that hold twins and otherwise differ in their identity,
their settings and what they reported. -/
structure TwinTables (t t' : Table MemoryPointer) : Prop where
  rules : t'.validators = t.validators
  strict : Validator.addedFilesMustBeNew ∈ t.validators
  graph : TwinGraphs t.graph t'.graph
  log : t'.log = t.log
  pointer : t'.pointer = t.pointer
  poisoned : t'.poisoned = t.poisoned
  clock : t'.supply.clock = t.supply.clock

def Agree {ε α β : Type} (R : α → β → Prop) (x : Except ε α × Table MemoryPointer)
    (y : Except ε β × Table MemoryPointer) : Prop :=
  Matches R x.1 y.1 ∧ TwinTables x.2 y.2

namespace TwinTables
variable {t t' : Table MemoryPointer}

/-- Events do not tell tables of twins apart. -/
theorem report (h : TwinTables t t') (e e' : Event) : TwinTables (t.report e) (t'.report e') :=
  ⟨h.rules, h.strict, h.graph, h.log, h.pointer, h.poisoned, h.clock⟩

/-- The states of tables of twins are in reach together, with the same log and graphs of twins. -/
theorem state (h : TwinTables t t') :
    Matches (fun s s' => TwinGraphs s.1 s'.1 ∧ s'.2 = s.2) t.state t'.state := by
  rw [Table.state, Table.state, h.poisoned]
  split
  · exact .error _
  · exact .ok ⟨h.graph, h.log⟩

private theorem publishChain (h : TwinTables t t') {chain chain' : List Snapshot}
    (hc : List.Forall₂ Twin chain chain') (last : SnapshotId) :
    Agree (List.Forall₂ Twin) (t.publishChain t.pointer.value chain last)
      (t'.publishChain t'.pointer.value chain' last) := by
  obtain ⟨events, heq⟩ := Table.publishChain_swapped (Table.swap_ok t last) chain
  obtain ⟨events', heq'⟩ := Table.publishChain_swapped (Table.swap_ok t' last) chain'
  rw [heq, heq']
  refine ⟨.ok hc, h.rules, h.strict, h.graph.extend hc, ?_, rfl, h.poisoned, ?_⟩
  · simp only [h.log, h.clock]
  · simp only [h.clock]

private theorem publishReplayed (h : TwinTables t t') {chain chain' : List Snapshot}
    (hc : List.Forall₂ Twin chain chain') :
    Agree (List.Forall₂ Twin)
      (match chain.getLast? with
        | none => (.ok [], t)
        | some last =>
          match t.graph.validateChain chain with
          | .error e => (.error (.error e), t)
          | .ok () => t.publishChain t.pointer.value chain last.id)
      (match chain'.getLast? with
        | none => (.ok [], t')
        | some last =>
          match t'.graph.validateChain chain' with
          | .error e => (.error (.error e), t')
          | .ok () => t'.publishChain t'.pointer.value chain' last.id) := by
  have hlast := Twin.getLast? hc
  rw [h.graph.validateChain hc]
  cases hl : chain.getLast? with
  | none =>
    rw [hl] at hlast
    rw [Option.map_eq_none_iff.mp hlast]
    exact ⟨.ok .nil, h⟩
  | some last =>
    rw [hl] at hlast
    obtain ⟨last', hl', hsame⟩ := Option.map_eq_some_iff.mp hlast
    rw [hl']
    dsimp only
    cases t.graph.validateChain chain with
    | error e => exact ⟨.error _, h⟩
    | ok _ =>
      rw [hsame]
      exact h.publishChain hc last.id

private theorem publish (h : TwinTables t t') (base : Option SnapshotId) (changes : List Change) :
    Agree (List.Forall₂ Twin) (t.publish base changes) (t'.publish base changes) := by
  have hvalue : t'.pointer.value = t.pointer.value := congrArg MemoryPointer.value h.pointer
  rw [Table.publish, Table.publish, h.poisoned]
  split
  · exact ⟨.error _, h⟩
  simp only [Table.currentId_memory]
  rw [hvalue]
  split
  · exact ⟨.error _, h.report _ _⟩
  rename_i hbase
  obtain rfl : t.pointer.value = base := Classical.not_not.mp hbase
  have hroot := h.graph.resolve t.pointer.value
  generalize hparent : t.graph.resolve t.pointer.value = root,
    t'.graph.resolve t.pointer.value = root' at hroot ⊢
  cases hroot with
  | error e => exact ⟨.error _, h⟩
  | @ok parent parent' hrel =>
    have hid : ∀ q, parent = some q → q.id < t.graph.nextId :=
      fun q hq => Graph.id_lt_nextId (Graph.mem_of_resolve hparent hq)
    have hrules : t'.production.validators = t.production.validators := h.rules
    obtain ⟨hmatch, hclock⟩ := Production.replay_twins hrules h.strict hrel hid h.clock changes
    dsimp only
    rw [h.graph.nextId]
    generalize t.production.replay parent t.graph.nextId changes t.supply = replayed,
      t'.production.replay parent' t.graph.nextId changes t'.supply = replayed' at hmatch hclock ⊢
    obtain ⟨answer, left⟩ := replayed
    obtain ⟨answer', left'⟩ := replayed'
    have hleft : TwinTables { t with supply := left } { t' with supply := left' } :=
      ⟨h.rules, h.strict, h.graph, h.log, h.pointer, h.poisoned, hclock⟩
    cases hmatch with
    | error refusal =>
      cases refusal with
      | rejected violation => exact ⟨.error _, hleft⟩
      | crashed => exact ⟨.error _, h.rules, h.strict, h.graph, h.log, h.pointer, rfl, hclock⟩
    | ok hc =>
      have hpublished := hleft.publishReplayed hc
      rw [hvalue] at hpublished
      exact hpublished

private theorem attempt (h : TwinTables t t') (base : Option SnapshotId) (change : Change) :
    Agree Twin (t.attempt base change) (t'.attempt base change) := by
  obtain ⟨hmatch, htables⟩ := h.publish base [change]
  rw [Table.attempt, Table.attempt]
  cases hp : t.publish base [change] with
  | mk answer u =>
    cases hp' : t'.publish base [change] with
    | mk answer' u' =>
      rw [hp, hp'] at hmatch htables
      cases hmatch with
      | error f => exact ⟨.error f, htables⟩
      | ok hc =>
        cases hc with
        | nil => exact ⟨.error _, htables⟩
        | cons hs _ => exact ⟨.ok hs, htables⟩

/-- A commit on what is current makes twins on tables of twins, or fails alike. -/
theorem commit (h : TwinTables t t') (change : Change) :
    Agree Twin (t.commit ⟨.ok t.pointer.value, change⟩)
      (t'.commit ⟨.ok t'.pointer.value, change⟩) := by
  have hagree := h.attempt t.pointer.value change
  rw [Table.commit, Table.commit]
  dsimp only
  rw [Table.commitFrom_current, Table.commitFrom_current, h.pointer]
  exact hagree

/-- A transaction makes chains of twins on tables of twins, or fails alike. -/
theorem commitTransaction (h : TwinTables t t') (txn : Transaction) :
    Agree (List.Forall₂ Twin) (t.commitTransaction txn) (t'.commitTransaction txn) := by
  rw [Table.commitTransaction, Table.commitTransaction]
  split
  · exact ⟨.ok .nil, h⟩
  obtain ⟨hmatch, htables⟩ := h.publish txn.base txn.staged
  cases hp : t.publish txn.base txn.staged with
  | mk answer u =>
    cases hp' : t'.publish txn.base txn.staged with
    | mk answer' u' =>
      rw [hp, hp'] at hmatch htables
      cases hmatch with
      | error f => exact ⟨.error f, htables⟩
      | ok hc => exact ⟨.ok hc, htables.report _ _⟩

private theorem swapBack (h : TwinTables t t') (base : Option SnapshotId) {s s' : Snapshot}
    (hs : Twin s s') : Agree Twin (t.swapBack base s) (t'.swapBack base s') := by
  rw [Table.swapBack, Table.swapBack, h.pointer, hs.id]
  by_cases hbase : t.pointer.value = base
  · subst hbase
    simp only [Table.swap_ok, Table.recordMove_eq]
    refine ⟨.ok hs, h.rules, h.strict, h.graph, ?_, rfl, h.poisoned, ?_⟩
    · simp only [Table.report, h.log, h.clock]
    · simp only [Table.report, Supply.report, h.clock]
  · rw [Table.swap_conflict hbase]
    exact ⟨.error _, h.rules, h.strict, h.graph, h.log, rfl, h.poisoned, h.clock⟩

private theorem movePointer (h : TwinTables t t') (base : Option SnapshotId) (target : SnapshotId) :
    Agree Twin (t.movePointer base target) (t'.movePointer base target) := by
  cases hp : t.poisoned with
  | true =>
    rw [Table.movePointer_poisoned hp, Table.movePointer_poisoned (h.poisoned.trans hp)]
    exact ⟨.error _, h⟩
  | false =>
    have hp' := h.poisoned.trans hp
    have hfound := h.graph.get? target
    generalize hs : t.graph.get? target = found, hs' : t'.graph.get? target = found' at hfound
    cases hfound with
    | none =>
      rw [Table.movePointer_unpublished hp hs, Table.movePointer_unpublished hp' hs']
      exact ⟨.error _, h⟩
    | some htwin =>
      rw [Table.movePointer_published hp hs, Table.movePointer_published hp' hs']
      simp only [Table.currentId_memory, h.pointer]
      split
      · split
        · exact ⟨.ok htwin, h⟩
        · exact h.swapBack base htwin
      · exact h.swapBack base htwin

private theorem resolveTime (h : TwinTables t t') (base : Option SnapshotId) (time : Instant) :
    t'.resolveTime base time = t.resolveTime base time := by
  cases base with
  | none => rfl
  | some id =>
    have hall : Matches (List.Forall₂ Twin) (t.ancestors none id) (t'.ancestors none id) :=
      h.state.bind fun _ _ hs => hs.1.ancestors none id
    have hmatch : Matches Eq (t.resolveTime (some id) time) (t'.resolveTime (some id) time) := by
      refine hall.bind fun xs xs' hxs => ?_
      have hkept : List.Forall₂ Twin (xs.filter (·.timestamp.before time))
          (xs'.filter (·.timestamp.before time)) := by
        refine List.rel_filter (fun s s' hs => ?_) hxs
        exact iff_of_eq (congrArg (fun time' => time'.before time = true) hs.timestamp.symm)
      have hlatest := Graph.latestSnapshot_twins hkept
      generalize latestSnapshot? (xs.filter (·.timestamp.before time)) = latest,
        latestSnapshot? (xs'.filter (·.timestamp.before time)) = latest' at hlatest ⊢
      cases hlatest with
      | none => exact .error _
      | some hs => exact .ok hs.id.symm
    exact hmatch.eq.symm

/-- A rollback goes to twins on tables of twins, or fails alike. -/
theorem commitRollback (h : TwinTables t t') (r : Rollback) :
    Agree Twin (t.commitRollback r) (t'.commitRollback r) := by
  rw [Table.commitRollback, Table.commitRollback]
  split
  · exact ⟨.error _, h⟩
  · exact h.movePointer _ _
  · rw [h.resolveTime]
    split
    · exact ⟨.error _, h⟩
    · exact h.movePointer _ _

private theorem planTasks (h : TwinTables t t') (scan : IncrementalScan) :
    Agree Eq (t.planTasks scan) (t'.planTasks scan) := by
  obtain ⟨base, tip⟩ := scan
  cases tip with
  | error e => exact ⟨.error e, h⟩
  | ok tip =>
    have hstate := h.state
    simp only [Table.planTasks, bind, Except.bind, pure, Except.pure]
    generalize t.state = state, t'.state = state' at hstate ⊢
    cases hstate with
    | error e => exact ⟨.error e, h⟩
    | @ok s s' hs =>
      have hrange := hs.1.range base tip
      simp only [hs.1.planAppends]
      generalize s.1.range base tip = chain, s'.1.range base tip = chain' at hrange ⊢
      cases s.1.planAppends base tip with
      | error e => exact ⟨.error e, h⟩
      | ok tasks =>
        cases hrange with
        | error e => exact ⟨.error e, h⟩
        | ok _ => exact ⟨.ok rfl, h.report _ _⟩

/-- Tables of twins plan the same appended files. -/
theorem planAppendedFiles (h : TwinTables t t') (scan : IncrementalScan) :
    Agree Eq (t.planAppendedFiles scan) (t'.planAppendedFiles scan) := by
  obtain ⟨hmatch, htables⟩ := h.planTasks scan
  rw [Table.planAppendedFiles, Table.planAppendedFiles]
  generalize t.planTasks scan = plan, t'.planTasks scan = plan' at hmatch htables ⊢
  obtain ⟨answer, u⟩ := plan
  obtain ⟨answer', u'⟩ := plan'
  cases hmatch with
  | error e => exact ⟨.error e, htables⟩
  | ok htasks => exact ⟨.ok (by rw [htasks]), htables⟩

/-- A scan behind a snapshot begins alike on tables of twins. -/
theorem appendsAfter (h : TwinTables t t') (base : SnapshotId) :
    (t'.appendsAfter base).1 = (t.appendsAfter base).1 ∧
      TwinTables (t.appendsAfter base).2 (t'.appendsAfter base).2 := by
  simp only [Table.appendsAfter, Table.currentId_memory, h.pointer]
  cases t.pointer.value with
  | none => exact ⟨rfl, h⟩
  | some id => exact ⟨rfl, h⟩

private theorem scannedSnapshot (h : TwinTables t t') (id : Option SnapshotId) :
    Agree (Option.Rel Twin) (t.scannedSnapshot id) (t'.scannedSnapshot id) := by
  have hstate := h.state
  cases id with
  | some id =>
    refine ⟨?_, h⟩
    apply Matches.map (R := Twin)
    · exact hstate.bind fun _ _ hs => hs.1.find id
    · exact fun _ _ hs => .some hs
  | none =>
    rw [Table.scannedSnapshot, Table.scannedSnapshot, Table.current, Table.current]
    generalize t.state = state, t'.state = state' at hstate ⊢
    cases hstate with
    | error e => exact ⟨.error e, h⟩
    | ok hs =>
      simp only [Table.currentId_memory, h.pointer]
      exact ⟨hs.1.resolve _, h⟩

/-- Full scans answer the same on tables of twins. -/
theorem planFiles (h : TwinTables t t') (id : Option SnapshotId) :
    Agree Eq (t.planFiles id) (t'.planFiles id) := by
  obtain ⟨hmatch, htables⟩ := h.scannedSnapshot id
  rw [Table.planFiles, Table.planFiles]
  generalize t.scannedSnapshot id = scanned, t'.scannedSnapshot id = scanned' at hmatch htables ⊢
  obtain ⟨answer, u⟩ := scanned
  obtain ⟨answer', u'⟩ := scanned'
  cases hmatch with
  | error e => exact ⟨.error e, htables⟩
  | ok hs => exact ⟨.ok (Twin.filesAt_eq hs).symm, htables⟩

end TwinTables
end SnapshotTable
