import SnapshotTable.Proofs.TwinTables
import SnapshotTable.Script.Run

/-! Settings shape manifests and nothing else. A script that runs on two new tables with different
settings meets the same outcomes step by step, failures included, and leaves the same pointer, the same
log and twins of every snapshot. -/

namespace SnapshotTable

namespace Agree
variable {ε α β γ δ : Type} {R : α → β → Prop} {S : γ → δ → Prop}

private theorem answer {x : Except ε α × Table MemoryPointer} {y : Except ε β × Table MemoryPointer}
    {f : α → γ} {g : β → δ} (h : Agree R x y) (hf : ∀ a b, R a b → S (f a) (g b)) :
    Agree S (Table.answer f x) (Table.answer g y) :=
  ⟨h.1.map hf, h.2⟩

private theorem plain {x : Except TableError α × Table MemoryPointer}
    {y : Except TableError β × Table MemoryPointer} (h : Agree R x y) :
    Agree R (Table.plain x) (Table.plain y) := by
  obtain ⟨a, t⟩ := x
  obtain ⟨b, t'⟩ := y
  obtain ⟨hmatch, htables⟩ := h
  cases hmatch with
  | error e => exact ⟨.error _, htables⟩
  | ok hab => exact ⟨.ok hab, htables⟩

end Agree

/-- Two reports that differ in what they say of manifests and settings at most. -/
structure Simulation.Same (a b : Simulation) : Prop where
  outcomes : b.outcomes = a.outcomes
  current : b.metadata.currentSnapshotId = a.metadata.currentSnapshotId
  log : b.metadata.snapshotLog = a.metadata.snapshotLog
  snapshots : b.metadata.snapshots.map (fun s => { s with manifests := [] }) =
    a.metadata.snapshots.map fun s => { s with manifests := [] }

namespace TwinTables
variable {t t' : Table MemoryPointer}

private theorem runTransaction (h : TwinTables t t') (steps : List Step) :
    Agree Eq (t.runTransaction steps) (t'.runTransaction steps) := by
  simp only [Table.runTransaction, Table.beginTransaction, Table.currentId_memory, h.pointer]
  cases steps.mapM Step.staged with
  | error e => exact ⟨.error _, h⟩
  | ok changes =>
    apply (h.commitTransaction _).answer
    intro chain chain' hc
    rw [Twin.ids hc]

private theorem runRollback (h : TwinTables t t') (snapshot : Option SnapshotId)
    (before : Option Instant) :
    Agree Eq (t.runRollback snapshot before) (t'.runRollback snapshot before) := by
  rw [Table.runRollback, Table.runRollback]
  cases rollbackTarget snapshot before with
  | error e => exact ⟨.error e, h⟩
  | ok target =>
    simp only [Table.beginRollback, Table.currentId_memory, h.pointer]
    apply (h.commitRollback _).answer
    intro s s' hs
    rw [hs.id]

private theorem runChange (h : TwinTables t t') (change : Change) :
    Agree Eq
      (Table.answer (fun s => StepResult.committed [s.id]) (t.commit ⟨.ok t.pointer.value, change⟩))
      (Table.answer (fun s => StepResult.committed [s.id])
        (t'.commit ⟨.ok t'.pointer.value, change⟩)) := by
  apply (h.commit change).answer
  intro s s' hs
  rw [hs.id]

/-- Every step has the same outcome on both tables. -/
theorem runStep (h : TwinTables t t') (step : Step) :
    Agree Eq (t.runStep step) (t'.runStep step) := by
  have hplanned (files files' : FileSet) (heq : files = files') :
      Table.plannedPaths files = Table.plannedPaths files' := congrArg _ heq
  cases step with
  | transaction steps => exact h.runTransaction steps
  | rollback snapshot before => exact (h.runRollback snapshot before).plain
  | appendsBetween base tip =>
    exact ((h.planAppendedFiles (appendsBetween base tip)).answer hplanned).plain
  | appendsAfter base =>
    obtain ⟨hscan, htables⟩ := h.appendsAfter base
    have hfiles := htables.planAppendedFiles (t.appendsAfter base).1
    rw [Table.runStep, Table.runStep]
    dsimp only
    rw [hscan]
    exact (hfiles.answer hplanned).plain
  | scan snapshot => exact ((h.planFiles snapshot).answer hplanned).plain
  | append files => exact h.runChange _
  | delete paths validate => exact h.runChange _
  | replace removed added => exact h.runChange _
  | overwrite added removed => exact h.runChange _

private theorem runSteps (h : TwinTables t t') (steps : List Step) (index : Nat) :
    Agree Eq (t.runSteps index steps) (t'.runSteps index steps) := by
  induction steps generalizing t t' index with
  | nil => exact ⟨.ok rfl, h⟩
  | cons step rest ih =>
    obtain ⟨hmatch, htables⟩ := h.runStep step
    rw [Table.runSteps, Table.runSteps]
    generalize t.runStep step = ran, t'.runStep step = ran' at hmatch htables ⊢
    obtain ⟨answer, u⟩ := ran
    obtain ⟨answer', u'⟩ := ran'
    obtain rfl := hmatch.eq
    have hcons (o : StepOutcome) (xs ys : List StepOutcome) (heq : xs = ys) : o :: xs = o :: ys :=
      congrArg _ heq
    cases answer with
    | ok result => exact (ih htables (index + 1)).answer (hcons _)
    | error f =>
      cases f with
      | crashed => exact ⟨.error _, htables⟩
      | error e => exact (ih (htables.report _ _) (index + 1)).answer (hcons _)

private theorem snapshots_bare {xs xs' : List Snapshot} (h : List.Forall₂ Twin xs xs')
    (uuid uuid' : ManifestId → Uuid) :
    (xs'.map fun s => s.metadata uuid').map (fun s => { s with manifests := [] }) =
      (xs.map fun s => s.metadata uuid).map fun s => { s with manifests := [] } := by
  induction h with
  | nil => rfl
  | cons hs _ ih =>
    simp only [List.map_cons, ih]
    simp only [Snapshot.metadata, hs.id, hs.parentId, hs.timestamp, hs.operation, hs.summary]

private theorem simulate (h : TwinTables t t') (steps : List Step) :
    Agree Simulation.Same (t.simulate steps) (t'.simulate steps) := by
  obtain ⟨hmatch, htables⟩ := h.runSteps steps 0
  rw [Table.simulate, Table.simulate]
  generalize t.runSteps 0 steps = ran, t'.runSteps 0 steps = ran' at hmatch htables ⊢
  obtain ⟨answer, u⟩ := ran
  obtain ⟨answer', u'⟩ := ran'
  obtain rfl := hmatch.eq
  cases answer with
  | error f => exact ⟨.error f, htables⟩
  | ok outcomes =>
    have hstate := htables.state
    simp only [Table.metadata, Table.currentId_memory]
    generalize u.state = state, u'.state = state' at hstate ⊢
    cases hstate with
    | error e => exact ⟨.error _, htables⟩
    | ok hs =>
      refine ⟨.ok ⟨rfl, ?_, congrArg PointerLog.entries hs.2, snapshots_bare hs.1 _ _⟩, htables⟩
      exact congrArg MemoryPointer.value htables.pointer

end TwinTables

/-- Two new tables that share clock and rules, whatever their settings, answer a script in the same way
and end up as tables of twins. The rules are any that let no live path be added again. -/
theorem simulate_settings {uuid uuid' : Uuid} {config config' : TableConfig} {clock : Clock}
    {t t' : Table MemoryPointer} (h : Table.create uuid config clock = .ok t)
    (h' : Table.create uuid' config' clock = .ok t') {validators : List Validator}
    (hstrict : Validator.addedFilesMustBeNew ∈ validators) (steps : List Step) :
    Agree Simulation.Same ((t.withValidators validators).simulate steps)
      ((t'.withValidators validators).simulate steps) := by
  obtain rfl := Table.eq_of_create h
  obtain rfl := Table.eq_of_create h'
  have hstart : TwinTables ((Table.fresh uuid config clock).withValidators validators)
      ((Table.fresh uuid' config' clock).withValidators validators) :=
    ⟨rfl, hstrict, .nil, rfl, rfl, rfl, rfl⟩
  exact hstart.simulate steps

/-- With and without consolidation: the manifests differ in number from the second snapshot on, and a
failing commit among the steps fails on both sides. -/
theorem simulate_settings_merged :
    let steps : List Step := [.append [{ path := "a" }], .append [{ path := "b" }],
      .append [{ path := "a" }], .scan none]
    let merging := Table.fresh 1#128 { minMergeCount := 2 } (Clock.still 0)
    (Table.blank.simulate steps).2.graph.items.map (fun s => s.manifests.length) = [1, 2] ∧
      (merging.simulate steps).2.graph.items.map (fun s => s.manifests.length) = [1, 1] ∧
      Agree Simulation.Same (Table.blank.simulate steps) (merging.simulate steps) := by
  intro steps merging
  have hmerging : Table.create 1#128 { minMergeCount := 2 } (Clock.still 0) = .ok merging := rfl
  have hstrict : Validator.addedFilesMustBeNew ∈ Validator.standard := List.mem_cons_self
  exact ⟨by decide, by decide, simulate_settings Table.create_blank hmerging hstrict steps⟩

end SnapshotTable
