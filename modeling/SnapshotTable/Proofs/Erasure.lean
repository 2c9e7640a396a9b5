import SnapshotTable.Proofs.Mirrors
import SnapshotTable.Proofs.Readings
import SnapshotTable.Script.Run

/-! Scripts without their failures. A step that fails and a step that only reads leave no trace that a later
step could find, so a script does the same if they are left out: what stays has the same results, and
the table behind it holds the same snapshots and the same log, but for times and identities. -/

namespace SnapshotTable

def StepKind.reads : StepKind → Bool
  | .appendsBetween | .appendsAfter | .scan => true
  | _ => false

def Step.byTime : Step → Bool
  | .rollback none (some _) => true
  | _ => false

/-- Whether the step did something that stays, which a step that failed or only read has not. -/
def StepOutcome.stays (o : StepOutcome) : Bool := !o.isFailure && !o.op.reads

def survivors (steps : List Step) (outcomes : List StepOutcome) : List Step :=
  ((steps.zip outcomes).filter fun p => p.2.stays).map Prod.fst

def SnapshotMetadata.bare (s : SnapshotMetadata) : SnapshotMetadata :=
  { s with timestampMs := 0, manifests := s.manifests.map fun m => { m with manifestId := 0 } }

def TableMetadata.bare (m : TableMetadata) : TableMetadata :=
  { m with
    tableUuid := 0
    snapshots := m.snapshots.map SnapshotMetadata.bare
    snapshotLog := m.snapshotLog.map LogEntry.untimed }

private theorem Renamed.metadata_bare {σ : ManifestId → ManifestId} {xs xs' : List Snapshot}
    (h : List.Forall₂ (Renamed σ) xs xs') (uuid uuid' : ManifestId → Uuid) :
    (xs'.map fun s => s.metadata uuid').map SnapshotMetadata.bare =
      (xs.map fun s => s.metadata uuid).map SnapshotMetadata.bare := by
  have hone {s s' : Snapshot} (hs : Renamed σ s s') :
      (s'.metadata uuid').bare = (s.metadata uuid).bare := by
    obtain ⟨time, rfl⟩ := hs
    simp [Snapshot.metadata, SnapshotMetadata.bare, Manifest.metadata]
  induction h with
  | nil => rfl
  | cons hs _ ih => rw [List.map_cons, List.map_cons, List.map_cons, List.map_cons, ih, hone hs]

namespace Table
variable {t : Table MemoryPointer}

private theorem planTasks_idle (t : Table MemoryPointer) (scan : IncrementalScan) :
    t.Idle (t.planTasks scan).2 := by
  rw [planTasks]
  split
  · exact .refl t
  · exact (Idle.refl t).report _

private theorem planAppendedFiles_idle (t : Table MemoryPointer) (scan : IncrementalScan) :
    t.Idle (t.planAppendedFiles scan).2 := by
  have hidle := t.planTasks_idle scan
  rw [planAppendedFiles]
  split <;> rename_i heq <;> rw [heq] at hidle <;> exact hidle

private theorem planFiles_idle (t : Table MemoryPointer) (id : Option SnapshotId) :
    t.Idle (t.planFiles id).2 := by
  have hscanned : (t.scannedSnapshot id).2 = t := by
    cases id with
    | some id => rfl
    | none =>
      rw [scannedSnapshot, current]
      split <;> rfl
  rw [planFiles]
  split <;> rename_i heq <;> rw [heq] at hscanned <;> exact hscanned ▸ .refl t

private theorem plain_snd {α : Type} (x : Except TableError α × Table MemoryPointer) :
    (plain x).2 = x.2 ∧ (plain x).1 ≠ .error .crashed := by
  obtain ⟨answer, t⟩ := x
  cases answer with
  | error e => exact ⟨rfl, by simp [plain]⟩
  | ok a => exact ⟨rfl, by simp [plain]⟩

/-- A step that reads moves nothing, and no validator takes part in it. -/
theorem runStep_reads (t : Table MemoryPointer) {step : Step} (h : step.kind.reads = true) :
    t.Idle (t.runStep step).2 ∧ (t.runStep step).1 ≠ .error .crashed := by
  have hplain {x : Except TableError StepResult × Table MemoryPointer} (hidle : t.Idle x.2) :
      t.Idle (plain x).2 ∧ (plain x).1 ≠ .error .crashed := by
    obtain ⟨hsame, hcrash⟩ := plain_snd x
    exact ⟨hsame ▸ hidle, hcrash⟩
  cases step with
  | appendsBetween base tip => exact hplain (t.planAppendedFiles_idle _)
  | appendsAfter base =>
    have hread : (t.appendsAfter base).2 = t := by
      rw [appendsAfter, currentId_memory]
      cases t.pointer.value <;> rfl
    rw [runStep]
    dsimp only
    rw [hread]
    exact hplain (t.planAppendedFiles_idle _)
  | scan id => exact hplain (t.planFiles_idle id)
  | _ => cases h

end Table

/-- What the step does to a table with `base` as what is current is what the request does to it. -/
def Step.Asks (step : Step) (base : Option SnapshotId) (r : Request) : Prop :=
  ∀ t : Table MemoryPointer, t.pointer.value = base → t.runStep step =
    Table.answer (fun chain => .committed (chain.map Snapshot.id)) (t.respond r)

namespace Step
variable {base : Option SnapshotId}

private theorem asks_commit {step : Step} {change : Change} (h : step.change? = some change) :
    step.Asks base (.commit ⟨.ok base, change⟩) := by
  rintro t rfl
  have hone : t.runStep step =
      Table.answer (fun s => .committed [s.id]) (t.commit ⟨.ok t.pointer.value, change⟩) := by
    cases step <;> cases h <;> rfl
  rw [hone, Table.respond, Table.answer, Table.answer]
  cases (t.commit ⟨.ok t.pointer.value, change⟩).1 <;> rfl

private theorem asks_transaction {steps : List Step} {changes : List Change}
    (h : steps.mapM Step.staged = .ok changes) :
    (Step.transaction steps).Asks base (.transaction ⟨base, changes⟩) := by
  rintro t rfl
  have hall : changes.foldl Transaction.stage ⟨t.pointer.value, []⟩ = ⟨t.pointer.value, changes⟩ :=
    Table.foldl_stage _ _ _
  simp only [Table.runStep, Table.runTransaction, Table.beginTransaction, Table.currentId_memory, h,
    hall, Table.respond]

private theorem asks_rollback (id : SnapshotId) :
    (Step.rollback (some id) none).Asks base (.rollback ⟨base, some (.snapshot id)⟩) := by
  rintro t rfl
  simp only [Table.runStep, Table.runRollback, rollbackTarget, Table.beginRollback,
    Table.currentId_memory, Table.respond]
  cases t.commitRollback ⟨t.pointer.value, some (.snapshot id)⟩ with
  | mk answer t' => cases answer <;> rfl

private theorem asks (step : Step) (htime : step.byTime = false) (base : Option SnapshotId) :
    step.kind.reads = true ∨
    (∃ e, ∀ t : Table MemoryPointer, t.runStep step = (.error (.error e), t)) ∨
    step.kind.reads = false ∧ ∃ r : Request, r.On base ∧ step.Asks base r := by
  cases step with
  | append files => exact .inr (.inr ⟨rfl, _, .commit _, asks_commit rfl⟩)
  | delete paths validate => exact .inr (.inr ⟨rfl, _, .commit _, asks_commit rfl⟩)
  | replace removed added => exact .inr (.inr ⟨rfl, _, .commit _, asks_commit rfl⟩)
  | overwrite added removed => exact .inr (.inr ⟨rfl, _, .commit _, asks_commit rfl⟩)
  | transaction steps =>
    cases hstaged : steps.mapM Step.staged with
    | error e =>
      refine .inr (.inl ⟨e, fun t => ?_⟩)
      simp only [Table.runStep, Table.runTransaction, Table.beginTransaction, Table.currentId_memory,
        hstaged]
    | ok changes => exact .inr (.inr ⟨rfl, _, .transaction changes, asks_transaction hstaged⟩)
  | rollback snapshot before =>
    cases hto : rollbackTarget snapshot before with
    | error e =>
      refine .inr (.inl ⟨e, fun t => ?_⟩)
      simp only [Table.runStep, Table.runRollback, hto, Table.plain]
    | ok target =>
      -- Exactly one of the two arguments is given, and it is not the time.
      match snapshot, before with
      | none, none => cases hto
      | none, some time => cases htime
      | some id, some time => cases hto
      | some id, none => exact .inr (.inr ⟨rfl, _, .rollback id, asks_rollback id⟩)
  | appendsBetween base tip => exact .inl rfl
  | appendsAfter base => exact .inl rfl
  | scan snapshot => exact .inl rfl

end Step

section Runs
variable {t : Table MemoryPointer} {step : Step} {rest : List Step} {index : Nat}

private theorem Table.simulate_ok {steps : List Step} {outcomes : List StepOutcome}
    (h : (t.runSteps 0 steps).1 = .ok outcomes) (hsound : (t.runSteps 0 steps).2.poisoned = false) :
    t.simulate steps =
      (.ok ⟨outcomes, (t.runSteps 0 steps).2.described (t.runSteps 0 steps).2.pointer.value⟩,
        (t.runSteps 0 steps).2) := by
  rw [simulate, ← Prod.eta (t.runSteps 0 steps), h]
  dsimp only
  rw [metadata_eq hsound rfl]
  rfl

private theorem Table.runSteps_failed {e : TableError} (h : (t.runStep step).1 = .error (.error e)) :
    t.runSteps index (step :: rest) = answer (⟨index, step.kind, .failed e⟩ :: ·)
      (((t.runStep step).2.report (.stepFailed index step.name e)).runSteps (index + 1) rest) := by
  rw [runSteps, ← Prod.eta (t.runStep step), h]

private theorem Table.runSteps_done {result : StepResult} (h : (t.runStep step).1 = .ok result) :
    t.runSteps index (step :: rest) = answer (⟨index, step.kind, result⟩ :: ·)
      ((t.runStep step).2.runSteps (index + 1) rest) := by
  rw [runSteps, ← Prod.eta (t.runStep step), h]

/-- A run of a script on `t` has one outcome for each step, and a run on `u` of the steps that stay gives each of
them the result that it has there, and leaves a table that is mirrored by the other one. -/
structure Erasure (u t : Table MemoryPointer) (index index' : Nat) (steps : List Step)
    (outcomes again : List StepOutcome) : Prop where
  ran : (t.runSteps index steps).1 = .ok outcomes
  places : outcomes.map (fun o => (o.op, o.index)) = (steps.map Step.kind).zipIdx index
  reran : (u.runSteps index' (survivors steps outcomes)).1 = .ok again
  results : again.map (fun o => (o.op, o.result)) =
    (outcomes.filter StepOutcome.stays).map fun o => (o.op, o.result)
  mirrors : ∃ σ, Mirrors σ (u.runSteps index' (survivors steps outcomes)).2 (t.runSteps index steps).2

variable {u t' : Table MemoryPointer} {index' : Nat} {outcomes again : List StepOutcome}

private theorem survivors_erased {o : StepOutcome} (h : o.stays = false) (outcomes : List StepOutcome) :
    survivors (step :: rest) (o :: outcomes) = survivors rest outcomes := by
  simp [survivors, h]

private theorem survivors_kept {o : StepOutcome} (h : o.stays = true) (outcomes : List StepOutcome) :
    survivors (step :: rest) (o :: outcomes) = step :: survivors rest outcomes := by
  simp [survivors, h]

private theorem Erasure.erased {o : StepOutcome}
    (h : Erasure u t' (index + 1) index' rest outcomes again)
    (hrun : t.runSteps index (step :: rest) = Table.answer (o :: ·) (t'.runSteps (index + 1) rest))
    (ho : (o.op, o.index) = (step.kind, index)) (hgone : o.stays = false) :
    Erasure u t index index' (step :: rest) (o :: outcomes) again where
  ran := by
    rw [hrun, Table.answer, h.ran]
    rfl
  places := by
    rw [List.map_cons, h.places, ho]
    rfl
  reran := by
    rw [survivors_erased hgone]
    exact h.reran
  results := by
    rw [List.filter_cons_of_neg (by simp [hgone])]
    exact h.results
  mirrors := by
    rw [survivors_erased hgone, hrun]
    exact h.mirrors

private theorem Erasure.kept {result : StepResult} (h : (t.runStep step).1 = .ok result)
    (h' : (u.runStep step).1 = .ok result)
    (hstays : ∀ i, StepOutcome.stays ⟨i, step.kind, result⟩ = true)
    (hrest : Erasure (u.runStep step).2 (t.runStep step).2 (index + 1) (index' + 1) rest outcomes again) :
    Erasure u t index index' (step :: rest) (⟨index, step.kind, result⟩ :: outcomes)
      (⟨index', step.kind, result⟩ :: again) where
  ran := by
    rw [Table.runSteps_done h, Table.answer, hrest.ran]
    rfl
  places := by
    rw [List.map_cons, hrest.places]
    rfl
  reran := by
    rw [survivors_kept (hstays index), Table.runSteps_done h', Table.answer, hrest.reran]
    rfl
  results := by
    rw [List.filter_cons_of_pos (hstays index), List.map_cons, List.map_cons, hrest.results]
  mirrors := by
    rw [survivors_kept (hstays index), Table.runSteps_done h, Table.runSteps_done h']
    exact hrest.mirrors

end Runs

namespace Mirrors
variable {σ : ManifestId → ManifestId} {u t : Table MemoryPointer}

/-- A step fails without a trace, or reads, or has the same result on both tables. -/
theorem runStep (h : Mirrors σ u t) {step : Step} (htime : step.byTime = false) :
    (∃ e, (t.runStep step).1 = .error (.error e) ∧ t.Idle (t.runStep step).2) ∨
    (step.kind.reads = true ∧ ∃ result, (t.runStep step).1 = .ok result ∧ t.Idle (t.runStep step).2) ∨
    step.kind.reads = false ∧ ∃ ids, (t.runStep step).1 = .ok (.committed ids) ∧
      (u.runStep step).1 = .ok (.committed ids) ∧ Mirrors σ (u.runStep step).2 (t.runStep step).2 := by
  rcases step.asks htime u.pointer.value with hreads | ⟨e, he⟩ | ⟨hreads, r, hr, hasks⟩
  · obtain ⟨hidle, hcrash⟩ := t.runStep_reads hreads
    cases hanswer : (t.runStep step).1 with
    | ok result => exact .inr (.inl ⟨hreads, result, rfl, hidle⟩)
    | error f =>
      cases f with
      | error e => exact .inl ⟨e, rfl, hidle⟩
      | crashed => exact absurd hanswer hcrash
  · rw [he t]
    exact .inl ⟨e, rfl, .refl t⟩
  · rw [hasks t h.pointer, hasks u rfl]
    rcases h.respond hr with ⟨e, he, hidle⟩ | ⟨chain, chain', hc, hc', hids, hmirrors⟩
    · refine .inl ⟨e, ?_, hidle⟩
      rw [Table.answer, he]
      rfl
    · refine .inr (.inr ⟨hreads, chain.map Snapshot.id, ?_, ?_, hmirrors⟩)
      · rw [Table.answer, hc', ← hids]
        rfl
      · rw [Table.answer, hc]
        rfl

/-- The induction is on the script. What is left out leaves a table that still mirrors `u` as it is, but under
another renaming. -/
theorem runSteps (h : Mirrors σ u t) {steps : List Step} (htime : ∀ step ∈ steps, step.byTime = false)
    (index index' : Nat) : ∃ outcomes again, Erasure u t index index' steps outcomes again := by
  induction steps generalizing u t σ index index' with
  | nil => exact ⟨[], [], rfl, rfl, rfl, rfl, σ, h⟩
  | cons step rest ih =>
    obtain ⟨hstep, hrest⟩ := List.forall_mem_cons.mp htime
    rcases h.runStep hstep with ⟨e, he, hidle⟩ | ⟨hreads, result, hr, hidle⟩ |
      ⟨hreads, ids, hids, hids', hmirrors⟩
    · obtain ⟨σ', hmirrors⟩ := h.idle (hidle.report (.stepFailed index step.name e))
      obtain ⟨outcomes, again, herasure⟩ := ih hmirrors hrest (index + 1) index'
      exact ⟨_, again, herasure.erased (Table.runSteps_failed he) rfl rfl⟩
    · obtain ⟨σ', hmirrors⟩ := h.idle hidle
      obtain ⟨outcomes, again, herasure⟩ := ih hmirrors hrest (index + 1) index'
      exact ⟨_, again, herasure.erased (Table.runSteps_done hr) rfl (by simp [StepOutcome.stays, hreads])⟩
    · obtain ⟨outcomes, again, herasure⟩ := ih hmirrors hrest (index + 1) (index' + 1)
      refine ⟨_, _, herasure.kept hids hids' ?_⟩
      simp [StepOutcome.stays, StepOutcome.isFailure, hreads]

private theorem described_bare (h : Mirrors σ u t) :
    (t.described t.pointer.value).bare = (u.described u.pointer.value).bare := by
  rw [Table.described, Table.described, TableMetadata.bare, TableMetadata.bare]
  simp only [Keyed.toList, h.config, h.pointer, h.log, Renamed.metadata_bare h.graph u.manifestUuid]

private theorem simulate (h : Mirrors σ u t) {steps : List Step}
    (htime : ∀ step ∈ steps, step.byTime = false) :
    ∃ report, (t.simulate steps).1 = .ok report ∧
      report.outcomes.map (fun o => (o.op, o.index)) = (steps.map Step.kind).zipIdx ∧
      ∃ again, (u.simulate (survivors steps report.outcomes)).1 = .ok again ∧
        again.outcomes.map (fun o => (o.op, o.result)) =
          (report.outcomes.filter StepOutcome.stays).map (fun o => (o.op, o.result)) ∧
        again.metadata.bare = report.metadata.bare ∧
        ∃ σ', Mirrors σ' (u.simulate (survivors steps report.outcomes)).2 (t.simulate steps).2 := by
  obtain ⟨outcomes, again, herasure⟩ := h.runSteps htime 0 0
  obtain ⟨σ', hmirrors⟩ := herasure.mirrors
  have hran := Table.simulate_ok herasure.ran hmirrors.sound.2
  have hreran := Table.simulate_ok herasure.reran hmirrors.sound.1
  refine ⟨_, congrArg Prod.fst hran, herasure.places, _, congrArg Prod.fst hreran, herasure.results,
    hmirrors.described_bare.symm, σ', ?_⟩
  rw [hran]
  dsimp only
  rw [hreran]
  exact hmirrors

end Mirrors

/-- A script does the same without its steps that fail or only read: whatever it does to a new table, each
step that stays has the same result where the others are left out, and the table behind it is the same, with
its manifests renamed in their order, at other times. -/
theorem simulate_survivors {uuid uuid' : Uuid} {config : TableConfig} {clock clock' : Clock}
    {t u : Table MemoryPointer} (h : Table.create uuid config clock = .ok t)
    (h' : Table.create uuid' config clock' = .ok u) {validators : List Validator}
    (hsturdy : Validator.Sturdy validators) {steps : List Step}
    (htime : ∀ step ∈ steps, step.byTime = false) :
    let ran := (t.withValidators validators).simulate steps
    ∃ report, ran.1 = .ok report ∧
      report.outcomes.map (fun o => (o.op, o.index)) = (steps.map Step.kind).zipIdx ∧
      let reran := (u.withValidators validators).simulate (survivors steps report.outcomes)
      ∃ again, reran.1 = .ok again ∧
        again.outcomes.map (fun o => (o.op, o.result)) =
          (report.outcomes.filter StepOutcome.stays).map (fun o => (o.op, o.result)) ∧
        again.metadata.bare = report.metadata.bare ∧ ∃ σ, Mirrors σ reran.2 ran.2 := by
  intro ran
  obtain rfl := Table.eq_of_create h
  obtain rfl := Table.eq_of_create h'
  have hstart : Mirrors id ((Table.fresh uuid' config clock').withValidators validators)
      ((Table.fresh uuid config clock).withValidators validators) :=
    ⟨rfl, rfl, hsturdy, ⟨rfl, rfl⟩, .nil, rfl, rfl, strictMono_id, fun n => rfl, nofun⟩
  exact hstart.simulate htime

def mixedScript : List Step :=
  let file (path : String) : DataFile := { path }
  [.append [file "a"], .append [file "a"], .transaction [.append [file "b"], .append [file "a"]],
    .scan none, .append [file "c"], .transaction [.append [file "d"], .scan none],
    .rollback (some 1) (some (Instant.ofNanos 0)), .rollback none none, .rollback (some 1) none,
    .appendsAfter 1, .transaction [.append [file "d"], .append [file "e"]]]

/-- What is left of it are its first step, the fifth, the ninth and the last, with the same results. -/
theorem simulate_survivors_mixedScript :
    ∃ report again, (Table.blank.simulate mixedScript).1 = .ok report ∧
      (Table.blank.simulate (survivors mixedScript report.outcomes)).1 = .ok again ∧
      (report.outcomes.filter StepOutcome.stays).map StepOutcome.index = [0, 4, 8, 10] ∧
      again.outcomes.map StepOutcome.result =
        [.committed [1], .committed [2], .committed [1], .committed [3, 4]] := by
  have htime : ∀ step ∈ mixedScript, step.byTime = false := by decide
  obtain ⟨report, hran, -, again, hreran, hresults, -⟩ :=
    simulate_survivors Table.create_blank Table.create_blank Validator.sturdy_standard htime
  have hkept : (Table.blank.simulate mixedScript).1.map (fun r =>
      (r.outcomes.filter StepOutcome.stays).map fun o => (o.index, o.result)) =
      .ok [(0, .committed [1]), (4, .committed [2]), (8, .committed [1]), (10, .committed [3, 4])] := by
    decide +kernel
  have hreport : (Table.blank.simulate mixedScript).1 = .ok report := hran
  rw [hreport] at hkept
  have hpairs := Except.ok.inj hkept
  refine ⟨report, again, hran, hreran, ?_, ?_⟩
  · have hindexes := congrArg (List.map Prod.fst) hpairs
    rw [List.map_map] at hindexes
    exact hindexes
  · have hvalues := congrArg (List.map Prod.snd) hpairs
    have hsame := congrArg (List.map Prod.snd) hresults
    rw [List.map_map] at hvalues
    rw [List.map_map, List.map_map] at hsame
    exact hsame.trans hvalues

end SnapshotTable
