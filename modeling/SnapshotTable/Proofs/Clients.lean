import Mathlib.Logic.Function.Iterate
import SnapshotTable.Proofs.CommitOutcomes

/-! Clients that commit on a shared table, one step at a time: a client reads the pointer, attempts
to publish, and if its single change lost a race reads the pointer again before the next attempt.
What others do between two steps is open. A client that is left alone does what a commit does. -/

namespace SnapshotTable

inductive Job where
  | single (change : Change)
  | batch (changes : List Change)

inductive Stage where
  | waiting
  /-- It has read the base of its next attempt, behind `lost` attempts that lost a race. -/
  | holding (base : Option SnapshotId) (lost : Nat)
  /-- It has lost a race and is to read the pointer again. -/
  | beaten (lost : Nat) (error : TableError)
  /-- It made its last attempt on `base`, behind `lost` attempts that lost a race. -/
  | finished (base : Option SnapshotId) (lost : Nat) (answer : Except Failure (List Snapshot))

def Stage.published : Stage → List Snapshot
  | .finished _ _ (.ok chain) => chain
  | _ => []

def Stage.lost : Stage → Nat
  | .waiting => 0
  | .holding _ lost => lost
  | .beaten lost _ => lost
  | .finished _ lost _ => lost

def Stage.succeeded : Stage → Bool
  | .finished _ _ (.ok _) => true
  | _ => false

def Stage.crashed : Stage → Bool
  | .finished _ _ (.error .crashed) => true
  | _ => false

def Stage.ended : Stage → Bool
  | .finished .. => true
  | _ => false

/-- A client that has ended has an answer. -/
theorem Stage.eq_finished {s : Stage} (h : s.ended = true) :
    ∃ base lost answer, s = .finished base lost answer := by
  cases s with
  | finished base lost answer => exact ⟨base, lost, answer, rfl⟩
  | waiting => cases h
  | holding base lost => cases h
  | beaten lost e => cases h

/-- A client that has succeeded has ended. -/
theorem Stage.ended_of_succeeded {s : Stage} (h : s.succeeded = true) : s.ended = true := by
  cases s with
  | finished base lost answer => rfl
  | waiting => cases h
  | holding base lost => cases h
  | beaten lost e => cases h

/-- A client that goes on has not succeeded. -/
theorem Stage.succeeded_of_open {s : Stage} (h : s.ended = false) : s.succeeded = false := by
  rw [← Bool.not_eq_true]
  intro hs
  exact Bool.false_ne_true (h.symm.trans (ended_of_succeeded hs))

/-- A client that goes on has not crashed. -/
theorem Stage.crashed_of_open {s : Stage} (h : s.ended = false) : s.crashed = false := by
  cases s with
  | finished base lost answer => cases h
  | waiting => rfl
  | holding base lost => rfl
  | beaten lost e => rfl

namespace Job

def changes : Job → List Change
  | .single change => [change]
  | .batch changes => changes

def reportRestaged (t : Table MemoryPointer) (lost : Nat) (e : TableError) :
    Job → Table MemoryPointer
  | .single change =>
    t.report (.commitRestaged lost t.config.commitRetries change.operation e)
  | .batch _ => t

def attempt (job : Job) (base : Option SnapshotId) (lost : Nat) (t : Table MemoryPointer) :
    Stage × Table MemoryPointer :=
  match job with
  | .single change =>
    match t.attempt base change with
    | (.ok s, t) => (.finished base lost (.ok [s]), t)
    | (.error .crashed, t) => (.finished base lost (.error .crashed), t)
    | (.error (.error e), t) =>
      if e.isRetryable ∧ lost < t.config.commitRetries then (.beaten (lost + 1) e, t)
      else (.finished base lost (.error (.error e)), t)
  | .batch changes =>
    let (answer, t) := t.commitTransaction ⟨base, changes⟩
    (.finished base lost answer, t)

def step (job : Job) (stage : Stage) (t : Table MemoryPointer) : Stage × Table MemoryPointer :=
  match stage with
  | .waiting =>
    match t.currentId with
    | (.error e, t) => (.finished none 0 (.error (.error e)), t)
    | (.ok base, t) => (.holding base 0, t)
  | .holding base lost => job.attempt base lost t
  | .beaten lost e =>
    match t.currentId with
    | (.error e, t) => (.finished none lost (.error (.error e)), t)
    | (.ok base, t) => (.holding base lost, job.reportRestaged t lost e)
  | .finished base lost answer => (.finished base lost answer, t)

variable {job : Job} {t : Table MemoryPointer}

@[simp] theorem step_waiting : job.step .waiting t = (.holding t.pointer.value 0, t) := rfl

@[simp] theorem step_holding (base : Option SnapshotId) (lost : Nat) :
    job.step (.holding base lost) t = job.attempt base lost t := rfl

@[simp] theorem step_beaten (lost : Nat) (e : TableError) : job.step (.beaten lost e) t =
    (.holding t.pointer.value lost, job.reportRestaged t lost e) := rfl

@[simp] theorem step_finished (base : Option SnapshotId) (lost : Nat)
    (answer : Except Failure (List Snapshot)) : job.step (.finished base lost answer) t =
      (.finished base lost answer, t) := rfl

/-- Reporting that a change is staged again moves nothing. -/
theorem unmoved_reportRestaged (job : Job) (t : Table MemoryPointer) (lost : Nat)
    (e : TableError) :
    t.Unmoved (job.reportRestaged t lost e) ∧
      (job.reportRestaged t lost e).poisoned = t.poisoned := by
  cases job with
  | single change => exact ⟨Table.unmoved_report t _, rfl⟩
  | batch changes => exact ⟨.refl t, rfl⟩

/-- An attempt ends with an error, is to be made again, or publishes the changes of the job. -/
theorem attempt_cases (job : Job) (base : Option SnapshotId) (lost : Nat)
    (t : Table MemoryPointer) :
    (∃ f, (job.attempt base lost t).1 = .finished base lost (.error f) ∧
      t.Refused f (job.attempt base lost t).2) ∨
    (∃ e, (job.attempt base lost t).1 = .beaten (lost + 1) e ∧
      t.Refused (.error e) (job.attempt base lost t).2) ∨
    (∃ chain, (job.attempt base lost t).1 = .finished base lost (.ok chain) ∧
      t.Grown base job.changes chain (job.attempt base lost t).2) ∨
    job.changes = [] ∧ job.attempt base lost t = (.finished base lost (.ok []), t) := by
  cases job with
  | single change =>
    rw [attempt, ← Prod.eta (t.attempt base change)]
    rcases t.attempt_cases base change with ⟨f, hf, hr⟩ | ⟨s, hs, hg⟩
    · rw [hf]
      cases f with
      | crashed => exact .inl ⟨_, rfl, hr⟩
      | error e =>
        simp only
        split
        · exact .inr (.inl ⟨e, rfl, hr⟩)
        · exact .inl ⟨_, rfl, hr⟩
    · rw [hs]
      exact .inr (.inr (.inl ⟨[s], rfl, hg⟩))
  | batch changes =>
    rw [attempt, ← Prod.eta (t.commitTransaction ⟨base, changes⟩)]
    rcases t.commitTransaction_cases ⟨base, changes⟩ with ⟨f, hf, hr⟩ | ⟨chain, hc, hg⟩ | ⟨hnil, heq⟩
    · rw [hf]
      exact .inl ⟨f, rfl, hr⟩
    · rw [hc]
      exact .inr (.inr (.inl ⟨chain, rfl, hg⟩))
    · rw [heq]
      exact .inr (.inr (.inr ⟨hnil, rfl⟩))

/-- An attempt on a base that is not current is a conflict, and made again where a retry is left. -/
theorem attempt_stale (h : t.poisoned = false) {base : Option SnapshotId}
    (hbase : base ≠ t.pointer.value) (change : Change) (lost : Nat) :
    (single change).attempt base lost t =
      (if lost < t.config.commitRetries then
        .beaten (lost + 1) (.commitConflict base t.pointer.value)
      else .finished base lost (.error (.error (.commitConflict base t.pointer.value))),
      t.report (.baseStale base t.pointer.value)) := by
  have hconfig : (t.report (.baseStale base t.pointer.value)).config = t.config := rfl
  simp only [attempt, Table.attempt, Table.publish_stale h hbase, TableError.isRetryable, true_and,
    hconfig]
  by_cases hlost : lost < t.config.commitRetries
  · rw [if_pos hlost, if_pos hlost]
  · rw [if_neg hlost, if_neg hlost]

/-- An attempt on the current base succeeds if the validators accept the change there. -/
theorem attempt_accepted (h : t.poisoned = false) {parent : Option Snapshot}
    (hparent : t.graph.resolve t.pointer.value = .ok parent) {change : Change}
    (haccept : Validator.evaluate (filesAt parent) change t.validators = .ok ()) (lost : Nat) :
    ∃ s, ((single change).attempt t.pointer.value lost t).1 =
        .finished t.pointer.value lost (.ok [s]) ∧
      t.Grown t.pointer.value [change] [s] ((single change).attempt t.pointer.value lost t).2 := by
  obtain ⟨s, hs, hg⟩ := Table.publish_accepted h hparent haccept
  refine ⟨s, ?_⟩
  rw [attempt, Table.attempt, ← Prod.eta (t.publish t.pointer.value [change]), hs]
  exact ⟨rfl, hg⟩

def alone (job : Job) (r : Stage × Table MemoryPointer) : Stage × Table MemoryPointer :=
  job.step r.1 r.2

private theorem alone_final {change : Change} {base : Option SnapshotId} {made : Nat}
    (h : ∀ e, (t.attempt base change).1 = .error (.error e) → e.isRetryable = true →
      t.config.commitRetries ≤ made) :
    (single change).alone (.holding base made, t) =
      (.finished base made ((t.attempt base change).1.map ([·])), (t.attempt base change).2) := by
  rw [alone, step_holding, attempt]
  rcases t.attempt_cases base change with ⟨f, hf, hr⟩ | ⟨s, hs, -⟩
  · rw [← Prod.eta (t.attempt base change), hf]
    cases f with
    | crashed => rfl
    | error e =>
      have hlast : ¬(e.isRetryable = true ∧ made < (t.attempt base change).2.config.commitRetries) := by
        rw [hr.unmoved.config]
        rintro ⟨he, hlt⟩
        exact Nat.not_le.mpr hlt (h e hf he)
      simp only [if_neg hlast]
      rfl
  · rw [← Prod.eta (t.attempt base change), hs]
    rfl

private theorem alone_again {change : Change} {base : Option SnapshotId} {made : Nat}
    {e : TableError} {u : Table MemoryPointer} (h : t.attempt base change = (.error (.error e), u))
    (he : e.isRetryable = true) (hmade : made < u.config.commitRetries) :
    (single change).alone^[2] (.holding base made, t) = (.holding u.pointer.value (made + 1),
      u.report (.commitRestaged (made + 1) u.config.commitRetries change.operation e)) := by
  have hlost : (single change).alone (.holding base made, t) = (.beaten (made + 1) e, u) := by
    simp only [alone, step_holding, attempt, h, he, hmade, and_self, if_true]
  rw [Function.iterate_succ_apply, hlost]
  rfl

private theorem alone_commitFrom (change : Change) (t : Table MemoryPointer)
    (base : Option SnapshotId) (made retries : Nat)
    (h : made + retries = t.config.commitRetries) :
    ∃ steps last lost, (single change).alone^[steps] (.holding base made, t) =
      (.finished last lost ((t.commitFrom base change made retries).1.map ([·])),
        (t.commitFrom base change made retries).2) := by
  induction retries generalizing t base made with
  | zero => exact ⟨1, base, made, alone_final fun _ _ _ => Nat.le_of_eq h.symm⟩
  | succ retries ih =>
    rw [Table.commitFrom]
    split
    · rename_i e u hu
      have hconfig : u.config = t.config := by
        rcases t.attempt_cases base change with ⟨f, -, hr⟩ | ⟨s, hs, -⟩
        · rw [hu] at hr
          exact hr.unmoved.config
        · rw [hu] at hs
          cases hs
      split
      · rename_i he
        obtain ⟨steps, last, lost, heq⟩ := ih
          (u.report (.commitRestaged (made + 1) u.config.commitRetries change.operation e))
          u.pointer.value (made + 1) (by simp only [Table.report, hconfig]; omega)
        -- Two steps lead to the next attempt: the lost one, and reading the pointer again.
        refine ⟨steps + 2, last, lost, ?_⟩
        rw [Function.iterate_add_apply, alone_again hu he (by rw [hconfig]; omega)]
        exact heq
      · rename_i he
        refine ⟨1, base, made, ?_⟩
        rw [Function.iterate_one, alone_final, hu]
        intro e' hf he'
        rw [hu] at hf
        cases hf
        exact absurd he' he
    · rename_i hother
      refine ⟨1, base, made, alone_final fun e hf _ => ?_⟩
      exact (hother e (t.attempt base change).2 (Prod.ext hf rfl)).elim

/-- A client with a single change that is left alone begins a commit and carries it out. -/
theorem alone_single (change : Change) (t : Table MemoryPointer) :
    ∃ steps last lost, (single change).alone^[steps] (.waiting, t) =
      (.finished last lost ((t.commit ⟨.ok t.pointer.value, change⟩).1.map ([·])),
        (t.commit ⟨.ok t.pointer.value, change⟩).2) := by
  obtain ⟨steps, last, lost, heq⟩ :=
    alone_commitFrom change t t.pointer.value 0 t.config.commitRetries (Nat.zero_add _)
  exact ⟨steps + 1, last, lost, heq⟩

/-- One with a transaction that is left alone begins it and carries it out. -/
theorem alone_batch (changes : List Change) (t : Table MemoryPointer) :
    (batch changes).alone^[2] (.waiting, t) =
      (.finished t.pointer.value 0 (t.commitTransaction ⟨t.pointer.value, changes⟩).1,
        (t.commitTransaction ⟨t.pointer.value, changes⟩).2) := rfl

end Job
end SnapshotTable
