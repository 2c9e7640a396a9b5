import SnapshotTable.Metadata.Document
import SnapshotTable.Script.Step
import SnapshotTable.Table.Commit
import SnapshotTable.Table.Rollback
import SnapshotTable.Table.Scan
import SnapshotTable.Table.Transaction

/-! Running scripts against a table. A step that fails is recorded and the script goes on, so one
run shows every error that a script meets. -/

namespace SnapshotTable

inductive StepResult where
  /-- The snapshots that the step published or moved the pointer to. -/
  | committed (ids : List SnapshotId)
  /-- The paths that a scan planned, in order. -/
  | planned (paths : List String)
  | failed (error : TableError)
  deriving DecidableEq, Repr, Inhabited

structure StepOutcome where
  index : Nat
  op : StepKind
  result : StepResult
  deriving DecidableEq, Repr, Inhabited

def StepOutcome.isFailure (o : StepOutcome) : Bool :=
  match o.result with
  | .failed _ => true
  | _ => false

def StepOutcome.toJson (o : StepOutcome) : Json :=
  .obj ([("index", .int o.index), ("op", .str o.op.name)]
    ++ match o.result with
      | .committed ids =>
        [("status", .str "committed"),
          ("snapshot-ids", .arr (ids.map fun id => .int (Int.ofNat id)))]
      | .planned paths => [("status", .str "planned"), ("files", .arr (paths.map Json.str))]
      | .failed error => [("status", .str "failed"), ("error", .str error.message)])

structure Simulation where
  outcomes : List StepOutcome
  metadata : TableMetadata

namespace Simulation

def failures (s : Simulation) : List StepOutcome := s.outcomes.filter StepOutcome.isFailure

def toJson (s : Simulation) : Json :=
  .obj [("outcomes", .arr (s.outcomes.map StepOutcome.toJson)), ("metadata", s.metadata.toJson)]

end Simulation

def Step.staged (step : Step) : Except TableError Change :=
  match step.change? with
  | some change => .ok change
  | none => .error (.invalidOperation ("`" ++ step.name ++ "` is not a commit step"))

/-- The target of a rollback step, which names exactly one. -/
def rollbackTarget : Option SnapshotId → Option Instant → Except TableError RollbackTarget
  | some id, none => .ok (.snapshot id)
  | none, some time => .ok (.before time)
  | _, _ =>
    .error (.invalidOperation "rollback needs exactly one of `snapshot` or `before`")

namespace Table

variable {σ : Type} [PointerStore σ]

def answer {ε α β : Type} (f : α → β) : Except ε α × Table σ → Except ε β × Table σ
  | (a, t) => (a.map f, t)

def plain {α : Type} : Except TableError α × Table σ → Except Failure α × Table σ
  | (.ok a, t) => (.ok a, t)
  | (.error e, t) => (.error (.error e), t)

def plannedPaths (files : FileSet) : StepResult := .planned (files.toList.map DataFile.path)

def runTransaction (t : Table σ) (steps : List Step) : Except Failure StepResult × Table σ :=
  match t.beginTransaction with
  | (.error e, t) => (.error (.error e), t)
  | (.ok txn, t) =>
    match steps.mapM Step.staged with
    | .error e => (.error (.error e), t)
    | .ok changes =>
      answer (fun chain => .committed (chain.map Snapshot.id))
        (t.commitTransaction (changes.foldl Transaction.stage txn))

def runRollback (t : Table σ) (snapshot : Option SnapshotId) (before : Option Instant) :
    Except TableError StepResult × Table σ :=
  match rollbackTarget snapshot before with
  | .error e => (.error e, t)
  | .ok target =>
    match t.beginRollback with
    | (.error e, t) => (.error e, t)
    | (.ok r, t) =>
      answer (fun s => .committed [s.id]) (t.commitRollback { r with target := some target })

def runStep (t : Table σ) (step : Step) : Except Failure StepResult × Table σ :=
  match step with
  | .transaction steps => t.runTransaction steps
  | .rollback snapshot before => plain (t.runRollback snapshot before)
  | .appendsBetween base tip =>
    plain (answer plannedPaths (t.planAppendedFiles (appendsBetween base tip)))
  | .appendsAfter base =>
    let (scan, t) := t.appendsAfter base
    plain (answer plannedPaths (t.planAppendedFiles scan))
  | .scan snapshot => plain (answer plannedPaths (t.planFiles snapshot))
  | step =>
    match step.staged with
    | .error e => (.error (.error e), t)
    | .ok change =>
      let (commit, t) := t.beginCommit change.operation
      answer (fun s => .committed [s.id]) (t.commit { commit with change })

/-- Runs steps from a place in the script on. Only a validator that breaks down ends the run. -/
def runSteps (t : Table σ) (index : Nat) : List Step → Except Failure (List StepOutcome) × Table σ
  | [] => (.ok [], t)
  | step :: rest =>
    match t.runStep step with
    | (.error .crashed, t) => (.error .crashed, t)
    | (.ok result, t) => answer (⟨index, step.kind, result⟩ :: ·) (t.runSteps (index + 1) rest)
    | (.error (.error e), t) =>
      answer (⟨index, step.kind, .failed e⟩ :: ·)
        ((t.report (.stepFailed index step.name e)).runSteps (index + 1) rest)

def simulate (t : Table σ) (steps : List Step) : Except Failure Simulation × Table σ :=
  match t.runSteps 0 steps with
  | (.error e, t) => (.error e, t)
  | (.ok outcomes, t) => answer (fun metadata => { outcomes, metadata }) (plain t.metadata)

end Table

end SnapshotTable
