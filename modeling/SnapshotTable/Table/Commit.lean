import SnapshotTable.Table.Publish

/-! Commits of a single change. A commit captures its base when it is begun; if it loses a race, it
is staged again on the then current snapshot as often as the settings allow. -/

namespace SnapshotTable

structure Commit where
  base : Except TableError (Option SnapshotId)
  change : Change

namespace Table

variable {σ : Type} [PointerStore σ]

def beginCommit (t : Table σ) (operation : Operation) : Commit × Table σ :=
  let (base, t) := t.currentId
  (⟨base, Change.start operation⟩, t)

def attempt (t : Table σ) (base : Option SnapshotId) (change : Change) :
    Except Failure Snapshot × Table σ :=
  match t.publish base [change] with
  | (.error e, t) => (.error e, t)
  | (.ok (s :: _), t) => (.ok s, t)
  | (.ok [], t) => (.error (.error (.invalidOperation "commit produced no snapshot")), t)

/-- Attempts behind `made` earlier ones, with at most `retries` more after a lost race. A retry
starts from the pointer as it is then read; any other failure is final. -/
def commitFrom (t : Table σ) (base : Option SnapshotId) (change : Change) (made : Nat) :
    Nat → Except Failure Snapshot × Table σ
  | 0 => t.attempt base change
  | retries + 1 =>
    match t.attempt base change with
    | (.error (.error e), t) =>
      if e.isRetryable then
        match t.currentId with
        | (.error e, t) => (.error (.error e), t)
        | (.ok base, t) =>
          let restaged : Event :=
            .commitRestaged (made + 1) t.config.commitRetries change.operation e
          (t.report restaged).commitFrom base change (made + 1) retries
      else (.error (.error e), t)
    | answer => answer

/-- Commits a change. A base that could not be read is reported only now. -/
def commit (t : Table σ) (c : Commit) : Except Failure Snapshot × Table σ :=
  match c.base with
  | .error e => (.error (.error e), t)
  | .ok base => t.commitFrom base c.change 0 t.config.commitRetries

end Table

end SnapshotTable
