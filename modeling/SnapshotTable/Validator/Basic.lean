import SnapshotTable.Change
import SnapshotTable.Error

/-! Validators: pure rules that a change must pass against the files of the state it applies to.
They are asked in order, and the first refusal counts. -/

namespace SnapshotTable

inductive Verdict where
  | pass
  | fail (reason : String)
  /-- The rule broke down instead of answering. -/
  | crash
  deriving DecidableEq, Repr, Inhabited

structure Validator where
  name : String
  judge : FileSet → Change → Verdict

inductive Refusal where
  | rejected (violation : Violation)
  | crashed
  deriving DecidableEq, Repr, Inhabited

namespace Validator

def addedFilesMustBeNew : Validator where
  name := "added-files-must-be-new"
  judge base change :=
    match (change.added.toList.map DataFile.path).filter base.contains with
    | [] => .pass
    | paths => .fail ("files already in table: " ++ ", ".intercalate paths)

/-- A path that is removed must be live, if the change replaces files or asks for it. -/
def removedFilesMustExist : Validator where
  name := "removed-files-must-exist"
  judge base change :=
    if change.operation = .replace ∨ change.requiresRemovals then
      match change.removed.toList.filter (!base.contains ·) with
      | [] => .pass
      | paths => .fail ("missing required files to delete: " ++ ", ".intercalate paths)
    else .pass

def standard : List Validator := [addedFilesMustBeNew, removedFilesMustExist]

/-- Asks the rules in order, up to the first that does not pass. -/
def evaluate (base : FileSet) (change : Change) : List Validator → Except Refusal Unit
  | [] => .ok ()
  | v :: rest =>
    match v.judge base change with
    | .pass => evaluate base change rest
    | .fail reason => .error (.rejected ⟨v.name, reason⟩)
    | .crash => .error .crashed

def listing (validators : List Validator) : String :=
  "[" ++ ", ".intercalate (validators.map fun v => "\"" ++ v.name ++ "\"") ++ "]"

end Validator

end SnapshotTable
