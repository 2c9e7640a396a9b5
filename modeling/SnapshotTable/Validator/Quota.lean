import SnapshotTable.Validator.Basic

/-! Further rules: refusing empty changes, limits on the state that a change applies to, and a rule
that breaks down on a given path. -/

namespace SnapshotTable.Validator

open Text (Decimal.numeral)

def rejectEmpty : Validator where
  name := "reject-empty"
  judge _ change := if change.isEmpty then .fail "nothing staged" else .pass

def quota (name : String) (figure : FileSet → Nat) (limit : Nat) : Validator where
  name
  judge base _ :=
    if limit < figure base then
      .fail ("base has " ++ String.ofList (Decimal.numeral (figure base)) ++ ", limit "
        ++ String.ofList (Decimal.numeral limit))
    else .pass

def maxFiles : Nat → Validator := quota "max-files" Keyed.size

def maxRecords : Nat → Validator := quota "max-records" fun base => totalRecords base.toList

def maxBytes : Nat → Validator := quota "max-bytes" fun base => totalSizeBytes base.toList

def crashOn (path : String) : Validator where
  name := "panic-on"
  judge _ change := if change.added.contains path then .crash else .pass

end SnapshotTable.Validator
