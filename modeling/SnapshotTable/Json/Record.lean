import SnapshotTable.Json.Basic

/-! Reading typed values out of documents. A record is an object, where unknown names are ignored
and a known one may stand only once, or an array of its fields in declared order. -/

namespace SnapshotTable.Json

def nat? (bound : Nat) : Json → Option Nat
  | .int (.ofNat n) => if n < bound then some n else none
  | _ => none

def word? : Json → Option Nat := nat? wordBound

def signedWord? : Json → Option Int
  | .int z => if -signedBound ≤ z ∧ z < signedBound then some z else none
  | _ => none

def bool? : Json → Option Bool
  | .bool b => some b
  | _ => none

def str? : Json → Option String
  | .str s => some s
  | _ => none

def nullable? {α : Type} (read : Json → Option α) : Json → Option (Option α)
  | .null => some none
  | j => (read j).map some

def list? {α : Type} (read : Json → Option α) : Json → Option (List α)
  | .arr items => items.mapM read
  | _ => none

/-- One of a closed set of words: the word itself, or an object with the word as its only name and
null as the value. -/
def choice? {α : Type} (choose : String → Option α) : Json → Option α
  | .str s => choose s
  | .obj [(name, .null)] => choose name
  | _ => none

def single? (name : String) (members : List (String × Json)) : Option (Option Json) :=
  match members.filter (·.1 == name) with
  | [] => some none
  | [(_, value)] => some (some value)
  | _ => none

/-- The fields of a record in declared order, each present or not. An array may stop early and may
not run on. -/
def fields? (names : List String) : Json → Option (List (Option Json))
  | .obj members => names.mapM fun name => single? name members
  | .arr items =>
    if items.length ≤ names.length then
      some (items.map some ++ List.replicate (names.length - items.length) none)
    else none
  | _ => none

def required? {α : Type} (read : Json → Option α) : Option Json → Option α
  | some j => read j
  | none => none

def optional? {α : Type} (default : α) (read : Json → Option α) : Option Json → Option α
  | some j => read j
  | none => some default

end SnapshotTable.Json
