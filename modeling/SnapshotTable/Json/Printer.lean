import SnapshotTable.Json.Quoted
import SnapshotTable.Text.Decimal

/-! Writing JSON text, on one line without blanks or indented by two spaces. A broken part has no
text of its own and is written as null. -/

namespace SnapshotTable.Json

open Text (Decimal.signed)

mutual

def compact : Json → List Char
  | .null => "null".toList
  | .bool true => "true".toList
  | .bool false => "false".toList
  | .int z => Decimal.signed z
  | .real literal => literal.toList
  | .str s => Quoted.write s
  | .arr [] => ['[', ']']
  | .arr (item :: rest) => '[' :: compact item ++ compactItems rest
  | .obj [] => ['\x7b', '\x7d']
  | .obj ((name, value) :: rest) =>
    '\x7b' :: Quoted.write name ++ ':' :: compact value ++ compactMembers rest
  | .broken => "null".toList

def compactItems : List Json → List Char
  | [] => [']']
  | item :: rest => ',' :: compact item ++ compactItems rest

def compactMembers : List (String × Json) → List Char
  | [] => ['\x7d']
  | (name, value) :: rest =>
    ',' :: Quoted.write name ++ ':' :: compact value ++ compactMembers rest

end

def newline (level : Nat) : List Char := '\n' :: List.replicate (2 * level) ' '

mutual

def indented (level : Nat) : Json → List Char
  | .arr (item :: rest) =>
    '[' :: newline (level + 1) ++ indented (level + 1) item ++ indentedItems level rest
  | .obj ((name, value) :: rest) =>
    '\x7b' :: newline (level + 1) ++ Quoted.write name ++ ':' :: ' ' :: indented (level + 1) value
      ++ indentedMembers level rest
  | .arr [] => ['[', ']']
  | .obj [] => ['\x7b', '\x7d']
  | .null => "null".toList
  | .bool true => "true".toList
  | .bool false => "false".toList
  | .int z => Decimal.signed z
  | .real literal => literal.toList
  | .str s => Quoted.write s
  | .broken => "null".toList

def indentedItems (level : Nat) : List Json → List Char
  | [] => newline level ++ [']']
  | item :: rest =>
    ',' :: newline (level + 1) ++ indented (level + 1) item ++ indentedItems level rest

def indentedMembers (level : Nat) : List (String × Json) → List Char
  | [] => newline level ++ ['\x7d']
  | (name, value) :: rest =>
    ',' :: newline (level + 1) ++ Quoted.write name ++ ':' :: ' ' :: indented (level + 1) value
      ++ indentedMembers level rest

end

def render (j : Json) : String := String.ofList j.compact

def pretty (j : Json) : String := String.ofList (j.indented 0)

end SnapshotTable.Json
