import SnapshotTable.Json.Record
import SnapshotTable.Json.Printer

/-! Partition keys: the tuple of column values that all rows of a data file share. -/

namespace SnapshotTable

inductive PartitionValue where
  | null
  | bool (b : Bool)
  | long (z : Int)
  | text (s : String)
  deriving DecidableEq, Repr, Inhabited

namespace PartitionValue

def display : PartitionValue → String
  | .null => "null"
  | .bool b => if b then "true" else "false"
  | .long z => String.ofList (Text.Decimal.signed z)
  | .text s => s

/-- Null comes before booleans, these before integers, and these before strings. -/
def rank : PartitionValue → Nat
  | .null => 0
  | .bool _ => 1
  | .long _ => 2
  | .text _ => 3

def order : PartitionValue → PartitionValue → Ordering
  | .bool a, .bool b => compare a.toNat b.toNat
  | .long a, .long b => compare a b
  | .text a, .text b => compare a b
  | a, b => compare a.rank b.rank

def ofJson? : Json → Option PartitionValue
  | .null => some .null
  | .bool b => some (.bool b)
  | .str s => some (.text s)
  | j => j.signedWord?.map .long

def toJson : PartitionValue → Json
  | .null => .null
  | .bool b => .bool b
  | .long z => .int z
  | .text s => .str s

end PartitionValue

abbrev PartitionKey := List PartitionValue

namespace PartitionKey

def display (key : PartitionKey) : String :=
  "(" ++ ", ".intercalate (key.map PartitionValue.display) ++ ")"

/-- The lexicographic order, where a shorter key comes before its extensions. -/
def order : PartitionKey → PartitionKey → Ordering
  | [], [] => .eq
  | [], _ :: _ => .lt
  | _ :: _, [] => .gt
  | a :: as, b :: bs => (a.order b).then (order as bs)

def ofJson? : Json → Option PartitionKey := Json.list? PartitionValue.ofJson?

def toJson (key : PartitionKey) : Json := .arr (key.map PartitionValue.toJson)

end PartitionKey

end SnapshotTable
