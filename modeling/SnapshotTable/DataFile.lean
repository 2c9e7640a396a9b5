import SnapshotTable.Partition
import SnapshotTable.Keyed

/-! Data files: immutable records of the physical files that hold a table's rows. Two records with
one path describe the same file, and sets of files are sets of paths. -/

namespace SnapshotTable

/-- A data file. Sizes and counts have 64 bits in documents. -/
structure DataFile where
  path : String
  partition : PartitionKey := []
  sizeBytes : Nat := 0
  recordCount : Nat := 0
  deriving DecidableEq, Repr, Inhabited

namespace DataFile

def same (a b : DataFile) : Bool := a.path == b.path

def order (a b : DataFile) : Ordering := compare a.path b.path

/-- Files in path order; files with one path keep their order. -/
def sortByPath (files : List DataFile) : List DataFile :=
  files.mergeSort fun a b => a.path ≤ b.path

def ofJson? (j : Json) : Option DataFile := do
  let [path, partition, sizeBytes, recordCount] ←
    j.fields? ["path", "partition", "size-bytes", "record-count"] | none
  pure {
    path := ← Json.required? Json.str? path
    partition := ← Json.optional? [] PartitionKey.ofJson? partition
    sizeBytes := ← Json.optional? 0 Json.word? sizeBytes
    recordCount := ← Json.optional? 0 Json.word? recordCount }

def toJson (f : DataFile) : Json :=
  .obj [("path", .str f.path), ("partition", PartitionKey.toJson f.partition),
    ("size-bytes", .int f.sizeBytes), ("record-count", .int f.recordCount)]

end DataFile

abbrev FileSet := Keyed DataFile.path

abbrev PathSet := Keyed (id : String → String)

def maxTotal : Nat := 18446744073709551615

def clampedAdd (a b : Nat) : Nat := min (a + b) maxTotal

/-- The sum of a list, held at the greatest total from the first excess on. -/
def clampedTotal (values : List Nat) : Nat := values.foldl clampedAdd 0

def totalRecords (files : List DataFile) : Nat := clampedTotal (files.map DataFile.recordCount)

def totalSizeBytes (files : List DataFile) : Nat := clampedTotal (files.map DataFile.sizeBytes)

end SnapshotTable
