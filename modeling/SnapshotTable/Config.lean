import SnapshotTable.Json.Record
import SnapshotTable.Json.Printer
import SnapshotTable.Error

/-! Table configuration: settings that shape manifest lists and commits. None of them changes what
a scan answers. -/

namespace SnapshotTable

structure TableConfig where
  /-- The least number of small manifests that are merged into one. -/
  minMergeCount : Nat := 100
  /-- Whether manifests are merged at all. -/
  mergeEnabled : Bool := true
  /-- Manifests with fewer entries than this are small. -/
  targetEntries : Nat := 10000
  /-- How often a single commit that lost a race is staged again. -/
  commitRetries : Nat := 0
  deriving DecidableEq, Repr, Inhabited

namespace TableConfig

def settingNames : List String :=
  ["manifest-min-merge-count", "manifest-merge-enabled", "manifest-target-entries",
    "commit-num-retries"]

/-- Refuses settings with which no manifest list could be formed; the merge count is checked
first. -/
def validate (c : TableConfig) : Except TableError Unit :=
  if c.minMergeCount < 1 then
    .error (.invalidConfig "manifest-min-merge-count must be at least 1")
  else if c.targetEntries < 1 then
    .error (.invalidConfig "manifest-target-entries must be at least 1")
  else .ok ()

def ofJson? (j : Json) : Option TableConfig := do
  let [minMergeCount, mergeEnabled, targetEntries, commitRetries] ←
    j.fields? settingNames | none
  let standard : TableConfig := {}
  pure {
    minMergeCount := ← Json.optional? standard.minMergeCount Json.word? minMergeCount
    mergeEnabled := ← Json.optional? standard.mergeEnabled Json.bool? mergeEnabled
    targetEntries := ← Json.optional? standard.targetEntries Json.word? targetEntries
    commitRetries := ← Json.optional? standard.commitRetries (Json.nat? 4294967296) commitRetries }

def toJson (c : TableConfig) : Json :=
  .obj [("manifest-min-merge-count", .int c.minMergeCount),
    ("manifest-merge-enabled", .bool c.mergeEnabled),
    ("manifest-target-entries", .int c.targetEntries),
    ("commit-num-retries", .int c.commitRetries)]

def properties (c : TableConfig) : List (String × String) :=
  let numeral (n : Nat) : String := String.ofList (Text.Decimal.numeral n)
  [("commit-num-retries", numeral c.commitRetries),
    ("manifest-merge-enabled", if c.mergeEnabled then "true" else "false"),
    ("manifest-min-merge-count", numeral c.minMergeCount),
    ("manifest-target-entries", numeral c.targetEntries)]

end TableConfig

end SnapshotTable
