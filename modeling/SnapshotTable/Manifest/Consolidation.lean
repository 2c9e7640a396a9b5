import SnapshotTable.Manifest.Basic
import SnapshotTable.Config

/-! Consolidation of small manifests into one, so that the manifest list does not grow with every
commit. It changes the shape of the list and neither the live files nor their authors. -/

namespace SnapshotTable

/-- How an entry survives in a manifest that snapshot `id` writes anew: additions by others have
become existing files, and removals by others are forgotten. -/
def ManifestEntry.carry? (id : SnapshotId) (e : ManifestEntry) : Option ManifestEntry :=
  match e.status with
  | .added => if e.snapshotId = id then some e else some { e with status := .existing }
  | .existing => some { e with status := .existing }
  | .deleted => if e.snapshotId = id then some e else none

def smallManifests (config : TableConfig) (ms : List Manifest) : List Manifest :=
  ms.filter (·.isSmall config.targetEntries)

def largeManifests (config : TableConfig) (ms : List Manifest) : List Manifest :=
  ms.filter fun m => !m.isSmall config.targetEntries

def consolidates (config : TableConfig) (ms : List Manifest) : Bool :=
  config.mergeEnabled && max config.minMergeCount 2 ≤ (smallManifests config ms).length

/-- The manifest list of snapshot `id` after consolidation. The new manifest has identity `fresh`
and comes first; below the threshold the small manifests come before the others. -/
def consolidate (config : TableConfig) (id : SnapshotId) (fresh : ManifestId)
    (ms : List Manifest) : List Manifest :=
  if !config.mergeEnabled then ms
  else if consolidates config ms then
    ⟨fresh, id, ((smallManifests config ms).flatMap Manifest.entries).filterMap (·.carry? id)⟩
      :: largeManifests config ms
  else smallManifests config ms ++ largeManifests config ms

end SnapshotTable
