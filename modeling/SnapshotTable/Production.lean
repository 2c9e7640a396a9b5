import SnapshotTable.Manifest.Consolidation
import SnapshotTable.Validator.Basic
import SnapshotTable.Trace.Event

/-! Production of snapshots from staged changes. A change is checked against the files of the
snapshot it applies to and then written as a manifest of added files, new copies of the manifests
that lose a file, and the other manifests of the parent as they are. -/

namespace SnapshotTable

structure Supply where
  clock : Clock
  freshManifest : ManifestId
  events : List Event := []

def Supply.report (s : Supply) (e : Event) : Supply := { s with events := s.events ++ [e] }

structure Production where
  config : TableConfig
  validators : List Validator

namespace Production

/-- How an entry survives in the copy of a manifest that snapshot `id` makes while it removes
paths: a live file among them becomes a removal by `id`. -/
def strike? (id : SnapshotId) (removed : PathSet) (e : ManifestEntry) : Option ManifestEntry :=
  if e.isLiveAt removed.contains then some ⟨.deleted, id, e.file⟩ else e.carry? id

/-- What becomes of the parent's manifests: those without live files are dropped, those that lose a
file are copied under identities from `fresh` on, and the others stay. -/
def inherit (id : SnapshotId) (removed : PathSet) : ManifestId → List Manifest → List Manifest
  | _, [] => []
  | fresh, m :: rest =>
    if m.counts.live = 0 then inherit id removed fresh rest
    else if m.hasLiveAt removed.contains then
      ⟨fresh, id, m.entries.filterMap (strike? id removed)⟩ :: inherit id removed (fresh + 1) rest
    else m :: inherit id removed fresh rest

def additions (id : SnapshotId) (fresh : ManifestId) (added : FileSet) : List Manifest :=
  if added.isEmpty then [] else [⟨fresh, id, added.toList.map fun f => ⟨.added, id, f⟩⟩]

def liveRemovals (base : FileSet) (change : Change) : PathSet :=
  change.removed.filter base.contains

def draft (parent : Option Snapshot) (id : SnapshotId) (fresh : ManifestId) (change : Change) :
    List Manifest :=
  additions id fresh change.added
    ++ inherit id (liveRemovals (filesAt parent) change) (fresh + 1)
      (parent.elim [] Snapshot.manifests)

/-- The figures of the new snapshot. Totals follow from the base and the change, with each sum and
difference held between zero and `maxTotal`. -/
def summarize (base : FileSet) (change : Change) : Summary :=
  let removed := liveRemovals base change
  let removedFiles := removed.toList.filterMap base.get?
  let added := change.added.toList
  let addedRecords := totalRecords added
  let deletedRecords := totalRecords removedFiles
  { addedFiles := added.length
    deletedFiles := removed.size
    addedRecords
    deletedRecords
    totalFiles := base.size + added.length - removed.size
    totalRecords := clampedAdd (totalRecords base.toList) addedRecords - deletedRecords
    totalSizeBytes :=
      clampedAdd (totalSizeBytes base.toList) (totalSizeBytes added) - totalSizeBytes removedFiles }

/-- The time of a new snapshot: the clock's, but a millisecond behind the parent at least. -/
def timestamp (parent : Option Snapshot) (now : Instant) : Instant :=
  match parent with
  | some p => now.latest (p.timestamp.advance Instant.nanosPerMilli)
  | none => now

def nextFresh (parent : Option Snapshot) (fresh : ManifestId) : ManifestId :=
  fresh + (parent.elim [] Snapshot.manifests).length + 2

def build (p : Production) (parent : Option Snapshot) (id : SnapshotId) (change : Change)
    (fresh : ManifestId) (now : Instant) : Snapshot where
  id
  parentId := parent.map Snapshot.id
  timestamp := timestamp parent now
  operation := change.operation
  manifests :=
    consolidate p.config id (nextFresh parent fresh - 1) (draft parent id fresh change)
  summary := summarize (filesAt parent) change

def report (p : Production) (parent : Option Snapshot) (fresh : ManifestId) (change : Change)
    (s : Snapshot) : List Event :=
  let ms := draft parent s.id fresh change
  (if consolidates p.config ms then
    [.manifestsMerged s.id (smallManifests p.config ms).length (largeManifests p.config ms).length]
  else [])
    ++ [.snapshotProduced s.id s.operation s.summary.addedFiles s.summary.deletedFiles
      s.manifests.length]

/-- Checks a change against the files of its parent, and makes the snapshot of it. A refused change
draws nothing from the supply. -/
def produce (p : Production) (parent : Option Snapshot) (id : SnapshotId) (change : Change)
    (supply : Supply) : Except Refusal Snapshot × Supply :=
  match Validator.evaluate (filesAt parent) change p.validators with
  | .error refusal => (.error refusal, supply)
  | .ok () =>
    let s := p.build parent id change supply.freshManifest supply.clock.now
    (.ok s,
      { clock := supply.clock.tick
        freshManifest := nextFresh parent supply.freshManifest
        events := supply.events ++ p.report parent supply.freshManifest change s })

/-- Makes one snapshot for each change, each on top of the one before, under consecutive
identifiers. The first refusal is the answer. -/
def replay (p : Production) (parent : Option Snapshot) (id : SnapshotId) :
    List Change → Supply → Except Refusal (List Snapshot) × Supply
  | [], supply => (.ok [], supply)
  | change :: rest, supply =>
    match p.produce parent id change supply with
    | (.error refusal, supply) => (.error refusal, supply)
    | (.ok s, supply) =>
      match p.replay (some s) (id + 1) rest supply with
      | (.error refusal, supply) => (.error refusal, supply)
      | (.ok chain, supply) => (.ok (s :: chain), supply)

end Production

end SnapshotTable
