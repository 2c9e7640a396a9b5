import SnapshotTable.Table.Basic

/-! The two ways in which the current pointer moves: publishing a chain of new snapshots on top of
the base that a commit was staged against, and going back to a snapshot that exists. Both compare
the pointer with the expected value and swap it in one step of the store. -/

namespace SnapshotTable.Table

variable {σ : Type} [PointerStore σ]

def publishedEvent (s : Snapshot) : Event :=
  .snapshotPublished s.id s.parentId s.operation s.summary.addedFiles s.summary.deletedFiles

def recordMove (t : Table σ) (id : SnapshotId) (change : PointerChange) :
    Except TableError Unit × Table σ :=
  let supply := { t.supply with clock := t.supply.clock.tick }
  match t.log.record id change t.supply.clock.now with
  | .error e => (.error e.toTableError, { t with supply })
  | .ok log => (.ok (), { t with log, supply })

/-- Publishes a chain that is checked, ending at `last`: the pointer moves first, and if it does,
graph and log follow. -/
def publishChain (t : Table σ) (base : Option SnapshotId) (chain : List Snapshot)
    (last : SnapshotId) : Except Failure (List Snapshot) × Table σ :=
  match PointerStore.compareAndSwap t.pointer base last with
  | (.error e, pointer) => (.error (.error e.toTableError), { t with pointer })
  | (.ok (), pointer) =>
    match { t with pointer, graph := t.graph.extend chain }.recordMove last .commit with
    | (.error e, t) => (.error (.error e), t)
    | (.ok (), t) => (.ok chain, (chain.map publishedEvent).foldl report t)

/-- Makes one snapshot for each change, in one chain on top of `base`, and publishes it. The base
must be current; a base that is not is a conflict, whatever the validators would say. -/
def publish (t : Table σ) (base : Option SnapshotId) (changes : List Change) :
    Except Failure (List Snapshot) × Table σ :=
  if t.poisoned then (.error (.error .lockPoisoned), t)
  else match t.currentId with
    | (.error e, t) => (.error (.error e), t)
    | (.ok actual, t) =>
      if actual ≠ base then
        (.error (.error (.commitConflict base actual)), t.report (.baseStale base actual))
      else match t.graph.resolve base with
        | .error e => (.error (.error e), t)
        | .ok parent =>
          match t.production.replay parent t.graph.nextId changes t.supply with
          | (.error (.rejected violation), supply) =>
            (.error (.error (.validation violation)), { t with supply })
          | (.error .crashed, supply) => (.error .crashed, { t with supply, poisoned := true })
          | (.ok chain, supply) =>
            let t := { t with supply }
            match chain.getLast? with
            | none => (.ok [], t)
            | some last =>
              match t.graph.validateChain chain with
              | .error e => (.error (.error e), t)
              | .ok () => t.publishChain base chain last.id

/-- Points the table at a snapshot that exists, if the pointer is at `base`. Where it is there
already, nothing is recorded. -/
def movePointer (t : Table σ) (base : Option SnapshotId) (target : SnapshotId) :
    Except TableError Snapshot × Table σ :=
  let swap (s : Snapshot) (t : Table σ) : Except TableError Snapshot × Table σ :=
    match PointerStore.compareAndSwap t.pointer base target with
    | (.error e, pointer) => (.error e.toTableError, { t with pointer })
    | (.ok (), pointer) =>
      match { t with pointer }.recordMove target .rollback with
      | (.error e, t) => (.error e, t)
      | (.ok (), t) => (.ok s, t.report (.rolledBack base target))
  match t.state with
  | .error e => (.error e, t)
  | .ok (graph, _) =>
    match graph.find target with
    | .error e => (.error e, t)
    | .ok s =>
      if base = some target then
        match t.currentId with
        | (.error e, t) => (.error e, t)
        | (.ok actual, t) => if actual = base then (.ok s, t) else swap s t
      else swap s t

end SnapshotTable.Table
