import SnapshotTable.Lineage.Graph

/-! Walks from a snapshot to its ancestors. A walk yields snapshots from the newest on, and if it
fails it ends with the error. Behind its end it yields nothing. -/

namespace SnapshotTable

structure Walk where
  graph : Graph
  next : Option SnapshotId
  base : Option SnapshotId
  tip : SnapshotId
  done : Bool := false

namespace Walk

/-- Asks a walk for one more item. It stops in front of `base`, and if it is to find `base` it fails
behind the root. -/
def advance (w : Walk) : Option (Except TableError Snapshot) × Walk :=
  let ended : Walk := { w with done := true }
  if w.done then (none, w)
  else match w.next with
    | none => (w.base.map fun base => .error (.unreachableAncestor base w.tip), ended)
    | some id =>
      if w.base = some id then (none, ended)
      else match w.graph.get? id with
        | some s => (some (.ok s), { w with next := s.parentId })
        | none =>
          (some (.error (.invalidLineage id "ancestor missing from snapshot graph")), ended)

def take (w : Walk) : Nat → List (Except TableError Snapshot)
  | 0 => []
  | n + 1 =>
    match w.advance with
    | (none, _) => []
    | (some item, w) => item :: w.take n

end Walk

namespace Graph

def beginWalk (g : Graph) (base : Option SnapshotId) (tip : SnapshotId) : Except TableError Walk :=
  (g.find tip).map fun _ => { graph := g, next := some tip, base, tip }

/-- All items of a walk. A lineage without repetition has no more snapshots than the graph, and one
error may come behind it, which bounds the items. -/
def walk (g : Graph) (base : Option SnapshotId) (tip : SnapshotId) :
    Except TableError (List (Except TableError Snapshot)) :=
  (g.beginWalk base tip).map fun w => w.take (g.size + 1)

def sequence {α : Type} : List (Except TableError α) → Except TableError (List α)
  | [] => .ok []
  | .ok a :: rest => (sequence rest).map (a :: ·)
  | .error e :: _ => .error e

def ancestors (g : Graph) (base : Option SnapshotId) (tip : SnapshotId) :
    Except TableError (List Snapshot) :=
  (g.walk base tip).bind sequence

/-- The snapshots after `base` up to `tip`, newest first. Both must exist, and `tip` must descend
from `base`. -/
def range (g : Graph) (base tip : SnapshotId) : Except TableError (List Snapshot) :=
  if base = tip then
    .error (.invalidRange
      ("from and to snapshots cannot be the same, but both are " ++ base.display))
  else do
    let _ ← g.find tip
    let _ ← g.find base
    g.ancestors (some base) tip

end Graph

end SnapshotTable
