import SnapshotTable.Error

/-! The graph of published snapshots. Snapshots name their parents, so every snapshot has one
lineage, and a rollback leaves branches that no current lineage passes through. -/

namespace SnapshotTable

abbrev Graph := Keyed Snapshot.id

namespace Graph

def find (g : Graph) (id : SnapshotId) : Except TableError Snapshot :=
  match g.get? id with
  | some s => .ok s
  | none => .error (.snapshotNotFound id)

def resolve (g : Graph) : Option SnapshotId → Except TableError (Option Snapshot)
  | none => .ok none
  | some id => (g.find id).map some

def ids (g : Graph) : List SnapshotId := g.items.map Snapshot.id

def lastId? (g : Graph) : Option SnapshotId := g.items.getLast?.map Snapshot.id

/-- The identifier that the next published snapshot gets: the first is 1. -/
def nextId (g : Graph) : SnapshotId :=
  match g.lastId? with
  | some id => id + 1
  | none => 1

def validateFrom (g : Graph) (last : Option SnapshotId) (staged : List SnapshotId) :
    List Snapshot → Except TableError Unit
  | [] => .ok ()
  | s :: rest =>
    if last.any (s.id ≤ ·) then
      .error (.invalidLineage s.id "snapshot ids must strictly increase")
    else match s.parentId with
      | none => validateFrom g (some s.id) (s.id :: staged) rest
      | some parent =>
        if staged.contains parent || g.contains parent then
          validateFrom g (some s.id) (s.id :: staged) rest
        else
          .error (.invalidLineage s.id
            ("parent snapshot " ++ parent.display ++ " does not exist"))

/-- Checks that a chain can be published: its identifiers increase beyond the highest one, and each
parent is published or earlier in the chain. -/
def validateChain (g : Graph) (chain : List Snapshot) : Except TableError Unit :=
  validateFrom g g.lastId? [] chain

/-- Publishes a chain as it is; a snapshot takes the place of one with its identifier. -/
def extend (g : Graph) (chain : List Snapshot) : Graph := chain.foldl Keyed.insert g

def publish (g : Graph) (s : Snapshot) : Except TableError Graph :=
  (g.validateChain [s]).map fun _ => g.extend [s]

end Graph

end SnapshotTable
