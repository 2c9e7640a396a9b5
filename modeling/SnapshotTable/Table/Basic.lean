import SnapshotTable.Lineage.Walk
import SnapshotTable.Pointer.Log
import SnapshotTable.Pointer.Store
import SnapshotTable.Production
import SnapshotTable.Uuid

/-! Tables: published snapshots, the pointer log and the store of the current pointer. Operations
take a table and return their answer with the table afterwards, since a call of the store counts
even if the operation fails. -/

namespace SnapshotTable

/-- Why an operation did not return a value: an error, or a validator that broke down. -/
inductive Failure where
  | error (e : TableError)
  | crashed
  deriving DecidableEq, Repr, Inhabited

structure Table (σ : Type) where
  uuid : Uuid
  config : TableConfig
  validators : List Validator
  graph : Graph
  log : PointerLog
  pointer : σ
  /-- Whether a validator broke down in a commit; graph and log are out of reach from then on. -/
  poisoned : Bool
  supply : Supply

namespace Table

/-- An empty table with its pointer in memory and the standard validators. It refuses settings that
are not valid. -/
def create (uuid : Uuid) (config : TableConfig) (clock : Clock) :
    Except TableError (Table MemoryPointer) :=
  config.validate.map fun _ =>
    { uuid, config
      validators := Validator.standard
      graph := Keyed.empty
      log := {}
      pointer := {}
      poisoned := false
      supply := { clock, freshManifest := 0 } }

variable {σ : Type}

def withValidators (t : Table σ) (validators : List Validator) : Table σ := { t with validators }

def production (t : Table σ) : Production := ⟨t.config, t.validators⟩

def report (t : Table σ) (e : Event) : Table σ := { t with supply := t.supply.report e }

/-- The graph and the log, unless a validator broke down. -/
def state (t : Table σ) : Except TableError (Graph × PointerLog) :=
  if t.poisoned then .error .lockPoisoned else .ok (t.graph, t.log)

def snapshot (t : Table σ) (id : SnapshotId) : Except TableError Snapshot :=
  t.state.bind fun (graph, _) => graph.find id

def snapshots (t : Table σ) : Except TableError (List Snapshot) :=
  t.state.map fun (graph, _) => graph.toList

def history (t : Table σ) : Except TableError (List LogEntry) :=
  t.state.map fun (_, log) => log.entries

def ancestors (t : Table σ) (base : Option SnapshotId) (tip : SnapshotId) :
    Except TableError (List Snapshot) :=
  t.state.bind fun (graph, _) => graph.ancestors base tip

variable [PointerStore σ]

/-- Puts the pointer into another store, which must answer and not point at a snapshot yet. -/
def withPointerStore {τ : Type} [PointerStore τ] (t : Table σ) (store : τ) :
    Except TableError (Table τ) :=
  match PointerStore.current store with
  | (.error e, _) => .error e.toTableError
  | (.ok (some id), _) =>
    .error (.invalidOperation ("pointer store already points at snapshot " ++ id.display))
  | (.ok none, store) => .ok { t with pointer := store }

def currentId (t : Table σ) : Except TableError (Option SnapshotId) × Table σ :=
  match PointerStore.current t.pointer with
  | (.error e, pointer) => (.error e.toTableError, { t with pointer })
  | (.ok id, pointer) => (.ok id, { t with pointer })

def current (t : Table σ) : Except TableError (Option Snapshot) × Table σ :=
  match t.state with
  | .error e => (.error e, t)
  | .ok (graph, _) =>
    match t.currentId with
    | (.error e, t) => (.error e, t)
    | (.ok id, t) => (graph.resolve id, t)

end Table

end SnapshotTable
