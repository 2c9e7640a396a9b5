import SnapshotTable.Error

/-! Stores of the current pointer: the one piece of table state that moves, by compare-and-swap
only. A store may refuse any call, and other clients may move the pointer between calls. -/

namespace SnapshotTable

/-- A pointer store. Each call returns the store as it is afterwards. -/
class PointerStore (σ : Type) where
  /-- Reads the pointer; there is none before the first commit. -/
  current : σ → Except PointerError (Option SnapshotId) × σ
  /-- Moves the pointer to an identifier if it has the expected value. -/
  compareAndSwap : σ → Option SnapshotId → SnapshotId → Except PointerError Unit × σ
  /-- The value that the store holds, seen without a call. -/
  held : σ → Option SnapshotId

structure MemoryPointer where
  value : Option SnapshotId := none
  deriving DecidableEq, Repr, Inhabited

def swapValue (held expected : Option SnapshotId) (target : SnapshotId) :
    Except PointerError Unit × Option SnapshotId :=
  if held = expected then (.ok (), some target) else (.error (.conflict expected held), held)

instance : PointerStore MemoryPointer where
  current s := (.ok s.value, s)
  compareAndSwap s expected target :=
    let (answer, value) := swapValue s.value expected target
    (answer, ⟨value⟩)
  held s := s.value

inductive Fault where
  /-- The call goes well. -/
  | none
  /-- The store does not answer. -/
  | unavailable (reason : String)
  /-- Another client moves the pointer first. -/
  | race (value : Option SnapshotId)
  deriving DecidableEq, Repr, Inhabited

/-- A pointer store whose next reads and swaps meet faults in order; calls behind the last fault go
well. -/
structure ScriptedPointer where
  value : Option SnapshotId := .none
  readFaults : List Fault := []
  swapFaults : List Fault := []
  deriving DecidableEq, Repr, Inhabited

namespace ScriptedPointer

def meet (value : Option SnapshotId) : Fault → Except PointerError (Option SnapshotId)
  | .none => .ok value
  | .unavailable reason => .error (.unavailable reason)
  | .race moved => .ok moved

def next : List Fault → Fault
  | [] => .none
  | fault :: _ => fault

end ScriptedPointer

instance : PointerStore ScriptedPointer where
  current s :=
    let rest := { s with readFaults := s.readFaults.tail }
    match ScriptedPointer.meet s.value (ScriptedPointer.next s.readFaults) with
    | .error e => (.error e, rest)
    | .ok value => (.ok value, { rest with value })
  compareAndSwap s expected target :=
    let rest := { s with swapFaults := s.swapFaults.tail }
    match ScriptedPointer.meet s.value (ScriptedPointer.next s.swapFaults) with
    | .error e => (.error e, rest)
    | .ok value =>
      let (answer, value) := swapValue value expected target
      (answer, { rest with value })
  held s := s.value

end SnapshotTable
