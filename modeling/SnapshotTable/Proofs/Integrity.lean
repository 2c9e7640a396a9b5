import SnapshotTable.Proofs.LineageErrors
import SnapshotTable.Proofs.Numbering

/-! The integrity of a table with its pointer in memory. Whatever clients did to it, its identifiers count
from 1 on, every lineage goes down to snapshot 1, the pointer is at a published snapshot, and no operation
answers that a lineage is broken. -/

namespace SnapshotTable

namespace Numbered
variable {t : Table MemoryPointer}

/-- A root is the first snapshot, and every other snapshot has its parent among those before it. -/
theorem parentId_eq_none_iff (h : Numbered t) {s : Snapshot} (hs : s ∈ t.graph.items) :
    s.parentId = none ↔ s.id = 1 := by
  refine ⟨h.root s hs, fun hid => ?_⟩
  cases hp : s.parentId with
  | none => rfl
  | some n =>
    obtain ⟨q, hq, -, hlt⟩ := h.grounded s hs n hp
    rw [hid] at hlt
    exact absurd (h.dense.id_bounds hq).1 (Nat.not_le.mpr hlt)

private theorem walk_ends (h : Numbered t) {s : Snapshot} (hs : s ∈ t.graph.items) :
    ∃ line, t.ancestors none s.id = t.state.map (fun _ => line) ∧
      t.graph.Lineage (some s.id) line ∧ ∃ first, line.getLast? = some first ∧ first.id = 1 := by
  obtain ⟨line, hl⟩ := h.grounded.exists_lineage hs
  obtain ⟨first, hfirst, hlast, hroot⟩ := hl.ends rfl
  refine ⟨line, ?_, hl, first, hlast, h.root first hfirst hroot⟩
  cases hp : t.poisoned with
  | true =>
    rw [Table.ancestors, Table.state_poisoned hp]
    rfl
  | false =>
    rw [Table.ancestors_sound hp h.grounded hl, Table.state_sound hp]
    rfl

private theorem pointer_eq_none_iff (h : Numbered t) : t.pointer.value = none ↔ t.graph.size = 0 := by
  constructor
  · intro hnone
    exact congrArg List.length (h.empty hnone)
  · intro hsize
    cases hp : t.pointer.value with
    | none => rfl
    | some id =>
      obtain ⟨s, hs, -⟩ := h.pointer id hp
      rw [List.length_eq_zero_iff.mp hsize] at hs
      cases hs

end Numbered

/-- A request that fails, or only goes back, leaves the graph as it is. -/
theorem Table.respond_graph (t : Table MemoryPointer) {r : Request}
    (h : (∃ f, (t.respond r).1 = .error f) ∨ ∃ back, r = .rollback back) :
    (t.respond r).2.graph = t.graph := by
  rcases h with ⟨f, hf⟩ | ⟨back, rfl⟩
  · rcases t.respond_settles r with ⟨f', -, hu⟩ | ⟨chain, hc, -⟩
    · exact hu.graph
    · cases hf.symm.trans hc
  · have hgraph : (t.commitRollback back).2.graph = t.graph := by
      rcases t.commitRollback_settles back with ⟨e, -, hu⟩ | ⟨s, -, hu | ha⟩
      · exact hu.graph
      · exact hu.graph
      · exact ha.graph
    rw [respond]
    split
    · rename_i heq
      rw [heq] at hgraph
      exact hgraph
    · rename_i heq
      rw [heq] at hgraph
      exact hgraph

structure Intact (t : Table MemoryPointer) : Prop where
  /-- The identifiers are those from 1 up to the number of snapshots, and the next one is behind them. -/
  ids : t.graph.ids = List.range' 1 t.graph.size ∧ t.graph.nextId = t.graph.size + 1
  /-- A request that fails or goes back takes no identifier and frees none. -/
  quiet : ∀ r, ((∃ f, (t.respond r).1 = .error f) ∨ ∃ back, r = .rollback back) →
    (t.respond r).2.graph = t.graph
  root : ∀ s ∈ t.graph.items, s.parentId = none ↔ s.id = 1
  parents : ∀ s ∈ t.graph.items, s.id ≠ 1 →
    ∃ q ∈ t.graph.items, s.parentId = some q.id ∧ q.id < s.id
  /-- A walk from any snapshot goes along its lineage down to snapshot 1. -/
  walks : ∀ s ∈ t.graph.items, ∃ line, t.ancestors none s.id = t.state.map (fun _ => line) ∧
    t.graph.Lineage (some s.id) line ∧ ∃ first, line.getLast? = some first ∧ first.id = 1
  absent : t.pointer.value = none ↔ t.graph.size = 0
  current : ∀ id, t.pointer.value = some id → ∃ s ∈ t.graph.items, s.id = id
  /-- No operation answers that a lineage is broken. -/
  errors : ∀ e, t.FailsWith e → e.isLineage = false

/-- Every table that clients can make of a new one is intact, under any rules, and its graph and log are
in reach unless a rule broke down. -/
theorem reaches_intact {uuid : Uuid} {config : TableConfig} {clock : Clock}
    {t t' : Table MemoryPointer} (h : Table.create uuid config clock = .ok t)
    (validators : List Validator) (hr : Reaches (t.withValidators validators) t') :
    Intact t' ∧ (Validator.Sturdy validators → t'.state = .ok (t'.graph, t'.log)) := by
  obtain rfl := Table.eq_of_create h
  have hn : Numbered t' := (Numbered.fresh uuid config clock validators).reaches hr
  refine ⟨⟨⟨hn.dense, hn.dense.nextId_eq⟩, fun r => t'.respond_graph, ?_, ?_, ?_, ?_, hn.pointer, ?_⟩, ?_⟩
  · exact fun s hs => hn.parentId_eq_none_iff hs
  · intro s hs hid
    cases hp : s.parentId with
    | none => exact absurd ((hn.parentId_eq_none_iff hs).mp hp) hid
    | some n =>
      obtain ⟨q, hq, rfl, hlt⟩ := hn.grounded s hs n hp
      exact ⟨q, hq, rfl, hlt⟩
  · exact fun s hs => hn.walk_ends hs
  · exact hn.pointer_eq_none_iff
  · exact fun e hfails => Table.failsWith_lineage hn.grounded hfails
  · exact fun hsturdy => Table.state_sound (hr.unbroken rfl hsturdy)

def Table.branched : Table MemoryPointer :=
  let append (path : String) : Change := (Change.start .append).add { path }
  let created := fresh 0#128 { commitRetries := 1 } (Clock.still 0)
  let grown := (created.respond (.transaction ⟨none, [append "a", append "b"]⟩)).2
  let back := (grown.respond (.rollback ⟨some 2, some (.snapshot 1)⟩)).2
  (back.respond (.commit ⟨.ok (some 2), append "c"⟩)).2

/-- It has three snapshots, the last of which is a second child of the first. -/
theorem reaches_intact_branched : Intact Table.branched ∧ Table.branched.graph.ids = [1, 2, 3] ∧
    Table.branched.graph.items.map Snapshot.parentId = [none, some 1, some 1] ∧
    Table.branched.pointer.value = some 3 := by
  have hcreate : Table.create 0#128 { commitRetries := 1 } (Clock.still 0) =
      .ok (Table.fresh 0#128 { commitRetries := 1 } (Clock.still 0)) := rfl
  have hintact : Intact Table.branched :=
    (reaches_intact hcreate Validator.standard
      (((Reaches.here.respond _).respond _).respond _)).1
  refine ⟨hintact, ?_, ?_, ?_⟩
  · decide +kernel
  · decide +kernel
  · decide +kernel

end SnapshotTable
