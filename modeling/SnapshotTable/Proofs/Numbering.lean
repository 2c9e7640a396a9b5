import SnapshotTable.Proofs.Atomicity
import SnapshotTable.Proofs.RangeSeams

/-! How a table numbers its snapshots. The identifiers of the graph are those from 1 on without a gap,
its only root is the first of them, and the pointer is at one of them as soon as there is any. New
identifiers come from the graph and parents from the pointer, which goes back at a rollback, so this is
one invariant of both, and it is kept by every step of every client in any order. -/

namespace SnapshotTable

namespace Graph

/-- Every identifier from 1 up to the number of snapshots is published, and no other. -/
def Dense (g : Graph) : Prop := g.ids = List.range' 1 g.size

/-- Without gaps, the next identifier is one more than the number of snapshots. -/
theorem Dense.nextId_eq {g : Graph} (h : g.Dense) : g.nextId = g.size + 1 := by
  have hlast : g.lastId? = (List.range' 1 g.size).getLast? := by
    rw [← h, lastId?, ids, List.getLast?_map]
  rw [nextId, hlast, List.getLast?_range']
  by_cases hsize : g.size = 0
  · rw [if_pos hsize, hsize]
  · have hlast : 1 + g.size - 1 = g.size := Nat.add_sub_cancel_left 1 g.size
    rw [if_neg hsize, hlast]

/-- Without gaps, identifiers run from one to the number of snapshots. -/
theorem Dense.id_bounds {g : Graph} (h : g.Dense) {s : Snapshot} (hs : s ∈ g.items) :
    1 ≤ s.id ∧ s.id ≤ g.size := by
  have hm : s.id ∈ g.ids := List.mem_map_of_mem hs
  rw [h, List.mem_range'_1, Nat.add_comm] at hm
  exact ⟨hm.1, Nat.le_of_lt_succ hm.2⟩

end Graph

/-- A walk to the root is the lineage of its tip. -/
theorem Table.ancestors_sound {σ : Type} {t : Table σ} (hp : t.poisoned = false) (hg : t.graph.Grounded)
    {tip : SnapshotId} {line : List Snapshot} (hl : t.graph.Lineage (some tip) line) :
    t.ancestors none tip = .ok line := by
  rw [ancestors, state_sound hp]
  exact hl.ancestors hg none

structure Numbered (t : Table MemoryPointer) : Prop where
  dense : t.graph.Dense
  grounded : t.graph.Grounded
  root : ∀ s ∈ t.graph.items, s.parentId = none → s.id = 1
  empty : t.pointer.value = none → t.graph.items = []
  pointer : ∀ id, t.pointer.value = some id → ∃ s ∈ t.graph.items, s.id = id

variable {t t' : Table MemoryPointer}

private theorem Reaches.induction {P : Table MemoryPointer → Prop} (h : Reaches t t') (start : P t)
    (refused : ∀ {u v : Table MemoryPointer} {f : Failure}, P u → u.Refused f v → P v)
    (grown : ∀ {u v : Table MemoryPointer} {base changes chain}, P u →
      u.Grown base changes chain v → P v)
    (rewound : ∀ {u v : Table MemoryPointer} {s : Snapshot}, P u → u.Rewound s v → P v) : P t' := by
  have quiet {u v : Table MemoryPointer} (hu : P u) (hv : u.Unmoved v)
      (hp : v.poisoned = u.poisoned) : P v := by
    refine refused (f := .error .lockPoisoned) hu ⟨hv, ?_, fun _ => by simp⟩
    simp [hp]
  induction h with
  | here => exact start
  | read _ ih => exact ih
  | @publish u _ base changes ih =>
    rcases u.publish_cases base changes with ⟨f, -, hr⟩ | ⟨chain, -, hg⟩
    · exact refused ih hr
    · exact grown ih hg
  | @move u _ base target ih =>
    rcases u.movePointer_cases base target with ⟨e, -, hu, hp⟩ | ⟨s, -, -, hr⟩
    · exact quiet ih hu hp
    · exact rewound ih hr
  | @report u _ e ih => exact quiet ih (Table.unmoved_report u e) rfl

namespace Numbered

/-- A new table is numbered, having published nothing. -/
theorem fresh (uuid : Uuid) (config : TableConfig) (clock : Clock) (validators : List Validator) :
    Numbered ((Table.fresh uuid config clock).withValidators validators) :=
  ⟨rfl, nofun, nofun, fun _ => rfl, nofun⟩

private theorem unmoved (h : Numbered t) (h' : t.Unmoved t') : Numbered t' := by
  refine ⟨?_, ?_, ?_, ?_, ?_⟩
  · exact h'.graph ▸ h.dense
  · exact h'.graph ▸ h.grounded
  · exact h'.graph ▸ h.root
  · exact h'.graph ▸ h'.pointer ▸ h.empty
  · exact h'.graph ▸ h'.pointer ▸ h.pointer

private theorem rewound {s : Snapshot} (h : Numbered t) (h' : t.Rewound s t') : Numbered t' := by
  refine ⟨?_, ?_, ?_, ?_, h'.pointer_published⟩
  · exact h'.graph ▸ h.dense
  · exact h'.graph ▸ h.grounded
  · exact h'.graph ▸ h.root
  · intro hnone
    rw [h'.pointer] at hnone
    cases hnone

private theorem grown {base : Option SnapshotId} {changes : List Change} {chain : List Snapshot}
    (h : Numbered t) (h' : t.Grown base changes chain t') : Numbered t' := by
  obtain ⟨parent, hparent, hbuilt⟩ := h'.built
  have hnext := h.dense.nextId_eq
  have hbefore : ∀ q, parent = some q → q ∈ t.graph.items :=
    fun _ hq => Graph.mem_of_resolve hparent hq
  have hsize : t'.graph.size = t.graph.size + chain.length := by
    rw [Keyed.size, Keyed.size, h'.graph, List.length_append]
  refine ⟨?_, ?_, ?_, ?_, h'.pointer_published h.pointer⟩
  · have hids : t'.graph.ids = t.graph.ids ++ chain.map Snapshot.id := by
      rw [Graph.ids, Graph.ids, h'.graph, List.map_append]
    rw [Graph.Dense, hids, h.dense, hbuilt.ids_eq, hnext, hsize, Nat.add_comm t.graph.size 1,
      List.range'_append_1]
  · exact h'.graph_eq ▸ h.grounded.extend (Graph.validateChain_builds hbuilt hbefore)
  · intro s hs hroot
    rw [h'.graph] at hs
    rcases List.mem_append.mp hs with hs | hs
    · exact h.root s hs hroot
    · obtain ⟨hnone, hhead⟩ := hbuilt.root hs hroot
      have hbase : t.pointer.value = none := by
        rw [h'.current, Graph.resolve_id hparent, hnone]
        rfl
      have hzero : t.graph.size = 0 := congrArg List.length (h.empty hbase)
      rw [hbuilt.head_id hhead, hnext, hzero]
  · intro hnone
    rw [h'.pointer, Option.or_eq_none_iff, Option.map_eq_none_iff, List.getLast?_eq_none_iff] at hnone
    rw [h'.graph, hnone.1, List.append_nil]
    exact h.empty (h'.current.trans hnone.2)

/-- Whatever clients do, a numbered table stays so. -/
theorem reaches (h : Numbered t) (h' : Reaches t t') : Numbered t' :=
  h'.induction h (fun hu hr => hu.unmoved hr.unmoved) (fun hu hg => hu.grown hg)
    fun hu hr => hu.rewound hr

/-- The pointer is at the tip of a lineage, or nowhere on a table that has none. -/
theorem exists_current (h : Numbered t) : ∃ line, t.graph.Lineage t.pointer.value line := by
  cases hp : t.pointer.value with
  | none => exact ⟨[], .root⟩
  | some tip =>
    obtain ⟨s, hs, rfl⟩ := h.pointer tip hp
    exact h.grounded.exists_lineage hs

end Numbered
end SnapshotTable
