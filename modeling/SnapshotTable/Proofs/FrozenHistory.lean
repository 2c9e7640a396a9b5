import SnapshotTable.Proofs.Numbering
import SnapshotTable.Proofs.Readings

/-! History is frozen. A graph only ever grows behind what it holds, and a walk from a published snapshot
stays among what was published before it, so whatever is published later, on this branch or another, is on
no walk that ends at an earlier snapshot. What was read of published snapshots is read again. -/

namespace SnapshotTable

namespace Graph

structure Older (g g' : Graph) : Prop where
  grounded : g.Grounded
  later : g'.Grounded
  grows : g.items ⊆ g'.items

variable {g g' : Graph}

private theorem planAppends_congr {base tip : SnapshotId} (h : g'.range base tip = g.range base tip) :
    g'.planAppends base tip = g.planAppends base tip := by
  rw [planAppends, planAppends, h]

namespace Older
variable {s b : Snapshot}

private theorem ancestors (h : Older g g') (hs : s ∈ g.items) (base : Option SnapshotId) :
    g'.ancestors base s.id = g.ancestors base s.id := by
  obtain ⟨line, hl⟩ := h.grounded.exists_lineage hs
  rw [hl.ancestors h.grounded, (hl.mono h.grows).ancestors h.later]

private theorem range (h : Older g g') (hb : b ∈ g.items) (hs : s ∈ g.items) :
    g'.range b.id s.id = g.range b.id s.id := by
  by_cases hsame : b.id = s.id
  · rw [Graph.range, Graph.range, if_pos hsame, if_pos hsame]
  · obtain ⟨line, hl⟩ := h.grounded.exists_lineage hs
    rw [hl.range h.grounded hsame ⟨b, hb, rfl⟩,
      (hl.mono h.grows).range h.later hsame ⟨b, h.grows hb, rfl⟩]

end Older
end Graph

variable {t t' : Table MemoryPointer}

/-- What was sound at last was sound before. -/
theorem Reaches.sound_before (h : Reaches t t') (hp : t'.poisoned = false) : t.poisoned = false := by
  cases hbefore : t.poisoned with
  | false => rfl
  | true =>
    have hafter := (h.poisoned hbefore).poisoned
    rw [hbefore, hp] at hafter
    cases hafter

private theorem Numbered.older (h : Numbered t) (hr : Reaches t t') : t.graph.Older t'.graph := by
  obtain ⟨more, hmore⟩ := hr.grows
  exact ⟨h.grounded, (h.reaches hr).grounded, hmore ▸ List.subset_append_left _ more⟩

/-- A scan of what is new ends at what is current when it is made. -/
theorem Table.appendsAfter_current {current : SnapshotId} (h : t.pointer.value = some current)
    (base : SnapshotId) : (t.appendsAfter base).1 = appendsBetween base current := by
  rw [appendsAfter, currentId_memory, h]
  rfl

/-- A later state of a table answers as the earlier one did, where only snapshots are asked for that were
published then. -/
structure Frozen (t t' : Table MemoryPointer) : Prop where
  snapshots : ∀ s ∈ t.graph.items, t.snapshot s.id = .ok s ∧ t'.snapshot s.id = .ok s
  files : ∀ s ∈ t.graph.items, (t'.planFiles (some s.id)).1 = (t.planFiles (some s.id)).1
  walks : ∀ s ∈ t.graph.items, ∀ base, t'.ancestors base s.id = t.ancestors base s.id
  /-- The answer to an incremental scan stays, be it tasks or an error. -/
  scans : ∀ b ∈ t.graph.items, ∀ s ∈ t.graph.items, let scan := appendsBetween b.id s.id
    t'.scanRange scan = t.scanRange scan ∧ (t'.planTasks scan).1 = (t.planTasks scan).1 ∧
      (t'.planAppendedFiles scan).1 = (t.planAppendedFiles scan).1
  /-- A scan up to what was current keeps that as its upper bound. -/
  handles : ∀ b ∈ t.graph.items, ∃ current, t.pointer.value = some current ∧
    let scan := (t.appendsAfter b.id).1
    t'.scanRange scan = t.scanRange (appendsBetween b.id current) ∧
      (t'.planTasks scan).1 = (t.planTasks (appendsBetween b.id current)).1 ∧
      (t'.planAppendedFiles scan).1 = (t.planAppendedFiles (appendsBetween b.id current)).1

/-- What a table answers about its past, it answers for good. -/
theorem Numbered.frozen (h : Numbered t) (hr : Reaches t t') (hp : t'.poisoned = false) :
    Frozen t t' := by
  have hold := h.older hr
  have hbefore := Table.state_sound (hr.sound_before hp)
  have hafter := Table.state_sound hp
  have hsnapshots : ∀ s ∈ t.graph.items, t.snapshot s.id = .ok s ∧ t'.snapshot s.id = .ok s := by
    intro s hs
    rw [Table.snapshot, Table.snapshot, hbefore, hafter]
    exact ⟨Graph.find_of_mem hs, Graph.find_of_mem (hold.grows hs)⟩
  have hscans : ∀ b ∈ t.graph.items, ∀ s ∈ t.graph.items, let scan := appendsBetween b.id s.id
      t'.scanRange scan = t.scanRange scan ∧ (t'.planTasks scan).1 = (t.planTasks scan).1 ∧
        (t'.planAppendedFiles scan).1 = (t.planAppendedFiles scan).1 := by
    intro b hb s hs scan
    have hrange := hold.range hb hs
    have htasks : (t'.planTasks scan).1 = (t.planTasks scan).1 := by
      rw [Table.planTasks_fst, Table.planTasks_fst, hbefore, hafter]
      exact Graph.planAppends_congr hrange
    refine ⟨?_, htasks, ?_⟩
    · rw [Table.scanRange_eq, Table.scanRange_eq, hbefore, hafter]
      exact hrange
    · rw [Table.planAppendedFiles_fst, Table.planAppendedFiles_fst, htasks]
  refine ⟨hsnapshots, ?_, ?_, hscans, ?_⟩
  · intro s hs
    obtain ⟨hs, hs'⟩ := hsnapshots s hs
    rw [Table.planFiles_fst, Table.planFiles_fst, Table.scannedSnapshot, Table.scannedSnapshot, hs, hs']
  · intro s hs base
    rw [Table.ancestors, Table.ancestors, hbefore, hafter]
    exact hold.ancestors hs base
  · intro b hb
    cases hcur : t.pointer.value with
    | none =>
      rw [h.empty hcur] at hb
      cases hb
    | some current =>
      obtain ⟨s, hs, rfl⟩ := h.pointer current hcur
      refine ⟨s.id, rfl, ?_⟩
      rw [Table.appendsAfter_current hcur]
      exact hscans b hb s hs

/-- Over any two moments of a table, the graph of the later one begins with that of the earlier one, and the
later one answers as the earlier one did, unless a rule broke down. -/
theorem history_frozen {uuid : Uuid} {config : TableConfig} {clock : Clock}
    {created t t' : Table MemoryPointer} (h : Table.create uuid config clock = .ok created)
    (validators : List Validator) (hr : Reaches (created.withValidators validators) t)
    (hlater : Reaches t t') :
    (∃ more, t'.graph.items = t.graph.items ++ more) ∧ (t'.poisoned = false → Frozen t t') ∧
      (Validator.Sturdy validators → t'.poisoned = false) := by
  obtain rfl := Table.eq_of_create h
  have hn : Numbered t := (Numbered.fresh uuid config clock validators).reaches hr
  refine ⟨hlater.grows, hn.frozen hlater, fun hsturdy => ?_⟩
  exact hlater.unbroken (hr.unbroken rfl hsturdy) (hr.validators_eq ▸ hsturdy)

def Table.twoAppends : Table MemoryPointer :=
  let append (path : String) : Change := (Change.start .append).add { path }
  (blank.respond (.transaction ⟨none, [append "a", append "b"]⟩)).2

def Table.otherBranch : Table MemoryPointer :=
  let back := (twoAppends.respond (.rollback ⟨some 2, some (.snapshot 1)⟩)).2
  (back.respond (.commit ⟨.ok (some 1), (Change.start .append).add { path := "c" }⟩)).2

/-- A scan that was made before still finds what was appended on the branch that it was made on. -/
theorem history_frozen_otherBranch :
    Frozen Table.twoAppends Table.otherBranch ∧ Table.otherBranch.pointer.value = some 3 ∧
      (Table.otherBranch.planTasks (Table.twoAppends.appendsAfter 1).1).1 =
        .ok [⟨{ path := "b" }, 2⟩] := by
  have hfrozen : Frozen Table.twoAppends Table.otherBranch :=
    (history_frozen Table.create_blank Validator.standard (Reaches.here.respond _)
      ((Reaches.here.respond _).respond _)).2.1 (by decide +kernel)
  refine ⟨hfrozen, by decide +kernel, ?_⟩
  have hfirst : ∃ b ∈ Table.twoAppends.graph.items, b.id = 1 := by decide +kernel
  obtain ⟨b, hb, hid⟩ := hfirst
  obtain ⟨current, hcur, -, htasks, -⟩ := hfrozen.handles b hb
  have hsecond : Table.twoAppends.pointer.value = some 2 := by decide +kernel
  obtain rfl := Option.some.inj (hsecond.symm.trans hcur)
  rw [hid] at htasks
  rw [htasks]
  decide +kernel

end SnapshotTable
