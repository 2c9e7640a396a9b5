import SnapshotTable.Metadata.Basic
import SnapshotTable.Proofs.Atomicity
import SnapshotTable.Proofs.Lineages
import SnapshotTable.Proofs.Readings

/-! Why operations fail, and that a broken lineage is never the reason. A walk fails only where one of its
ends is missing or the base is on another branch, a chain that was built on the current snapshot is always
fit to be published, and a move always has the next sequence number. -/

namespace SnapshotTable

def TableError.isLineage : TableError → Bool
  | .invalidLineage .. => true
  | _ => false

private theorem error_of_map {ε α β : Type} {x : Except ε α} {f : α → β} {e : ε}
    (h : x.map f = .error e) :
    x = .error e := by
  cases x with
  | error e' =>
    cases h
    rfl
  | ok a => cases h

namespace Graph
variable {g : Graph} {base : Option SnapshotId} {tip : SnapshotId} {e : TableError}

private theorem find_error {id : SnapshotId} (h : g.find id = .error e) : e = .snapshotNotFound id := by
  rw [find] at h
  split at h
  · cases h
  · exact (Except.error.inj h).symm

private theorem sequence_error {α : Type} {xs : List (Except TableError α)}
    (h : sequence xs = .error e) :
    .error e ∈ xs := by
  induction xs with
  | nil => cases h
  | cons x rest ih =>
    cases x with
    | error e' =>
      cases h
      exact List.mem_cons_self
    | ok a =>
      rw [sequence] at h
      exact List.mem_cons_of_mem _ (ih (error_of_map h))

private theorem cutAt_error {line : List Snapshot} (h : cutAt base tip line = .error e) :
    ∃ b, base = some b ∧ e = .unreachableAncestor b tip := by
  cases base with
  | none => cases h
  | some b =>
    rw [cutAt] at h
    split at h
    · cases h
    · exact ⟨b, rfl, (Except.error.inj h).symm⟩

/-- Why a walk fails: its tip is not published, or the base is not on its lineage. -/
theorem Grounded.ancestors_error (hg : g.Grounded) (h : g.ancestors base tip = .error e) :
    e = .snapshotNotFound tip ∨ ∃ b, base = some b ∧ e = .unreachableAncestor b tip := by
  cases hs : g.get? tip with
  | none =>
    rw [ancestors, walk, beginWalk, find, hs] at h
    exact .inl (Except.error.inj h).symm
  | some s =>
    obtain ⟨hmem, rfl⟩ := Keyed.get?_eq_some_iff.mp hs
    obtain ⟨line, hl⟩ := hg.exists_lineage hmem
    rw [hl.ancestors hg] at h
    exact .inr (cutAt_error h)

/-- Why a range has no snapshots: its bounds agree, or one of them is not published, or they are on
different branches. -/
theorem Grounded.range_error (hg : g.Grounded) {base : SnapshotId} (h : g.range base tip = .error e) :
    (∃ reason, e = .invalidRange reason) ∨ (∃ id, e = .snapshotNotFound id) ∨
      e = .unreachableAncestor base tip := by
  rw [range] at h
  split at h
  · exact .inl ⟨_, (Except.error.inj h).symm⟩
  cases htip : g.find tip with
  | error e' =>
    rw [htip] at h
    cases h
    exact .inr (.inl ⟨tip, find_error htip⟩)
  | ok s =>
    cases hbase : g.find base with
    | error e' =>
      rw [htip, hbase] at h
      cases h
      exact .inr (.inl ⟨base, find_error hbase⟩)
    | ok b =>
      rw [htip, hbase] at h
      rcases hg.ancestors_error h with rfl | ⟨_, ⟨⟩, rfl⟩
      · exact .inr (.inl ⟨tip, rfl⟩)
      · exact .inr (.inr rfl)

/-- Why a range has no tasks: it has no snapshots, or an overwrite among them. -/
theorem planAppends_error {base : SnapshotId} (h : g.planAppends base tip = .error e) :
    g.range base tip = .error e ∨
      ∃ id operation, e = .unsupportedIncrementalOperation id operation base tip := by
  rw [planAppends] at h
  cases hrange : g.range base tip with
  | error e' =>
    rw [hrange] at h
    cases h
    exact .inl rfl
  | ok chain =>
    rw [hrange] at h
    obtain ⟨s, -, hs⟩ := List.mem_map.mp (sequence_error (error_of_map h))
    rw [tasksOf] at hs
    split at hs
    · cases hs
    · cases hs
    · cases hs
    · exact .inr ⟨_, _, (Except.error.inj hs).symm⟩

end Graph

/-- Handles that were begun on a table with its pointer in memory, at any time. -/
inductive Request.Begun : Request → Prop
  | commit (u : Table MemoryPointer) (operation : Operation) (change : Change) :
      Begun (.commit { (u.beginCommit operation).1 with change })
  | transaction (txn : Transaction) : Begun (.transaction txn)
  | rollback (r : Rollback) : Begun (.rollback r)

inductive IncrementalScan.Made : IncrementalScan → Prop
  | between (base tip : SnapshotId) : Made (appendsBetween base tip)
  | after (u : Table MemoryPointer) (base : SnapshotId) : Made (u.appendsAfter base).1

private theorem Graph.Grounded.range_lineage {g : Graph} (hg : g.Grounded) {base tip : SnapshotId}
    {e : TableError} (h : g.range base tip = .error e) : e.isLineage = false := by
  rcases hg.range_error h with ⟨reason, rfl⟩ | ⟨id, rfl⟩ | rfl
  · rfl
  · rfl
  · rfl

private theorem IncrementalScan.Made.tip_lineage {scan : IncrementalScan} (h : scan.Made)
    {e : TableError} (he : scan.tip = .error e) : e.isLineage = false := by
  cases h with
  | between base tip => cases he
  | after u base =>
    cases hcur : u.pointer.value with
    | none =>
      rw [Table.appendsAfter, Table.currentId_memory, hcur] at he
      cases he
      rfl
    | some id =>
      rw [Table.appendsAfter, Table.currentId_memory, hcur] at he
      cases he

namespace Table
variable {t : Table MemoryPointer} {e : TableError}

/-- The errors that operations on a table answer with. A commit among others answers after its last
step. -/
inductive FailsWith (t : Table MemoryPointer) : TableError → Prop
  | request {r : Request} {e : TableError} (begun : r.Begun)
      (h : (t.respond r).1 = .error (.error e)) : FailsWith t e
  | among {change : Change} {base : Option SnapshotId} {made retries : Nat}
      {earlier : List (Table MemoryPointer × Table MemoryPointer)} {t' : Table MemoryPointer}
      {e : TableError}
      (h : Attempts change base made retries (earlier ++ [(t, t')]) (.error (.error e))) : FailsWith t e
  | beginTransaction {e : TableError} (h : t.beginTransaction.1 = .error e) : FailsWith t e
  | beginRollback {e : TableError} (h : t.beginRollback.1 = .error e) : FailsWith t e
  | rollbackTo {id : SnapshotId} {e : TableError} (h : (t.rollbackTo id).1 = .error e) : FailsWith t e
  | snapshot {id : SnapshotId} {e : TableError} (h : t.snapshot id = .error e) : FailsWith t e
  | snapshots {e : TableError} (h : t.snapshots = .error e) : FailsWith t e
  | history {e : TableError} (h : t.history = .error e) : FailsWith t e
  | ancestors {base : Option SnapshotId} {tip : SnapshotId} {e : TableError}
      (h : t.ancestors base tip = .error e) : FailsWith t e
  | currentId {e : TableError} (h : t.currentId.1 = .error e) : FailsWith t e
  | current {e : TableError} (h : t.current.1 = .error e) : FailsWith t e
  | metadata {e : TableError} (h : t.metadata.1 = .error e) : FailsWith t e
  | scannedSnapshot {id : Option SnapshotId} {e : TableError}
      (h : (t.scannedSnapshot id).1 = .error e) : FailsWith t e
  | planFiles {id : Option SnapshotId} {e : TableError} (h : (t.planFiles id).1 = .error e) :
      FailsWith t e
  | scanTip {scan : IncrementalScan} {e : TableError} (made : scan.Made) (h : scan.tip = .error e) :
      FailsWith t e
  | scanRange {scan : IncrementalScan} {e : TableError} (made : scan.Made)
      (h : t.scanRange scan = .error e) : FailsWith t e
  | planTasks {scan : IncrementalScan} {e : TableError} (made : scan.Made)
      (h : (t.planTasks scan).1 = .error e) : FailsWith t e
  | planAppendedFiles {scan : IncrementalScan} {e : TableError} (made : scan.Made)
      (h : (t.planAppendedFiles scan).1 = .error e) : FailsWith t e

private theorem state_lineage (h : t.state = .error e) : e.isLineage = false := by
  cases hp : t.poisoned with
  | true =>
    rw [state_poisoned hp] at h
    cases h
    rfl
  | false =>
    rw [state_sound hp] at h
    cases h

private theorem read_lineage {α : Type} {read : Graph × PointerLog → Except TableError α}
    (hread : ∀ e, read (t.graph, t.log) = .error e → e.isLineage = false)
    (h : t.state.bind read = .error e) : e.isLineage = false := by
  cases hs : t.state with
  | error e' =>
    rw [hs] at h
    cases h
    exact state_lineage hs
  | ok s =>
    cases hp : t.poisoned with
    | true =>
      rw [state_poisoned hp] at hs
      cases hs
    | false =>
      rw [state_sound hp] at h
      exact hread e h

/-- Publishing never finds a broken lineage: what was built on the current snapshot is fit to be
published. -/
theorem publish_lineage {base : Option SnapshotId} {changes : List Change}
    (h : (t.publish base changes).1 = .error (.error e)) : e.isLineage = false := by
  rcases publish_error h with hf | ⟨-, hf⟩ | ⟨id, hf⟩ | ⟨refusal, hf⟩
  · cases hf
    rfl
  · cases hf
    rfl
  · cases hf
    rfl
  · cases refusal with
    | rejected violation =>
      cases hf
      rfl
    | crashed => cases hf

private theorem movePointer_lineage {base : Option SnapshotId} {target : SnapshotId}
    (h : (t.movePointer base target).1 = .error e) : e.isLineage = false := by
  rcases t.movePointer_outcome base target with ⟨e', heq, he⟩ | ⟨s, -, -, -, -, heq⟩
  · rw [heq] at h
    cases h
    rcases he with rfl | rfl | rfl
    · rfl
    · rfl
    · rfl
  · rw [heq] at h
    cases h

private theorem attempts_lineage {change : Change} {base : Option SnapshotId} {made retries : Nat}
    {steps : List (Table MemoryPointer × Table MemoryPointer)} {answer : Except Failure Snapshot}
    (h : Attempts change base made retries steps answer) (he : answer = .error (.error e)) :
    e.isLineage = false := by
  induction h with
  | last _ => exact publish_lineage (attempt_error he)
  | unread _ _ hread => cases hread
  | again _ _ _ _ ih => exact ih he

private theorem commitFrom_lineage {base : Option SnapshotId} {change : Change} {made retries : Nat}
    (h : (t.commitFrom base change made retries).1 = .error (.error e)) : e.isLineage = false := by
  obtain ⟨steps, hs, -⟩ := Attempts.of_commitFrom t base change made retries
  exact attempts_lineage hs h

private theorem ancestors_lineage (hg : t.graph.Grounded) {base : Option SnapshotId} {tip : SnapshotId}
    (h : t.ancestors base tip = .error e) : e.isLineage = false := by
  refine read_lineage (fun e' hwalk => ?_) h
  rcases hg.ancestors_error hwalk with rfl | ⟨b, -, rfl⟩
  · rfl
  · rfl

private theorem resolveTime_lineage (hg : t.graph.Grounded) {base : Option SnapshotId} {time : Instant}
    (h : t.resolveTime base time = .error e) : e.isLineage = false := by
  cases base with
  | none =>
    cases h
    rfl
  | some id =>
    rw [resolveTime] at h
    cases hwalk : t.ancestors none id with
    | error e' =>
      rw [hwalk] at h
      cases h
      exact ancestors_lineage hg hwalk
    | ok lineage =>
      rw [hwalk] at h
      simp only [Except.bind] at h
      split at h
      · cases h
      · cases h
        rfl

private theorem commitRollback_lineage (hg : t.graph.Grounded) {r : Rollback}
    (h : (t.commitRollback r).1 = .error e) : e.isLineage = false := by
  rw [commitRollback] at h
  split at h
  · cases h
    rfl
  · exact movePointer_lineage h
  · split at h
    · rename_i htime
      cases h
      exact resolveTime_lineage hg htime
    · exact movePointer_lineage h

private theorem respond_lineage (hg : t.graph.Grounded) {r : Request} (hbegun : r.Begun)
    (h : (t.respond r).1 = .error (.error e)) : e.isLineage = false := by
  cases hbegun with
  | commit u operation change => exact commitFrom_lineage (error_of_map h)
  | transaction txn =>
    rw [respond, commitTransaction] at h
    split at h
    · cases h
    split at h
    · rename_i heq
      cases h
      exact publish_lineage (congrArg Prod.fst heq)
    · cases h
  | rollback r =>
    rw [respond] at h
    split at h
    · rename_i heq
      cases h
      exact commitRollback_lineage hg (congrArg Prod.fst heq)
    · cases h

private theorem scan_lineage {scan : IncrementalScan} (hmade : scan.Made) {α : Type}
    (plan : Graph → SnapshotId → Except TableError α)
    (hplan : ∀ tip e, plan t.graph tip = .error e → e.isLineage = false)
    (h : (scan.tip.bind fun tip => t.state.bind fun s => plan s.1 tip) = .error e) :
    e.isLineage = false := by
  cases htip : scan.tip with
  | error e' =>
    rw [htip] at h
    cases h
    exact hmade.tip_lineage htip
  | ok tip =>
    rw [htip] at h
    exact read_lineage (hplan tip) h

private theorem scanRange_lineage (hg : t.graph.Grounded) {scan : IncrementalScan} (hmade : scan.Made)
    (h : t.scanRange scan = .error e) : e.isLineage = false :=
  scan_lineage hmade (fun g => g.range scan.base) (fun _ _ => hg.range_lineage) h

private theorem planTasks_lineage (hg : t.graph.Grounded) {scan : IncrementalScan} (hmade : scan.Made)
    (h : (t.planTasks scan).1 = .error e) : e.isLineage = false := by
  rw [planTasks_fst] at h
  refine scan_lineage hmade (fun g => g.planAppends scan.base) (fun tip e' hplan => ?_) h
  rcases Graph.planAppends_error hplan with hrange | ⟨id, operation, rfl⟩
  · exact hg.range_lineage hrange
  · rfl

private theorem current_lineage (h : t.current.1 = .error e) : e.isLineage = false := by
  rw [current] at h
  split at h
  · rename_i hs
    cases h
    exact state_lineage hs
  · simp only [currentId_memory] at h
    obtain ⟨id, rfl⟩ := Graph.resolve_error h
    rfl

private theorem snapshot_lineage {id : SnapshotId} (h : t.snapshot id = .error e) :
    e.isLineage = false := by
  refine read_lineage (fun e' hfind => ?_) h
  rw [Graph.find_error hfind]
  rfl

private theorem scannedSnapshot_lineage {id : Option SnapshotId}
    (h : (t.scannedSnapshot id).1 = .error e) :
    e.isLineage = false := by
  cases id with
  | none => exact current_lineage h
  | some id => exact snapshot_lineage (error_of_map h)

private theorem metadata_lineage (h : t.metadata.1 = .error e) : e.isLineage = false := by
  rw [metadata] at h
  split at h
  · rename_i hs
    cases h
    exact state_lineage hs
  · cases h

/-- No operation on a table whose parents come before their children answers that a lineage is broken. -/
theorem failsWith_lineage (hg : t.graph.Grounded) (h : t.FailsWith e) : e.isLineage = false := by
  cases h with
  | request hbegun hr => exact respond_lineage hg hbegun hr
  | among hs => exact attempts_lineage hs rfl
  | beginTransaction ht => cases ht
  | beginRollback ht => cases ht
  | rollbackTo hr => exact commitRollback_lineage hg hr
  | snapshot hs => exact snapshot_lineage hs
  | snapshots hs => exact state_lineage (error_of_map hs)
  | history hs => exact state_lineage (error_of_map hs)
  | ancestors hw => exact ancestors_lineage hg hw
  | currentId hc => cases hc
  | current hc => exact current_lineage hc
  | metadata hm => exact metadata_lineage hm
  | scannedSnapshot hs => exact scannedSnapshot_lineage hs
  | @planFiles id _ hf =>
    rw [planFiles_fst] at hf
    exact scannedSnapshot_lineage (error_of_map hf)
  | scanTip hmade ht => exact hmade.tip_lineage ht
  | scanRange hmade hr => exact scanRange_lineage hg hmade hr
  | planTasks hmade hp => exact planTasks_lineage hg hmade hp
  | @planAppendedFiles scan _ hmade hp =>
    rw [planAppendedFiles_fst] at hp
    exact planTasks_lineage hg hmade (error_of_map hp)

end Table
end SnapshotTable
