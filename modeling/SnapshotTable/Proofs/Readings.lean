import SnapshotTable.Metadata.Basic
import SnapshotTable.Proofs.Lineages
import SnapshotTable.Table.Scan

/-! What readings of a table answer. What a reading reports adds nothing to its answer, so a plan is that of
the graph, and files are those of the snapshots and tasks that were found. A document is made of the state,
where this is in reach, and of what the store answers. -/

namespace SnapshotTable

def Snapshot.tasks (s : Snapshot) : List FileScanTask :=
  if s.operation = .append then (DataFile.sortByPath s.addedFiles).map fun f => ⟨f, s.id⟩ else []

/-- A task names the snapshot that it was planned for. -/
theorem Snapshot.snapshotId_of_mem_tasks {s : Snapshot} {task : FileScanTask} (h : task ∈ s.tasks) :
    task.snapshotId = s.id := by
  rw [tasks] at h
  split at h
  · obtain ⟨f, -, rfl⟩ := List.mem_map.mp h
    rfl
  · cases h

namespace Graph

private theorem tasksOf_eq (base tip : SnapshotId) (s : Snapshot) :
    tasksOf base tip s =
      if s.operation = .overwrite then
        .error (.unsupportedIncrementalOperation s.id .overwrite base tip)
      else .ok s.tasks := by
  rw [tasksOf, Snapshot.tasks]
  cases s.operation with
  | append => rfl
  | replace => rfl
  | overwrite => rfl
  | delete => rfl

/-- Of a range, oldest snapshot first, either the first overwrite is named or all tasks are listed. -/
theorem planAppends_of_range {g : Graph} {base tip : SnapshotId} {chain : List Snapshot}
    (h : g.range base tip = .ok chain) :
    g.planAppends base tip =
      match chain.reverse.find? fun s => s.operation = .overwrite with
      | some s => .error (.unsupportedIncrementalOperation s.id .overwrite base tip)
      | none => .ok (chain.reverse.flatMap Snapshot.tasks) := by
  have htasks : tasksOf base tip = fun s =>
      if (decide (s.operation = .overwrite)) = true then
        .error (.unsupportedIncrementalOperation s.id .overwrite base tip)
      else .ok s.tasks := by
    funext s
    simp only [tasksOf_eq, decide_eq_true_eq]
  rw [planAppends, h, htasks]
  dsimp only [Except.bind]
  rw [sequence_map_ite]
  cases chain.reverse.find? fun s => s.operation = .overwrite with
  | some s => rfl
  | none => rfl

/-- A plan that succeeds lists the tasks of its range. -/
theorem range_of_planned {g : Graph} {base tip : SnapshotId} {tasks : List FileScanTask}
    (h : g.planAppends base tip = .ok tasks) :
    ∃ range, g.range base tip = .ok range ∧ tasks = range.reverse.flatMap Snapshot.tasks := by
  cases hrange : g.range base tip with
  | error e =>
    rw [planAppends, hrange] at h
    cases h
  | ok range =>
    rw [planAppends_of_range hrange] at h
    split at h
    · cases h
    · exact ⟨range, rfl, (Except.ok.inj h).symm⟩

end Graph

namespace Table
variable {σ : Type} {t : Table σ}

/-- Behind a validator that broke down, the state is out of reach. -/
theorem state_poisoned (h : t.poisoned = true) : t.state = .error .lockPoisoned := if_pos h

/-- Otherwise the state is the graph and the log. -/
theorem state_sound (h : t.poisoned = false) : t.state = .ok (t.graph, t.log) :=
  if_neg (Bool.eq_false_iff.mp h)

/-- A scan has the range of the graph, where tip and state are there. -/
theorem scanRange_eq (t : Table σ) (scan : IncrementalScan) :
    t.scanRange scan = scan.tip.bind fun tip => t.state.bind fun s => s.1.range scan.base tip := rfl

/-- A plan is that of the graph, where tip and state are there. -/
theorem planTasks_fst (t : Table σ) (scan : IncrementalScan) :
    (t.planTasks scan).1 =
      scan.tip.bind fun tip => t.state.bind fun s => s.1.planAppends scan.base tip := by
  rw [planTasks]
  cases scan.tip with
  | error e => rfl
  | ok tip =>
    cases t.state with
    | error e => rfl
    | ok s =>
      simp only [bind, Except.bind, pure, Except.pure]
      cases hp : s.1.planAppends scan.base tip with
      | error e => rfl
      | ok tasks =>
        -- A graph that has a plan for a range has the range.
        cases hr : s.1.range scan.base tip with
        | error e =>
          rw [Graph.planAppends, hr] at hp
          cases hp
        | ok chain => rfl

/-- The answer of a scan is the plan on the graph; what the plan reports adds nothing to it. -/
theorem planTasks_between (h : t.poisoned = false) (base tip : SnapshotId) :
    (t.planTasks (appendsBetween base tip)).1 = t.graph.planAppends base tip := by
  rw [planTasks_fst, state_sound h]
  rfl

/-- Planned files are those of the planned tasks. -/
theorem planAppendedFiles_fst (t : Table σ) (scan : IncrementalScan) :
    (t.planAppendedFiles scan).1 =
      (t.planTasks scan).1.map fun tasks => Keyed.ofList (tasks.map FileScanTask.file) := by
  rw [planAppendedFiles]
  split <;> rename_i heq <;> rw [heq] <;> rfl

variable [PointerStore σ]

/-- A full scan answers the files of the snapshot that it finds. -/
theorem planFiles_fst (t : Table σ) (id : Option SnapshotId) :
    (t.planFiles id).1 = (t.scannedSnapshot id).1.map filesAt := by
  rw [planFiles]
  split <;> rename_i heq <;> rw [heq] <;> rfl

def described (t : Table σ) (held : Option SnapshotId) : TableMetadata where
  formatVersion := formatVersion
  tableUuid := t.uuid
  currentSnapshotId := held
  properties := Keyed.ofList t.config.properties
  snapshots := t.graph.toList.map fun s => s.metadata t.manifestUuid
  snapshotLog := t.log.entries

/-- The metadata of a table whose state is in reach and whose store answers. -/
theorem metadata_eq (h : t.poisoned = false) {held : Option SnapshotId} {pointer : σ}
    (hread : PointerStore.current t.pointer = (.ok held, pointer)) :
    t.metadata = (.ok (t.described held), { t with pointer }) := by
  rw [metadata, state_sound h]
  simp only [currentId, hread]
  rfl

/-- There is a document only where the state is in reach and the store answers. -/
theorem eq_described {doc : TableMetadata} (h : t.metadata.1 = .ok doc) :
    t.poisoned = false ∧
      ∃ held, (PointerStore.current t.pointer).1 = .ok held ∧ doc = t.described held := by
  cases hp : t.poisoned with
  | true =>
    rw [metadata, state_poisoned hp] at h
    cases h
  | false =>
    cases hread : PointerStore.current t.pointer with
    | mk answer pointer =>
      cases answer with
      | error e =>
        rw [metadata, state_sound hp] at h
        simp only [currentId, hread] at h
        cases h
      | ok held =>
        rw [metadata_eq hp hread] at h
        exact ⟨rfl, held, rfl, (Except.ok.inj h).symm⟩

/-- A document lists the snapshots in the order of their identifiers. -/
theorem metadata_snapshots (h : t.poisoned = false) {held : Option SnapshotId} {pointer : σ}
    (hread : PointerStore.current t.pointer = (.ok held, pointer)) :
    ∃ doc, t.metadata = (.ok doc, { t with pointer }) ∧
      doc.snapshots = t.graph.items.map fun s => s.metadata t.manifestUuid :=
  ⟨_, metadata_eq h hread, rfl⟩

end Table
end SnapshotTable
