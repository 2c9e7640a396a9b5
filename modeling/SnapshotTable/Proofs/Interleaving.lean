import Mathlib.Data.List.Nodup
import Mathlib.Logic.Function.Basic
import SnapshotTable.Proofs.Clients

/-! Clients in an arena around one table, taking their steps in the order of a schedule. Whatever the
schedule, what is published is one chain on top of what was current at the start, cut into one
stretch for each client that ended well, and each stretch lies directly on the base that its client
held at its last attempt. -/

namespace SnapshotTable

structure Arena (ι : Type) where
  table : Table MemoryPointer
  stage : ι → Stage

namespace Arena
variable {ι : Type}

def start (t : Table MemoryPointer) : Arena ι := ⟨t, fun _ => .waiting⟩

variable [DecidableEq ι]

def advance (a : Arena ι) (i : ι) (r : Stage × Table MemoryPointer) : Arena ι :=
  ⟨r.2, Function.update a.stage i r.1⟩

def turn (jobs : ι → Job) (a : Arena ι) (i : ι) : Arena ι :=
  a.advance i ((jobs i).step (a.stage i) a.table)

def run (jobs : ι → Job) (a : Arena ι) (schedule : List ι) : Arena ι := schedule.foldl (turn jobs) a

variable {jobs : ι → Job} {a : Arena ι} {i : ι}

@[simp] theorem advance_table (a : Arena ι) (i : ι) (r : Stage × Table MemoryPointer) :
    (a.advance i r).table = r.2 := rfl

@[simp] theorem advance_stage_self (a : Arena ι) (i : ι) (r : Stage × Table MemoryPointer) :
    (a.advance i r).stage i = r.1 := by
  rw [advance]
  exact Function.update_self i r.1 a.stage

private theorem advance_stage_of_ne {j : ι} (h : j ≠ i) (r : Stage × Table MemoryPointer) :
    (a.advance i r).stage j = a.stage j := by
  rw [advance]
  exact Function.update_of_ne h r.1 a.stage

/-- A client that stays where it is leaves the arena as it is. -/
theorem advance_self (a : Arena ι) (i : ι) : a.advance i (a.stage i, a.table) = a :=
  congrArg (Arena.mk a.table) (Function.update_eq_self i a.stage)

/-- What holds of the stage that a client came to, and held of the others before, holds of all. -/
theorem forall_advance {P : ι → Stage → Prop} {r : Stage × Table MemoryPointer} (self : P i r.1)
    (others : ∀ j, j ≠ i → P j (a.stage j)) (j : ι) : P j ((a.advance i r).stage j) := by
  by_cases hj : j = i
  · subst hj
    rw [advance_stage_self]
    exact self
  · rw [advance_stage_of_ne hj]
    exact others j hj

/-- What holds at the start and is kept by every turn holds after every schedule. -/
theorem run_induction {P : List ι → Arena ι → Prop} (start : P [] a)
    (turn : ∀ done a i, P done a → P (done ++ [i]) (a.turn jobs i)) (schedule : List ι) :
    P schedule (a.run jobs schedule) := by
  -- The steps already taken are part of the statement, so that the schedule can be cut anywhere.
  suffices h : ∀ done b, P done b → P (done ++ schedule) (b.run jobs schedule) from h [] a start
  induction schedule with
  | nil =>
    intro done b hb
    rwa [List.append_nil]
  | cons i rest ih =>
    intro done b hb
    have hrest := ih (done ++ [i]) (b.turn jobs i) (turn done b i hb)
    rwa [List.append_assoc, List.singleton_append] at hrest

end Arena

/-- A base that is held was current at some point of the line. -/
def Stage.HeldOn (parent : Option Snapshot) (line : List Snapshot) (s : Stage) : Prop :=
  ∀ base lost, s = .holding base lost →
    ∃ before after, line = before ++ after ∧ base = (topOf parent before).map Snapshot.id

/-- What was published is one stretch of the line, built on the base of the last attempt. -/
def Stage.PlacedOn (p : Production) (parent : Option Snapshot) (first : SnapshotId)
    (changes : List Change) (line : List Snapshot) (s : Stage) : Prop :=
  ∀ base lost chain, s = .finished base lost (.ok chain) →
    ∃ before after, line = before ++ chain ++ after ∧
      base = (topOf parent before).map Snapshot.id ∧
      p.Builds (topOf parent before) (first + before.length) changes chain

private theorem Stage.HeldOn.append {parent : Option Snapshot} {line : List Snapshot} {s : Stage}
    (h : s.HeldOn parent line) (more : List Snapshot) : s.HeldOn parent (line ++ more) := by
  intro base lost hs
  obtain ⟨before, after, rfl, hbase⟩ := h base lost hs
  exact ⟨before, after ++ more, List.append_assoc before after more, hbase⟩

private theorem Stage.PlacedOn.append {p : Production} {parent : Option Snapshot} {first : SnapshotId}
    {changes : List Change} {line : List Snapshot} {s : Stage}
    (h : s.PlacedOn p parent first changes line) (more : List Snapshot) :
    s.PlacedOn p parent first changes (line ++ more) := by
  intro base lost chain hs
  obtain ⟨before, after, rfl, hbase, hb⟩ := h base lost chain hs
  exact ⟨before, after ++ more, List.append_assoc (before ++ chain) after more, hbase, hb⟩

/-- How far a run from table `t` and its current snapshot has come: `order` lists the clients that
ended well, in the order in which they did, and `line` the snapshots they published. -/
structure Progress {ι : Type} (t : Table MemoryPointer) (parent : Option Snapshot) (jobs : ι → Job)
    (a : Arena ι) (order : List ι) (line : List Snapshot) : Prop where
  config : a.table.config = t.config
  validators : a.table.validators = t.validators
  poisoned : a.table.poisoned = true ↔ t.poisoned = true ∨ ∃ i, (a.stage i).crashed = true
  root : t.graph.resolve t.pointer.value = .ok parent
  graph : a.table.graph.items = t.graph.items ++ line
  pointer : a.table.pointer.value = (topOf parent line).map Snapshot.id
  built : t.production.Builds parent t.graph.nextId (order.flatMap fun i => (jobs i).changes) line
  cut : line = order.flatMap fun i => (a.stage i).published
  nodup : order.Nodup
  won : ∀ i, i ∈ order ↔ (a.stage i).succeeded = true
  held : ∀ i, (a.stage i).HeldOn parent line
  placed : ∀ i,
    (a.stage i).PlacedOn t.production parent t.graph.nextId (jobs i).changes line

namespace Progress
variable {ι : Type} {t : Table MemoryPointer} {parent : Option Snapshot} {jobs : ι → Job}
  {a : Arena ι} {order : List ι} {line : List Snapshot} {i : ι}

/-- Before its first step a run is in order. -/
theorem start (h : t.graph.resolve t.pointer.value = .ok parent) :
    Progress t parent jobs (.start t) [] [] where
  config := rfl
  validators := rfl
  poisoned := by simp [Arena.start, Stage.crashed]
  root := h
  graph := (List.append_nil _).symm
  pointer := Graph.resolve_id h
  built := .nil
  cut := rfl
  nodup := List.nodup_nil
  won := by simp [Arena.start, Stage.succeeded]
  held := fun _ => nofun
  placed := fun _ => nofun

/-- The current snapshot is the end of the line. -/
theorem current (h : Progress t parent jobs a order line) :
    a.table.graph.resolve a.table.pointer.value = .ok (topOf parent line) := by
  rw [h.pointer]
  exact Graph.resolve_topOf h.root h.graph

private theorem nextId (h : Progress t parent jobs a order line) :
    a.table.graph.nextId = t.graph.nextId + line.length :=
  Graph.nextId_append h.built h.graph

private theorem production (h : Progress t parent jobs a order line) :
    a.table.production = t.production :=
  Table.production_congr h.config h.validators

/-- Who has not ended has published nothing. -/
theorem not_mem_of_open (h : Progress t parent jobs a order line)
    (hopen : (a.stage i).ended = false) : i ∉ order := by
  rw [h.won, Stage.succeeded_of_open hopen]
  exact Bool.false_ne_true

variable [DecidableEq ι] {r : Stage × Table MemoryPointer}

private theorem published_advance (hi : i ∉ order) :
    (order.flatMap fun j => ((a.advance i r).stage j).published) =
      order.flatMap fun j => (a.stage j).published := by
  apply List.flatMap_congr
  intro j hj
  rw [Arena.advance_stage_of_ne (ne_of_mem_of_not_mem hj hi)]

private theorem crashed_advance (hi : (a.stage i).crashed = false) :
    (∃ j, ((a.advance i r).stage j).crashed = true) ↔
      (∃ j, (a.stage j).crashed = true) ∨ r.1.crashed = true := by
  constructor
  · rintro ⟨j, hj⟩
    by_cases hji : j = i
    · subst hji
      rw [Arena.advance_stage_self] at hj
      exact .inr hj
    · rw [Arena.advance_stage_of_ne hji] at hj
      exact .inl ⟨j, hj⟩
  · rintro (⟨j, hj⟩ | hs)
    · have hji : j ≠ i := by
        rintro rfl
        exact Bool.false_ne_true (hi.symm.trans hj)
      exact ⟨j, by rwa [Arena.advance_stage_of_ne hji]⟩
    · exact ⟨i, by rwa [Arena.advance_stage_self]⟩

/-- A step that publishes nothing leaves the line as it is. -/
theorem quiet (h : Progress t parent jobs a order line) (hopen : (a.stage i).ended = false)
    (hu : a.table.Unmoved r.2) (hs : r.1.succeeded = false)
    (hp : r.2.poisoned = true ↔ a.table.poisoned = true ∨ r.1.crashed = true)
    (hheld : ∀ base lost, r.1 = .holding base lost → base = a.table.pointer.value) :
    Progress t parent jobs (a.advance i r) order line where
  config := hu.config.trans h.config
  validators := hu.validators.trans h.validators
  poisoned := by
    rw [crashed_advance (Stage.crashed_of_open hopen), Arena.advance_table, hp, h.poisoned,
      or_assoc]
  root := h.root
  graph := hu.graph ▸ h.graph
  pointer := hu.pointer ▸ h.pointer
  built := h.built
  cut := by
    rw [published_advance (h.not_mem_of_open hopen)]
    exact h.cut
  nodup := h.nodup
  won := by
    refine Arena.forall_advance (P := fun j s => j ∈ order ↔ s.succeeded = true) ?_
      fun j _ => h.won j
    rw [hs]
    simpa using h.not_mem_of_open hopen
  held := by
    refine Arena.forall_advance (P := fun _ s => s.HeldOn parent line) ?_ fun j _ => h.held j
    intro base lost hr
    exact ⟨line, [], (List.append_nil _).symm, (hheld base lost hr).trans h.pointer⟩
  placed := by
    refine Arena.forall_advance
      (P := fun j s => s.PlacedOn t.production parent t.graph.nextId (jobs j).changes line) ?_
      fun j _ => h.placed j
    intro base lost chain hr
    rw [hr] at hs
    cases hs

private theorem ends (h : Progress t parent jobs a order line) (hopen : (a.stage i).ended = false)
    {base : Option SnapshotId} {lost : Nat} {chain : List Snapshot}
    (hs : r.1 = .finished base lost (.ok chain)) (hconfig : r.2.config = a.table.config)
    (hvalidators : r.2.validators = a.table.validators)
    (hpoisoned : r.2.poisoned = a.table.poisoned)
    (hgraph : r.2.graph.items = a.table.graph.items ++ chain)
    (hpointer : r.2.pointer.value = (topOf (topOf parent line) chain).map Snapshot.id)
    (hbuilt : t.production.Builds (topOf parent line) (t.graph.nextId + line.length)
      (jobs i).changes chain)
    (hplaced : ∃ before after, line ++ chain = before ++ chain ++ after ∧
      base = (topOf parent before).map Snapshot.id ∧
      t.production.Builds (topOf parent before) (t.graph.nextId + before.length) (jobs i).changes
        chain) :
    Progress t parent jobs (a.advance i r) (order ++ [i]) (line ++ chain) where
  config := hconfig.trans h.config
  validators := hvalidators.trans h.validators
  poisoned := by
    have hcrash : r.1.crashed = false := by rw [hs]; rfl
    rw [crashed_advance (Stage.crashed_of_open hopen), Arena.advance_table, hpoisoned, h.poisoned,
      hcrash]
    simp
  root := h.root
  graph := by rw [Arena.advance_table, hgraph, h.graph, List.append_assoc]
  pointer := by rw [Arena.advance_table, hpointer, topOf_append]
  built := by
    rw [List.flatMap_append, List.flatMap_singleton]
    exact h.built.append hbuilt
  cut := by
    rw [List.flatMap_append, List.flatMap_singleton, Arena.advance_stage_self, hs,
      published_advance (h.not_mem_of_open hopen), ← h.cut]
    rfl
  nodup := by
    rw [List.nodup_append]
    refine ⟨h.nodup, List.nodup_singleton i, ?_⟩
    intro j hj k hk hjk
    obtain rfl := List.mem_singleton.mp hk
    exact h.not_mem_of_open hopen (hjk ▸ hj)
  won := by
    refine Arena.forall_advance (P := fun j s => j ∈ order ++ [i] ↔ s.succeeded = true) ?_ ?_
    · rw [hs]
      simp [Stage.succeeded]
    · intro j hj
      rw [← h.won j]
      simp [hj]
  held := by
    refine Arena.forall_advance (P := fun _ s => s.HeldOn parent (line ++ chain)) ?_
      fun j _ => (h.held j).append chain
    rw [hs]
    nofun
  placed := by
    refine Arena.forall_advance (P := fun j s =>
      s.PlacedOn t.production parent t.graph.nextId (jobs j).changes (line ++ chain)) ?_
      fun j _ => (h.placed j).append chain
    rw [hs]
    rintro _ _ _ ⟨⟩
    exact hplaced

/-- A client that publishes puts its changes at the end of the line, where its base is. -/
theorem wins (h : Progress t parent jobs a order line) (hopen : (a.stage i).ended = false)
    {base : Option SnapshotId} {lost : Nat} {chain : List Snapshot}
    (hs : r.1 = .finished base lost (.ok chain))
    (hg : a.table.Grown base (jobs i).changes chain r.2) :
    Progress t parent jobs (a.advance i r) (order ++ [i]) (line ++ chain) := by
  have hbase : base = (topOf parent line).map Snapshot.id := hg.current.symm.trans h.pointer
  have hbuilt : t.production.Builds (topOf parent line) (t.graph.nextId + line.length)
      (jobs i).changes chain := by
    obtain ⟨top, htop, hb⟩ := hg.built
    rw [← hg.current, h.current] at htop
    cases htop
    rwa [h.production, h.nextId] at hb
  apply h.ends hopen hs hg.config hg.validators (hg.sound.2.trans hg.sound.1.symm) hg.graph _ hbuilt
  · exact ⟨line, [], (List.append_nil _).symm, hbase, hbuilt⟩
  · rw [hg.pointer, hbase, ← Option.map_or]
    rfl

private theorem idles (h : Progress t parent jobs a order line) {base : Option SnapshotId} {lost : Nat}
    (hi : a.stage i = .holding base lost) (hnil : (jobs i).changes = []) :
    Progress t parent jobs (a.advance i (.finished base lost (.ok []), a.table)) (order ++ [i])
      line := by
  have hopen : (a.stage i).ended = false := by
    rw [hi]
    rfl
  have hnone : ∀ (top : Option Snapshot) (id : SnapshotId),
      t.production.Builds top id (jobs i).changes [] := by
    intro top id
    rw [hnil]
    exact .nil
  obtain ⟨before, after, hline, hbase⟩ := h.held i base lost hi
  rw [← List.append_nil line]
  exact h.ends hopen rfl rfl rfl rfl (List.append_nil _).symm h.pointer (hnone _ _)
    ⟨before, after, by simpa using hline, hbase, hnone _ _⟩

/-- Whoever takes the next step, the run stays in order: an attempt publishes nothing, or it adds
its changes to the end of the line. -/
theorem turn (h : Progress t parent jobs a order line) (i : ι) :
    ∃ order' line', Progress t parent jobs (a.turn jobs i) order' line' := by
  rw [Arena.turn]
  cases hi : a.stage i with
  | waiting =>
    refine ⟨order, line, h.quiet (by rw [hi]; rfl) (.refl _) rfl (by simp [Stage.crashed]) ?_⟩
    intro base lost hb
    cases hb
    rfl
  | beaten lost e =>
    obtain ⟨hu, hp⟩ := (jobs i).unmoved_reportRestaged a.table lost e
    refine ⟨order, line, h.quiet (by rw [hi]; rfl) hu rfl (by simp [Stage.crashed, hp]) ?_⟩
    intro base lost hb
    cases hb
    rfl
  | finished base lost answer =>
    rw [Job.step_finished, ← hi, Arena.advance_self]
    exact ⟨order, line, h⟩
  | holding base lost =>
    have hopen : (a.stage i).ended = false := by
      rw [hi]
      rfl
    rw [Job.step_holding]
    rcases (jobs i).attempt_cases base lost a.table with ⟨f, hf, hr⟩ | ⟨e, he, hr⟩ |
      ⟨chain, hc, hg⟩ | ⟨hnil, heq⟩
    · refine ⟨order, line, h.quiet hopen hr.unmoved (by rw [hf]; rfl) ?_ ?_⟩
      · rw [hr.poisoned, hf]
        cases f <;> simp [Stage.crashed]
      · rw [hf]
        nofun
    · refine ⟨order, line, h.quiet hopen hr.unmoved (by rw [he]; rfl) ?_ ?_⟩
      · rw [hr.poisoned, he]
        simp [Stage.crashed]
      · rw [he]
        nofun
    · exact ⟨order ++ [i], line ++ chain, h.wins hopen hc hg⟩
    · rw [heq]
      exact ⟨order ++ [i], line, h.idles hi hnil⟩

/-- Every schedule is in order. -/
theorem run (h : t.graph.resolve t.pointer.value = .ok parent) (jobs : ι → Job)
    (schedule : List ι) :
    ∃ order line, Progress t parent jobs ((Arena.start t).run jobs schedule) order line := by
  refine Arena.run_induction (P := fun _ a => ∃ order line, Progress t parent jobs a order line)
    ⟨[], [], start h⟩ ?_ schedule
  rintro _ a i ⟨order, line, ha⟩
  exact ha.turn i

end Progress
end SnapshotTable
