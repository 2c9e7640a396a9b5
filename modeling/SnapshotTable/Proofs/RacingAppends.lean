import Mathlib.Data.Fintype.Card
import SnapshotTable.Proofs.FullScan
import SnapshotTable.Proofs.Interleaving
import SnapshotTable.Proofs.Standing

/-! Racing appends all land. Each client appends files that nobody else touches, on the standard
rules and with a retry for each other client. An attempt fails only if another client has landed
since the base was read, and no pointer value comes back, so every lost attempt is paid for by a
landing of its own. -/

namespace SnapshotTable

/-- What a race needs: changes that only add files, all of them new, no two clients sharing a path,
and a retry for each other client. -/
structure Race {ι : Type} [Fintype ι] (t : Table MemoryPointer) (parent : Option Snapshot)
    (staged : ι → Change) : Prop where
  sound : t.poisoned = false
  rules : t.validators = Validator.standard
  root : t.graph.resolve t.pointer.value = .ok parent
  once : LiveOnce parent
  retries : Fintype.card ι ≤ t.config.commitRetries + 1
  append : ∀ i, (staged i).operation = .append ∧ (staged i).requiresRemovals = false
  keep : ∀ i path, (staged i).removed.contains path = false
  new : ∀ i, ∀ f ∈ (staged i).added.items, (filesAt parent).contains f.path = false
  apart : ∀ i j, i ≠ j → ∀ f ∈ (staged i).added.items, ∀ g ∈ (staged j).added.items, f.path ≠ g.path

/-- Where a client can be after a number of its own steps. A base it holds is behind no fewer
landings than the attempts it has lost. -/
def Pace (parent : Option Snapshot) (line : List Snapshot) (steps : Nat) : Stage → Prop
  | .waiting => steps = 0
  | .holding base lost => steps = 2 * lost + 1 ∧ ∃ before after, line = before ++ after ∧
      base = (topOf parent before).map Snapshot.id ∧ lost ≤ before.length
  | .beaten lost _ => steps = 2 * lost ∧ lost ≤ line.length
  | .finished _ lost answer => (∃ s, answer = .ok [s]) ∧ lost < line.length

namespace Pace
variable {parent : Option Snapshot} {line : List Snapshot} {steps : Nat} {s : Stage}

private theorem append (h : Pace parent line steps s) (more : List Snapshot) :
    Pace parent (line ++ more) steps s := by
  cases s with
  | waiting => exact h
  | holding base lost =>
    obtain ⟨hsteps, before, after, rfl, hbase, hle⟩ := h
    exact ⟨hsteps, before, after ++ more, List.append_assoc before after more, hbase, hle⟩
  | beaten lost e =>
    refine ⟨h.1, Nat.le_trans h.2 ?_⟩
    rw [List.length_append]
    exact Nat.le_add_right _ _
  | finished base lost answer =>
    refine ⟨h.1, Nat.lt_of_lt_of_le h.2 ?_⟩
    rw [List.length_append]
    exact Nat.le_add_right _ _

private theorem lost_le (h : Pace parent line steps s) : s.lost ≤ line.length := by
  cases s with
  | waiting => exact Nat.zero_le _
  | holding base lost =>
    obtain ⟨-, before, after, rfl, -, hle⟩ := h
    rw [List.length_append]
    exact Nat.le_add_right_of_le hle
  | beaten lost e => exact h.2
  | finished base lost answer => exact Nat.le_of_lt h.2

private theorem lost_lt (h : Pace parent line steps s) (hended : s.ended = true) :
    s.lost < line.length := by
  obtain ⟨base, lost, answer, rfl⟩ := Stage.eq_finished hended
  exact h.2

private theorem succeeded (h : Pace parent line steps s) (hended : s.ended = true) :
    s.succeeded = true := by
  obtain ⟨base, lost, answer, rfl⟩ := Stage.eq_finished hended
  obtain ⟨⟨s, rfl⟩, -⟩ := h
  rfl

private theorem steps_le (h : Pace parent line steps s) (hopen : s.ended = false) :
    steps ≤ 2 * s.lost + 1 := by
  cases s with
  | waiting => exact Nat.le_succ_of_le (Nat.le_of_eq h)
  | holding base lost => exact Nat.le_of_eq h.1
  | beaten lost e => exact Nat.le_succ_of_le (Nat.le_of_eq h.1)
  | finished base lost answer => cases hopen

end Pace

/-- How far a race has come after the steps in `done`. -/
structure Racing {ι : Type} [DecidableEq ι] (t : Table MemoryPointer) (parent : Option Snapshot)
    (staged : ι → Change) (done : List ι) (a : Arena ι) (order : List ι) (line : List Snapshot) :
    Prop extends Progress t parent (fun i => .single (staged i)) a order line where
  sound : a.table.poisoned = false
  length : line.length = order.length
  once : LiveOnce (topOf parent line)
  files : ∀ f, f ∈ (filesAt (topOf parent line)).items ↔
    f ∈ (filesAt parent).items ∨ ∃ i ∈ order, f ∈ (staged i).added.items
  pace : ∀ i, Pace parent line (done.count i) (a.stage i)

namespace Racing
variable {ι : Type} [DecidableEq ι] {t : Table MemoryPointer} {parent : Option Snapshot}
  {staged : ι → Change} {done : List ι} {a : Arena ι} {order : List ι} {line : List Snapshot}
  {i : ι}

private theorem still (h : Racing t parent staged done a order line) {r : Stage × Table MemoryPointer}
    (hopen : (a.stage i).ended = false) (hopen' : r.1.ended = false) (hu : a.table.Unmoved r.2)
    (hp : r.2.poisoned = a.table.poisoned)
    (hheld : ∀ base lost, r.1 = .holding base lost → base = a.table.pointer.value)
    (hpace : Pace parent line (done.count i + 1) r.1) :
    Racing t parent staged (done ++ [i]) (a.advance i r) order line where
  toProgress := h.quiet hopen hu (Stage.succeeded_of_open hopen')
    (by simp [hp, Stage.crashed_of_open hopen']) hheld
  sound := hp.trans h.sound
  length := h.length
  once := h.once
  files := h.files
  pace := by
    refine Arena.forall_advance (P := fun j s => Pace parent line ((done ++ [i]).count j) s) ?_ ?_
    · simpa using hpace
    · intro j hj
      simpa [Ne.symm hj] using h.pace j

variable [Fintype ι]

private theorem start (h : Race t parent staged) : Racing t parent staged [] (.start t) [] [] where
  toProgress := .start h.root
  sound := h.sound
  length := rfl
  once := h.once
  files := by simp
  pace := fun _ => rfl

private theorem added_new (h : Racing t parent staged done a order line) (hr : Race t parent staged)
    (hi : i ∉ order) :
    ∀ f ∈ (staged i).added.items, (filesAt (topOf parent line)).contains f.path = false := by
  intro f hf
  rw [← Bool.not_eq_true, Keyed.contains_iff]
  rintro ⟨g, hg, hpath⟩
  rcases (h.files g).mp hg with hg | ⟨j, hj, hg⟩
  · have hlive : (filesAt parent).contains f.path = true := Keyed.contains_iff.mpr ⟨g, hg, hpath⟩
    exact Bool.false_ne_true ((hr.new i f hf).symm.trans hlive)
  · exact hr.apart j i (ne_of_mem_of_not_mem hj hi) g hg f hf hpath

private theorem accepted (h : Racing t parent staged done a order line) (hr : Race t parent staged)
    (hi : i ∉ order) :
    Validator.evaluate (filesAt (topOf parent line)) (staged i) a.table.validators = .ok () := by
  rw [h.validators, hr.rules, Validator.evaluate_standard_eq_ok_iff]
  refine ⟨h.added_new hr hi, ?_⟩
  obtain ⟨hop, hreq⟩ := hr.append i
  rw [hop, hreq]
  simp

private theorem length_lt (h : Racing t parent staged done a order line) (hi : i ∉ order) :
    line.length < Fintype.card ι := by
  have hnodup : (i :: order).Nodup := List.nodup_cons.mpr ⟨hi, h.nodup⟩
  rw [h.length]
  exact hnodup.length_le_card

/-- A client on the current base lands. -/
theorem lands (h : Racing t parent staged done a order line) (hr : Race t parent staged)
    {lost : Nat} (hi : a.stage i = .holding a.table.pointer.value lost)
    (hlost : lost ≤ line.length) :
    ∃ s, Racing t parent staged (done ++ [i]) (a.turn (fun i => .single (staged i)) i)
      (order ++ [i]) (line ++ [s]) := by
  have hopen : (a.stage i).ended = false := by
    rw [hi]
    rfl
  have hnot : i ∉ order := h.not_mem_of_open hopen
  obtain ⟨s, hs, hg⟩ := Job.attempt_accepted h.sound h.current (h.accepted hr hnot) lost
  refine ⟨s, ?_⟩
  rw [Arena.turn, hi, Job.step_holding]
  have hprogress := h.wins hopen hs hg
  have htop : topOf parent (line ++ [s]) = some s := by
    rw [topOf_append]
    rfl
  obtain ⟨top, htop', hb⟩ := hg.built
  rw [h.current] at htop'
  cases htop'
  cases hb with
  | cons fresh now _ later =>
    cases later
    have hnew := h.added_new hr hnot
    have hfiles := Production.filesAt_build a.table.production a.table.graph.nextId fresh now h.once
      hnew
    exact {
      toProgress := hprogress
      sound := hg.sound.2
      length := by simp [h.length]
      once := htop ▸ Production.liveOnce_build _ _ _ _ h.once hnew
      files := by
        intro f
        rw [htop, hfiles, Change.mem_apply_new (hr.keep i) hnew, h.files]
        simp only [List.mem_append, List.mem_singleton, or_and_right, exists_or, exists_eq_left]
        rw [or_comm, or_assoc]
      pace := by
        refine Arena.forall_advance
          (P := fun j s => Pace parent (line ++ [_]) ((done ++ [i]).count j) s) ?_ ?_
        · rw [hs]
          refine ⟨⟨_, rfl⟩, ?_⟩
          simpa using Nat.lt_succ_of_le hlost
        · intro j hj
          simpa [Ne.symm hj] using (h.pace j).append [_] }

/-- A client behind another one that has landed since is to read the pointer again. -/
theorem loses (h : Racing t parent staged done a order line) (hr : Race t parent staged)
    {base : Option SnapshotId} {lost : Nat} (hi : a.stage i = .holding base lost)
    (hbase : base ≠ a.table.pointer.value) (hsteps : done.count i = 2 * lost + 1)
    (hlost : lost < line.length) :
    Racing t parent staged (done ++ [i]) (a.turn (fun i => .single (staged i)) i) order line := by
  have hopen : (a.stage i).ended = false := by
    rw [hi]
    rfl
  have hretry : lost < a.table.config.commitRetries := by
    have hlt := h.length_lt (h.not_mem_of_open hopen)
    have hretries := hr.retries
    rw [h.config]
    omega
  rw [Arena.turn, hi, Job.step_holding, Job.attempt_stale h.sound hbase, if_pos hretry]
  apply h.still hopen rfl (Table.unmoved_report _ _) rfl
  · rintro base' lost' ⟨⟩
  exact ⟨by rw [hsteps, Nat.mul_succ], hlost⟩

/-- Every step keeps the race going. -/
theorem turn (h : Racing t parent staged done a order line) (hr : Race t parent staged) (i : ι) :
    ∃ order' line', Racing t parent staged (done ++ [i]) (a.turn (fun i => .single (staged i)) i)
      order' line' := by
  have hpace := h.pace i
  cases hi : a.stage i with
  | waiting =>
    rw [hi] at hpace
    refine ⟨order, line, ?_⟩
    rw [Arena.turn, hi, Job.step_waiting]
    apply h.still (by rw [hi]; rfl) rfl (.refl _) rfl
    · rintro base lost ⟨⟩
      rfl
    · exact ⟨by rw [hpace], line, [], (List.append_nil _).symm, h.pointer, Nat.zero_le _⟩
  | beaten lost e =>
    rw [hi] at hpace
    obtain ⟨hu, hp⟩ := (Job.single (staged i)).unmoved_reportRestaged a.table lost e
    refine ⟨order, line, ?_⟩
    rw [Arena.turn, hi, Job.step_beaten]
    apply h.still (by rw [hi]; rfl) rfl hu hp
    · rintro base lost ⟨⟩
      rfl
    · exact ⟨by rw [hpace.1], line, [], (List.append_nil _).symm, h.pointer, hpace.2⟩
  | holding base lost =>
    rw [hi] at hpace
    obtain ⟨hsteps, before, after, hline, hbase, hlost⟩ := hpace
    by_cases hcur : base = a.table.pointer.value
    · subst hcur
      have hle : before.length ≤ line.length := by simp [hline]
      obtain ⟨s, hs⟩ := h.lands hr hi (Nat.le_trans hlost hle)
      exact ⟨order ++ [i], line ++ [s], hs⟩
    · refine ⟨order, line, h.loses hr hi hcur hsteps ?_⟩
      -- With nothing behind `before`, the base would still be current.
      cases after with
      | nil =>
        rw [List.append_nil] at hline
        exact absurd (hbase.trans (hline ▸ h.pointer.symm)) hcur
      | cons s rest =>
        rw [hline, List.length_append, List.length_cons]
        omega
  | finished base lost answer =>
    refine ⟨order, line, ?_⟩
    rw [Arena.turn, hi, Job.step_finished, ← hi, Arena.advance_self]
    rw [hi] at hpace
    refine { h with pace := fun j => ?_ }
    rw [List.count_append, List.count_singleton]
    by_cases hj : j = i
    · subst hj
      rw [hi]
      exact hpace
    · simpa [Ne.symm hj] using h.pace j

private theorem run (hr : Race t parent staged) (schedule : List ι) :
    ∃ order line, Racing t parent staged schedule
      ((Arena.start t).run (fun i => .single (staged i)) schedule) order line := by
  refine Arena.run_induction
    (P := fun done a => ∃ order line, Racing t parent staged done a order line)
    ⟨[], [], start hr⟩ ?_ schedule
  rintro done a i ⟨order, line, h⟩
  exact h.turn hr i

private theorem lost_le (h : Racing t parent staged done a order line) (i : ι) :
    (a.stage i).lost ≤
      (Finset.univ.filter fun j => j ≠ i ∧ (a.stage j).succeeded = true).card := by
  have hothers : (Finset.univ.filter fun j => j ≠ i ∧ (a.stage j).succeeded = true) =
      order.toFinset.erase i := by
    ext j
    simp [h.won]
  have hcard : order.toFinset.card = line.length := by
    rw [h.length]
    exact List.toFinset_card_of_nodup h.nodup
  rw [hothers]
  by_cases hi : i ∈ order
  · have hended : (a.stage i).ended = true := Stage.ended_of_succeeded ((h.won i).mp hi)
    rw [Finset.card_erase_of_mem (List.mem_toFinset.mpr hi), hcard]
    exact Nat.le_pred_of_lt ((h.pace i).lost_lt hended)
  · rw [Finset.erase_eq_of_notMem (by simpa using hi), hcard]
    exact (h.pace i).lost_le

/-- A client that has taken two steps for each client has landed. -/
theorem landed (h : Racing t parent staged done a order line) {i : ι}
    (hsteps : 2 * Fintype.card ι ≤ done.count i) : (a.stage i).succeeded = true := by
  cases hended : (a.stage i).ended with
  | true => exact (h.pace i).succeeded hended
  | false =>
    have hlt := h.length_lt (h.not_mem_of_open hended)
    have hlost := (h.pace i).lost_le
    have hcount := (h.pace i).steps_le hended
    omega

end Racing

def appends {n : Nat} (files : Fin n → List DataFile) (i : Fin n) : Job :=
  .single ((Change.start .append).addAll (files i))

structure AllLand {n : Nat} (t : Table MemoryPointer) (live : FileSet)
    (files : Fin n → List DataFile) (schedule : List (Fin n)) (a : Arena (Fin n)) : Prop where
  /-- Whoever has finished has published one snapshot. -/
  answers : ∀ i base lost answer, a.stage i = .finished base lost answer → ∃ s, answer = .ok [s]
  /-- A client loses at most one attempt for each other client that has landed. -/
  paid : ∀ i, (a.stage i).lost ≤
    (Finset.univ.filter fun j => j ≠ i ∧ (a.stage j).succeeded = true).card
  /-- No client takes more than two steps for each client. -/
  prompt : ∀ i, 2 * n ≤ schedule.count i → (a.stage i).succeeded = true
  /-- When all have landed, their snapshots are one chain on top of what was current, and the live
  files are those at the start and those of all clients. -/
  final : (∀ i, (a.stage i).succeeded = true) → ∃ line last,
    a.table.graph.items = t.graph.items ++ line ∧
    line.map Snapshot.id = List.range' t.graph.nextId n ∧
    Linked t.pointer.value line ∧
    a.table.pointer.value = (line.getLast?.map Snapshot.id).or t.pointer.value ∧
    (a.table.planFiles none).1 = .ok last ∧
    ∀ f, f ∈ last.items ↔ f ∈ live.items ∨ ∃ i, f ∈ (Keyed.ofList (files i) : FileSet).items

private theorem race_appends {t : Table MemoryPointer} {parent : Option Snapshot} (h : Standing t parent)
    {n : Nat} (hretries : n - 1 ≤ t.config.commitRetries) {files : Fin n → List DataFile}
    (hnew : ∀ i, ∀ f ∈ files i, (filesAt parent).contains f.path = false)
    (hapart : ∀ i j, i ≠ j → ∀ f ∈ files i, ∀ g ∈ files j, f.path ≠ g.path) :
    Race t parent fun i => (Change.start .append).addAll (files i) := by
  have hpath (i : Fin n) : ∀ f ∈ ((Change.start .append).addAll (files i)).added.items,
      ∃ g ∈ files i, g.path = f.path := by
    intro f hf
    rw [Change.addAll_eq] at hf
    exact Keyed.contains_ofList.mp (Keyed.contains_iff.mpr ⟨f, hf, rfl⟩)
  exact {
    sound := h.sound
    rules := h.rules
    root := h.current
    once := h.once
    retries := by
      rw [Fintype.card_fin]
      omega
    append := by
      intro i
      rw [Change.addAll_eq]
      exact ⟨rfl, rfl⟩
    keep := by
      intro i path
      rw [Change.addAll_eq]
      rfl
    new := by
      intro i f hf
      obtain ⟨g, hg, hpath⟩ := hpath i f hf
      exact hpath ▸ hnew i g hg
    apart := by
      intro i j hij f hf g hg
      obtain ⟨f', hf', hpf⟩ := hpath i f hf
      obtain ⟨g', hg', hpg⟩ := hpath j g hg
      exact hpf ▸ hpg ▸ hapart i j hij f' hf' g' hg' }

/-- Under every schedule all racing appends land: on any reachable table with a retry for each other
client, and files that are neither live at the start nor shared between clients. -/
theorem run_appends {t : Table MemoryPointer} {ledger : List Publication} (h : Reachable t ledger)
    (n : Nat) (hretries : n - 1 ≤ t.config.commitRetries) :
    ∃ live, (t.planFiles none).1 = .ok live ∧ ∀ files : Fin n → List DataFile,
      (∀ i, ∀ f ∈ files i, live.contains f.path = false) →
      (∀ i j, i ≠ j → ∀ f ∈ files i, ∀ g ∈ files j, f.path ≠ g.path) →
      ∀ schedule, AllLand t live files schedule
        ((Arena.start t).run (appends files) schedule) := by
  obtain ⟨parent, hs⟩ := h.standing
  refine ⟨filesAt parent, planFiles_current hs.sound hs.current, ?_⟩
  intro files hnew hapart schedule
  obtain ⟨order, line, hr⟩ :=
    Racing.run (race_appends hs hretries hnew hapart) schedule
  have hrun : (Arena.start t).run (appends files) schedule =
    (Arena.start t).run (fun i => .single ((Change.start .append).addAll (files i))) schedule := rfl
  rw [hrun]
  generalize (Arena.start t).run _ schedule = a at hr ⊢
  exact {
    answers := by
      intro i base lost answer hi
      have hpace := hr.pace i
      rw [hi] at hpace
      exact hpace.1
    paid := hr.lost_le
    prompt := by
      intro i hsteps
      apply hr.landed
      rwa [Fintype.card_fin]
    final := by
      intro hall
      have hmem : ∀ i, i ∈ order := fun i => (hr.won i).mpr (hall i)
      have hlength : line.length = n := by
        rw [hr.length, ← List.toFinset_card_of_nodup hr.nodup,
          Finset.eq_univ_iff_forall.mpr fun i => List.mem_toFinset.mpr (hmem i), Finset.card_fin]
      have hpointer : t.pointer.value = parent.map Snapshot.id := Graph.resolve_id hs.current
      have hids := hr.built.ids_eq
      rw [hlength] at hids
      refine ⟨line, filesAt (topOf parent line), hr.graph, hids, ?_, ?_, ?_, ?_⟩
      · rw [hpointer]
        exact hr.built.linked
      · rw [hr.pointer, hpointer, ← Option.map_or]
        rfl
      · exact planFiles_current hr.sound hr.current
      · intro f
        simp only [hr.files, hmem, true_and, Change.addAll_eq]
        rfl }

/-- Two clients with one retry begin together, and both land. -/
theorem run_appends_pair :
    let t := Table.fresh 0#128 { commitRetries := 1 } (Clock.still 0)
    let files : Fin 2 → List DataFile := fun i => if i = 0 then [{ path := "a" }] else [{ path := "b" }]
    let a := (Arena.start t).run (appends files) [0, 1, 0, 1, 1, 1, 0, 0]
    (∀ i, (a.stage i).succeeded = true) ∧ a.table.graph.items.map Snapshot.id = [1, 2] := by
  intro t files a
  have hcreate : Table.create 0#128 { commitRetries := 1 } (Clock.still 0) = .ok t := rfl
  obtain ⟨live, hlive, hland⟩ := run_appends (.create hcreate) 2 (by decide)
  obtain rfl : Keyed.empty = live := Except.ok.inj hlive
  have hall := hland files (fun _ _ _ => rfl) (by decide) [0, 1, 0, 1, 1, 1, 0, 0]
  have hdone : ∀ i, (a.stage i).succeeded = true := fun i => hall.prompt i (by revert i; decide)
  obtain ⟨line, last, hitems, hids, -⟩ := hall.final hdone
  refine ⟨hdone, ?_⟩
  rw [hitems, List.map_append, hids]
  rfl

end SnapshotTable
