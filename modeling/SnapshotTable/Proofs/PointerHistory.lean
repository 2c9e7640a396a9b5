import Mathlib.Data.List.Destutter
import SnapshotTable.Proofs.CommitOutcomes
import SnapshotTable.Proofs.Numbering

/-! The log as the history of the pointer. A table is run through the actions of its clients, and each
action that moves the pointer is told by one entry, whatever it published: an empty transaction, a failure
and going back to where the pointer is leave none. So the entries are the values that the pointer took,
one for each change. -/

namespace SnapshotTable

inductive Action where
  | read
  | publish (base : Option SnapshotId) (changes : List Change)
  | move (base : Option SnapshotId) (target : SnapshotId)
  | report (e : Event)

section AnyStore
variable {σ : Type} [PointerStore σ] {t t' u : Table σ}

namespace Table

def take (t : Table σ) : Action → Table σ
  | .read => t.currentId.2
  | .publish base changes => (t.publish base changes).2
  | .move base target => (t.movePointer base target).2
  | .report e => t.report e

def after (t : Table σ) (actions : List Action) : Table σ := actions.foldl take t

private theorem after_append (t : Table σ) (actions more : List Action) :
    t.after (actions ++ more) = (t.after actions).after more := List.foldl_append

end Table

private theorem Reaches.take (h : Reaches t u) (a : Action) : Reaches t (u.take a) := by
  cases a with
  | read => exact h.read
  | publish base changes => exact h.publish base changes
  | move base target => exact h.move base target
  | report e => exact h.report e

/-- A run of actions is made of steps of clients. -/
theorem Reaches.after (h : Reaches t u) (actions : List Action) : Reaches t (u.after actions) := by
  induction actions generalizing u with
  | nil => exact h
  | cons a rest ih => exact ih (h.take a)

/-- What a table can become is what it is after a run. -/
theorem reaches_iff : Reaches t t' ↔ ∃ actions, t.after actions = t' := by
  constructor
  · intro h
    have hstep {u : Table σ} (a : Action) (hu : ∃ actions, t.after actions = u) :
        ∃ actions, t.after actions = u.take a := by
      obtain ⟨actions, rfl⟩ := hu
      exact ⟨actions ++ [a], t.after_append actions [a]⟩
    induction h with
    | here => exact ⟨[], rfl⟩
    | read _ ih => exact hstep .read ih
    | publish _ base changes ih => exact hstep (.publish base changes) ih
    | move _ base target ih => exact hstep (.move base target) ih
    | report _ e ih => exact hstep (.report e) ih
  · rintro ⟨actions, rfl⟩
    exact Reaches.here.after actions

end AnyStore

structure Deed where
  table : Table MemoryPointer
  action : Action

/-- Where a deed moves the pointer, and why. Of a chain that is published the last snapshot counts, and
going back to where the pointer is moves nothing. -/
def Deed.move? (d : Deed) : Option (SnapshotId × PointerChange) :=
  match d.action with
  | .read | .report _ => none
  | .publish base changes =>
    match (d.table.publish base changes).1 with
    | .error _ => none
    | .ok chain => chain.getLast?.map fun s => (s.id, .commit)
  | .move base target =>
    match (d.table.movePointer base target).1 with
    | .error _ => none
    | .ok s => if d.table.pointer.value = some s.id then none else some (s.id, .rollback)

inductive Tells (t : Table MemoryPointer) :
    Option (SnapshotId × PointerChange) → Table MemoryPointer → Prop
  | nothing {t' : Table MemoryPointer} (log : t'.log = t.log)
      (pointer : t'.pointer.value = t.pointer.value) : Tells t none t'
  | move {t' : Table MemoryPointer} {id : SnapshotId} {change : PointerChange} {now : Instant}
      (new : t.pointer.value ≠ some id) (pointer : t'.pointer.value = some id)
      (log : t'.log.entries = t.log.entries ++ [t.log.nextEntry id change now]) :
      Tells t (some (id, change)) t'

variable {t t' : Table MemoryPointer}

private theorem Table.Untouched.tells {crash : Bool} (h : t.Untouched crash t') : Tells t none t' :=
  .nothing h.log (h.pointer.held_eq MemoryPointer.faithful)

private theorem Table.Advanced.tells {chain : List Snapshot} {s : Snapshot} {change : PointerChange}
    (h : t.Advanced chain s change t') (hnew : t.pointer.value ≠ some s.id) :
    Tells t (some (s.id, change)) t' := by
  obtain ⟨now, hlog⟩ := h.log
  exact .move hnew (h.pointer.held_eq MemoryPointer.faithful) hlog

private theorem Table.Grown.newest {base : Option SnapshotId} {changes : List Change}
    {chain : List Snapshot}
    (h : t.Grown base changes chain t') {last : Snapshot} (hlast : chain.getLast? = some last) :
    ∀ s ∈ t.graph.items, s.id < last.id := by
  obtain ⟨parent, -, hbuilt⟩ := h.built
  intro s hs
  exact Nat.lt_of_lt_of_le (Graph.id_lt_nextId hs) (hbuilt.id_le (List.mem_of_getLast? hlast)).1

private theorem Numbered.elsewhere (h : Numbered t) {last : Snapshot}
    (hnewest : ∀ s ∈ t.graph.items, s.id < last.id) : t.pointer.value ≠ some last.id := by
  intro hp
  obtain ⟨s, hs, he⟩ := h.pointer last.id hp
  exact Nat.lt_irrefl _ (he ▸ hnewest s hs)

private theorem Table.movePointer_tells {base : Option SnapshotId} {target : SnapshotId} {s : Snapshot}
    (h : (t.movePointer base target).1 = .ok s) :
    Tells t (if t.pointer.value = some s.id then none else some (s.id, .rollback))
      (t.movePointer base target).2 := by
  rcases t.movePointer_outcome base target with ⟨e, heq, -⟩ | ⟨found, -, -, -, -, heq⟩
  · rw [heq] at h
    cases h
  · rw [heq] at h ⊢
    cases h
    dsimp only
    split
    · exact .nothing rfl rfl
    · rename_i hnew
      exact .move hnew rfl rfl

/-- What a deed does to the log and the pointer. -/
theorem Deed.tells (d : Deed) (h : Numbered d.table) :
    Tells d.table d.move? (d.table.take d.action) := by
  obtain ⟨t, action⟩ := d
  cases action with
  | read => exact t.currentId_untouched.tells
  | report e => exact .nothing rfl rfl
  | publish base changes =>
    rw [move?]
    dsimp only [Table.take]
    rcases t.publish_settles base changes with ⟨f, hf, hu⟩ | ⟨-, hc, hu⟩ | ⟨chain, last, hc, -, hl, ha⟩
    · rw [hf]
      exact hu.tells
    · rw [hc]
      exact hu.tells
    · rw [hc]
      dsimp only
      rw [hl]
      rcases t.publish_cases base changes with ⟨f, hf, -⟩ | ⟨chain', hc', hg⟩
      · cases hf.symm.trans hc
      · obtain rfl := Except.ok.inj (hc'.symm.trans hc)
        exact ha.tells (h.elsewhere (hg.newest hl))
  | move base target =>
    rw [move?]
    dsimp only [Table.take]
    cases hm : (t.movePointer base target).1 with
    | ok s => exact Table.movePointer_tells hm
    | error e =>
      rcases t.movePointer_settles base target with ⟨e', -, hu⟩ | ⟨s, hs, -⟩
      · exact hu.tells
      · cases hs.symm.trans hm

private theorem Deed.committed {d : Deed} {id : SnapshotId} (h : d.move? = some (id, .commit)) :
    ∃ base changes chain last, d.action = .publish base changes ∧
      (d.table.publish base changes).1 = .ok chain ∧ chain.getLast? = some last ∧ last.id = id ∧
      ∀ s ∈ d.table.graph.items, s.id < id := by
  obtain ⟨t, action⟩ := d
  cases action with
  | read => cases h
  | report e => cases h
  | publish base changes =>
    simp only [move?] at h
    rcases t.publish_cases base changes with ⟨f, hf, -⟩ | ⟨chain, hc, hg⟩
    · rw [hf] at h
      cases h
    · rw [hc] at h
      obtain ⟨last, hl, he⟩ := Option.map_eq_some_iff.mp h
      cases he
      exact ⟨base, changes, chain, last, rfl, hc, hl, rfl, hg.newest hl⟩
  | move base target =>
    simp only [move?] at h
    split at h
    · cases h
    · split at h <;> cases h

private theorem Deed.wentBack {d : Deed} {id : SnapshotId} (h : d.move? = some (id, .rollback)) :
    ∃ base target s, d.action = .move base target ∧
      (d.table.movePointer base target).1 = .ok s ∧ s ∈ d.table.graph.items ∧ s.id = id := by
  obtain ⟨t, action⟩ := d
  cases action with
  | read => cases h
  | report e => cases h
  | publish base changes =>
    simp only [move?] at h
    split at h
    · cases h
    · obtain ⟨last, -, he⟩ := Option.map_eq_some_iff.mp h
      cases he
  | move base target =>
    simp only [move?] at h
    rcases t.movePointer_cases base target with ⟨e, he, -⟩ | ⟨s, hs, -, hr⟩
    · rw [he] at h
      cases h
    · rw [hs] at h
      by_cases hsame : t.pointer.value = some s.id
      · simp [hsame] at h
      · simp [hsame] at h
        exact ⟨base, target, s, rfl, hs, hr.published, h⟩

namespace Table

def deeds (t : Table MemoryPointer) : List Action → List Deed
  | [] => []
  | a :: rest => ⟨t, a⟩ :: (t.take a).deeds rest

def moves (t : Table MemoryPointer) (actions : List Action) : List (SnapshotId × PointerChange) :=
  (t.deeds actions).filterMap Deed.move?

def values (t : Table MemoryPointer) (actions : List Action) : List (Option SnapshotId) :=
  (actions.scanl take t).map fun u => u.pointer.value

/-- The moves of a run are that of its first action, if it is one, and those of the rest. -/
theorem moves_cons (t : Table MemoryPointer) (a : Action) (rest : List Action) :
    t.moves (a :: rest) = (Deed.move? ⟨t, a⟩).toList ++ (t.take a).moves rest := by
  rw [moves, deeds, List.filterMap_cons]
  cases Deed.move? ⟨t, a⟩ <;> rfl

private theorem values_cons (t : Table MemoryPointer) (a : Action) (rest : List Action) :
    t.values (a :: rest) = t.pointer.value :: (t.take a).values rest := by
  rw [values, List.scanl_cons, List.map_cons]
  rfl

private theorem values_eq_cons (t : Table MemoryPointer) (actions : List Action) :
    ∃ later, t.values actions = t.pointer.value :: later := by
  cases actions with
  | nil => exact ⟨[], rfl⟩
  | cons a rest => exact ⟨_, t.values_cons a rest⟩

end Table

private theorem Numbered.take (h : Numbered t) (a : Action) : Numbered (t.take a) :=
  h.reaches (Reaches.here.take a)

/-- The new entries of a run are its moves, in their order. -/
theorem Numbered.entries (h : Numbered t) (actions : List Action) :
    (t.after actions).log.entries.map (fun e => (e.snapshotId, e.change)) =
      t.log.entries.map (fun e => (e.snapshotId, e.change)) ++ t.moves actions := by
  induction actions generalizing t with
  | nil => exact (List.append_nil _).symm
  | cons a rest ih =>
    have hstep : (t.take a).log.entries.map (fun e => (e.snapshotId, e.change)) =
        t.log.entries.map (fun e => (e.snapshotId, e.change)) ++ (Deed.move? ⟨t, a⟩).toList := by
      have htells := Deed.tells ⟨t, a⟩ h
      generalize Deed.move? ⟨t, a⟩ = move at htells ⊢
      cases htells with
      | nothing log pointer => simp [log]
      | move new pointer log => simp [log, PointerLog.nextEntry]
    rw [Table.moves_cons, ← List.append_assoc, ← hstep]
    exact ih (h.take a)

/-- The pointer has its first value, and behind each move another one. -/
theorem Numbered.values (h : Numbered t) (actions : List Action) :
    (t.values actions).destutter (· ≠ ·) =
      t.pointer.value :: (t.moves actions).map fun move => some move.1 := by
  induction actions generalizing t with
  | nil => rfl
  | cons a rest ih =>
    have hrest := ih (h.take a)
    obtain ⟨later, hlater⟩ := (t.take a).values_eq_cons rest
    rw [hlater, List.destutter_cons'] at hrest
    rw [Table.values_cons, hlater, List.destutter_cons', Table.moves_cons, List.map_append]
    have htells := Deed.tells ⟨t, a⟩ h
    generalize Deed.move? ⟨t, a⟩ = move at htells ⊢
    cases htells with
    | nothing log pointer =>
      dsimp only at pointer
      rw [pointer] at hrest ⊢
      rw [List.destutter'_cons_neg _ (by simp), hrest]
      rfl
    | move new pointer log =>
      dsimp only at pointer new
      rw [pointer] at hrest ⊢
      rw [List.destutter'_cons_pos _ new, hrest]
      rfl

def Request.change : Request → PointerChange
  | .commit _ | .transaction _ => .commit
  | .rollback _ => .rollback

def Table.moveOf? (t : Table MemoryPointer) (r : Request) : Option (SnapshotId × PointerChange) :=
  match (t.respond r).1 with
  | .error _ => none
  | .ok chain => chain.getLast?.bind fun s =>
    if t.pointer.value = some s.id then none else some (s.id, r.change)

/-- A request as a whole leaves at most one entry. -/
theorem Numbered.respond_tells (h : Numbered t) (r : Request) :
    Tells t (t.moveOf? r) (t.respond r).2 := by
  cases r with
  | commit c =>
    have hends := t.commit_ends c
    rw [Table.moveOf?, Table.respond]
    rcases t.commit_cases c with ⟨f, hf, -⟩ | ⟨s, current, hs, hg⟩
    · rw [hf] at hends ⊢
      exact Table.Untouched.tells hends
    · have hnew : t.pointer.value ≠ some s.id := h.elsewhere (hg.newest rfl)
      rw [hs] at hends ⊢
      simp only [Except.map, List.getLast?_singleton, Option.bind_some, if_neg hnew]
      exact Table.Advanced.tells hends hnew
  | transaction txn =>
    rw [Table.moveOf?, Table.respond]
    rcases t.commitTransaction_settles txn with ⟨f, hf, hu⟩ | ⟨-, heq⟩ | ⟨chain, last, hc, hl, ha⟩
    · rw [hf]
      exact hu.tells
    · rw [heq]
      exact .nothing rfl rfl
    · rcases t.commitTransaction_cases txn with ⟨f, hf, -⟩ | ⟨chain', hc', hg⟩ | ⟨-, heq⟩
      · cases hf.symm.trans hc
      · obtain rfl := Except.ok.inj (hc'.symm.trans hc)
        have hnew : t.pointer.value ≠ some last.id := h.elsewhere (hg.newest hl)
        rw [hc]
        simp only [hl, Option.bind_some, if_neg hnew]
        exact ha.tells hnew
      · rw [heq] at hc
        cases hc
        cases hl
  | rollback r =>
    have htells : ∀ s, (t.commitRollback r).1 = .ok s →
        Tells t (if t.pointer.value = some s.id then none else some (s.id, .rollback))
          (t.commitRollback r).2 := by
      rw [Table.commitRollback]
      intro s hs
      split at hs
      · cases hs
      · exact Table.movePointer_tells hs
      · split at hs
        · cases hs
        · exact Table.movePointer_tells hs
    rw [Table.moveOf?, Table.respond]
    rcases t.commitRollback_settles r with ⟨e, he, hu⟩ | ⟨s, hs, -⟩
    · rw [← Prod.eta (t.commitRollback r), he]
      exact hu.tells
    · have hback := htells s hs
      rw [← Prod.eta (t.commitRollback r), hs]
      exact hback

structure History (t : Table MemoryPointer) (actions : List Action) (t' : Table MemoryPointer) : Prop where
  /-- The entries are numbered from 1 on without a gap. -/
  sequence : t'.log.entries.map LogEntry.sequence = List.range' 1 t'.log.entries.length
  /-- They tell the moves of the run one by one. -/
  moves : t'.log.entries.map (fun e => (e.snapshotId, e.change)) = t.moves actions
  /-- These are the values that the pointer took, one for each change. -/
  values : (t.values actions).destutter (· ≠ ·) =
    none :: t'.log.entries.map fun e => some e.snapshotId
  distinct : (t'.log.entries.map LogEntry.snapshotId).IsChain (· ≠ ·)
  last : t'.pointer.value = t'.log.entries.getLast?.map LogEntry.snapshotId
  absent : t'.log.entries = [] ↔ t'.pointer.value = none
  /-- A commit entry stands for one chain that was published, and names its last snapshot, which is
  behind everything that was published before. -/
  commits : ∀ d ∈ t.deeds actions, ∀ id, d.move? = some (id, .commit) →
    ∃ base changes chain last, d.action = .publish base changes ∧
      (d.table.publish base changes).1 = .ok chain ∧ chain.getLast? = some last ∧ last.id = id ∧
      ∀ s ∈ d.table.graph.items, s.id < id
  /-- A rollback entry names a snapshot that was published. -/
  rollbacks : ∀ d ∈ t.deeds actions, ∀ id, d.move? = some (id, .rollback) →
    ∃ base target s, d.action = .move base target ∧
      (d.table.movePointer base target).1 = .ok s ∧ s ∈ d.table.graph.items ∧ s.id = id
  /-- A request is a run of its own, and leaves one entry for its answer if that moved the pointer. -/
  requests : ∀ r, (∃ more, (t'.respond r).2 = t.after (actions ++ more)) ∧
    Tells t' (t'.moveOf? r) (t'.respond r).2
  /-- The log is what a table answers that no validator broke down. -/
  answer : t'.poisoned = false → t'.history = .ok t'.log.entries

/-- From where nothing is recorded yet, the log numbers all moves from 1 on, and its last entry is where the
pointer is. -/
theorem Reaches.recorded (h : Reaches t t') (hlog : t.log = {}) (hpointer : t.pointer.value = none) :
    t'.log.entries.map LogEntry.sequence = List.range' 1 t'.log.entries.length ∧
      t'.pointer.value = t'.log.entries.getLast?.map LogEntry.snapshotId := by
  obtain ⟨news, hn⟩ := h.extended
  have hnews : t'.log.entries = news := by rw [hn.log, hlog, List.nil_append]
  have hheld : t'.pointer.value = (news.getLast?.map LogEntry.snapshotId).or t.pointer.value :=
    hn.held_eq MemoryPointer.faithful
  refine ⟨?_, ?_⟩
  · rw [hnews, hn.sequence, hlog]
    rfl
  · rw [hheld, hpointer, Option.or_none, hnews]

private theorem Numbered.history (h : Numbered t) (hlog : t.log = {}) (hpointer : t.pointer.value = none)
    (actions : List Action) : History t actions (t.after actions) := by
  have hr : Reaches t (t.after actions) := Reaches.here.after actions
  obtain ⟨hsequence, hlast⟩ := hr.recorded hlog hpointer
  have hmoves := h.entries actions
  rw [hlog, List.map_nil, List.nil_append] at hmoves
  have hvalues := h.values actions
  rw [hpointer, ← hmoves, List.map_map] at hvalues
  refine ⟨hsequence, hmoves, hvalues, ?_, hlast, ?_, ?_, ?_, ?_, ?_⟩
  · have hchain := List.isChain_destutter (· ≠ ·) (t.values actions)
    rw [hvalues] at hchain
    have hentries := (List.isChain_map _).mp hchain.tail
    exact (List.isChain_map _).mpr (hentries.imp fun a b hne he => hne (congrArg some he))
  · rw [hlast, Option.map_eq_none_iff, List.getLast?_eq_none_iff]
  · exact fun d _ id hd => Deed.committed hd
  · exact fun d _ id hd => Deed.wentBack hd
  · intro r
    obtain ⟨more, hmore⟩ := reaches_iff.mp (Reaches.here.respond (t := t.after actions) r)
    refine ⟨⟨more, ?_⟩, (h.reaches hr).respond_tells r⟩
    rw [Table.after_append, hmore]
  · intro hp
    rw [Table.history, Table.state_sound hp]
    rfl

/-- Whatever clients do to a new table, its log is the history of its pointer, and it is in reach where no
rule breaks down. -/
theorem history_of_create {uuid : Uuid} {config : TableConfig} {clock : Clock}
    {t : Table MemoryPointer} (h : Table.create uuid config clock = .ok t)
    (validators : List Validator) (actions : List Action) :
    let start := t.withValidators validators
    History start actions (start.after actions) ∧ (Validator.Sturdy validators →
      (start.after actions).history = .ok (start.after actions).log.entries) := by
  intro start
  obtain rfl := Table.eq_of_create h
  have hhistory : History start actions (start.after actions) :=
    (Numbered.fresh uuid config clock validators).history rfl rfl actions
  have hr : Reaches start (start.after actions) := Reaches.here.after actions
  exact ⟨hhistory, fun hsturdy => hhistory.answer (hr.unbroken rfl hsturdy)⟩

/-- A transaction of two changes, going back to the first of its snapshots, and once more, and a commit on
top of it; in the end a commit that is too late, and an empty transaction. -/
def Table.visits : List Action :=
  let append (path : String) : Change := (Change.start .append).add { path }
  [.publish none [append "a", append "b"], .move (some 2) 1, .move (some 1) 1,
    .publish (some 1) [append "c"], .publish (some 1) [append "d"], .publish (some 3) []]

/-- Three of these six actions move the pointer. -/
theorem history_of_create_visits :
    History Table.blank Table.visits (Table.blank.after Table.visits) ∧
      Table.blank.moves Table.visits = [(2, .commit), (1, .rollback), (3, .commit)] := by
  refine ⟨(history_of_create Table.create_blank Validator.standard Table.visits).1, ?_⟩
  decide +kernel

end SnapshotTable
