import SnapshotTable.Proofs.Readings
import SnapshotTable.Proofs.ReplayChain
import SnapshotTable.Table.Publish

/-! What an operation can do to a table with its pointer in memory. Publishing refuses, and then
graph, log and pointer stay as they were, or it puts a chain that was built on the current snapshot
behind the graph and points at its end. Going back refuses, or points at a published snapshot. No
third thing happens: behind the swap nothing fails. -/

namespace SnapshotTable

def Refusal.toFailure : Refusal → Failure
  | .rejected violation => .error (.validation violation)
  | .crashed => .crashed

/-- A move under the next sequence number is never in conflict. -/
theorem PointerLog.record_eq (log : PointerLog) (id : SnapshotId) (change : PointerChange)
    (now : Instant) :
    log.record id change now = .ok ⟨log.entries ++ [log.nextEntry id change now]⟩ := if_pos rfl

namespace Table
section AnyStore
variable {σ : Type} {t t' : Table σ}

/-- Production depends on the settings and the rules alone. -/
theorem production_congr (hconfig : t'.config = t.config)
    (hvalidators : t'.validators = t.validators) : t'.production = t.production := by
  rw [production, production, hconfig, hvalidators]

/-- Recording a move adds its entry to the log and reads the clock once. -/
theorem recordMove_eq (t : Table σ) (id : SnapshotId) (change : PointerChange) :
    t.recordMove id change = (.ok (), { t with
      log := ⟨t.log.entries ++ [t.log.nextEntry id change t.supply.clock.now]⟩
      supply := { t.supply with clock := t.supply.clock.tick } }) := by
  simp only [recordMove, PointerLog.record_eq]

private theorem foldl_report (events : List Event) (t : Table σ) :
    ∃ more, events.foldl report t = { t with supply := { t.supply with events := more } } := by
  induction events generalizing t with
  | nil => exact ⟨t.supply.events, rfl⟩
  | cons e rest ih => exact ih (t.report e)

/-- A store is put in the place of another one only where it answers that it points at nothing. -/
theorem eq_of_withPointerStore {τ : Type} [PointerStore τ] {t : Table σ} {u : Table τ} {store : τ}
    (h : t.withPointerStore store = .ok u) :
    ∃ left, PointerStore.current store = (.ok none, left) ∧ u = { t with pointer := left } := by
  rw [withPointerStore] at h
  split at h
  · cases h
  · cases h
  · rename_i left hread
    cases h
    exact ⟨left, hread, rfl⟩

variable [PointerStore σ]

/-- Nothing is published on a table that a validator broke. -/
theorem publish_poisoned (h : t.poisoned = true) (base : Option SnapshotId)
    (changes : List Change) :
    t.publish base changes = (.error (.error .lockPoisoned), t) := if_pos h

/-- Behind the swap nothing fails: graph and log follow the pointer. -/
theorem publishChain_swapped {base : Option SnapshotId} {last : SnapshotId}
    {pointer : σ} (h : PointerStore.compareAndSwap t.pointer base last = (.ok (), pointer))
    (chain : List Snapshot) :
    ∃ events, t.publishChain base chain last = (.ok chain, { t with
      pointer
      graph := t.graph.extend chain
      log := ⟨t.log.entries ++ [t.log.nextEntry last .commit t.supply.clock.now]⟩
      supply := { t.supply with clock := t.supply.clock.tick, events } }) := by
  obtain ⟨events, hreport⟩ := foldl_report (chain.map publishedEvent) { t with
    pointer
    graph := t.graph.extend chain
    log := ⟨t.log.entries ++ [t.log.nextEntry last .commit t.supply.clock.now]⟩
    supply := { t.supply with clock := t.supply.clock.tick } }
  refine ⟨events, ?_⟩
  simp only [publishChain, h, recordMove_eq, hreport]

def swapBack (t : Table σ) (base : Option SnapshotId) (s : Snapshot) :
    Except TableError Snapshot × Table σ :=
  match PointerStore.compareAndSwap t.pointer base s.id with
  | (.error e, pointer) => (.error e.toTableError, { t with pointer })
  | (.ok (), pointer) =>
    match { t with pointer }.recordMove s.id .rollback with
    | (.error e, t) => (.error e, t)
    | (.ok (), t) => (.ok s, t.report (.rolledBack base s.id))

/-- A validator that broke down keeps the pointer where it is. -/
theorem movePointer_poisoned (h : t.poisoned = true) (base : Option SnapshotId)
    (target : SnapshotId) : t.movePointer base target = (.error .lockPoisoned, t) := by
  simp only [movePointer, state_poisoned h]

/-- The pointer does not go to what is not published. -/
theorem movePointer_unpublished (h : t.poisoned = false) {target : SnapshotId}
    (hs : t.graph.get? target = none) (base : Option SnapshotId) :
    t.movePointer base target = (.error (.snapshotNotFound target), t) := by
  simp only [movePointer, state_sound h, Graph.find, hs]

/-- Going back to a published snapshot swaps the pointer, unless the base is that snapshot already. -/
theorem movePointer_published (h : t.poisoned = false) {target : SnapshotId} {s : Snapshot}
    (hs : t.graph.get? target = some s) (base : Option SnapshotId) :
    t.movePointer base target =
      if base = some target then
        match t.currentId with
        | (.error e, t) => (.error e, t)
        | (.ok actual, t) => if actual = base then (.ok s, t) else t.swapBack base s
      else t.swapBack base s := by
  obtain rfl := Keyed.key_of_get? hs
  simp only [movePointer, state_sound h, Graph.find, hs]
  rfl

end AnyStore

def fresh (uuid : Uuid) (config : TableConfig) (clock : Clock) : Table MemoryPointer where
  uuid
  config
  validators := Validator.standard
  graph := Keyed.empty
  log := {}
  pointer := {}
  poisoned := false
  supply := { clock, freshManifest := 0 }

def blank : Table MemoryPointer := fresh 0#128 {} (Clock.still 0)

structure Unmoved (t t' : Table MemoryPointer) : Prop where
  config : t'.config = t.config
  validators : t'.validators = t.validators
  graph : t'.graph = t.graph
  log : t'.log = t.log
  pointer : t'.pointer = t.pointer

/-- The table after an operation that failed with `f`. Only a crash poisons it, and rules that nothing
breaks down let none happen. -/
structure Refused (t : Table MemoryPointer) (f : Failure) (t' : Table MemoryPointer) : Prop where
  unmoved : t.Unmoved t'
  poisoned : t'.poisoned = true ↔ t.poisoned = true ∨ f = .crashed
  sturdy : Validator.Sturdy t.validators → f ≠ .crashed

/-- The table after changes on top of `base`, which was current, were published as a chain. -/
structure Grown (t : Table MemoryPointer) (base : Option SnapshotId) (changes : List Change)
    (chain : List Snapshot) (t' : Table MemoryPointer) : Prop where
  config : t'.config = t.config
  validators : t'.validators = t.validators
  sound : t.poisoned = false ∧ t'.poisoned = false
  current : t.pointer.value = base
  built : ∃ parent, t.graph.resolve base = .ok parent ∧
    t.production.Builds parent t.graph.nextId changes chain
  graph : t'.graph.items = t.graph.items ++ chain
  pointer : t'.pointer.value = (chain.getLast?.map Snapshot.id).or base

structure Rewound (t : Table MemoryPointer) (s : Snapshot) (t' : Table MemoryPointer) : Prop where
  config : t'.config = t.config
  validators : t'.validators = t.validators
  sound : t.poisoned = false ∧ t'.poisoned = false
  published : s ∈ t.graph.items
  graph : t'.graph = t.graph
  pointer : t'.pointer.value = some s.id

variable {t : Table MemoryPointer}

/-- A table that is created is new. -/
theorem eq_of_create {uuid : Uuid} {config : TableConfig} {clock : Clock}
    (h : create uuid config clock = .ok t) : t = fresh uuid config clock := by
  rw [create] at h
  cases hv : config.validate with
  | error e =>
    rw [hv] at h
    cases h
  | ok _ =>
    rw [hv] at h
    cases h
    rfl

/-- The blank table is a new one with the standard settings. -/
theorem create_blank : create 0#128 {} (Clock.still 0) = .ok blank := rfl

theorem Unmoved.refl (t : Table MemoryPointer) : t.Unmoved t := ⟨rfl, rfl, rfl, rfl, rfl⟩

theorem Unmoved.trans {t u v : Table MemoryPointer} (h : t.Unmoved u) (h' : u.Unmoved v) :
    t.Unmoved v :=
  ⟨h'.config.trans h.config, h'.validators.trans h.validators, h'.graph.trans h.graph,
    h'.log.trans h.log, h'.pointer.trans h.pointer⟩

/-- To report an event moves nothing. -/
theorem unmoved_report (t : Table MemoryPointer) (e : Event) : t.Unmoved (t.report e) :=
  ⟨rfl, rfl, rfl, rfl, rfl⟩

@[simp] theorem currentId_memory (t : Table MemoryPointer) :
    t.currentId = (.ok t.pointer.value, t) := rfl

/-- A swap on what is current is granted. -/
theorem swap_ok (t : Table MemoryPointer) (target : SnapshotId) :
    PointerStore.compareAndSwap t.pointer t.pointer.value target =
      (.ok (), (⟨some target⟩ : MemoryPointer)) := by
  simp [PointerStore.compareAndSwap, swapValue]

/-- A swap on anything else is refused, with what is current. -/
theorem swap_conflict {base : Option SnapshotId} (h : t.pointer.value ≠ base)
    (target : SnapshotId) : PointerStore.compareAndSwap t.pointer base target =
      (.error (.conflict base t.pointer.value), t.pointer) := by
  simp [PointerStore.compareAndSwap, swapValue, h]

/-- A base that is not current is a conflict, before any validator is asked. -/
theorem publish_stale (h : t.poisoned = false) {base : Option SnapshotId}
    (hbase : base ≠ t.pointer.value) (changes : List Change) :
    t.publish base changes = (.error (.error (.commitConflict base t.pointer.value)),
      t.report (.baseStale base t.pointer.value)) := by
  rw [publish, if_neg (by simp [h])]
  simp only [currentId_memory]
  rw [if_pos hbase.symm]

section Current
variable {parent : Option Snapshot} {changes : List Change} {chain : List Snapshot} {left : Supply}

/-- A pointer at no published snapshot lets nothing be published. -/
theorem publish_unresolved (h : t.poisoned = false) {e : TableError}
    (hparent : t.graph.resolve t.pointer.value = .error e) (changes : List Change) :
    t.publish t.pointer.value changes = (.error (.error e), t) := by
  rw [publish, if_neg (by simp [h])]
  simp only [currentId_memory, ne_eq, not_true_eq_false, if_false, hparent]

/-- A refused change leaves all but the supply as it is, unless a validator broke down over it. -/
theorem publish_refused (h : t.poisoned = false)
    (hparent : t.graph.resolve t.pointer.value = .ok parent) {refusal : Refusal}
    (hreplay : t.production.replay parent t.graph.nextId changes t.supply = (.error refusal, left)) :
    t.publish t.pointer.value changes = (.error refusal.toFailure,
      { t with supply := left, poisoned := decide (refusal = .crashed) }) := by
  rw [publish, if_neg (by simp [h])]
  simp only [currentId_memory, ne_eq, not_true_eq_false, if_false, hparent, hreplay]
  cases refusal with
  | rejected violation => simp [Refusal.toFailure, h]
  | crashed => rfl

private theorem publish_nothing (h : t.poisoned = false)
    (hparent : t.graph.resolve t.pointer.value = .ok parent)
    (hreplay : t.production.replay parent t.graph.nextId changes t.supply = (.ok [], left)) :
    t.publish t.pointer.value changes = (.ok [], { t with supply := left }) := by
  rw [publish, if_neg (by simp [h])]
  simp only [currentId_memory, ne_eq, not_true_eq_false, if_false, hparent, hreplay]
  rfl

/-- A chain that was made of the current snapshot is published: the pointer moves to its end, and log
and graph follow. -/
theorem publish_made (h : t.poisoned = false)
    (hparent : t.graph.resolve t.pointer.value = .ok parent)
    (hreplay : t.production.replay parent t.graph.nextId changes t.supply = (.ok chain, left))
    {last : Snapshot} (hlast : chain.getLast? = some last) :
    ∃ events, t.publish t.pointer.value changes = (.ok chain, { t with
      pointer := ⟨some last.id⟩
      graph := t.graph.extend chain
      log := ⟨t.log.entries ++ [t.log.nextEntry last.id .commit left.clock.now]⟩
      supply := { left with clock := left.clock.tick, events } }) := by
  have hvalid := Graph.validateChain_builds (Production.builds_of_replay hreplay)
    fun _ hq => Graph.mem_of_resolve hparent hq
  obtain ⟨events, heq⟩ := publishChain_swapped (swap_ok { t with supply := left } last.id) chain
  refine ⟨events, ?_⟩
  rw [publish, if_neg (by simp [h])]
  simp only [currentId_memory, ne_eq, not_true_eq_false, if_false, hparent, hreplay, hlast, hvalid]
  exact heq

/-- What the rules accept is published. -/
theorem publish_grown (h : t.poisoned = false)
    (hparent : t.graph.resolve t.pointer.value = .ok parent)
    (hreplay : t.production.replay parent t.graph.nextId changes t.supply = (.ok chain, left)) :
    (t.publish t.pointer.value changes).1 = .ok chain ∧
      t.Grown t.pointer.value changes chain (t.publish t.pointer.value changes).2 := by
  have hb := Production.builds_of_replay hreplay
  cases hlast : chain.getLast? with
  | none =>
    cases List.getLast?_eq_none_iff.mp hlast
    rw [publish_nothing h hparent hreplay]
    exact ⟨rfl, rfl, rfl, ⟨h, h⟩, rfl, ⟨parent, hparent, hb⟩, (List.append_nil _).symm, rfl⟩
  | some last =>
    obtain ⟨events, heq⟩ := publish_made h hparent hreplay hlast
    rw [heq]
    refine ⟨rfl, rfl, rfl, ⟨h, h⟩, rfl, ⟨parent, hparent, hb⟩, Graph.items_extend hb, ?_⟩
    rw [hlast]
    rfl

end Current

/-- A single change that the validators accept on the current snapshot is published. -/
theorem publish_accepted (h : t.poisoned = false) {parent : Option Snapshot}
    (hparent : t.graph.resolve t.pointer.value = .ok parent) {change : Change}
    (haccept : Validator.evaluate (filesAt parent) change t.validators = .ok ()) :
    ∃ s, (t.publish t.pointer.value [change]).1 = .ok [s] ∧
      t.Grown t.pointer.value [change] [s] (t.publish t.pointer.value [change]).2 := by
  obtain ⟨left, hreplay⟩ := Production.replay_single (p := t.production) haccept t.graph.nextId
    t.supply
  exact ⟨_, publish_grown h hparent hreplay⟩

/-- Why publishing can fail: a validator broke down earlier, the base is not current, the current
snapshot is not in the graph, or a change is refused. -/
theorem publish_error {base : Option SnapshotId} {changes : List Change} {f : Failure}
    (h : (t.publish base changes).1 = .error f) :
    f = .error .lockPoisoned ∨
    base ≠ t.pointer.value ∧ f = .error (.commitConflict base t.pointer.value) ∨
    (∃ id, f = .error (.snapshotNotFound id)) ∨ ∃ refusal : Refusal, f = refusal.toFailure := by
  by_cases hp : t.poisoned = true
  · rw [publish_poisoned hp] at h
    exact .inl (Except.error.inj h).symm
  rw [Bool.not_eq_true] at hp
  by_cases hbase : base = t.pointer.value
  · subst hbase
    refine .inr (.inr ?_)
    cases hparent : t.graph.resolve t.pointer.value with
    | error e =>
      rw [publish_unresolved hp hparent] at h
      obtain ⟨id, rfl⟩ := Graph.resolve_error hparent
      exact .inl ⟨id, (Except.error.inj h).symm⟩
    | ok parent =>
      cases hreplay : t.production.replay parent t.graph.nextId changes t.supply with
      | mk answer left =>
        cases answer with
        | ok chain =>
          rw [(publish_grown hp hparent hreplay).1] at h
          cases h
        | error refusal =>
          rw [publish_refused hp hparent hreplay] at h
          exact .inr ⟨refusal, (Except.error.inj h).symm⟩
  · rw [publish_stale hp hbase] at h
    exact .inr (.inl ⟨hbase, (Except.error.inj h).symm⟩)

/-- Publishing refuses and moves nothing, or it publishes a chain built on the current snapshot. -/
theorem publish_cases (t : Table MemoryPointer) (base : Option SnapshotId)
    (changes : List Change) :
    (∃ f, (t.publish base changes).1 = .error f ∧ t.Refused f (t.publish base changes).2) ∨
    ∃ chain, (t.publish base changes).1 = .ok chain ∧
      t.Grown base changes chain (t.publish base changes).2 := by
  by_cases h : t.poisoned = true
  · rw [publish_poisoned h]
    exact .inl ⟨_, rfl, .refl t, by simp, fun _ => by simp⟩
  rw [Bool.not_eq_true] at h
  by_cases hbase : base = t.pointer.value
  · subst hbase
    cases hparent : t.graph.resolve t.pointer.value with
    | error e =>
      rw [publish_unresolved h hparent]
      exact .inl ⟨_, rfl, .refl t, by simp, fun _ => by simp⟩
    | ok parent =>
      cases hreplay : t.production.replay parent t.graph.nextId changes t.supply with
      | mk answer left =>
        cases answer with
        | ok chain => exact .inr ⟨chain, publish_grown h hparent hreplay⟩
        | error refusal =>
          rw [publish_refused h hparent hreplay]
          refine .inl ⟨_, rfl, ⟨rfl, rfl, rfl, rfl, rfl⟩, ?_, ?_⟩
          · cases refusal <;> simp [Refusal.toFailure, h]
          · rintro hsturdy hf
            cases refusal with
            | rejected violation => cases hf
            | crashed =>
              exact Production.replay_ne_crashed hsturdy _ _ _ _ (congrArg Prod.fst hreplay)
  · rw [publish_stale h hbase]
    exact .inl ⟨_, rfl, unmoved_report t _, by simp [report], fun _ => by simp⟩

def rewound (t : Table MemoryPointer) (s : Snapshot) : Table MemoryPointer :=
  { t with
    pointer := ⟨some s.id⟩
    log := ⟨t.log.entries ++ [t.log.nextEntry s.id .rollback t.supply.clock.now]⟩
    supply := { t.supply with clock := t.supply.clock.tick }.report (.rolledBack t.pointer.value s.id) }

private theorem swapBack_current (t : Table MemoryPointer) (s : Snapshot) :
    t.swapBack t.pointer.value s = (.ok s, t.rewound s) := by
  simp only [swapBack, swap_ok, recordMove_eq]
  rfl

/-- Going back from where the pointer is needs nothing but a published target. -/
theorem movePointer_current (h : t.poisoned = false) {s : Snapshot} (hs : s ∈ t.graph.items) :
    t.movePointer t.pointer.value s.id =
      (.ok s, if t.pointer.value = some s.id then t else t.rewound s) := by
  rw [movePointer_published h (Keyed.get?_eq_some_iff.mpr ⟨hs, rfl⟩)]
  simp only [currentId_memory, swapBack_current, if_true]
  split <;> rfl

/-- All that going back can do: it refuses, or finds the pointer where it is to go, or puts it there. -/
theorem movePointer_outcome (t : Table MemoryPointer) (base : Option SnapshotId)
    (target : SnapshotId) :
    (∃ e, t.movePointer base target = (.error e, t) ∧
      (e = .lockPoisoned ∨ e = .snapshotNotFound target ∨ e = .commitConflict base t.pointer.value)) ∨
    ∃ s ∈ t.graph.items, s.id = target ∧ t.poisoned = false ∧ t.pointer.value = base ∧
      t.movePointer base target =
        (.ok s, if t.pointer.value = some s.id then t else t.rewound s) := by
  cases h : t.poisoned with
  | true => exact .inl ⟨_, movePointer_poisoned h base target, .inl rfl⟩
  | false =>
    cases hs : t.graph.get? target with
    | none => exact .inl ⟨_, movePointer_unpublished h hs base, .inr (.inl rfl)⟩
    | some s =>
      obtain ⟨hmem, rfl⟩ := Keyed.get?_eq_some_iff.mp hs
      by_cases hcur : t.pointer.value = base
      · subst hcur
        exact .inr ⟨s, hmem, rfl, rfl, rfl, movePointer_current h hmem⟩
      · refine .inl ⟨.commitConflict base t.pointer.value, ?_, .inr (.inr rfl)⟩
        rw [movePointer_published h hs]
        simp only [currentId_memory, swapBack, swap_conflict hcur, if_neg hcur, ite_self]
        rfl

/-- Going back refuses and moves nothing, or it puts the pointer at the target. -/
theorem movePointer_cases (t : Table MemoryPointer) (base : Option SnapshotId)
    (target : SnapshotId) :
    (∃ e, (t.movePointer base target).1 = .error e ∧ t.Unmoved (t.movePointer base target).2 ∧
      (t.movePointer base target).2.poisoned = t.poisoned) ∨
    ∃ s, (t.movePointer base target).1 = .ok s ∧ s.id = target ∧
      t.Rewound s (t.movePointer base target).2 := by
  rcases t.movePointer_outcome base target with ⟨e, heq, -⟩ | ⟨s, hs, hid, h, -, heq⟩
  · rw [heq]
    exact .inl ⟨e, rfl, .refl t, rfl⟩
  · rw [heq]
    refine .inr ⟨s, rfl, hid, ?_⟩
    dsimp only
    split
    · rename_i hsame
      exact ⟨rfl, rfl, ⟨h, h⟩, hs, rfl, hsame⟩
    · exact ⟨rfl, rfl, ⟨h, h⟩, hs, rfl, rfl⟩

/-- What grows is the graph, by the chain. -/
theorem Grown.graph_eq {t' : Table MemoryPointer} {base : Option SnapshotId} {changes : List Change}
    {chain : List Snapshot} (h : t.Grown base changes chain t') : t'.graph = t.graph.extend chain := by
  obtain ⟨parent, -, hbuilt⟩ := h.built
  exact Keyed.ext (h.graph.trans (Graph.items_extend hbuilt).symm)

/-- Publishing keeps the pointer at published snapshots. -/
theorem Grown.pointer_published {t' : Table MemoryPointer} {base : Option SnapshotId}
    {changes : List Change} {chain : List Snapshot} (h : t.Grown base changes chain t')
    (hp : ∀ id, t.pointer.value = some id → ∃ s ∈ t.graph.items, s.id = id) :
    ∀ id, t'.pointer.value = some id → ∃ s ∈ t'.graph.items, s.id = id := by
  intro id hid
  rw [h.pointer] at hid
  rw [h.graph]
  cases hl : chain.getLast? with
  | none =>
    rw [hl, Option.map_none, Option.none_or, ← h.current] at hid
    obtain ⟨s, hs, he⟩ := hp id hid
    exact ⟨s, List.mem_append_left _ hs, he⟩
  | some last =>
    rw [hl] at hid
    cases hid
    exact ⟨last, List.mem_append_right _ (List.mem_of_getLast? hl), rfl⟩

/-- Behind a rollback the pointer is at a published snapshot. -/
theorem Rewound.pointer_published {t' : Table MemoryPointer} {s : Snapshot} (h : t.Rewound s t') :
    ∀ id, t'.pointer.value = some id → ∃ s ∈ t'.graph.items, s.id = id := by
  rw [h.pointer, h.graph]
  rintro _ ⟨⟩
  exact ⟨s, h.published, rfl⟩

end Table
end SnapshotTable
