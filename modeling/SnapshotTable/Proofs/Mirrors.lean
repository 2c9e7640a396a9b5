import SnapshotTable.Proofs.OneByOne
import SnapshotTable.Proofs.Renaming

/-! Tables that mirror each other: they hold the same snapshots and the same log, but at other times and with
manifests under other identities. An operation that fails on a table may use up identities and readings of
the clock, and nothing else, so the table still mirrors what it did. An operation that succeeds does so on
both tables, with the same answer. -/

namespace SnapshotTable

def LogEntry.untimed (e : LogEntry) : LogEntry := { e with changedAt := Instant.ofNanos 0 }

private theorem PointerLog.untimed_append {log log' : PointerLog}
    (h : log'.entries.map LogEntry.untimed = log.entries.map LogEntry.untimed) (id : SnapshotId)
    (change : PointerChange) (now now' : Instant) :
    (log'.entries ++ [log'.nextEntry id change now']).map LogEntry.untimed =
      (log.entries ++ [log.nextEntry id change now]).map LogEntry.untimed := by
  have hlast (log : PointerLog) : log.lastSequence =
      ((log.entries.map LogEntry.untimed).getLast?.map LogEntry.sequence).getD 0 := by
    rw [lastSequence, List.getLast?_map, Option.map_map]
    rfl
  have hsequence : log'.lastSequence = log.lastSequence := by rw [hlast, hlast, h]
  rw [List.map_append, List.map_append, h, nextEntry, nextEntry, hsequence]
  rfl

structure Table.Idle (t t' : Table MemoryPointer) : Prop where
  unmoved : t.Unmoved t'
  poisoned : t'.poisoned = t.poisoned
  fresh : t.supply.freshManifest ≤ t'.supply.freshManifest

theorem Table.Idle.refl (t : Table MemoryPointer) : t.Idle t := ⟨.refl t, rfl, Nat.le_refl _⟩

/-- To report an event is to do nothing. -/
theorem Table.Idle.report {t t' : Table MemoryPointer} (h : t.Idle t') (e : Event) :
    t.Idle (t'.report e) := ⟨h.unmoved.trans (t'.unmoved_report e), h.poisoned, h.fresh⟩

private theorem Table.respond_commit (t : Table MemoryPointer) (change : Change) :
    t.respond (.commit ⟨.ok t.pointer.value, change⟩) = t.publish t.pointer.value [change] := by
  have hcommit : t.commit ⟨.ok t.pointer.value, change⟩ = t.attempt t.pointer.value change :=
    t.commitFrom_current change 0 t.config.commitRetries
  rw [respond, hcommit, attempt]
  rcases t.publish_settles t.pointer.value [change] with ⟨f, hf, -⟩ | ⟨hnil, -⟩ | ⟨chain, last, hc, hlen, -⟩
  · rw [← Prod.eta (t.publish t.pointer.value [change]), hf]
    rfl
  · cases hnil
  · obtain ⟨s, rfl⟩ := List.length_eq_one_iff.mp hlen
    rw [← Prod.eta (t.publish t.pointer.value [change]), hc]
    rfl

/-- `t` holds what `u` holds, at other times and with its manifests renamed by `σ`. Both have the same rules,
which nothing breaks down. -/
structure Mirrors (σ : ManifestId → ManifestId) (u t : Table MemoryPointer) : Prop where
  config : t.config = u.config
  validators : t.validators = u.validators
  sturdy : Validator.Sturdy u.validators
  sound : u.poisoned = false ∧ t.poisoned = false
  graph : List.Forall₂ (Renamed σ) u.graph.items t.graph.items
  pointer : t.pointer.value = u.pointer.value
  log : t.log.entries.map LogEntry.untimed = u.log.entries.map LogEntry.untimed
  /-- Different manifests keep different identities, in their order. -/
  mono : StrictMono σ
  fresh : Continues σ u.supply.freshManifest t.supply.freshManifest
  below : ∀ s ∈ u.graph.items, s.Below u.supply.freshManifest

/-- How an operation ends on `t` and on a table that `t` mirrors: it fails on `t` and moves nothing there, or
it succeeds on both with snapshots of the same identifiers. -/
def Parallel (σ : ManifestId → ManifestId) (t : Table MemoryPointer)
    (x y : Except Failure (List Snapshot) × Table MemoryPointer) : Prop :=
  (∃ e, y.1 = .error (.error e) ∧ t.Idle y.2) ∨
  ∃ chain chain', x.1 = .ok chain ∧ y.1 = .ok chain' ∧
    chain'.map Snapshot.id = chain.map Snapshot.id ∧ Mirrors σ x.2 y.2

inductive Request.On (base : Option SnapshotId) : Request → Prop
  | commit (change : Change) : On base (.commit ⟨.ok base, change⟩)
  | transaction (changes : List Change) : On base (.transaction ⟨base, changes⟩)
  | rollback (id : SnapshotId) : On base (.rollback ⟨base, some (.snapshot id)⟩)

namespace Mirrors
variable {σ : ManifestId → ManifestId} {u t t' : Table MemoryPointer}

private theorem report (h : Mirrors σ u t) (e e' : Event) : Mirrors σ (u.report e) (t.report e') :=
  ⟨h.config, h.validators, h.sturdy, h.sound, h.graph, h.pointer, h.log, h.mono, h.fresh, h.below⟩

/-- What an idle operation used up is skipped by the renaming. -/
theorem idle (h : Mirrors σ u t) (hidle : t.Idle t') : ∃ σ', Mirrors σ' u t' := by
  have hfirst : σ u.supply.freshManifest = t.supply.freshManifest := h.fresh 0
  refine ⟨renamedFrom σ u.supply.freshManifest t'.supply.freshManifest, ?_⟩
  refine ⟨?_, ?_, h.sturdy, ?_, ?_, ?_, ?_, ?_, continues_renamedFrom _ _ _, h.below⟩
  · exact hidle.unmoved.config.trans h.config
  · exact hidle.unmoved.validators.trans h.validators
  · exact ⟨h.sound.1, hidle.poisoned.trans h.sound.2⟩
  · rw [hidle.unmoved.graph]
    have hbelow := (List.forall₂_and_left _ _).mpr ⟨h.below, h.graph⟩
    exact hbelow.imp fun s s' hs => hs.2.congr hs.1 fun n hn => renamedFrom_of_lt hn
  · rw [hidle.unmoved.pointer, h.pointer]
  · rw [hidle.unmoved.log, h.log]
  · exact strictMono_renamedFrom h.mono (hfirst ▸ hidle.fresh)

private theorem get? (h : Mirrors σ u t) (id : SnapshotId) :
    Option.Rel (Renamed σ) (u.graph.get? id) (t.graph.get? id) :=
  Snapshot.find?_rel (fun _ _ hs => hs.id_eq) h.graph id

private theorem resolve (h : Mirrors σ u t) (id : Option SnapshotId) :
    Matches (Option.Rel (Renamed σ)) (u.graph.resolve id) (t.graph.resolve id) := by
  cases id with
  | none => exact .ok .none
  | some id =>
    have hs := h.get? id
    rw [Graph.resolve, Graph.resolve, Graph.find, Graph.find]
    generalize u.graph.get? id = found, t.graph.get? id = found' at hs ⊢
    cases hs with
    | none => exact .error _
    | some hs => exact .ok (.some hs)

private theorem current (h : Mirrors σ u t) :
    Matches (Option.Rel (Renamed σ)) (u.graph.resolve u.pointer.value)
      (t.graph.resolve t.pointer.value) := by
  rw [h.pointer]
  exact h.resolve u.pointer.value

private theorem nextId (h : Mirrors σ u t) : t.graph.nextId = u.graph.nextId := by
  rw [Graph.nextId, Graph.nextId, Graph.lastId?, Graph.lastId?,
    Snapshot.last_id_rel (fun _ _ hs => hs.id_eq) h.graph]

private theorem replay (h : Mirrors σ u t) {parent parent' : Option Snapshot}
    (hparent : Option.Rel (Renamed σ) parent parent') (changes : List Change) :
    Matches (List.Forall₂ (Renamed σ))
        (u.production.replay parent u.graph.nextId changes u.supply).1
        (t.production.replay parent' t.graph.nextId changes t.supply).1 ∧
      Continues σ (u.production.replay parent u.graph.nextId changes u.supply).2.freshManifest
        (t.production.replay parent' t.graph.nextId changes t.supply).2.freshManifest := by
  rw [Table.production_congr h.config h.validators, h.nextId]
  exact Production.replay_renamed hparent h.fresh u.production u.graph.nextId changes

private theorem published (h : Mirrors σ u t) {changes : List Change} (hne : changes ≠ [])
    {parent parent' : Option Snapshot} (hbase : u.graph.resolve u.pointer.value = .ok parent)
    (hbase' : t.graph.resolve t.pointer.value = .ok parent') {chain chain' : List Snapshot}
    {left left' : Supply}
    (hreplay : u.production.replay parent u.graph.nextId changes u.supply = (.ok chain, left))
    (hreplay' : t.production.replay parent' t.graph.nextId changes t.supply = (.ok chain', left'))
    (hchain : List.Forall₂ (Renamed σ) chain chain')
    (hfresh : Continues σ left.freshManifest left'.freshManifest) :
    (u.publish u.pointer.value changes).1 = .ok chain ∧
      (t.publish t.pointer.value changes).1 = .ok chain' ∧
      Mirrors σ (u.publish u.pointer.value changes).2 (t.publish t.pointer.value changes).2 := by
  have hbuilds := Production.builds_of_replay hreplay
  have hbuilds' := Production.builds_of_replay hreplay'
  have hlasts := Snapshot.last_id_rel (fun _ _ hs => hs.id_eq) hchain
  have hle := u.production.replay_fresh_le parent u.graph.nextId changes u.supply
  rw [hreplay] at hle
  cases hlast : chain.getLast? with
  | none =>
    have hlength := hbuilds.length_eq
    rw [List.getLast?_eq_none_iff.mp hlast] at hlength
    exact absurd (List.length_eq_zero_iff.mp hlength.symm) hne
  | some last =>
    rw [hlast] at hlasts
    obtain ⟨last', hlast', hid⟩ := Option.map_eq_some_iff.mp hlasts
    obtain ⟨events, heq⟩ := Table.publish_made h.sound.1 hbase hreplay hlast
    obtain ⟨events', heq'⟩ := Table.publish_made h.sound.2 hbase' hreplay' hlast'
    rw [heq, heq']
    refine ⟨rfl, rfl, h.config, h.validators, h.sturdy, h.sound, ?_, congrArg some hid, ?_, h.mono,
      hfresh, ?_⟩
    · dsimp only
      rw [Graph.items_extend hbuilds, Graph.items_extend hbuilds']
      exact List.rel_append h.graph hchain
    · dsimp only
      rw [hid]
      exact PointerLog.untimed_append h.log _ _ _ _
    · dsimp only
      rw [Graph.items_extend hbuilds]
      refine List.forall_mem_append.mpr ⟨?_, Production.replay_below ?_ hreplay⟩
      · exact fun s hs m hm => Nat.lt_of_lt_of_le (h.below s hs m hm) hle
      · exact fun q hq => h.below q (Graph.mem_of_resolve hbase hq)

/-- A chain that is made of what is current is published on both tables, or refused on both. -/
theorem publish (h : Mirrors σ u t) {changes : List Change} (hne : changes ≠ []) :
    Parallel σ t (u.publish u.pointer.value changes) (t.publish t.pointer.value changes) := by
  have hcurrent := h.current
  generalize hbase : u.graph.resolve u.pointer.value = base,
    hbase' : t.graph.resolve t.pointer.value = base' at hcurrent
  cases hcurrent with
  | error e =>
    rw [Table.publish_unresolved h.sound.2 hbase']
    exact .inl ⟨e, rfl, .refl t⟩
  | @ok parent parent' hparent =>
    obtain ⟨hmatch, hfresh⟩ := h.replay hparent changes
    cases hreplay : u.production.replay parent u.graph.nextId changes u.supply with
    | mk answer left =>
      cases hreplay' : t.production.replay parent' t.graph.nextId changes t.supply with
      | mk answer' left' =>
        rw [hreplay, hreplay'] at hmatch hfresh
        cases hmatch with
        | error refusal =>
          left
          rw [Table.publish_refused h.sound.2 hbase' hreplay']
          have hle := t.production.replay_fresh_le parent' t.graph.nextId changes t.supply
          rw [hreplay'] at hle
          cases refusal with
          | rejected violation =>
            exact ⟨.validation violation, rfl, ⟨rfl, rfl, rfl, rfl, rfl⟩, h.sound.2.symm, hle⟩
          | crashed =>
            have hsturdy : Validator.Sturdy t.validators := h.validators ▸ h.sturdy
            exact absurd (congrArg Prod.fst hreplay') (Production.replay_ne_crashed hsturdy _ _ _ _)
        | @ok chain chain' hchain =>
          obtain ⟨hanswer, hanswer', hmirrors⟩ :=
            h.published hne hbase hbase' hreplay hreplay' hchain hfresh
          have hids := Snapshot.ids_rel (fun _ _ hs => hs.id_eq) hchain
          exact .inr ⟨chain, chain', hanswer, hanswer', hids, hmirrors⟩

private theorem rewound (h : Mirrors σ u t) {s s' : Snapshot} (hid : s'.id = s.id) :
    Mirrors σ (u.rewound s) (t.rewound s') := by
  refine ⟨h.config, h.validators, h.sturdy, h.sound, h.graph, congrArg some hid, ?_, h.mono, h.fresh,
    h.below⟩
  rw [Table.rewound, Table.rewound, hid]
  exact PointerLog.untimed_append h.log _ _ _ _

/-- Going back to a snapshot puts the pointer there on both tables, if it is published. -/
theorem movePointer (h : Mirrors σ u t) (id : SnapshotId) :
    (∃ e, t.movePointer t.pointer.value id = (.error e, t)) ∨
    ∃ s s', (u.movePointer u.pointer.value id).1 = .ok s ∧
      (t.movePointer t.pointer.value id).1 = .ok s' ∧ s'.id = s.id ∧
      Mirrors σ (u.movePointer u.pointer.value id).2 (t.movePointer t.pointer.value id).2 := by
  rcases t.movePointer_outcome t.pointer.value id with ⟨e, heq, -⟩ | ⟨s', hs', rfl, -, -, heq'⟩
  · exact .inl ⟨e, heq⟩
  · have hfound := h.get? s'.id
    rw [Graph.get?_of_mem hs'] at hfound
    cases hget : u.graph.get? s'.id with
    | none =>
      rw [hget] at hfound
      cases hfound
    | some s =>
      obtain ⟨hs, hid⟩ := Keyed.get?_eq_some_iff.mp hget
      have heq := Table.movePointer_current h.sound.1 hs
      rw [heq', ← hid, heq, hid, h.pointer]
      refine .inr ⟨s, s', rfl, rfl, hid.symm, ?_⟩
      dsimp only
      split
      · exact h
      · exact h.rewound hid.symm

/-- A request by somebody who has just read the pointer ends in the same way on both tables. -/
theorem respond (h : Mirrors σ u t) {r : Request} (hr : r.On u.pointer.value) :
    Parallel σ t (u.respond r) (t.respond r) := by
  cases hr with
  | commit change =>
    have hpublish := h.publish (List.cons_ne_nil change [])
    rw [← Table.respond_commit, ← Table.respond_commit, h.pointer] at hpublish
    exact hpublish
  | transaction changes =>
    rw [Table.respond, Table.respond, Table.commitTransaction, Table.commitTransaction]
    split
    · exact .inr ⟨[], [], rfl, rfl, rfl, h⟩
    · rename_i hsome
      have hne : changes ≠ [] := by simpa using hsome
      have hpublish := h.publish hne
      rw [h.pointer] at hpublish
      dsimp only
      rcases hpublish with ⟨e, he, hidle⟩ | ⟨chain, chain', hc, hc', hids, hmirrors⟩
      · rw [← Prod.eta (t.publish u.pointer.value changes), he]
        exact .inl ⟨e, rfl, hidle⟩
      · rw [← Prod.eta (t.publish u.pointer.value changes), hc',
          ← Prod.eta (u.publish u.pointer.value changes), hc]
        exact .inr ⟨chain, chain', rfl, rfl, hids, hmirrors.report _ _⟩
  | rollback id =>
    have hmove := h.movePointer id
    rw [h.pointer] at hmove
    rw [Table.respond, Table.respond, Table.commitRollback, Table.commitRollback]
    dsimp only
    rcases hmove with ⟨e, heq⟩ | ⟨s, s', hs, hs', hid, hmirrors⟩
    · rw [heq]
      exact .inl ⟨e, rfl, .refl t⟩
    · rw [← Prod.eta (t.movePointer u.pointer.value id), hs',
        ← Prod.eta (u.movePointer u.pointer.value id), hs]
      exact .inr ⟨[s], [s'], rfl, rfl, by rw [List.map_singleton, List.map_singleton, hid], hmirrors⟩

end Mirrors
end SnapshotTable
