import SnapshotTable.Proofs.CommitOutcomes
import SnapshotTable.Proofs.Numbering

/-! The ledger of a table: every snapshot that requests published, each with the change that its
request staged. Requests come in any order, and the bases they carry are arbitrary, so a handle may
have been begun at any moment. Whatever the requests, the ledger lists the graph, and each snapshot
on it was built from its own change on top of an earlier one. Whatever else clients do, with any
store, the graph is listed by some such ledger: one step lemma on graphs serves both. -/

namespace SnapshotTable

structure Publication where
  snapshot : Snapshot
  change : Change

namespace Table

/-- Serves a request. An answer of new snapshots is entered against the changes of the request. -/
def serve (t : Table MemoryPointer) : Request → List Publication × Table MemoryPointer
  | .commit c =>
    match t.commit c with
    | (.ok s, t) => ([⟨s, c.change⟩], t)
    | (.error _, t) => ([], t)
  | .transaction txn =>
    match t.commitTransaction txn with
    | (.ok chain, t) => (List.zipWith Publication.mk chain txn.staged, t)
    | (.error _, t) => ([], t)
  | .rollback r => ([], (t.commitRollback r).2)

def serveAll (t : Table MemoryPointer) : List Request → List Publication × Table MemoryPointer
  | [] => ([], t)
  | r :: rest =>
    let (made, t) := t.serve r
    let (more, t) := t.serveAll rest
    (made ++ more, t)

def forked : List Publication × Table MemoryPointer := blank.serveAll [
  .commit ⟨.ok none, (Change.start .append).add { path := "a" }⟩,
  .commit ⟨.ok (some 1), (Change.start .append).add { path := "b" }⟩,
  .rollback ⟨some 2, some (.snapshot 1)⟩,
  .commit ⟨.ok (some 1), (Change.start .append).add { path := "c" }⟩]

private theorem serve_snd (t : Table MemoryPointer) (r : Request) : (t.serve r).2 = (t.respond r).2 := by
  cases r with
  | commit c =>
    rw [serve, respond]
    rcases t.commit c with ⟨_ | _, _⟩ <;> rfl
  | transaction txn =>
    rw [serve, respond]
    rcases t.commitTransaction txn with ⟨_ | _, _⟩ <;> rfl
  | rollback r =>
    rw [serve, respond]
    rcases t.commitRollback r with ⟨_ | _, _⟩ <;> rfl

end Table

/-- The tables that a new one can become, with their ledgers. -/
inductive Reachable : Table MemoryPointer → List Publication → Prop
  | create {uuid : Uuid} {config : TableConfig} {clock : Clock} {t : Table MemoryPointer}
      (h : Table.create uuid config clock = .ok t) : Reachable t []
  | serve {t : Table MemoryPointer} {ledger : List Publication} (h : Reachable t ledger)
      (r : Request) : Reachable (t.serve r).2 (ledger ++ (t.serve r).1)

/-- A new table with valid settings is reachable. -/
theorem reachable_fresh {config : TableConfig} (h : config.validate = .ok ()) (uuid : Uuid)
    (clock : Clock) : Reachable (Table.fresh uuid config clock) [] := by
  have hnew : Table.create uuid config clock = .ok (Table.fresh uuid config clock) := by
    rw [Table.create, h]
    rfl
  exact .create hnew

theorem reachable_blank : Reachable .blank [] := reachable_fresh rfl _ _

namespace Reachable
variable {t : Table MemoryPointer} {ledger : List Publication}

/-- Serving more requests stays among the reachable tables. -/
theorem serveAll (h : Reachable t ledger) (rs : List Request) :
    Reachable (t.serveAll rs).2 (ledger ++ (t.serveAll rs).1) := by
  induction rs generalizing t ledger with
  | nil => simpa [Table.serveAll] using h
  | cons r rest ih =>
    have hrest := ih (h.serve r)
    rw [List.append_assoc] at hrest
    exact hrest

/-- A run of requests is one of the runs that clients may make. -/
theorem reaches (h : Reachable t ledger) :
    ∃ uuid config clock, Reaches (Table.fresh uuid config clock) t := by
  induction h with
  | @create uuid config clock t h =>
    obtain rfl := Table.eq_of_create h
    exact ⟨uuid, config, clock, .here⟩
  | serve _ r ih =>
    obtain ⟨uuid, config, clock, hr⟩ := ih
    rw [Table.serve_snd]
    exact ⟨uuid, config, clock, hr.respond r⟩

/-- So the rules that a new table has leave its state in reach. -/
theorem unbroken (h : Reachable t ledger) : t.poisoned = false := by
  obtain ⟨_, _, _, hr⟩ := h.reaches
  exact hr.unbroken rfl Validator.sturdy_standard

/-- The snapshots of a reachable table are numbered without a gap. -/
theorem numbered (h : Reachable t ledger) : Numbered t := by
  obtain ⟨uuid, config, clock, hr⟩ := h.reaches
  exact (Numbered.fresh uuid config clock Validator.standard).reaches hr

end Reachable

theorem reachable_forked : Reachable Table.forked.2 Table.forked.1 := reachable_blank.serveAll _

/-- A publication was accepted by the rules and built on top of an earlier one, or of nothing. -/
def Made (p : Production) (ledger : List Publication) (e : Publication) : Prop :=
  ∃ (parent : Option Snapshot) (fresh : ManifestId) (now : Instant),
    (∀ q, parent = some q → q ∈ ledger.map Publication.snapshot ∧ q.id < e.snapshot.id) ∧
    Validator.evaluate (filesAt parent) e.change p.validators = .ok () ∧
    e.snapshot = p.build parent e.snapshot.id e.change fresh now

/-- A graph with the ledger that lists it, under the standard rules. -/
structure Kept (p : Production) (g : Graph) (ledger : List Publication) : Prop where
  rules : p.validators = Validator.standard
  graph : g.items = ledger.map Publication.snapshot
  made : ∀ e ∈ ledger, Made p ledger e

private theorem Made.mono {p : Production} {ledger more : List Publication} {e : Publication}
    (h : Made p ledger e) : Made p (ledger ++ more) e := by
  obtain ⟨parent, fresh, now, hparent, haccept, hbuild⟩ := h
  refine ⟨parent, fresh, now, fun q hq => ⟨?_, (hparent q hq).2⟩, haccept, hbuild⟩
  rw [List.map_append]
  exact List.mem_append_left _ (hparent q hq).1

namespace Production.Builds
variable {p : Production} {parent : Option Snapshot} {id : SnapshotId} {changes : List Change}
  {chain : List Snapshot}

/-- The publications of a chain list its snapshots. -/
theorem map_snapshot (h : p.Builds parent id changes chain) :
    (List.zipWith Publication.mk chain changes).map Publication.snapshot = chain := by
  induction h with
  | nil => rfl
  | cons _ _ _ _ ih => rw [List.zipWith_cons_cons, List.map_cons, ih]

private theorem made {ledger : List Publication} (h : p.Builds parent id changes chain)
    (hparent : ∀ q, parent = some q → q ∈ ledger.map Publication.snapshot ∧ q.id < id) :
    ∀ e ∈ List.zipWith Publication.mk chain changes,
      Made p (ledger ++ List.zipWith Publication.mk chain changes) e := by
  induction h generalizing ledger with
  | nil => simp
  | @cons parent id change rest chain fresh now accepted _ ih =>
    let s := p.build parent id change fresh now
    have hlater := @ih (ledger ++ [⟨s, change⟩]) (by
      rintro q hq
      cases hq
      exact ⟨by simp [s], Nat.lt_succ_self _⟩)
    rw [List.zipWith_cons_cons]
    rw [List.append_assoc, List.singleton_append] at hlater
    intro e he
    rcases List.mem_cons.mp he with rfl | he
    · have hfirst : Made p ledger ⟨s, change⟩ := ⟨parent, fresh, now, hparent, accepted, rfl⟩
      exact hfirst.mono
    · exact hlater e he

end Production.Builds

/-- What is built on a published snapshot is entered behind what there is. -/
theorem Kept.extend {p : Production} {g : Graph} {ledger : List Publication} (h : Kept p g ledger)
    {base : Option SnapshotId} {parent : Option Snapshot} {changes : List Change} {chain : List Snapshot}
    (hparent : g.resolve base = .ok parent) (hbuilt : p.Builds parent g.nextId changes chain) :
    Kept p (g.extend chain) (ledger ++ List.zipWith Publication.mk chain changes) where
  rules := h.rules
  graph := by rw [Graph.items_extend hbuilt, h.graph, List.map_append, hbuilt.map_snapshot]
  made := by
    intro e he
    rcases List.mem_append.mp he with he | he
    · exact (h.made e he).mono
    · refine hbuilt.made (fun q hq => ?_) e he
      have hmem := Graph.mem_of_resolve hparent hq
      exact ⟨h.graph ▸ hmem, Graph.id_lt_nextId hmem⟩

private theorem kept_empty {p : Production} (h : p.validators = Validator.standard) :
    Kept p Keyed.empty [] :=
  ⟨h, rfl, nofun⟩

section Requests
variable {t t' : Table MemoryPointer} {ledger : List Publication}

private theorem Kept.grown {base : Option SnapshotId} {changes : List Change} {chain : List Snapshot}
    (h : Kept t.production t.graph ledger) (h' : t.Grown base changes chain t') :
    Kept t.production t'.graph (ledger ++ List.zipWith Publication.mk chain changes) := by
  obtain ⟨parent, hparent, hbuilt⟩ := h'.built
  exact h'.graph_eq ▸ h.extend hparent hbuilt

private theorem Kept.serve (h : Kept t.production t.graph ledger) (r : Request) :
    Kept t.production (t.serve r).2.graph (ledger ++ (t.serve r).1) := by
  cases r with
  | commit c =>
    rcases t.commit_cases c with ⟨f, hf, hr⟩ | ⟨s, current, hs, hg⟩
    · rw [Table.serve, ← Prod.eta (t.commit c), hf]
      simpa [hr.unmoved.graph] using h
    · rw [Table.serve, ← Prod.eta (t.commit c), hs]
      exact h.grown hg
  | transaction txn =>
    rcases t.commitTransaction_cases txn with ⟨f, hf, hr⟩ | ⟨chain, hc, hg⟩ | ⟨hnil, heq⟩
    · rw [Table.serve, ← Prod.eta (t.commitTransaction txn), hf]
      simpa [hr.unmoved.graph] using h
    · rw [Table.serve, ← Prod.eta (t.commitTransaction txn), hc]
      exact h.grown hg
    · rw [Table.serve, heq]
      simpa using h
  | rollback r =>
    have hnothing : ledger ++ (t.serve (.rollback r)).1 = ledger := List.append_nil ledger
    have hsame : (t.commitRollback r).2.graph = t.graph := by
      rcases t.commitRollback_cases r with ⟨hu, -⟩ | ⟨s, hr⟩
      · exact hu.graph
      · exact hr.graph
    rw [hnothing, Table.serve, hsame]
    exact h

/-- Every reachable table keeps its ledger. -/
theorem Reachable.kept (h : Reachable t ledger) : Kept t.production t.graph ledger := by
  induction h with
  | create h =>
    obtain rfl := Table.eq_of_create h
    exact kept_empty rfl
  | @serve t ledger _ r ih =>
    have hsame : (t.serve r).2.production = t.production := by
      rw [Table.serve_snd]
      exact (Reaches.here.respond r).production_eq
    rw [hsame]
    exact ih.serve r

end Requests

section AnyStore
variable {σ : Type} [PointerStore σ] {start t : Table σ} {ledger : List Publication}

/-- Whatever clients do, the ledger goes on. -/
theorem Reaches.kept (h : Reaches start t) (hstart : Kept start.production start.graph ledger) :
    ∃ more, Kept t.production t.graph (ledger ++ more) := by
  rw [h.production_eq]
  apply h.published (P := fun g => ∃ more, Kept start.production g (ledger ++ more))
  · exact ⟨[], by rwa [List.append_nil]⟩
  · rintro g base parent changes supply left chain ⟨more, hmore⟩ hparent hreplay
    have hlater := hmore.extend hparent (Production.builds_of_replay hreplay)
    rw [List.append_assoc] at hlater
    exact ⟨_, hlater⟩

/-- A new table, in whatever store its pointer is put, has its state in reach and a ledger wherever clients
bring it. -/
theorem Reaches.kept_of_create {uuid : Uuid} {config : TableConfig} {clock : Clock}
    {created : Table MemoryPointer} (h : Table.create uuid config clock = .ok created) {store : σ}
    (hstart : created.withPointerStore store = .ok start) (hr : Reaches start t) :
    t.poisoned = false ∧ ∃ ledger, Kept t.production t.graph ledger := by
  obtain rfl := Table.eq_of_create h
  obtain ⟨left, -, rfl⟩ := Table.eq_of_withPointerStore hstart
  exact ⟨hr.unbroken rfl Validator.sturdy_standard, hr.kept (kept_empty rfl)⟩

end AnyStore
end SnapshotTable
