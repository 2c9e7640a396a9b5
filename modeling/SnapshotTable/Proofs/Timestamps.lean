import SnapshotTable.Proofs.Instants
import SnapshotTable.Proofs.PointerHistory
import SnapshotTable.Proofs.RangeSeams

/-! Time goes on along every lineage. Whatever the clock shows, a snapshot is a millisecond behind its parent
at least: the invariant is that of single parents, kept where a chain is published on any published base, and
from it any ancestor is a millisecond before, one path at a time. So rounding to milliseconds, as documents
do, keeps the order. -/

namespace SnapshotTable

def Snapshot.Behind (s q : Snapshot) : Prop :=
  q.timestamp.nanos + Instant.nanosPerMilli ≤ s.timestamp.nanos

private theorem Snapshot.Behind.trans {a b c : Snapshot} (h : c.Behind b) (h' : b.Behind a) :
    c.Behind a := by
  rw [Behind] at h h' ⊢
  omega

namespace Production
variable {p : Production} {parent : Option Snapshot}

private theorem timestamp_ofNanos (hparent : ∀ q, parent = some q → q.timestamp.Counted) (now : Int) :
    ∃ n, timestamp parent (Instant.ofNanos now) = Instant.ofNanos n ∧
      ∀ q, parent = some q → q.timestamp.nanos + Instant.nanosPerMilli ≤ n := by
  cases parent with
  | none => exact ⟨now, rfl, nofun⟩
  | some q =>
    refine ⟨max now (q.timestamp.nanos + Instant.nanosPerMilli), ?_, ?_⟩
    · rw [timestamp, hparent q rfl, Instant.advance_ofNanos, Instant.latest_ofNanos,
        Instant.nanos_ofNanos]
    · rintro _ ⟨⟩
      exact Int.le_max_right _ _

private theorem replay_timely {id : SnapshotId} {changes : List Change} {supply left : Supply}
    {chain : List Snapshot} (h : p.replay parent id changes supply = (.ok chain, left))
    (hparent : ∀ q, parent = some q → q.timestamp.Counted) :
    ∀ s ∈ chain, s.timestamp.Counted ∧
      ∀ n, s.parentId = some n → ∃ q, (parent = some q ∨ q ∈ chain) ∧ q.id = n ∧ s.Behind q := by
  induction changes generalizing parent id supply chain with
  | nil =>
    cases h
    nofun
  | cons change rest ih =>
    rw [replay, produce] at h
    cases hv : Validator.evaluate (filesAt parent) change p.validators with
    | error refusal => simp [hv] at h
    | ok _ =>
      simp only [hv] at h
      split at h
      · cases h
      rename_i hrest
      cases h
      obtain ⟨n, htime, hbehind⟩ := timestamp_ofNanos hparent (supply.clock.reading 0)
      -- The first snapshot is made at a reading of the clock, which lies in no leap second.
      let first := p.build parent id change supply.freshManifest supply.clock.now
      have hfirst : first.timestamp = Instant.ofNanos n := htime
      have hcounted : first.timestamp.Counted := hfirst ▸ Instant.counted_ofNanos n
      have hlater := ih hrest fun q hq => Option.some.inj hq ▸ hcounted
      intro s hs
      rcases List.mem_cons.mp hs with rfl | hs
      · refine ⟨hcounted, fun m hm => ?_⟩
        obtain ⟨q, rfl, rfl⟩ := Option.map_eq_some_iff.mp hm
        refine ⟨q, .inl rfl, rfl, ?_⟩
        have hn := hbehind q rfl
        rwa [← Instant.nanos_ofNanos n, ← hfirst] at hn
      · obtain ⟨hs, hparents⟩ := hlater s hs
        refine ⟨hs, fun m hm => ?_⟩
        obtain ⟨q, hq | hq, hid, hq'⟩ := hparents m hm
        · exact ⟨q, .inr (Option.some.inj hq ▸ List.mem_cons_self), hid, hq'⟩
        · exact ⟨q, .inr (List.mem_cons_of_mem _ hq), hid, hq'⟩

end Production

namespace Graph
variable {g : Graph} {a b s : Snapshot}

/-- Every time is a count, and every snapshot is behind its parent, which is published. -/
def Timely (g : Graph) : Prop :=
  ∀ s ∈ g.items, s.timestamp.Counted ∧
    ∀ n, s.parentId = some n → ∃ q ∈ g.items, q.id = n ∧ s.Behind q

private theorem Timely.extend {p : Production} {base : Option SnapshotId} {parent : Option Snapshot}
    {changes : List Change} {supply left : Supply} {chain : List Snapshot} (h : g.Timely)
    (hparent : g.resolve base = .ok parent)
    (hreplay : p.replay parent g.nextId changes supply = (.ok chain, left)) :
    (g.extend chain).Timely := by
  have hbefore : ∀ q, parent = some q → q ∈ g.items := fun _ hq => mem_of_resolve hparent hq
  have htimely := Production.replay_timely hreplay fun q hq => (h q (hbefore q hq)).1
  have hitems : (g.extend chain).items = g.items ++ chain :=
    items_extend (Production.builds_of_replay hreplay)
  intro s hs
  rw [hitems] at hs ⊢
  rcases List.mem_append.mp hs with hs | hs
  · obtain ⟨hcounted, hparents⟩ := h s hs
    refine ⟨hcounted, fun n hn => ?_⟩
    obtain ⟨q, hq, hid, hbehind⟩ := hparents n hn
    exact ⟨q, List.mem_append_left _ hq, hid, hbehind⟩
  · obtain ⟨hcounted, hparents⟩ := htimely s hs
    refine ⟨hcounted, fun n hn => ?_⟩
    obtain ⟨q, hq | hq, hid, hbehind⟩ := hparents n hn
    · exact ⟨q, List.mem_append_left _ (hbefore q hq), hid, hbehind⟩
    · exact ⟨q, List.mem_append_right _ hq, hid, hbehind⟩

private theorem Timely.parent (h : g.Timely) (ha : a ∈ g.items) (hs : s ∈ g.items)
    (hid : s.parentId = some a.id) : s.Behind a := by
  obtain ⟨q, hq, hqid, hbehind⟩ := (h s hs).2 a.id hid
  rwa [Keyed.eq_of_key_eq hq ha hqid] at hbehind

private theorem Timely.behind (h : g.Timely) (ha : a ∈ g.items) (hb : b ∈ g.items)
    (hab : g.Precedes a.id b.id) : b.Behind a := by
  -- by induction on the path between the two
  generalize hn : b.id = n at hab
  induction hab generalizing b with
  | single hparent =>
    obtain ⟨s, hs, hid, hp⟩ := hparent
    obtain rfl : s = b := Keyed.eq_of_key_eq hs hb (hid.trans hn.symm)
    exact h.parent ha hs hp
  | tail _ hparent ih =>
    obtain ⟨s, hs, hid, hp⟩ := hparent
    obtain rfl : s = b := Keyed.eq_of_key_eq hs hb (hid.trans hn.symm)
    obtain ⟨q, hq, hqid, hbehind⟩ := (h s hs).2 _ hp
    exact hbehind.trans (ih hq hqid)

theorem Timely.before (h : g.Timely) (ha : a ∈ g.items) (hb : b ∈ g.items)
    (hab : g.Precedes a.id b.id) : a.timestamp.before b.timestamp = true := by
  have hbehind := h.behind ha hb hab
  rw [Snapshot.Behind, Instant.nanosPerMilli] at hbehind
  rw [(h a ha).1.before_iff (h b hb).1]
  omega

private theorem Timely.millis_lt (h : g.Timely) (ha : a ∈ g.items) (hb : b ∈ g.items)
    (hab : g.Precedes a.id b.id) : a.timestamp.millis < b.timestamp.millis := by
  have hbehind := h.behind ha hb hab
  rw [Snapshot.Behind, Instant.nanosPerMilli] at hbehind
  rw [(h a ha).1.millis_eq, (h b hb).1.millis_eq, Instant.nanosPerMilli]
  omega

end Graph

section AnyStore
variable {σ : Type} [PointerStore σ] {t t' : Table σ}

/-- No step of any client, with any store, makes time go back on a lineage. -/
theorem Reaches.timely (h : Reaches t t') (ht : t.graph.Timely) : t'.graph.Timely :=
  h.published ht Graph.Timely.extend

structure Ascending (t : Table σ) : Prop where
  /-- A time is its count of nanoseconds, and lies in no leap second. -/
  counted : ∀ s ∈ t.graph.items, s.timestamp = Instant.ofNanos s.timestamp.nanos
  /-- Every snapshot is a millisecond behind its parent at least. -/
  parents : ∀ s ∈ t.graph.items, ∀ id, s.parentId = some id → ∃ p ∈ t.graph.items, p.id = id ∧
    p.timestamp.nanos + Instant.nanosPerMilli ≤ s.timestamp.nanos
  ancestors : ∀ a ∈ t.graph.items, ∀ b ∈ t.graph.items, t.graph.Precedes a.id b.id →
    a.timestamp.before b.timestamp = true
  /-- Where the state is in reach and the store answers, there is a document. Its times are rounded down to
  milliseconds, and order the snapshots of a lineage as well. -/
  exported : t.poisoned = false → ∀ held pointer,
    PointerStore.current t.pointer = (.ok held, pointer) →
    ∃ doc, t.metadata = (.ok doc, { t with pointer }) ∧
      doc.snapshots.map (fun m => (m.snapshotId, m.timestampMs)) =
        t.graph.items.map (fun s => (s.id, (s.timestamp.nanos / Instant.nanosPerMilli : Int))) ∧
      ∀ a ∈ doc.snapshots, ∀ b ∈ doc.snapshots, t.graph.Precedes a.snapshotId b.snapshotId →
        a.timestampMs < b.timestampMs

private theorem Graph.Timely.ascending (h : t.graph.Timely) : Ascending t where
  counted s hs := (h s hs).1
  parents s hs := (h s hs).2
  ancestors _ ha _ hb := h.before ha hb
  exported := by
    intro hp held pointer hread
    obtain ⟨doc, hdoc, hsnapshots⟩ := Table.metadata_snapshots hp hread
    refine ⟨doc, hdoc, ?_, ?_⟩
    · rw [hsnapshots, List.map_map]
      apply List.map_congr_left
      intro s hs
      exact congrArg (Prod.mk s.id) (h s hs).1.millis_eq
    · rw [hsnapshots]
      intro a ha b hb hab
      obtain ⟨s, hs, rfl⟩ := List.mem_map.mp ha
      obtain ⟨q, hq, rfl⟩ := List.mem_map.mp hb
      exact h.millis_lt hs hq hab

/-- Whatever the clock of a new table shows and whatever clients do to it, with any rules and any store that its
pointer is put into, time goes on along all of its lineages, and in its document too. -/
theorem timestamps_ascend {uuid : Uuid} {config : TableConfig} {clock : Clock}
    {created : Table MemoryPointer} (h : Table.create uuid config clock = .ok created)
    (validators : List Validator) {store : σ} {start : Table σ}
    (hstart : (created.withValidators validators).withPointerStore store = .ok start)
    (hr : Reaches start t) : Ascending t := by
  obtain rfl := Table.eq_of_create h
  obtain ⟨left, -, rfl⟩ := Table.eq_of_withPointerStore hstart
  exact (hr.timely (List.forall_mem_nil _)).ascending

end AnyStore

def Clock.receding : Clock := ⟨fun n => -1500000 - 700000 * n⟩

def Table.receding : Table ScriptedPointer :=
  { Table.fresh 0#128 {} Clock.receding with pointer := { swapFaults := [.unavailable "down"] } }

def Table.recedingRun : List Action :=
  let append (path : String) : Change := (Change.start .append).add { path }
  [.publish none [append "a"], .publish none [append "a", append "b"], .move (some 2) 1,
    .publish (some 1) [append "c"], .publish (some 3) [append "d"]]

/-- Its four snapshots are a millisecond apart on both lineages, the second and the third at the same time. -/
theorem timestamps_ascend_receding :
    let t := Table.receding.after Table.recedingRun
    Ascending t ∧ t.graph.items.map (fun s => (s.parentId, s.timestamp.nanos)) =
      [(none, -2200000), (some 1, -1200000), (some 1, -1200000), (some 3, -200000)] ∧
    ∃ doc, t.metadata = (.ok doc, t) ∧
      doc.snapshots.map (fun m => (m.snapshotId, m.timestampMs)) = [(1, -3), (2, -2), (3, -2), (4, -1)] := by
  intro t
  have hcreate : Table.create 0#128 {} Clock.receding = .ok (Table.fresh 0#128 {} Clock.receding) := rfl
  have hstart : ((Table.fresh 0#128 {} Clock.receding).withValidators
      Validator.standard).withPointerStore Table.receding.pointer = .ok Table.receding := rfl
  have hascending : Ascending t :=
    timestamps_ascend hcreate Validator.standard hstart (Reaches.here.after Table.recedingRun)
  have htimes : t.graph.items.map (fun s => (s.id, (s.timestamp.nanos / Instant.nanosPerMilli : Int))) =
      [(1, -3), (2, -2), (3, -2), (4, -1)] := by decide +kernel
  obtain ⟨doc, hdoc, hexported, -⟩ :=
    hascending.exported (by decide +kernel) (some 4) t.pointer (by decide +kernel)
  exact ⟨hascending, by decide +kernel, doc, hdoc, hexported.trans htimes⟩

end SnapshotTable
