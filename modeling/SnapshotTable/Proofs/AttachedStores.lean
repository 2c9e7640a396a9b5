import SnapshotTable.Proofs.Atomicity

/-! Putting the pointer of a table into another store. As long as nobody else uses its store, the pointer agrees
with the graph and the log: it is absent until something is published, points where the last move went, and only
the first snapshot has no parent. Attaching a store looks at that store only, which has to be empty. So it keeps
the agreement on a table that has published nothing. On any other table the pointer is lost while graph and log
stay, and the next publication has no parent. -/

namespace SnapshotTable

/-- A faithful store that answers a read with the value that it holds. -/
structure PointerStore.Truthful (σ : Type) [PointerStore σ] : Prop extends PointerStore.Faithful σ where
  told : ∀ (s : σ) value, (current s).1 = .ok value → held s = value

private theorem MemoryPointer.truthful : PointerStore.Truthful MemoryPointer where
  toFaithful := MemoryPointer.faithful
  told _ _ h := Except.ok.inj h

variable {σ : Type} [PointerStore σ] {t t' : Table σ} {base : Option SnapshotId}
  {changes : List Change} {chain : List Snapshot}

namespace Table

structure Agrees (t : Table σ) : Prop where
  absent : PointerStore.held t.pointer = none ↔ t.graph.items = []
  last : PointerStore.held t.pointer = t.log.entries.getLast?.map LogEntry.snapshotId
  root : ∀ s ∈ t.graph.items, s.parentId = none → t.graph.items.head? = some s

private theorem publish_base (h : (t.publish base changes).1 = .ok chain) :
    (PointerStore.current t.pointer).1 = .ok base := by
  rw [publish] at h
  split at h
  · cases h
  rw [currentId] at h
  cases hread : PointerStore.current t.pointer with
  | mk answer left =>
    rw [hread] at h
    cases answer with
    | error e => cases h
    | ok actual =>
      by_cases hstale : actual = base
      · rw [hstale]
      · simp only [ne_eq, hstale, not_false_eq_true, if_true] at h
        cases h

private theorem publish_root (h : (t.publish none changes).1 = .ok chain) {first : Snapshot}
    (hfirst : chain.head? = some first) :
    first.parentId = none ∧ first ∉ t.graph.items ∧
      (t.publish none changes).2.graph.items = t.graph.items ++ chain := by
  rcases t.publish_outcome none changes with ⟨e, -, hf, -⟩ | ⟨refusal, _, _, _, -, -, hf, -⟩ |
    ⟨parent, supply, made, left, hparent, hreplay, hok, hend⟩
  · cases hf.symm.trans h
  · cases hf.symm.trans h
  cases hok.symm.trans h
  cases hparent
  have hbuilds := Production.builds_of_replay hreplay
  obtain ⟨rest, rfl⟩ := List.head?_eq_some_iff.mp hfirst
  refine ⟨hbuilds.linked.1, fun hold => ?_, ?_⟩
  · have hlt : first.id < t.graph.nextId := Graph.id_lt_nextId hold
    exact Nat.not_le.mpr hlt (hbuilds.id_le List.mem_cons_self).1
  · rcases hend with ⟨hnil, -⟩ | ⟨last, -, ha⟩
    · cases hnil
    · rw [ha.graph, Graph.items_extend hbuilds]

namespace Agrees

private theorem untouched (hf : PointerStore.Faithful σ) (h : t.Agrees) {crash : Bool}
    (h' : t.Untouched crash t') : t'.Agrees := by
  have hheld : PointerStore.held t'.pointer = PointerStore.held t.pointer := h'.pointer.held_eq hf
  refine ⟨?_, ?_, h'.graph ▸ h.root⟩
  · rw [hheld, h'.graph]
    exact h.absent
  · rw [hheld, h'.log]
    exact h.last

private theorem of_advanced (hf : PointerStore.Faithful σ) {s : Snapshot} {change : PointerChange}
    (ha : t.Advanced chain s change t')
    (hroot : ∀ s ∈ t'.graph.items, s.parentId = none → t'.graph.items.head? = some s) : t'.Agrees := by
  have hheld : PointerStore.held t'.pointer = some s.id := ha.pointer.held_eq hf
  have hmem : s ∈ t'.graph.items := (Keyed.get?_eq_some_iff.mp ha.target).1
  obtain ⟨now, hlog⟩ := ha.log
  refine ⟨?_, ?_, hroot⟩
  · rw [hheld]
    exact iff_of_false (by simp) (List.ne_nil_of_mem hmem)
  · rw [hheld, hlog, List.getLast?_concat]
    rfl

private theorem publish (hs : PointerStore.Truthful σ) (h : t.Agrees) (base : Option SnapshotId)
    (changes : List Change) : (t.publish base changes).2.Agrees := by
  rcases t.publish_outcome base changes with ⟨e, -, -, hu⟩ | ⟨refusal, _, _, _, -, -, -, hu⟩ |
    ⟨parent, supply, chain, left, hparent, hreplay, hok, ⟨-, hu⟩ | ⟨last, -, ha⟩⟩
  · exact h.untouched hs.toFaithful hu
  · exact h.untouched hs.toFaithful hu
  · exact h.untouched hs.toFaithful hu
  have hbuilds := Production.builds_of_replay hreplay
  apply of_advanced hs.toFaithful ha
  rw [ha.graph, Graph.items_extend hbuilds]
  intro s hmem hnone
  rcases List.mem_append.mp hmem with hold | hnew
  · rw [List.head?_append, h.root s hold hnone]
    rfl
  · -- Built on nothing means staged against no snapshot, so the pointer was absent.
    obtain ⟨rfl, hhead⟩ := hbuilds.root hnew hnone
    have hbase : base = none := by
      cases base with
      | none => rfl
      | some id =>
        rw [Graph.resolve] at hparent
        cases hfind : t.graph.find id <;> rw [hfind] at hparent <;> cases hparent
    have hheld : PointerStore.held t.pointer = none := hbase ▸ hs.told _ _ (publish_base hok)
    rw [h.absent.mp hheld]
    exact hhead

private theorem move (hf : PointerStore.Faithful σ) (h : t.Agrees) (base : Option SnapshotId)
    (target : SnapshotId) : (t.movePointer base target).2.Agrees := by
  rcases t.movePointer_settles base target with ⟨e, -, hu⟩ | ⟨s, -, hu | ha⟩
  · exact h.untouched hf hu
  · exact h.untouched hf hu
  · exact of_advanced hf ha (ha.graph ▸ h.root)

end Agrees
end Table

/-- Whatever clients do, the pointer goes on agreeing with graph and log. -/
theorem Reaches.agrees (hs : PointerStore.Truthful σ) (h : Reaches t t') (ht : t.Agrees) :
    t'.Agrees := by
  induction h with
  | here => exact ht
  | @read u _ ih => exact ih.untouched hs.toFaithful u.currentId_untouched
  | publish _ base changes ih => exact ih.publish hs base changes
  | move _ base target ih => exact ih.move hs.toFaithful base target
  | @report u _ e ih => exact ih.untouched hs.toFaithful (Table.Untouched.refl u).supply

section Attaching
variable {τ : Type} [PointerStore τ] {attached : Table τ} {store : τ}

omit [PointerStore σ] in
private theorem Table.held_attached (hs : PointerStore.Truthful τ)
    (h : t.withPointerStore store = .ok attached) :
    PointerStore.held attached.pointer = none := by
  obtain ⟨left, hread, rfl⟩ := eq_of_withPointerStore h
  have hsame : PointerStore.held (PointerStore.current store).2 = PointerStore.held store := hs.read store
  rw [hread] at hsame
  exact hsame.trans (hs.told store none (congrArg Prod.fst hread))

/-- Attaching keeps the agreement exactly on tables that have published nothing. -/
theorem Table.Agrees.attached_iff (hs : PointerStore.Truthful τ) (ht : t.Agrees)
    (h : t.withPointerStore store = .ok attached) : attached.Agrees ↔ t.graph.items = [] := by
  have hheld := held_attached hs h
  obtain ⟨left, -, rfl⟩ := eq_of_withPointerStore h
  constructor
  · exact fun hagrees => hagrees.absent.mp hheld
  · intro hnone
    have hlog := ht.last
    rw [ht.absent.mpr hnone] at hlog
    exact ⟨iff_of_true hheld hnone, hheld.trans hlog, ht.root⟩

omit [PointerStore σ] in
/-- On any other table, what is published next starts with a second snapshot that has no parent, and nothing
that follows makes up for it. -/
theorem Table.second_root (hs : PointerStore.Truthful τ) (h : t.withPointerStore store = .ok attached)
    (hsome : t.graph.items ≠ []) (hpublish : (attached.publish base changes).1 = .ok chain)
    {first : Snapshot} (hfirst : chain.head? = some first) :
    first.parentId = none ∧ first ∉ t.graph.items ∧
      ∀ later, Reaches (attached.publish base changes).2 later → first ∈ later.graph.items ∧ ¬ later.Agrees := by
  have hbase : base = none := (hs.told _ _ (publish_base hpublish)).symm.trans (held_attached hs h)
  subst hbase
  obtain ⟨left, -, rfl⟩ := eq_of_withPointerStore h
  obtain ⟨hroot, hnew, hitems⟩ := publish_root hpublish hfirst
  refine ⟨hroot, hnew, fun later hlater => ?_⟩
  obtain ⟨more, hmore⟩ := hlater.grows
  rw [hitems, List.append_assoc] at hmore
  have hmem : first ∈ later.graph.items := by
    rw [hmore]
    exact List.mem_append_right _ (List.mem_append_left _ (List.mem_of_head? hfirst))
  refine ⟨hmem, fun hagrees => hnew ?_⟩
  have hhead := hagrees.root first hmem hroot
  rw [hmore, List.head?_append_of_ne_nil _ hsome] at hhead
  exact List.mem_of_head? hhead

structure Table.Attaching (t : Table σ) (store : τ) : Prop where
  /-- The table agreed before. -/
  agreed : t.Agrees
  /-- A store is refused for what it points at, and the table is not looked at. -/
  refused : ∀ text, t.withPointerStore store = .error (.invalidOperation text) ↔
    ∃ id, (PointerStore.current store).1 = .ok (some id) ∧
      text = "pointer store already points at snapshot " ++ id.display
  /-- An empty store is always accepted. -/
  accepted : (PointerStore.current store).1 = .ok none → ∃ attached, t.withPointerStore store = .ok attached
  /-- The pointer is then absent, and the rest of the table is what it was. -/
  frame : ∀ attached, t.withPointerStore store = .ok attached →
    PointerStore.held attached.pointer = none ∧ attached.graph = t.graph ∧ attached.log = t.log
  /-- The table agrees exactly if it has published nothing. -/
  keeps : ∀ attached, t.withPointerStore store = .ok attached → (attached.Agrees ↔ t.graph.items = [])
  /-- In that case it goes on agreeing. -/
  onward : t.graph.items = [] → ∀ attached, t.withPointerStore store = .ok attached →
    ∀ later, Reaches attached later → later.Agrees
  /-- Otherwise the next publication makes a second root, and the table never agrees again. -/
  second : t.graph.items ≠ [] → ∀ attached, t.withPointerStore store = .ok attached →
    ∀ base changes chain first, (attached.publish base changes).1 = .ok chain → chain.head? = some first →
      first.parentId = none ∧ first ∉ t.graph.items ∧
        ∀ later, Reaches (attached.publish base changes).2 later →
          first ∈ later.graph.items ∧ ¬ later.Agrees

/-- Attaching a store to any table that clients reached from a new one: it is accepted whenever the store is
empty, and keeps pointer, graph and log in agreement exactly if nothing has been published. -/
theorem attaching_of_reaches {uuid : Uuid} {config : TableConfig} {clock : Clock}
    {created : Table MemoryPointer} (hcreate : Table.create uuid config clock = .ok created)
    (validators : List Validator) (hs : PointerStore.Truthful σ) {original : σ} {start : Table σ}
    (hstart : (created.withValidators validators).withPointerStore original = .ok start)
    (hreach : Reaches start t) (hs' : PointerStore.Truthful τ) (store : τ) : t.Attaching store := by
  obtain rfl := Table.eq_of_create hcreate
  have hnew : start.Agrees := by
    have hheld := Table.held_attached hs hstart
    obtain ⟨left, -, rfl⟩ := Table.eq_of_withPointerStore hstart
    exact ⟨iff_of_true hheld rfl, hheld, nofun⟩
  have ht : t.Agrees := hreach.agrees hs hnew
  refine ⟨ht, fun text => ?_, fun hempty => ?_, fun attached h => ?_, fun attached h => ?_,
    fun hnone attached h later hlater => ?_, fun hsome attached h base changes chain first hok hfirst => ?_⟩
  · rw [Table.withPointerStore]
    split
    · rename_i e _ hread
      rw [hread]
      cases e <;> simp [PointerError.toTableError]
    · rename_i id _ hread
      rw [hread]
      simp [eq_comm]
    · rename_i hread
      rw [hread]
      simp
  · rw [Table.withPointerStore]
    split <;> rename_i hread <;> rw [hread] at hempty
    · cases hempty
    · cases hempty
    · exact ⟨_, rfl⟩
  · refine ⟨Table.held_attached hs' h, ?_⟩
    obtain ⟨left, -, rfl⟩ := Table.eq_of_withPointerStore h
    exact ⟨rfl, rfl⟩
  · exact ht.attached_iff hs' h
  · exact hlater.agrees hs' ((ht.attached_iff hs' h).mpr hnone)
  · exact Table.second_root hs' h hsome hok hfirst

end Attaching

def appendTo (base : Option SnapshotId) (path : String) : Request :=
  .commit ⟨.ok base, (Change.start .append).add { path }⟩

def Table.begun : Table MemoryPointer := (Table.blank.respond (appendTo none "a")).2

/-- On a table with one snapshot, an empty store is accepted, the agreement is lost, and the append that follows
publishes a second snapshot without a parent. -/
theorem attaching_of_reaches_begun :
    Table.begun.Attaching ({} : MemoryPointer) ∧ Table.begun.graph.ids = [1] ∧
      ∃ attached : Table MemoryPointer, Table.begun.withPointerStore ({} : MemoryPointer) = .ok attached ∧
        ¬ attached.Agrees ∧
        (attached.publish none [(Change.start .append).add { path := "b" }]).1.isOk = true := by
  have hattach : Table.begun.Attaching ({} : MemoryPointer) :=
    attaching_of_reaches Table.create_blank Validator.standard MemoryPointer.truthful
      (rfl : Table.blank.withPointerStore ({} : MemoryPointer) = .ok Table.blank) (Reaches.here.respond _)
      MemoryPointer.truthful {}
  refine ⟨hattach, by decide +kernel, { Table.begun with pointer := {} }, rfl, ?_, by decide +kernel⟩
  rw [hattach.keeps _ rfl]
  decide +kernel

/-- So attaching does not keep pointer, graph and log in agreement: the pointer is absent where snapshot 1 was
published and is the last in the log, and the next append has no parent either. -/
theorem attaching_disagrees :
    ¬ ∀ t attached later : Table MemoryPointer, Reaches Table.blank t →
        t.withPointerStore ({} : MemoryPointer) = .ok attached → Reaches attached later →
        (attached.pointer.value = none ↔ attached.graph.items = []) ∧
          attached.pointer.value = attached.log.entries.getLast?.map LogEntry.snapshotId ∧
          (later.graph.items.filter (·.parentId = none)).length ≤ 1 := by
  intro h
  have hkept := h Table.begun { Table.begun with pointer := {} }
    (({ Table.begun with pointer := {} } : Table MemoryPointer).respond (appendTo none "b")).2
    (Reaches.here.respond _) rfl (Reaches.here.respond _)
  revert hkept
  decide +kernel

end SnapshotTable
