import SnapshotTable.Proofs.Lines
import SnapshotTable.Proofs.ReplayedFiles

/-! Where a table stands. Under the standard rules the files of the current snapshot decide what can be
published on top of it and what it leaves: changes go through exactly if each is accepted in its turn, and a
commit that is staged again goes through exactly if its change is accepted where the table then stands. -/

namespace SnapshotTable
variable {t t' : Table MemoryPointer} {parent : Option Snapshot} {base : Option SnapshotId}

structure Standing (t : Table MemoryPointer) (parent : Option Snapshot) : Prop where
  sound : t.poisoned = false
  rules : t.validators = Validator.standard
  current : t.graph.resolve t.pointer.value = .ok parent
  once : LiveOnce parent

/-- A reachable table stands at its current snapshot. -/
theorem Reachable.standing {ledger : List Publication} (h : Reachable t ledger) :
    ∃ parent, Standing t parent := by
  obtain ⟨line, hline, hcurrent⟩ := h.exists_current
  exact ⟨headOf line, h.unbroken, h.kept.rules, hcurrent, (h.kept.line_orderly hline).once⟩

namespace Table

/-- With a retry left, a commit is decided by an attempt on what is current, whatever its base. -/
theorem commit_decided_current (h : t.poisoned = false) (hretry : 0 < t.config.commitRetries)
    (base : Option SnapshotId) (change : Change) :
    ∃ events, t.commit ⟨.ok base, change⟩ =
      { t with supply := { t.supply with events } }.attempt t.pointer.value change := by
  obtain ⟨retries, hretries⟩ := Nat.exists_eq_add_of_lt hretry
  rw [Nat.zero_add] at hretries
  by_cases hbase : base = t.pointer.value
  · subst hbase
    exact ⟨t.supply.events, t.commitFrom_current change 0 t.config.commitRetries⟩
  · have hlost : t.attempt base change = (.error (.error (.commitConflict base t.pointer.value)),
        t.report (.baseStale base t.pointer.value)) := by
      rw [attempt, publish_stale h hbase]
    rw [commit]
    dsimp only
    rw [hretries, commitFrom, hlost]
    exact ⟨_, commitFrom_current _ change 1 retries⟩

private theorem grown_of_serve {r : Request} {e : Publication} (h : (t.serve r).1 = [e]) :
    ∃ base, t.Grown base [e.change] [e.snapshot] (t.serve r).2 := by
  cases r with
  | commit c =>
    rcases t.commit_cases c with ⟨f, hf, -⟩ | ⟨s, current, hs, hg⟩
    · rw [serve, ← Prod.eta (t.commit c), hf] at h
      cases h
    · rw [serve, ← Prod.eta (t.commit c), hs] at h ⊢
      cases h
      exact ⟨current, hg⟩
  | transaction txn =>
    rcases t.commitTransaction_cases txn with ⟨f, hf, -⟩ | ⟨chain, hc, hg⟩ | ⟨hnil, heq⟩
    · rw [serve, ← Prod.eta (t.commitTransaction txn), hf] at h
      cases h
    · rw [serve, ← Prod.eta (t.commitTransaction txn), hc] at h ⊢
      dsimp only at h
      obtain ⟨_, -, hbuilt⟩ := hg.built
      have hchain : chain = [e.snapshot] := by rw [← hbuilt.map_snapshot, h]; rfl
      subst hchain
      obtain ⟨change, hstaged⟩ := List.length_eq_one_iff.mp hbuilt.length_eq.symm
      rw [hstaged] at h hg
      obtain rfl : change = e.change := congrArg Publication.change (List.singleton_inj.mp h)
      exact ⟨txn.base, hg⟩
    · rw [serve, heq, hnil] at h
      cases h
  | rollback r => cases h

end Table

namespace Standing
variable {changes : List Change} {chain : List Snapshot}

private theorem built (h : Standing t parent) (hg : t.Grown base changes chain t') :
    t.graph.resolve base = .ok parent ∧ t.production.Builds parent t.graph.nextId changes chain := by
  obtain ⟨parent', hparent, hbuilt⟩ := hg.built
  have hcurrent := h.current
  rw [hg.current] at hcurrent
  obtain rfl := Except.ok.inj (hcurrent.symm.trans hparent)
  exact ⟨hparent, hbuilt⟩

/-- A chain that is published was accepted change by change, and the table stands at its top. -/
theorem grown (h : Standing t parent) (hg : t.Grown base changes chain t') :
    AcceptedFrom (filesAt parent) changes ∧
      filesAt (topOf parent chain) = filesAfter (filesAt parent) changes ∧
      Standing t' (topOf parent chain) := by
  obtain ⟨hparent, hbuilt⟩ := h.built hg
  obtain ⟨haccept, htop, hfiles⟩ := hbuilt.files h.rules h.once
  refine ⟨haccept, hfiles, hg.sound.2, hg.validators.trans h.rules, ?_, htop⟩
  have hpointer : t'.pointer.value = (topOf parent chain).map Snapshot.id := by
    rw [hg.pointer, topOf, Option.map_or, Graph.resolve_id hparent]
  rw [hpointer]
  exact Graph.resolve_topOf hparent hg.graph

/-- A chain is published exactly if its base is current and each change is accepted in its turn. -/
theorem publish_ok_iff (h : Standing t parent) :
    (∃ chain, (t.publish base changes).1 = .ok chain) ↔
      base = t.pointer.value ∧ AcceptedFrom (filesAt parent) changes := by
  constructor
  · rintro ⟨chain, hchain⟩
    rcases t.publish_cases base changes with ⟨f, hf, -⟩ | ⟨_, -, hg⟩
    · cases hf.symm.trans hchain
    · exact ⟨hg.current.symm, (h.grown hg).1⟩
  · rintro ⟨rfl, haccept⟩
    obtain ⟨chain, left, hreplay⟩ := Production.replay_accepted (p := t.production) h.rules h.once
      haccept t.graph.nextId t.supply
    exact ⟨chain, (Table.publish_grown h.sound h.current hreplay).1⟩

/-- A commit that succeeds was accepted where the table stands, and leaves the files of its change there. -/
theorem commit_files (h : Standing t parent) {c : Change} {s : Snapshot}
    (hs : (t.commit ⟨.ok base, c⟩).1 = .ok s) :
    Validator.evaluate (filesAt parent) c Validator.standard = .ok () ∧
      s.parentId = parent.map Snapshot.id ∧ LiveOnce (some s) ∧ s.files = c.apply (filesAt parent) := by
  rcases t.commit_cases ⟨.ok base, c⟩ with ⟨f, hf, -⟩ | ⟨_, current, hs', hg⟩
  · cases hf.symm.trans hs
  obtain rfl := Except.ok.inj (hs'.symm.trans hs)
  obtain ⟨haccept, hfiles, hstands⟩ := h.grown hg
  exact ⟨haccept.1, (h.built hg).2.linked.1, hstands.once, hfiles⟩

/-- With a retry left, a commit of an accepted change succeeds on any base. -/
theorem commit_ok_iff (h : Standing t parent) (hretry : 0 < t.config.commitRetries) {c : Change} :
    (∃ s, (t.commit ⟨.ok base, c⟩).1 = .ok s) ↔
      Validator.evaluate (filesAt parent) c Validator.standard = .ok () := by
  refine ⟨fun ⟨s, hs⟩ => (h.commit_files hs).1, fun haccept => ?_⟩
  obtain ⟨events, heq⟩ := Table.commit_decided_current h.sound hretry base c
  let u : Table MemoryPointer := { t with supply := { t.supply with events } }
  have hu : Standing u parent := ⟨h.sound, h.rules, h.current, h.once⟩
  obtain ⟨s, hs, -⟩ := Table.publish_accepted hu.sound hu.current (hu.rules ▸ haccept)
  refine ⟨s, ?_⟩
  rw [heq, Table.attempt, ← Prod.eta (u.publish t.pointer.value [c]), hs]

/-- Behind a request that published one change, the table stands at its snapshot. -/
theorem served (h : Standing t parent) {r : Request} {s : Snapshot} {c : Change}
    (hr : (t.serve r).1 = [⟨s, c⟩]) :
    Validator.evaluate (filesAt parent) c Validator.standard = .ok () ∧
      s.files = c.apply (filesAt parent) ∧ Standing (t.serve r).2 (some s) ∧
      (t.serve r).2.config = t.config := by
  obtain ⟨_, hg⟩ := Table.grown_of_serve hr
  obtain ⟨haccept, hfiles, hstands⟩ := h.grown hg
  exact ⟨haccept.1, hfiles, hstands, hg.config⟩

end Standing
end SnapshotTable
