import SnapshotTable.Proofs.Standing

/-! Independent changes. Two changes that have no path in common are accepted or refused whether or not the
other one came before, and leave the same files in both orders. On a table this is seen in transactions that
stage them in either order, and in a commit of one that is staged again behind the other. -/

namespace SnapshotTable

namespace Change
variable {a b c : Change} {files base base' : FileSet}

def paths (c : Change) : List String := c.added.items.map DataFile.path ++ c.removed.items

def Apart (a b : Change) : Prop := ∀ path ∈ a.paths, path ∉ b.paths

instance (a b : Change) : Decidable (a.Apart b) :=
  inferInstanceAs (Decidable (∀ path ∈ a.paths, path ∉ b.paths))

private theorem Apart.symm (h : a.Apart b) : b.Apart a := fun path hb ha => h path ha hb

private theorem path_mem_paths {f : DataFile} (h : f ∈ c.added.items) : f.path ∈ c.paths :=
  List.mem_append_left _ (List.mem_map_of_mem h)

private theorem mem_apply_iff {f : DataFile} :
    f ∈ (c.apply files).items ↔ f ∈ c.added.items ∨ f ∈ files.items ∧ f.path ∉ c.paths := by
  have hkept : c.removed.contains f.path = false ↔ f.path ∉ c.removed.items := by
    rw [← Bool.not_eq_true, Keyed.contains_iff]
    simp
  rw [mem_apply, hkept, paths, List.mem_append, not_or, and_assoc, and_comm (a := f.path ∉ _)]

private theorem contains_apply {path : String} (h : path ∉ c.paths) :
    (c.apply files).contains path = files.contains path := by
  rw [Bool.eq_iff_iff, Keyed.contains_iff, Keyed.contains_iff]
  refine exists_congr fun f => ?_
  rw [mem_apply_iff]
  constructor
  · rintro ⟨hf | ⟨hf, -⟩, rfl⟩
    · exact absurd (path_mem_paths hf) h
    · exact ⟨hf, rfl⟩
  · rintro ⟨hf, rfl⟩
    exact ⟨.inr ⟨hf, h⟩, rfl⟩

private theorem evaluate_standard_congr
    (h : ∀ path ∈ c.paths, base.contains path = base'.contains path) :
    Validator.evaluate base c Validator.standard = Validator.evaluate base' c Validator.standard := by
  have hadded : (c.added.toList.map DataFile.path).filter base.contains =
      (c.added.toList.map DataFile.path).filter base'.contains :=
    List.filter_congr fun path hp => h path (List.mem_append_left _ hp)
  have hremoved : c.removed.toList.filter (!base.contains ·) =
      c.removed.toList.filter (!base'.contains ·) :=
    List.filter_congr fun path hp => congrArg _ (h path (List.mem_append_right _ hp))
  simp only [Validator.evaluate, Validator.standard, Validator.addedFilesMustBeNew,
    Validator.removedFilesMustExist, hadded, hremoved]

namespace Apart

/-- A change is judged alike before and behind one that has none of its paths. -/
theorem evaluate_apply (h : a.Apart b) (files : FileSet) :
    Validator.evaluate (b.apply files) a Validator.standard =
      Validator.evaluate files a Validator.standard :=
  evaluate_standard_congr fun path ha => contains_apply (h path ha)

/-- Changes without a common path leave the same files in both orders. -/
theorem apply_comm (h : a.Apart b) (files : FileSet) :
    b.apply (a.apply files) = a.apply (b.apply files) := by
  apply Keyed.ext_mem
  intro f
  simp only [mem_apply_iff]
  have ha : f ∈ a.added.items → f.path ∉ b.paths := fun hf => h f.path (path_mem_paths hf)
  have hb : f ∈ b.added.items → f.path ∉ a.paths := fun hf => h.symm f.path (path_mem_paths hf)
  tauto

private theorem acceptedFrom_iff (h : a.Apart b) (files : FileSet) :
    AcceptedFrom files [a, b] ↔ Validator.evaluate files a Validator.standard = .ok () ∧
      Validator.evaluate files b Validator.standard = .ok () := by
  simp only [AcceptedFrom, h.symm.evaluate_apply, and_true]

end Apart
end Change

variable {t : Table MemoryPointer} {parent : Option Snapshot} {base : Option SnapshotId} {a b : Change}

namespace Table

def commitPair (t : Table MemoryPointer) (base : Option SnapshotId) (a b : Change) :
    Except Failure (List Snapshot) × Table MemoryPointer :=
  t.commitTransaction (((⟨base, []⟩ : Transaction).stage a).stage b)

private theorem commitPair_fst (t : Table MemoryPointer) (base : Option SnapshotId) (a b : Change) :
    (t.commitPair base a b).1 = (t.publish base [a, b]).1 := by
  have hpair : t.commitPair base a b = t.commitTransaction ⟨base, [a, b]⟩ := rfl
  rw [hpair, commitTransaction, ← Prod.eta (t.publish base [a, b])]
  cases (t.publish base [a, b]).1 <;> rfl

end Table

namespace Standing

private theorem commitPair_ok_iff (h : Standing t parent) (hapart : a.Apart b) :
    (∃ chain, (t.commitPair base a b).1 = .ok chain) ↔ base = t.pointer.value ∧
      Validator.evaluate (filesAt parent) a Validator.standard = .ok () ∧
      Validator.evaluate (filesAt parent) b Validator.standard = .ok () := by
  simp only [Table.commitPair_fst, h.publish_ok_iff, hapart.acceptedFrom_iff]

private theorem commitPair_files (h : Standing t parent) {chain : List Snapshot}
    (hchain : (t.commitPair base a b).1 = .ok chain) :
    ∃ s, chain.getLast? = some s ∧ LiveOnce (some s) ∧
      s.files = b.apply (a.apply (filesAt parent)) := by
  rw [Table.commitPair_fst] at hchain
  rcases t.publish_cases base [a, b] with ⟨f, hf, -⟩ | ⟨_, hc, hg⟩
  · cases hf.symm.trans hchain
  obtain rfl := Except.ok.inj (hc.symm.trans hchain)
  obtain ⟨_, -, hbuilt⟩ := hg.built
  obtain ⟨first, s, rfl⟩ := List.length_eq_two.mp hbuilt.length_eq
  obtain ⟨-, hfiles, hstands⟩ := h.grown hg
  exact ⟨s, rfl, hstands.once, hfiles⟩

end Standing

/-- Two snapshots with the same live files, record for record. -/
structure Snapshot.SameFiles (s s' : Snapshot) : Prop where
  files : s.files = s'.files
  live : s.liveFiles.Perm s'.liveFiles

private theorem Snapshot.SameFiles.of_files {s s' : Snapshot} (h : LiveOnce (some s))
    (h' : LiveOnce (some s')) (hfiles : s.files = s'.files) : s.SameFiles s' := by
  refine ⟨hfiles, ?_⟩
  have hlive {q : Snapshot} (hq : LiveOnce (some q)) : q.files.items.Perm q.liveFiles := by
    rw [q.liveFiles_eq]
    exact perm_filesAt hq
  exact (hlive h).symm.trans (hfiles ▸ hlive h')

structure Commuting (t : Table MemoryPointer) (a b : Change) : Prop where
  /-- A transaction, begun at any time, is accepted in one order exactly if it is in the other. -/
  accepted : ∀ base, (∃ chain, (t.commitPair base a b).1 = .ok chain) ↔
    ∃ chain, (t.commitPair base b a).1 = .ok chain
  /-- Then both orders end with the same files. -/
  same : ∀ base chain chain', (t.commitPair base a b).1 = .ok chain →
    (t.commitPair base b a).1 = .ok chain' →
    ∃ s s', chain.getLast? = some s ∧ chain'.getLast? = some s' ∧ s.SameFiles s'
  /-- Where a request published the second change, a commit of the first one that lost to it, and may be
  staged again, is accepted on top of it exactly if it would have been accepted before. -/
  restaged : ∀ r s, (t.serve r).1 = [⟨s, b⟩] → 0 < t.config.commitRetries →
    ∀ base, base ≠ (t.serve r).2.pointer.value →
    ((∃ late, ((t.serve r).2.commit ⟨.ok base, a⟩).1 = .ok late) ↔
      ∃ early, (t.commit ⟨.ok base, a⟩).1 = .ok early)
  /-- Then it ends with the files that a transaction of both leaves. -/
  joined : ∀ r s, (t.serve r).1 = [⟨s, b⟩] →
    ∀ base late, ((t.serve r).2.commit ⟨.ok base, a⟩).1 = .ok late →
    late.parentId = some s.id ∧ ∃ chain last, (t.commitPair t.pointer.value a b).1 = .ok chain ∧
      chain.getLast? = some last ∧ late.SameFiles last

/-- Changes with no path in common commute on every table that a new one can become. -/
theorem apart_changes_commute {ledger : List Publication} (h : Reachable t ledger)
    (hapart : a.Apart b) : Commuting t a b := by
  obtain ⟨parent, hs⟩ := h.standing
  -- Judged on the files of the snapshot of `b`, the first change fares as where the table stood before.
  have hjudged {s : Snapshot} (hfiles : s.files = b.apply (filesAt parent)) :
      Validator.evaluate (filesAt (some s)) a Validator.standard =
        Validator.evaluate (filesAt parent) a Validator.standard := by
    rw [filesAt, hfiles, hapart.evaluate_apply]
  exact {
    accepted := fun base => by
      rw [hs.commitPair_ok_iff hapart, hs.commitPair_ok_iff hapart.symm]
      exact and_congr_right' and_comm
    same := by
      intro base chain chain' hab hba
      obtain ⟨s, hlast, honce, hfiles⟩ := hs.commitPair_files hab
      obtain ⟨s', hlast', honce', hfiles'⟩ := hs.commitPair_files hba
      refine ⟨s, s', hlast, hlast', .of_files honce honce' ?_⟩
      rw [hfiles, hfiles', hapart.apply_comm]
    restaged := by
      intro r s hr hretry base _
      obtain ⟨-, hfiles, hstands, hconfig⟩ := hs.served hr
      rw [hstands.commit_ok_iff (hconfig ▸ hretry), hs.commit_ok_iff hretry, hjudged hfiles]
    joined := by
      intro r s hr base late hlate
      obtain ⟨hb, hfiles, hstands, -⟩ := hs.served hr
      obtain ⟨ha, hparent, honce, hlatefiles⟩ := hstands.commit_files hlate
      rw [hjudged hfiles] at ha
      obtain ⟨chain, hchain⟩ := (hs.commitPair_ok_iff hapart).mpr ⟨rfl, ha, hb⟩
      obtain ⟨last, hlast, honce', hlastfiles⟩ := hs.commitPair_files hchain
      refine ⟨hparent, chain, last, hchain, hlast, .of_files honce honce' ?_⟩
      rw [hlatefiles, hlastfiles, filesAt, hfiles, hapart.apply_comm] }

def Table.shared : List Publication × Table MemoryPointer :=
  (fresh 0#128 { minMergeCount := 1, commitRetries := 1 } (Clock.still 0)).serveAll [
    .commit ⟨.ok none, (Change.start .append).addAll [{ path := "x" }, { path := "y" }]⟩]

/-- Each of the two files is exchanged for another one, in both orders and in a race. -/
theorem apart_changes_commute_shared :
    let t := Table.shared.2
    let a := ((Change.start .replace).remove "x").add { path := "u", recordCount := 3 }
    let b := ((Change.start .overwrite).remove "y").add { path := "v" }
    let live (s : Snapshot) := (s.parentId, s.liveFiles.map DataFile.path)
    Commuting t a b ∧
      (t.commitPair (some 1) a b).1.map (·.map live) =
        .ok [(some 1, ["u", "y"]), (some 2, ["v", "u"])] ∧
      (t.commitPair (some 1) b a).1.map (·.map live) =
        .ok [(some 1, ["v", "x"]), (some 2, ["u", "v"])] ∧
      ((t.serve (.commit ⟨.ok (some 1), b⟩)).2.commit ⟨.ok (some 1), a⟩).1.map live =
        .ok (some 2, ["u", "v"]) := by
  intro t a b live
  have hreachable : Reachable t Table.shared.1 := (reachable_fresh rfl _ _).serveAll _
  exact ⟨apart_changes_commute hreachable (by decide), by decide +kernel, by decide +kernel,
    by decide +kernel⟩

end SnapshotTable
