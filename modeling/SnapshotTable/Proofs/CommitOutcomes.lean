import SnapshotTable.Proofs.SwapOutcomes

/-! How commits, transactions and rollbacks end. A commit that is staged again and again publishes
nothing on the way: whichever attempt succeeds, the table has grown by the one snapshot of the
change, on top of what was current at that attempt. -/

namespace SnapshotTable.Table
variable {t u t' : Table MemoryPointer}

private theorem Refused.of_unmoved {f : Failure} (h : t.Unmoved u) (hp : u.poisoned = t.poisoned)
    (h' : u.Refused f t') : t.Refused f t' := by
  refine ⟨h.trans h'.unmoved, ?_, ?_⟩
  · rw [h'.poisoned, hp]
  · rw [← h.validators]
    exact h'.sturdy

private theorem Grown.of_unmoved {base : Option SnapshotId} {changes : List Change}
    {chain : List Snapshot} (h : t.Unmoved u) (hp : u.poisoned = t.poisoned)
    (h' : u.Grown base changes chain t') : t.Grown base changes chain t' := by
  obtain ⟨parent, hparent, hbuilt⟩ := h'.built
  rw [production_congr h.config h.validators, h.graph] at hbuilt
  rw [h.graph] at hparent
  exact {
    config := h'.config.trans h.config
    validators := h'.validators.trans h.validators
    sound := ⟨hp.symm.trans h'.sound.1, h'.sound.2⟩
    current := h.pointer ▸ h'.current
    built := ⟨parent, hparent, hbuilt⟩
    graph := h.graph ▸ h'.graph
    pointer := h'.pointer }

private theorem publish_final {changes : List Change} {e : TableError}
    (h : (t.publish t.pointer.value changes).1 = .error (.error e)) : e.isRetryable = false := by
  rcases publish_error h with hf | ⟨hne, -⟩ | ⟨id, hf⟩ | ⟨refusal, hf⟩
  · cases hf
    rfl
  · exact absurd rfl hne
  · cases hf
    rfl
  · cases refusal with
    | rejected violation =>
      cases hf
      rfl
    | crashed => cases hf

/-- One attempt fails, or it publishes one snapshot. -/
theorem attempt_cases (t : Table MemoryPointer) (base : Option SnapshotId) (change : Change) :
    (∃ f, (t.attempt base change).1 = .error f ∧ t.Refused f (t.attempt base change).2) ∨
    ∃ s, (t.attempt base change).1 = .ok s ∧
      t.Grown base [change] [s] (t.attempt base change).2 := by
  rw [attempt]
  rcases t.publish_cases base [change] with ⟨f, hf, hr⟩ | ⟨chain, hc, hg⟩
  · split
    · rename_i heq
      rw [heq] at hf hr
      exact .inl ⟨_, rfl, Except.error.inj hf ▸ hr⟩
    · rename_i heq
      rw [heq] at hf
      cases hf
    · rename_i heq
      rw [heq] at hf
      cases hf
  · obtain ⟨parent, -, hb⟩ := hg.built
    obtain ⟨s, rfl⟩ := List.length_eq_one_iff.mp hb.length_eq
    split
    · rename_i heq
      rw [heq] at hc
      cases hc
    · rename_i heq
      rw [heq] at hc hg
      cases hc
      exact .inr ⟨_, rfl, hg⟩
    · rename_i heq
      rw [heq] at hc
      cases hc

private theorem commitFrom_cases (t : Table MemoryPointer) (base : Option SnapshotId) (change : Change)
    (made retries : Nat) :
    (∃ f, (t.commitFrom base change made retries).1 = .error f ∧
      t.Refused f (t.commitFrom base change made retries).2) ∨
    ∃ s current, (t.commitFrom base change made retries).1 = .ok s ∧
      t.Grown current [change] [s] (t.commitFrom base change made retries).2 := by
  induction retries generalizing t base made with
  | zero =>
    rcases t.attempt_cases base change with hf | ⟨s, hs, hg⟩
    · exact .inl hf
    · exact .inr ⟨s, base, hs, hg⟩
  | succ retries ih =>
    rw [commitFrom]
    rcases t.attempt_cases base change with ⟨f, hf, hr⟩ | ⟨s, hs, hg⟩
    · split
      · rename_i e u heq
        rw [heq] at hf hr
        obtain rfl := Except.error.inj hf
        have hp : u.poisoned = t.poisoned := by
          have hiff := hr.poisoned
          rw [or_iff_left (by simp)] at hiff
          exact Bool.eq_iff_iff.mpr hiff
        split
        · simp only [currentId_memory]
          let v := u.report
            (.commitRestaged (made + 1) u.config.commitRetries change.operation e)
          have hv : t.Unmoved v := hr.unmoved.trans (unmoved_report u _)
          rcases ih v u.pointer.value (made + 1) with ⟨f', hf', hr'⟩ | ⟨s, current, hs, hg⟩
          · exact .inl ⟨f', hf', hr'.of_unmoved hv hp⟩
          · exact .inr ⟨s, current, hs, hg.of_unmoved hv hp⟩
        · exact .inl ⟨_, rfl, hr⟩
      · exact .inl ⟨f, hf, hr⟩
    · split
      · rename_i heq
        rw [heq] at hs
        cases hs
      · exact .inr ⟨s, base, hs, hg⟩

/-- So a commit on a base that was just read is decided by its first attempt. -/
theorem commitFrom_current (t : Table MemoryPointer) (change : Change) (made retries : Nat) :
    t.commitFrom t.pointer.value change made retries = t.attempt t.pointer.value change := by
  cases retries with
  | zero => rfl
  | succ retries =>
    rw [commitFrom]
    split
    · rename_i e u heq
      have hlost := attempt_error (congrArg Prod.fst heq)
      rw [publish_final hlost, heq]
      rfl
    · rfl

/-- A commit is refused, or publishes one snapshot on top of what was current at some attempt. -/
theorem commit_cases (t : Table MemoryPointer) (c : Commit) :
    (∃ f, (t.commit c).1 = .error f ∧ t.Refused f (t.commit c).2) ∨
    ∃ s current, (t.commit c).1 = .ok s ∧ t.Grown current [c.change] [s] (t.commit c).2 := by
  rw [commit]
  cases hbase : c.base with
  | error e => exact .inl ⟨_, rfl, .refl t, by simp, fun _ => by simp⟩
  | ok base => exact t.commitFrom_cases base c.change 0 t.config.commitRetries

/-- A transaction fails, or it publishes its chain, or it is empty. -/
theorem commitTransaction_cases (t : Table MemoryPointer) (txn : Transaction) :
    (∃ f, (t.commitTransaction txn).1 = .error f ∧ t.Refused f (t.commitTransaction txn).2) ∨
    (∃ chain, (t.commitTransaction txn).1 = .ok chain ∧
      t.Grown txn.base txn.staged chain (t.commitTransaction txn).2) ∨
    txn.staged = [] ∧ t.commitTransaction txn = (.ok [], t) := by
  rw [commitTransaction]
  split
  · rename_i hempty
    exact .inr (.inr ⟨List.isEmpty_iff.mp hempty, rfl⟩)
  rcases t.publish_cases txn.base txn.staged with ⟨f, hf, hr⟩ | ⟨chain, hc, hg⟩
  · split
    · rename_i heq
      rw [heq] at hf hr
      exact .inl ⟨_, rfl, Except.error.inj hf ▸ hr⟩
    · rename_i heq
      rw [heq] at hf
      cases hf
  · split
    · rename_i heq
      rw [heq] at hc
      cases hc
    · rename_i heq
      rw [heq] at hc hg
      cases hc
      exact .inr (.inl ⟨_, rfl, ⟨hg.config, hg.validators, hg.sound, hg.current, hg.built, hg.graph,
        hg.pointer⟩⟩)

/-- A rollback changes nothing, or puts the pointer at a published snapshot. -/
theorem commitRollback_cases (t : Table MemoryPointer) (r : Rollback) :
    (t.Unmoved (t.commitRollback r).2 ∧ (t.commitRollback r).2.poisoned = t.poisoned) ∨
    ∃ s, t.Rewound s (t.commitRollback r).2 := by
  have hmove (target : SnapshotId) :
      (t.Unmoved (t.movePointer r.base target).2 ∧
        (t.movePointer r.base target).2.poisoned = t.poisoned) ∨
      ∃ s, t.Rewound s (t.movePointer r.base target).2 := by
    rcases t.movePointer_cases r.base target with ⟨e, -, hu, hp⟩ | ⟨s, -, -, hr⟩
    · exact .inl ⟨hu, hp⟩
    · exact .inr ⟨s, hr⟩
  rw [commitRollback]
  split
  · exact .inl ⟨.refl t, rfl⟩
  · exact hmove _
  · split
    · exact .inl ⟨.refl t, rfl⟩
    · exact hmove _

end SnapshotTable.Table
