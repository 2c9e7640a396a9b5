import SnapshotTable.Proofs.SwapOutcomes

/-! The retries of a commit among other clients. A commit touches the table in steps: each attempt is
one, and so is each reading of the pointer behind a lost race. Between two of its steps anything may
have happened to the table. Its own steps leave no trace, except for the last one if that publishes. -/

namespace SnapshotTable
variable {σ : Type} [PointerStore σ] {change : Change} {base : Option SnapshotId}
  {made retries : Nat} {answer : Except Failure Snapshot}

def Table.Ends (t : Table σ) : Except Failure Snapshot → Table σ → Prop
  | .error f, t' => t.Untouched f.isCrash t'
  | .ok s, t' => t.Advanced [s] s .commit t'

private theorem Table.Untouched.ends {t u t' : Table σ} (h : t.Untouched false u)
    (h' : u.Ends answer t') :
    t.Ends answer t' := by
  cases answer with
  | error f => exact Untouched.trans h h'
  | ok s => exact h.advanced h'

/-- An attempt leaves the table as its answer says. -/
theorem Table.attempt_ends (t : Table σ) (base : Option SnapshotId) (change : Change) :
    t.Ends (t.attempt base change).1 (t.attempt base change).2 := by
  rcases t.attempt_settles base change with ⟨f, hf, hu⟩ | ⟨s, hs, ha⟩
  · rw [hf]
    exact hu
  · rw [hs]
    exact ha

/-- The steps of a commit behind `made` attempts, with at most `retries` more: of each step the table
that it finds and the one that it leaves, and at last the answer. What a step finds is not what the one
before it left if others have come in between. -/
inductive Attempts (change : Change) :
    Option SnapshotId → Nat → Nat → List (Table σ × Table σ) → Except Failure Snapshot → Prop
  | last {base : Option SnapshotId} {made retries : Nat} {t : Table σ}
      (final : retries = 0 ∨
        ∀ e, (t.attempt base change).1 = .error (.error e) → e.isRetryable = false) :
      Attempts change base made retries [(t, (t.attempt base change).2)] (t.attempt base change).1
  | unread {base : Option SnapshotId} {made retries : Nat} {t u : Table σ} {e e' : TableError}
      (lost : (t.attempt base change).1 = .error (.error e)) (retry : e.isRetryable = true)
      (unread : u.currentId.1 = .error e') :
      Attempts change base made (retries + 1)
        [(t, (t.attempt base change).2), (u, u.currentId.2)] (.error (.error e'))
  | again {base next : Option SnapshotId} {made retries : Nat} {t u : Table σ} {e : TableError}
      {steps : List (Table σ × Table σ)} {answer : Except Failure Snapshot}
      (lost : (t.attempt base change).1 = .error (.error e)) (retry : e.isRetryable = true)
      (reread : u.currentId.1 = .ok next)
      (later : Attempts change next (made + 1) retries steps answer) :
      Attempts change base made (retries + 1)
        ((t, (t.attempt base change).2) ::
          (u, u.currentId.2.report
            (.commitRestaged (made + 1) u.config.commitRetries change.operation e)) :: steps) answer

def Chained : Table σ → List (Table σ × Table σ) → Table σ → Prop
  | t, [], t' => t = t'
  | t, step :: rest, t' => step.1 = t ∧ Chained step.2 rest t'

private theorem Chained.untouched {t t' : Table σ} {quiet : List (Table σ × Table σ)}
    {last : Table σ × Table σ} (h : Chained t (quiet ++ [last]) t')
    (hquiet : ∀ step ∈ quiet, step.1.Untouched false step.2) :
    t.Untouched false last.1 ∧ last.2 = t' := by
  induction quiet generalizing t with
  | nil =>
    obtain ⟨rfl, h⟩ := h
    exact ⟨.refl _, h⟩
  | cons step rest ih =>
    obtain ⟨rfl, h⟩ := h
    obtain ⟨hstep, hrest⟩ := List.forall_mem_cons.mp hquiet
    obtain ⟨hu, hl⟩ := ih h hrest
    exact ⟨hstep.trans hu, hl⟩

namespace Attempts

/-- All steps but the last leave the table untouched, and so does the last, unless it publishes the one
snapshot that is the answer. -/
theorem ends {steps : List (Table σ × Table σ)}
    (h : Attempts change base made retries steps answer) :
    ∃ quiet last, steps = quiet ++ [last] ∧
      (∀ step ∈ quiet, step.1.Untouched false step.2) ∧ last.1.Ends answer last.2 := by
  induction h with
  | @last base _ _ t final => exact ⟨[], _, rfl, nofun, t.attempt_ends base change⟩
  | @unread base _ _ t u e e' lost _ _ =>
    have hlost := t.attempt_ends base change
    rw [lost] at hlost
    refine ⟨[_], _, rfl, ?_, u.currentId_untouched⟩
    intro step hstep
    obtain rfl := List.mem_singleton.mp hstep
    exact hlost
  | @again base _ _ _ t u e _ _ lost _ _ _ ih =>
    have hlost := t.attempt_ends base change
    rw [lost] at hlost
    obtain ⟨quiet, last, rfl, hquiet, hlast⟩ := ih
    refine ⟨_ :: _ :: quiet, last, rfl, ?_, hlast⟩
    exact List.forall_mem_cons.mpr
      ⟨hlost, List.forall_mem_cons.mpr ⟨u.currentId_untouched.supply, hquiet⟩⟩

/-- A commit that nobody disturbs makes its steps one right after the other. -/
theorem of_commitFrom (t : Table σ) (base : Option SnapshotId) (change : Change)
    (made retries : Nat) :
    ∃ steps, Attempts change base made retries steps (t.commitFrom base change made retries).1 ∧
      Chained t steps (t.commitFrom base change made retries).2 := by
  induction retries generalizing t base made with
  | zero => exact ⟨_, .last (.inl rfl), rfl, rfl⟩
  | succ retries ih =>
    have hfinal (h : ∀ e, (t.attempt base change).1 = .error (.error e) → e.isRetryable = false) :
        ∃ steps, Attempts change base made (retries + 1) steps (t.attempt base change).1 ∧
          Chained t steps (t.attempt base change).2 := ⟨_, .last (.inr h), rfl, rfl⟩
    rw [Table.commitFrom]
    split
    · rename_i e u heq
      have hlost : (t.attempt base change).1 = .error (.error e) := congrArg Prod.fst heq
      have hleft : (t.attempt base change).2 = u := congrArg Prod.snd heq
      split
      · rename_i hretry
        split
        · rename_i hread
          have hunread := congrArg Prod.fst hread
          refine ⟨_, .unread hlost hretry hunread, rfl, hleft.symm, ?_⟩
          exact congrArg Prod.snd hread
        · rename_i next v hread
          have hnext : u.currentId.1 = .ok next := congrArg Prod.fst hread
          have hv : u.currentId.2 = v := congrArg Prod.snd hread
          have hconfig : v.config = u.config := by
            rw [← hv]
            exact u.currentId_untouched.config
          obtain ⟨steps, hs, hc⟩ := ih (v.report
            (.commitRestaged (made + 1) v.config.commitRetries change.operation e)) next (made + 1)
          refine ⟨_, .again hlost hretry hnext hs, rfl, hleft.symm, ?_⟩
          rw [hv, ← hconfig]
          exact hc
      · rename_i hkeep
        rw [← hlost, ← hleft]
        refine hfinal fun e' he' => ?_
        obtain rfl := Failure.error.inj (Except.error.inj (hlost.symm.trans he'))
        exact Bool.eq_false_iff.mpr hkeep
    · rename_i hanswer
      exact hfinal fun e he => (hanswer e _ (Prod.ext he rfl)).elim

end Attempts

/-- A commit fails without a trace, through all its retries, or publishes one snapshot with one swap. -/
theorem Table.commit_ends (t : Table σ) (c : Commit) : t.Ends (t.commit c).1 (t.commit c).2 := by
  rw [commit]
  cases hbase : c.base with
  | error e => exact .refl t
  | ok base =>
    obtain ⟨steps, hs, hc⟩ := Attempts.of_commitFrom t base c.change 0 t.config.commitRetries
    obtain ⟨quiet, last, rfl, hquiet, hlast⟩ := hs.ends
    obtain ⟨hu, heq⟩ := hc.untouched hquiet
    rw [heq] at hlast
    exact hu.ends hlast

end SnapshotTable
