import Mathlib.Data.List.Chain
import SnapshotTable.Proofs.Attempts
import SnapshotTable.Proofs.PointerHistory

/-! The attempts of a commit on a table that nobody else uses, while its pointer store does what it likes. A
commit tries again after a conflict only, on the pointer as it is then read, and no more often than the
settings allow. So a conflict is its answer only if that many attempts were lost, anything else ends it at
once, and what it publishes was judged anew against the snapshot that it is built on. -/

namespace SnapshotTable
variable {σ : Type} [PointerStore σ]

def PointerStore.ReadsOrIsDown (σ : Type) [PointerStore σ] : Prop :=
  ∀ (store : σ) (e : PointerError), (current store).1 = .error e → ∃ reason, e = .unavailable reason

structure Trial (σ : Type) where
  base : Option SnapshotId
  found : Table σ
  answer : Except Failure Snapshot
  left : Table σ

def Table.trial (t : Table σ) (base : Option SnapshotId) (change : Change) : Trial σ :=
  ⟨base, t, (t.attempt base change).1, (t.attempt base change).2⟩

namespace Trial

def Lost (a : Trial σ) : Prop :=
  ∃ expected actual, a.answer = .error (.error (.commitConflict expected actual))

/-- The attempt was lost, and the next one is made on the pointer as it was then read. -/
def Followed (a b : Trial σ) : Prop :=
  a.Lost ∧ a.left.currentId.1 = .ok b.base ∧ ∃ e, b.found = a.left.currentId.2.report e

/-- The attempt made snapshot `s` of the change: the rules, all of them asked again, accept it against the
files of the snapshot that the attempt's base names, and `s` is built on top of that. -/
def Made (a : Trial σ) (change : Change) (s : Snapshot) : Prop :=
  ∃ parent fresh now, a.found.graph.resolve a.base = .ok parent ∧
    Validator.evaluate (filesAt parent) change a.found.validators = .ok () ∧
    s = a.found.production.build parent a.found.graph.nextId change fresh now

def Refused (a : Trial σ) (change : Change) (violation : Violation) : Prop :=
  ∃ parent, a.found.graph.resolve a.base = .ok parent ∧
    Validator.evaluate (filesAt parent) change a.found.validators = .error (.rejected violation)

end Trial

/-- The attempts of a commit with at most `retries` retries, made on table `t` one right after the other, and
the answer of the commit with the table that it leaves. -/
structure Tried (t : Table σ) (base : Option SnapshotId) (change : Change) (retries : Nat)
    (earlier : List (Trial σ)) (last : Trial σ) (result : Except Failure Snapshot × Table σ) : Prop where
  made : ∀ a ∈ earlier ++ [last], a = a.found.trial a.base change
  /-- Nothing has happened to the table before an attempt but calls of the store. -/
  quiet : ∀ a ∈ earlier ++ [last], t.Untouched false a.found
  first : (earlier ++ [last]).head? = some (t.trial base change)
  again : (earlier ++ [last]).IsChain Trial.Followed
  bound : earlier.length ≤ retries
  /-- The last attempt decides, unless the pointer could not be read for another one. -/
  ends : result = (last.answer, last.left) ∧ (last.Lost → earlier.length = retries) ∨
    last.Lost ∧ earlier.length < retries ∧ ∃ e, last.left.currentId.1 = .error e ∧
      result = (.error (.error e), last.left.currentId.2)

private theorem Table.trial_lost {t : Table σ} {base : Option SnapshotId} {change : Change}
    {e : TableError}
    (h : (t.attempt base change).1 = .error (.error e)) (hretry : e.isRetryable = true) :
    (t.trial base change).Lost := by
  cases e with
  | commitConflict expected actual => exact ⟨expected, actual, h⟩
  | _ => cases hretry

private theorem Tried.single {t : Table σ} {base : Option SnapshotId} {change : Change} {retries : Nat}
    {result : Except Failure Snapshot × Table σ}
    (h : result = t.attempt base change ∧ ((t.trial base change).Lost → 0 = retries) ∨
      (t.trial base change).Lost ∧ 0 < retries ∧ ∃ e, (t.attempt base change).2.currentId.1 = .error e ∧
        result = (.error (.error e), (t.attempt base change).2.currentId.2)) :
    Tried t base change retries [] (t.trial base change) result :=
  ⟨List.forall_mem_singleton.mpr rfl, List.forall_mem_singleton.mpr (.refl t), rfl, .singleton _,
    Nat.zero_le _, h⟩

/-- The steps of a commit right after each other make up such attempts. -/
theorem Attempts.tried {change : Change} {base : Option SnapshotId} {made retries : Nat}
    {steps : List (Table σ × Table σ)} {answer : Except Failure Snapshot} {t t' : Table σ}
    (h : Attempts change base made retries steps answer) (hc : Chained t steps t') :
    ∃ earlier last, Tried t base change retries earlier last (answer, t') := by
  induction h generalizing t with
  | @last base _ retries t final =>
    obtain ⟨rfl, rfl⟩ := hc
    refine ⟨[], t.trial base change, .single (.inl ⟨rfl, ?_⟩)⟩
    rintro ⟨expected, actual, hlost⟩
    rcases final with hzero | hfinal
    · exact hzero.symm
    · cases hfinal _ hlost
  | @unread base _ _ t u e e' lost retry unread =>
    obtain ⟨rfl, rfl, rfl⟩ := hc
    have hlost := Table.trial_lost lost retry
    exact ⟨[], t.trial base change, .single (.inr ⟨hlost, Nat.succ_pos _, e', unread, rfl⟩)⟩
  | @again base next _ _ t u e steps answer lost retry reread _ ih =>
    obtain ⟨rfl, rfl, hrest⟩ := hc
    have hlost := Table.trial_lost lost retry
    obtain ⟨earlier, last, h⟩ := ih hrest
    have hfollowed : ∀ b ∈ (earlier ++ [last]).head?, (t.trial base change).Followed b := by
      intro b hb
      obtain rfl := Option.some.inj (h.first.symm.trans hb)
      exact ⟨hlost, reread, _, rfl⟩
    refine ⟨t.trial base change :: earlier, last, List.forall_mem_cons.mpr ⟨rfl, h.made⟩,
      List.forall_mem_cons.mpr ⟨.refl t, fun a ha => ?_⟩, rfl, h.again.cons hfollowed,
      Nat.succ_le_succ h.bound, ?_⟩
    · -- a lost attempt and the reading behind it do nothing to the table but call its store
      have hleft := t.attempt_ends base change
      rw [lost] at hleft
      exact (Table.Untouched.trans hleft (Table.currentId_untouched _).supply).trans (h.quiet a ha)
    · rcases h.ends with ⟨hend, hall⟩ | ⟨hl, hlt, hunread⟩
      · exact .inl ⟨hend, fun hl => congrArg (· + 1) (hall hl)⟩
      · exact .inr ⟨hl, Nat.succ_lt_succ hlt, hunread⟩

private theorem Production.evaluate_of_replay {p : Production} {parent : Option Snapshot}
    {id : SnapshotId} {change : Change} {supply left : Supply} {refusal : Refusal}
    (h : p.replay parent id [change] supply = (.error refusal, left)) :
    Validator.evaluate (filesAt parent) change p.validators = .error refusal := by
  rw [replay, produce] at h
  cases hv : Validator.evaluate (filesAt parent) change p.validators with
  | error refused =>
    rw [hv] at h
    exact congrArg Except.error (Except.error.inj (congrArg Prod.fst h))
  | ok accepted =>
    rw [hv] at h
    cases h

namespace Table
variable {t : Table σ} {base : Option SnapshotId} {change : Change} {s : Snapshot} {violation : Violation}

private theorem attempt_made (h : (t.attempt base change).1 = .ok s) :
    (t.trial base change).Made change s ∧ s.parentId = base := by
  have hp : (t.publish base [change]).1 = .ok [s] := by
    rw [publish_fst_attempt, h]
    rfl
  rcases t.publish_outcome base [change] with ⟨e, -, hf, -⟩ | ⟨refusal, _, _, _, -, -, hf, -⟩ |
    ⟨parent, _, chain, _, hparent, hreplay, hc, -⟩
  · cases hf.symm.trans hp
  · cases hf.symm.trans hp
  obtain rfl := Except.ok.inj (hc.symm.trans hp)
  cases Production.builds_of_replay hreplay with
  | cons fresh now accepted _ =>
    exact ⟨⟨parent, fresh, now, hparent, accepted, rfl⟩, (Graph.resolve_id hparent).symm⟩

private theorem attempt_refused
    (h : (t.attempt base change).1 = .error (.error (.validation violation))) :
    (t.trial base change).Refused change violation := by
  have hrefused : (t.publish base [change]).1 = .error (Refusal.toFailure (.rejected violation)) :=
    attempt_error h
  obtain ⟨parent, supply, left, hparent, hreplay⟩ := publish_refusal hrefused
  exact ⟨parent, hparent, Production.evaluate_of_replay (p := t.production) hreplay⟩

end Table

structure Decided (t : Table σ) (change : Change) (retries : Nat) (earlier : List (Trial σ))
    (last : Trial σ) (result : Except Failure Snapshot × Table σ) : Prop where
  /-- All attempts were lost if the answer is a conflict, and it is that of the last. -/
  conflict : ∀ expected actual, result.1 = .error (.error (.commitConflict expected actual)) →
    earlier.length = retries ∧ (∀ a ∈ earlier ++ [last], a.Lost) ∧ result = (last.answer, last.left)
  /-- Any other answer of an attempt is that of the commit, at once. -/
  final : ∀ a ∈ earlier ++ [last], ¬ a.Lost → a = last ∧ result = (a.answer, a.left)
  /-- So is the failure to read the pointer behind a lost attempt. -/
  unread : earlier.length < retries → ∀ a ∈ earlier ++ [last], a.Lost → ∀ e,
    a.left.currentId.1 = .error e → a = last ∧ result = (.error (.error e), a.left.currentId.2)
  /-- One snapshot is published with one swap, or nothing. -/
  settled : t.Ends result.1 result.2
  published : ∀ s, result.1 = .ok s → last.answer = .ok s ∧ result.2 = last.left ∧
    last.found.Advanced [s] s .commit last.left ∧ s.parentId = last.base ∧ last.Made change s
  refused : ∀ violation, result.1 = .error (.error (.validation violation)) →
    last.answer = result.1 ∧ last.Refused change violation

namespace Tried
variable {t : Table σ} {base : Option SnapshotId} {change : Change} {retries : Nat}
  {earlier : List (Trial σ)} {last : Trial σ} {result : Except Failure Snapshot × Table σ}

private theorem followed (h : Tried t base change retries earlier last result) {a : Trial σ}
    (ha : a ∈ earlier) :
    ∃ b, a.Followed b := by
  obtain ⟨front, rest, rfl⟩ := List.append_of_mem ha
  have hchain : (a :: (rest ++ [last])).IsChain Trial.Followed :=
    h.again.suffix ⟨front, by simp⟩
  exact ⟨_, hchain.rel_head? (List.head?_eq_some_head (by simp))⟩

private theorem made_last (h : Tried t base change retries earlier last result) :
    last = last.found.trial last.base change :=
  h.made last (List.mem_append_right _ (List.mem_singleton_self last))

private theorem eq_last (h : Tried t base change retries earlier last result) {a : Trial σ}
    (ha : a ∈ earlier ++ [last]) (hnone : ∀ b, ¬ a.Followed b) : a = last := by
  rcases List.mem_append.mp ha with hearlier | hlast
  · obtain ⟨b, hb⟩ := h.followed hearlier
    exact absurd hb (hnone b)
  · exact List.mem_singleton.mp hlast

private theorem of_answered (h : Tried t base change retries earlier last result)
    (hread : PointerStore.ReadsOrIsDown σ)
    (hanswer : ∀ reason, result.1 ≠ .error (.error (.pointerStore reason))) :
    result = (last.answer, last.left) ∧ (last.Lost → earlier.length = retries) := by
  rcases h.ends with hend | ⟨-, -, e, he, rfl⟩
  · exact hend
  · obtain ⟨refusal, hrefused, rfl⟩ := Table.currentId_error he
    obtain ⟨reason, rfl⟩ := hread _ _ hrefused
    exact absurd rfl (hanswer reason)

private theorem decided (h : Tried t base change retries earlier last result)
    (hread : PointerStore.ReadsOrIsDown σ) (hsettled : t.Ends result.1 result.2) :
    Decided t change retries earlier last result where
  conflict expected actual hresult := by
    obtain ⟨rfl, hall⟩ := h.of_answered hread (by simp [hresult])
    have hlost : last.Lost := ⟨expected, actual, hresult⟩
    refine ⟨hall hlost, fun a ha => ?_, rfl⟩
    rcases List.mem_append.mp ha with hearlier | hlast
    · obtain ⟨b, hb⟩ := h.followed hearlier
      exact hb.1
    · exact List.mem_singleton.mp hlast ▸ hlost
  final a ha hkept := by
    obtain rfl := h.eq_last ha fun b hb => hkept hb.1
    rcases h.ends with ⟨hend, -⟩ | ⟨hlost, -⟩
    · exact ⟨rfl, hend⟩
    · exact absurd hlost hkept
  unread hlt a ha hlost e he := by
    obtain rfl := h.eq_last ha fun b hb => by cases he.symm.trans hb.2.1
    rcases h.ends with ⟨-, hall⟩ | ⟨-, -, e', he', hresult⟩
    · exact absurd (hall hlost) (Nat.ne_of_lt hlt)
    · cases he.symm.trans he'
      exact ⟨rfl, hresult⟩
  settled := hsettled
  published s hresult := by
    obtain ⟨rfl, -⟩ := h.of_answered hread (by simp [hresult])
    have hanswer : (last.found.attempt last.base change).1 = .ok s :=
      (congrArg Trial.answer h.made_last).symm.trans hresult
    have hleft : last.left = (last.found.attempt last.base change).2 := congrArg Trial.left h.made_last
    have hends := last.found.attempt_ends last.base change
    rw [hanswer, ← hleft] at hends
    obtain ⟨hmade, hparent⟩ := Table.attempt_made hanswer
    rw [← h.made_last] at hmade
    exact ⟨hresult, rfl, hends, hparent, hmade⟩
  refused violation hresult := by
    obtain ⟨rfl, -⟩ := h.of_answered hread (by simp [hresult])
    have hrefused := Table.attempt_refused ((congrArg Trial.answer h.made_last).symm.trans hresult)
    rw [← h.made_last] at hrefused
    exact ⟨rfl, hrefused⟩

end Tried

/-- A commit whose base could not be read fails with that, before any attempt. Any other one makes its
attempts, at most one more than it has retries, and they decide it. -/
theorem Table.commit_decided (hread : PointerStore.ReadsOrIsDown σ) (u t : Table σ)
    (operation : Operation) (change : Change) :
    let c : Commit := { (u.beginCommit operation).1 with change }
    (∀ e, u.currentId.1 = .error e →
      (∃ reason, e = .pointerStore reason) ∧ t.commit c = (.error (.error e), t)) ∧
    ∀ base, u.currentId.1 = .ok base → ∃ earlier last,
      Tried t base change t.config.commitRetries earlier last (t.commit c) ∧
      Decided t change t.config.commitRetries earlier last (t.commit c) := by
  intro c
  have hbase : c.base = u.currentId.1 := rfl
  constructor
  · intro e he
    obtain ⟨refusal, hrefused, rfl⟩ := currentId_error he
    obtain ⟨reason, rfl⟩ := hread _ _ hrefused
    rw [commit, hbase, he]
    exact ⟨⟨reason, rfl⟩, rfl⟩
  · intro base hok
    have hcommit : t.commit c = t.commitFrom base change 0 t.config.commitRetries := by
      rw [commit, hbase, hok]
    obtain ⟨steps, hs, hc⟩ := Attempts.of_commitFrom t base change 0 t.config.commitRetries
    obtain ⟨earlier, last, htried⟩ := hs.tried hc
    rw [Prod.eta, ← hcommit] at htried
    exact ⟨earlier, last, htried, htried.decided hread (t.commit_ends c)⟩

private theorem ScriptedPointer.readsOrIsDown : PointerStore.ReadsOrIsDown ScriptedPointer := by
  intro store e h
  simp only [PointerStore.current] at h
  cases hfault : ScriptedPointer.next store.readFaults with
  | none =>
    rw [hfault] at h
    cases h
  | unavailable reason =>
    rw [hfault] at h
    exact ⟨reason, (Except.error.inj h).symm⟩
  | race moved =>
    rw [hfault] at h
    cases h

/-- A table with one retry that went back to the first of its two snapshots, and whose store lets another
client in before the next swap: that one goes forward again. -/
def Table.overtaken : Table ScriptedPointer :=
  let append (path : String) : Change := (Change.start .append).add { path }
  let empty : Table ScriptedPointer := { Table.fresh 0#128 { commitRetries := 1 } (Clock.still 0) with
    pointer := { swapFaults := [.none, .none, .none, .race (some 2)] } }
  empty.after [.publish none [append "b"], .publish (some 1) [append "a"], .move (some 2) 1]

/-- A file that the second of its snapshots added is new on the first. But the attempt to add it again there
is lost, and the next one is refused on the second. -/
theorem commit_decided_overtaken :
    let t := Table.overtaken
    let change := (Change.start .append).add { path := "a" }
    let violation : Violation := ⟨"added-files-must-be-new", "files already in table: a"⟩
    Validator.evaluate (filesAt (t.graph.get? 1)) change t.validators = .ok () ∧
    (t.commit { (t.beginCommit .append).1 with change }).1 = .error (.error (.validation violation)) ∧
    ∃ first last, Tried t (some 1) change 1 [first] last
        (t.commit { (t.beginCommit .append).1 with change }) ∧
      last.base = some 2 ∧ last.Refused change violation := by
  intro t change violation
  have haccepted : Validator.evaluate (filesAt (t.graph.get? 1)) change t.validators = .ok () := by
    decide +kernel
  have hanswer : (t.commit { (t.beginCommit .append).1 with change }).1 =
      .error (.error (.validation violation)) := by decide +kernel
  have hlost : (t.trial (some 1) change).answer =
    .error (.error (.commitConflict (some 1) (some 2))) := by decide +kernel
  have hread : (t.trial (some 1) change).left.currentId.1 = .ok (some 2) := by decide +kernel
  obtain ⟨-, hall⟩ := Table.commit_decided ScriptedPointer.readsOrIsDown t t .append change
  obtain ⟨earlier, last, htried, hdecided⟩ := hall (some 1) (by decide +kernel)
  obtain ⟨hlast, hrefused⟩ := hdecided.refused violation hanswer
  rw [hanswer] at hlast
  -- the first attempt was lost, so it is not the last, and there is room for one more
  cases earlier with
  | nil =>
    obtain rfl := Option.some.inj htried.first
    cases hlost.symm.trans hlast
  | cons first rest =>
    obtain rfl := Option.some.inj htried.first
    obtain rfl := List.length_eq_zero_iff.mp (Nat.le_zero.mp (Nat.le_of_succ_le_succ htried.bound))
    have hfollowed : (t.trial (some 1) change).Followed last := List.isChain_pair.mp htried.again
    exact ⟨haccepted, hanswer, _, last, htried, (Except.ok.inj (hread.symm.trans hfollowed.2.1)).symm,
      hrefused⟩

end SnapshotTable
