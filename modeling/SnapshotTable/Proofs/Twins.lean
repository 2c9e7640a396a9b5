import Mathlib.Data.List.Forall2
import SnapshotTable.Proofs.AppendPlan
import SnapshotTable.Proofs.RemovedFiles

/-! Snapshots that were produced alike under different settings. The settings shape the manifests, and
everything else that a snapshot says stays the same: its files, what it added and removed, its figures
and its place in the lineage. What is produced on top of such twins are twins again. -/

namespace SnapshotTable

inductive Matches {ε α β : Type} (R : α → β → Prop) : Except ε α → Except ε β → Prop
  | error (e : ε) : Matches R (.error e) (.error e)
  | ok {a : α} {b : β} (h : R a b) : Matches R (.ok a) (.ok b)

namespace Matches
variable {ε α β γ δ : Type} {R : α → β → Prop} {S : γ → δ → Prop} {x : Except ε α}
  {y : Except ε β}

theorem of_eq {x y : Except ε α} (h : x = y) : Matches Eq x y := by
  subst h
  cases x with
  | error e => exact .error e
  | ok a => exact .ok rfl

theorem eq {x y : Except ε α} (h : Matches Eq x y) : x = y := by
  cases h with
  | error e => rfl
  | ok h => rw [h]

/-- Answers that match are continued to answers that match. -/
theorem bind {f : α → Except ε γ} {g : β → Except ε δ} (h : Matches R x y)
    (hf : ∀ a b, R a b → Matches S (f a) (g b)) : Matches S (x.bind f) (y.bind g) := by
  cases h with
  | error e => exact .error e
  | ok h => exact hf _ _ h

theorem map {f : α → γ} {g : β → δ} (h : Matches R x y) (hf : ∀ a b, R a b → S (f a) (g b)) :
    Matches S (x.map f) (y.map g) := by
  cases h with
  | error e => exact .error e
  | ok h => exact .ok (hf _ _ h)

end Matches

namespace Snapshot
variable {R : Snapshot → Snapshot → Prop} {xs xs' : List Snapshot}

/-- Snapshots that agree in their identifiers one by one are listed under the same identifiers. -/
theorem ids_rel (hid : ∀ s s', R s s' → s'.id = s.id) (h : List.Forall₂ R xs xs') :
    xs'.map Snapshot.id = xs.map Snapshot.id := by
  induction h with
  | nil => rfl
  | cons hs _ ih => rw [List.map_cons, List.map_cons, hid _ _ hs, ih]

/-- Snapshots that agree in their identifiers end with the same one. -/
theorem last_id_rel (hid : ∀ s s', R s s' → s'.id = s.id) (h : List.Forall₂ R xs xs') :
    xs'.getLast?.map Snapshot.id = xs.getLast?.map Snapshot.id := by
  rw [← List.getLast?_map, ← List.getLast?_map, ids_rel hid h]

/-- They are also found alike. -/
theorem find?_rel (hid : ∀ s s', R s s' → s'.id = s.id) (h : List.Forall₂ R xs xs') (id : SnapshotId) :
    Option.Rel R (xs.find? fun s => s.id = id) (xs'.find? fun s => s.id = id) := by
  induction h with
  | nil => exact .none
  | cons hs _ ih =>
    rw [List.find?_cons, List.find?_cons, hid _ _ hs]
    split
    · exact .some hs
    · exact ih

end Snapshot

/-- Two snapshots that differ in the shape of their manifests at most: their live files, what they added
and what they removed are the same records. -/
structure Twin (s s' : Snapshot) : Prop where
  id : s'.id = s.id
  parentId : s'.parentId = s.parentId
  timestamp : s'.timestamp = s.timestamp
  operation : s'.operation = s.operation
  summary : s'.summary = s.summary
  files : s'.files = s.files
  live : s.liveFiles.Perm s'.liveFiles
  added : ∃ set : FileSet, s.addedFiles.Perm set.items ∧ s'.addedFiles.Perm set.items
  deleted : s.deletedFiles.Perm s'.deletedFiles
  tidy : s.Tidy ∧ s'.Tidy

namespace Twin
variable {s s' : Snapshot} {parent parent' : Option Snapshot}

/-- The files of twins are the same. -/
theorem filesAt_eq (h : Option.Rel Twin parent parent') : filesAt parent' = filesAt parent := by
  cases h with
  | none => rfl
  | some h => exact h.files

private theorem liveOnce (h : Option.Rel Twin parent parent') : LiveOnce parent ∧ LiveOnce parent' := by
  cases h with
  | none => exact ⟨liveOnce_none, liveOnce_none⟩
  | some h => exact ⟨h.tidy.1.once, h.tidy.2.once⟩

private theorem id_map (h : Option.Rel Twin parent parent') :
    parent'.map Snapshot.id = parent.map Snapshot.id := by
  cases h with
  | none => rfl
  | some h => exact congrArg some h.id

private theorem timestamp_eq (h : Option.Rel Twin parent parent') (now : Instant) :
    Production.timestamp parent' now = Production.timestamp parent now := by
  cases h with
  | none => rfl
  | some h => rw [Production.timestamp, Production.timestamp, h.timestamp]

private theorem authored (h : Option.Rel Twin parent parent') {id : SnapshotId}
    (hid : ∀ q, parent = some q → q.id < id) :
    AuthoredBefore id (parent.elim [] Snapshot.manifests) ∧
      AuthoredBefore id (parent'.elim [] Snapshot.manifests) := by
  cases h with
  | none => exact ⟨nofun, nofun⟩
  | @some q q' h =>
    have hq := hid q rfl
    exact ⟨h.tidy.1.authoredBefore hq, h.tidy.2.authoredBefore (h.id ▸ hq)⟩

private theorem perm_records (honce : LiveOnce parent) (honce' : LiveOnce parent')
    (hfiles : filesAt parent' = filesAt parent) :
    ((recordsAt parent).map Prod.snd).Perm ((recordsAt parent').map Prod.snd) := by
  have hperm := perm_filesAt honce'
  rw [hfiles] at hperm
  exact (perm_filesAt honce).symm.trans hperm

/-- The same change makes twins of twins. -/
theorem build (h : Option.Rel Twin parent parent') {id : SnapshotId} {change : Change}
    (hid : ∀ q, parent = some q → q.id < id)
    (hnew : ∀ f ∈ change.added.items, (filesAt parent).contains f.path = false)
    (p p' : Production) (fresh fresh' : ManifestId) (now : Instant) :
    Twin (p.build parent id change fresh now) (p'.build parent' id change fresh' now) := by
  have hfiles := filesAt_eq h
  obtain ⟨honce, honce'⟩ := liveOnce h
  obtain ⟨hauth, hauth'⟩ := authored h hid
  have hnew' : ∀ f ∈ change.added.items, (filesAt parent').contains f.path = false := by
    rw [hfiles]
    exact hnew
  have hlive := perm_records honce honce' hfiles
  have hbuilt := Production.tidy_build p fresh now honce hauth hnew
  have hbuilt' := Production.tidy_build p' fresh' now honce' hauth' hnew'
  have hsame : filesAt (some (p'.build parent' id change fresh' now)) =
      filesAt (some (p.build parent id change fresh now)) := by
    rw [Production.filesAt_build p id fresh now honce hnew,
      Production.filesAt_build p' id fresh' now honce' hnew', hfiles]
  exact {
    id := rfl
    parentId := id_map h
    timestamp := timestamp_eq h now
    operation := rfl
    summary := congrArg (Production.summarize · change) hfiles
    files := hsame
    live := by
      rw [Snapshot.liveFiles_eq, Snapshot.liveFiles_eq]
      exact perm_records hbuilt.once hbuilt'.once hsame
    added := ⟨change.added, .of_eq (Production.addedFiles_build p fresh now hauth),
      .of_eq (Production.addedFiles_build p' fresh' now hauth')⟩
    deleted := by
      apply (Production.deletedFiles_build p fresh now hauth).trans
      exact (hlive.filter _).trans (Production.deletedFiles_build p' fresh' now hauth').symm
    tidy := ⟨hbuilt, hbuilt'⟩ }

end Twin

namespace Production
variable {p p' : Production} {parent parent' : Option Snapshot} {id : SnapshotId}
  {supply supply' : Supply}

def Strict (p : Production) : Prop := Validator.addedFilesMustBeNew ∈ p.validators

private theorem produce_twins (hrules : p'.validators = p.validators) (hstrict : p.Strict)
    (h : Option.Rel Twin parent parent') (hid : ∀ q, parent = some q → q.id < id)
    (hclock : supply'.clock = supply.clock) (change : Change) :
    Matches (fun s s' => Twin s s' ∧ s.id = id) (p.produce parent id change supply).1
        (p'.produce parent' id change supply').1 ∧
      (p'.produce parent' id change supply').2.clock =
        (p.produce parent id change supply).2.clock := by
  rw [produce, produce, hrules, Twin.filesAt_eq h, hclock]
  cases haccept : Validator.evaluate (filesAt parent) change p.validators with
  | error refusal => exact ⟨.error refusal, hclock⟩
  | ok _ =>
    have hpass := Validator.evaluate_eq_ok_iff.mp haccept _ hstrict
    have hnew := Validator.addedFilesMustBeNew_pass_iff.mp hpass
    exact ⟨.ok ⟨Twin.build h hid hnew p p' _ _ _, rfl⟩, rfl⟩

/-- The same changes are refused on twins for the same reason, or make twins of them one by one. -/
theorem replay_twins (hrules : p'.validators = p.validators) (hstrict : p.Strict)
    (h : Option.Rel Twin parent parent') (hid : ∀ q, parent = some q → q.id < id)
    (hclock : supply'.clock = supply.clock) (changes : List Change) :
    Matches (List.Forall₂ Twin) (p.replay parent id changes supply).1
        (p'.replay parent' id changes supply').1 ∧
      (p'.replay parent' id changes supply').2.clock =
        (p.replay parent id changes supply).2.clock := by
  induction changes generalizing parent parent' id supply supply' with
  | nil => exact ⟨.ok .nil, hclock⟩
  | cons change rest ih =>
    obtain ⟨hmatch, hclocks⟩ := produce_twins hrules hstrict h hid hclock change
    rw [replay, replay]
    cases hp : p.produce parent id change supply with
    | mk answer left =>
      cases hp' : p'.produce parent' id change supply' with
      | mk answer' left' =>
        rw [hp, hp'] at hmatch hclocks
        cases hmatch with
        | error refusal => exact ⟨.error refusal, hclocks⟩
        | @ok s s' hs =>
          obtain ⟨htwin, rfl⟩ := hs
          have hlater : ∀ q, some s = some q → q.id < s.id + 1 := by
            rintro _ ⟨⟩
            exact Nat.lt_succ_self _
          obtain ⟨hrest, hends⟩ := ih (.some htwin) hlater hclocks
          dsimp only
          cases hr : p.replay (some s) (s.id + 1) rest left with
          | mk chain more =>
            cases hr' : p'.replay (some s') (s.id + 1) rest left' with
            | mk chain' more' =>
              rw [hr, hr'] at hrest hends
              cases hrest with
              | error refusal => exact ⟨.error refusal, hends⟩
              | ok hchain => exact ⟨.ok (.cons htwin hchain), hends⟩

end Production
end SnapshotTable
