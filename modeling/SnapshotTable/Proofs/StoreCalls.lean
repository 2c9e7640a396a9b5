import SnapshotTable.Pointer.Store

/-! What clients can do to a pointer store. Nothing is assumed of the store: a call may be refused for
any reason, and others may move the pointer in front of it. What counts is which swaps were granted. -/

namespace SnapshotTable

/-- Calls that lead from one state of a store to another; of their swaps those to these targets are
granted, in this order, and no others. -/
inductive Calls {σ : Type} [PointerStore σ] (s : σ) : List SnapshotId → σ → Prop
  | none : Calls s [] s
  | read {targets : List SnapshotId} {s' : σ} (earlier : Calls s targets s') :
      Calls s targets (PointerStore.current s').2
  | refused {targets : List SnapshotId} {s' : σ} {expected : Option SnapshotId}
      {target : SnapshotId} {e : PointerError} (earlier : Calls s targets s')
      (h : (PointerStore.compareAndSwap s' expected target).1 = .error e) :
      Calls s targets (PointerStore.compareAndSwap s' expected target).2
  | granted {targets : List SnapshotId} {s' : σ} {expected : Option SnapshotId}
      {target : SnapshotId} (earlier : Calls s targets s')
      (h : (PointerStore.compareAndSwap s' expected target).1 = .ok ()) :
      Calls s (targets ++ [target]) (PointerStore.compareAndSwap s' expected target).2

/-- A store that keeps what it promises, and that nobody else uses. -/
structure PointerStore.Faithful (σ : Type) [PointerStore σ] : Prop where
  read : ∀ s : σ, held (current s).2 = held s
  refused : ∀ (s : σ) expected target e, (compareAndSwap s expected target).1 = .error e →
    held (compareAndSwap s expected target).2 = held s
  granted : ∀ (s : σ) expected target, (compareAndSwap s expected target).1 = .ok () →
    held (compareAndSwap s expected target).2 = some target

structure Recorded (σ : Type) where
  store : σ
  swaps : List SnapshotId := []

instance {σ : Type} [PointerStore σ] : PointerStore (Recorded σ) where
  current r :=
    let (answer, store) := PointerStore.current r.store
    (answer, { r with store })
  compareAndSwap r expected target :=
    match PointerStore.compareAndSwap r.store expected target with
    | (.error e, store) => (.error e, { r with store })
    | (.ok (), store) => (.ok (), ⟨store, r.swaps ++ [target]⟩)
  held r := PointerStore.held r.store

namespace Calls
variable {σ : Type} [PointerStore σ]

/-- What two runs of a store were granted is granted in their sequence. -/
theorem trans {s u v : σ} {targets more : List SnapshotId} (h : Calls s targets u)
    (h' : Calls u more v) : Calls s (targets ++ more) v := by
  induction h' with
  | none => rwa [List.append_nil]
  | read _ ih => exact ih.read
  | refused _ hr ih => exact ih.refused hr
  | granted _ hg ih =>
    rw [← List.append_assoc]
    exact ih.granted hg

/-- Reading grants nothing. -/
theorem of_read {s s' : σ} {answer : Except PointerError (Option SnapshotId)}
    (h : PointerStore.current s = (answer, s')) : Calls s [] s' := by
  have hcalls : Calls s [] (PointerStore.current s).2 := none.read
  rwa [h] at hcalls

/-- A refusal grants nothing. -/
theorem of_refused {s s' : σ} {expected : Option SnapshotId} {target : SnapshotId}
    {e : PointerError} (h : PointerStore.compareAndSwap s expected target = (.error e, s')) :
    Calls s [] s' := by
  have hcalls : Calls s [] (PointerStore.compareAndSwap s expected target).2 :=
    none.refused (congrArg Prod.fst h)
  rwa [h] at hcalls

/-- A swap that goes through grants its target. -/
theorem of_granted {s s' : σ} {expected : Option SnapshotId} {target : SnapshotId}
    (h : PointerStore.compareAndSwap s expected target = (.ok (), s')) : Calls s [target] s' := by
  have hcalls : Calls s [target] (PointerStore.compareAndSwap s expected target).2 :=
    none.granted (congrArg Prod.fst h)
  rwa [h] at hcalls

/-- A store that keeps a record has granted exactly these swaps. -/
theorem swaps_eq {r r' : Recorded σ} {targets : List SnapshotId} (h : Calls r targets r') :
    r'.swaps = r.swaps ++ targets := by
  induction h with
  | none => rw [List.append_nil]
  | read _ ih => exact ih
  | @refused _ r' expected target e _ hr ih =>
    rw [← ih]
    simp only [PointerStore.compareAndSwap] at hr ⊢
    split at hr
    · rfl
    · cases hr
  | @granted _ r' expected target _ hg ih =>
    rw [← List.append_assoc, ← ih]
    simp only [PointerStore.compareAndSwap] at hg ⊢
    split at hg
    · cases hg
    · rfl

/-- A faithful store points at the target of the last swap that it granted. -/
theorem held_eq (hf : PointerStore.Faithful σ) {s s' : σ} {targets : List SnapshotId}
    (h : Calls s targets s') :
    PointerStore.held s' = targets.getLast?.or (PointerStore.held s) := by
  induction h with
  | none => rfl
  | read _ ih => rw [hf.read, ih]
  | refused _ hr ih => rw [hf.refused _ _ _ _ hr, ih]
  | granted _ hg _ => rw [hf.granted _ _ _ hg, List.getLast?_concat, Option.some_or]

end Calls

/-- A pointer in memory is where the last granted swap put it. -/
theorem MemoryPointer.faithful : PointerStore.Faithful MemoryPointer where
  read _ := rfl
  refused s expected target e h := by
    simp only [PointerStore.compareAndSwap, PointerStore.held, swapValue] at h ⊢
    split
    · rename_i hsame
      rw [if_pos hsame] at h
      cases h
    · rfl
  granted s expected target h := by
    simp only [PointerStore.compareAndSwap, PointerStore.held, swapValue] at h ⊢
    split
    · rfl
    · rename_i hother
      rw [if_neg hother] at h
      cases h

end SnapshotTable
