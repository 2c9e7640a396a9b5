import SnapshotTable.Validator.Basic
import SnapshotTable.Proofs.KeyedEntries

/-! What it means that the rules accept a change: each rule passes. The standard rules pass exactly
if no added path is live and, where removals are required, every removed path is. -/

namespace SnapshotTable.Validator

/-- Rules accept a change if each of them lets it pass. -/
theorem evaluate_eq_ok_iff {base : FileSet} {change : Change} {validators : List Validator} :
    evaluate base change validators = .ok () ↔ ∀ v ∈ validators, v.judge base change = .pass := by
  induction validators with
  | nil => simp [evaluate]
  | cons v rest ih =>
    rw [evaluate, List.forall_mem_cons]
    cases hv : v.judge base change with
    | pass => simpa using ih
    | fail reason => simp
    | crash => simp

/-- Only paths that are not live may be added. -/
theorem addedFilesMustBeNew_pass_iff {base : FileSet} {change : Change} :
    addedFilesMustBeNew.judge base change = .pass ↔
      ∀ f ∈ change.added.items, base.contains f.path = false := by
  have hnil : (change.added.toList.map DataFile.path).filter base.contains = [] ↔
      ∀ f ∈ change.added.items, base.contains f.path = false := by
    simp [List.filter_eq_nil_iff, Keyed.toList]
  rw [← hnil]
  simp only [addedFilesMustBeNew]
  split <;> simp_all

private theorem removedFilesMustExist_pass_iff {base : FileSet} {change : Change} :
    removedFilesMustExist.judge base change = .pass ↔
      (change.operation = .replace ∨ change.requiresRemovals = true →
        ∀ path ∈ change.removed.items, base.contains path = true) := by
  have hnil : change.removed.toList.filter (!base.contains ·) = [] ↔
      ∀ path ∈ change.removed.items, base.contains path = true := by
    simp [List.filter_eq_nil_iff, Keyed.toList]
  rw [← hnil]
  simp only [removedFilesMustExist]
  split
  · rename_i hreq
    simp only [hreq, true_implies]
    split <;> simp_all
  · rename_i hreq
    simp [hreq]

/-- What the standard rules accept. -/
theorem evaluate_standard_eq_ok_iff {base : FileSet} {change : Change} :
    evaluate base change standard = .ok () ↔
      (∀ f ∈ change.added.items, base.contains f.path = false) ∧
      (change.operation = .replace ∨ change.requiresRemovals = true →
        ∀ path ∈ change.removed.items, base.contains path = true) := by
  rw [evaluate_eq_ok_iff, standard, List.forall_mem_cons, List.forall_mem_singleton,
    addedFilesMustBeNew_pass_iff, removedFilesMustExist_pass_iff]

/-- A set of rules that no change can break down. -/
def Sturdy (validators : List Validator) : Prop :=
  ∀ v ∈ validators, ∀ base change, v.judge base change ≠ .crash

/-- Rules that none of breaks down refuse a change or accept it. -/
theorem evaluate_ne_crashed {validators : List Validator} (h : Sturdy validators) (base : FileSet)
    (change : Change) : evaluate base change validators ≠ .error .crashed := by
  induction validators with
  | nil => simp [evaluate]
  | cons v rest ih =>
    rw [evaluate]
    cases hv : v.judge base change with
    | pass => exact ih fun w hw => h w (List.mem_cons_of_mem _ hw)
    | fail reason => simp
    | crash => exact absurd hv (h v List.mem_cons_self base change)

/-- No standard rule breaks down. -/
theorem sturdy_standard : Sturdy standard := by
  intro v hv base change
  simp only [standard, List.mem_cons, List.not_mem_nil, or_false] at hv
  rcases hv with rfl | rfl
  · simp only [addedFilesMustBeNew]
    split <;> simp
  · simp only [removedFilesMustExist]
    split
    · split <;> simp
    · simp

end SnapshotTable.Validator
