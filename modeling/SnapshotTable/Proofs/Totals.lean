import Mathlib.Algebra.GroupWithZero.Nat
import SnapshotTable.DataFile

/-! Totals. A total is the exact sum, held at the greatest one, in whatever order the files are taken. What a
table adds up to after a change is not counted again, but follows from what it added up to before: that is
exact as long as nothing was held on the way, and otherwise lacks what was removed. -/

namespace SnapshotTable

def sumOf (measure : DataFile → Nat) (files : List DataFile) : Nat := (files.map measure).sum

def derivedTotal (measure : DataFile → Nat) (before added removed : List DataFile) : Nat :=
  clampedAdd (clampedTotal (before.map measure)) (clampedTotal (added.map measure))
    - clampedTotal (removed.map measure)

private theorem foldl_clampedAdd (values : List Nat) {start : Nat} (h : start ≤ maxTotal) :
    values.foldl clampedAdd start = min (start + values.sum) maxTotal := by
  induction values generalizing start with
  | nil => exact (Nat.min_eq_left h).symm
  | cons v rest ih =>
    have hheld : clampedAdd start v ≤ maxTotal := Nat.min_le_right _ _
    rw [List.foldl_cons, ih hheld, List.sum_cons, clampedAdd]
    omega

/-- A total is the sum, held at the greatest one. -/
theorem clampedTotal_eq (values : List Nat) : clampedTotal values = min values.sum maxTotal := by
  rw [clampedTotal, foldl_clampedAdd values (Nat.zero_le _), Nat.zero_add]

section Measure
variable {measure : DataFile → Nat}

/-- Clamping at each step is clamping once at the end. -/
theorem clampedTotal_map (files : List DataFile) :
    clampedTotal (files.map measure) = min (sumOf measure files) maxTotal := clampedTotal_eq _

private theorem sumOf_append (files more : List DataFile) :
    sumOf measure (files ++ more) = sumOf measure files + sumOf measure more := by
  rw [sumOf, List.map_append, List.sum_append_nat]
  rfl

/-- Sums do not depend on the order of the files. -/
theorem sumOf_perm {files files' : List DataFile} (h : files.Perm files') :
    sumOf measure files = sumOf measure files' := (h.map measure).sum_nat

/-- A derived total does not depend on the order of the files. -/
theorem derivedTotal_congr {before before' added added' removed removed' : List DataFile}
    (hbefore : before.Perm before') (hadded : added.Perm added') (hremoved : removed.Perm removed') :
    derivedTotal measure before added removed = derivedTotal measure before' added' removed' := by
  simp only [derivedTotal, clampedTotal_map, sumOf_perm hbefore, sumOf_perm hadded, sumOf_perm hremoved]

/-! What was before a change, with what it added, is what is left, with what it removed. -/

variable {before added removed left : List DataFile} (h : (before ++ added).Perm (left ++ removed))
include h

private theorem balance :
    sumOf measure before + sumOf measure added = sumOf measure left + sumOf measure removed := by
  rw [← sumOf_append, ← sumOf_append]
  exact sumOf_perm h

/-- A derived total holds the sum before anything is removed, and takes the removed files from that. -/
theorem derivedTotal_eq :
    derivedTotal measure before added removed =
      min (sumOf measure before + sumOf measure added) maxTotal - sumOf measure removed := by
  rw [derivedTotal, clampedTotal_map, clampedTotal_map, clampedTotal_map, clampedAdd]
  have hbalance : sumOf measure before + sumOf measure added =
      sumOf measure left + sumOf measure removed := balance h
  omega

/-- Below the limit it is exact. -/
theorem derivedTotal_exact (hfits : sumOf measure before + sumOf measure added ≤ maxTotal) :
    derivedTotal measure before added removed = sumOf measure left := by
  rw [derivedTotal_eq h, Nat.min_eq_left hfits, balance h, Nat.add_sub_cancel]

/-- A derived total is never more than counting what is left. -/
theorem derivedTotal_le :
    derivedTotal measure before added removed ≤ clampedTotal (left.map measure) := by
  rw [derivedTotal_eq h, clampedTotal_map, balance h]
  omega

/-- It is what counting again gives if nothing was held, nothing was taken away, or nothing is left. -/
theorem derivedTotal_eq_clampedTotal_iff :
    derivedTotal measure before added removed = clampedTotal (left.map measure) ↔
      sumOf measure before + sumOf measure added ≤ maxTotal ∨ sumOf measure removed = 0 ∨
        sumOf measure left = 0 := by
  have hlimit : 0 < maxTotal := by decide
  rw [derivedTotal_eq h, clampedTotal_map, balance h]
  omega

end Measure
end SnapshotTable
