import Mathlib.Algebra.Group.Nat.Defs
import Mathlib.Data.List.Basic
import SnapshotTable.Json.Number

/-! Numerals inside a text. What is written of a number is a run of digits without a leading zero, or padded to
a width, so a reader that takes the digits at the start of a text takes the number back, whatever follows. -/

namespace SnapshotTable.Text

def Stops (p : Char → Bool) (rest : List Char) : Prop := ∀ c, rest.head? = some c → p c = false

private theorem Stops.takeWhile {p : Char → Bool} {run rest : List Char} (hrun : ∀ c ∈ run, p c = true)
    (h : Stops p rest) : (run ++ rest).takeWhile p = run := by
  rw [List.takeWhile_append_of_pos hrun]
  cases rest with
  | nil => rw [List.takeWhile_nil, List.append_nil]
  | cons c rest => rw [List.takeWhile_cons_of_neg (by simp [h c rfl]), List.append_nil]

namespace Decimal

private theorem numeral_ne_nil (n : Nat) : numeral n ≠ [] := Nat.toDigits_ne_nil

private theorem numeral_zero : numeral 0 = ['0'] := rfl

private theorem head?_numeral_ne {n : Nat} (h : n ≠ 0) : (numeral n).head? ≠ some '0' := by
  induction n using Nat.strongRecOn with
  | ind n ih =>
    rw [numeral]
    by_cases hsmall : n < 10
    · rw [Nat.toDigits_of_lt_base hsmall]
      have hdigit : ∀ d < 10, d ≠ 0 → Nat.digitChar d ≠ '0' := by decide
      simpa using hdigit n hsmall h
    · rw [Nat.toDigits_of_base_le (by decide) (Nat.le_of_not_lt hsmall),
        List.head?_append_of_ne_nil _ Nat.toDigits_ne_nil]
      exact ih (n / 10) (by omega) (by omega)

/-- It starts with a digit, and with no other character. -/
theorem head?_numeral (n : Nat) : ∃ c tail, numeral n = c :: tail ∧ c.isDigit = true := by
  cases h : numeral n with
  | nil => exact absurd h (numeral_ne_nil n)
  | cons c tail => exact ⟨c, tail, rfl, isDigit_of_mem_numeral (h ▸ List.mem_cons_self)⟩

private theorem length_numeral_le {width n : Nat} (hwidth : 0 < width) (h : n < 10 ^ width) :
    (numeral n).length ≤ width :=
  (Nat.length_toDigits_le_iff (by decide) hwidth).mpr h

/-- A padded number is written in digits alone. -/
theorem isDigit_of_mem_padded {width n : Nat} {c : Char} (h : c ∈ padded width n) :
    c.isDigit = true := by
  rw [padded] at h
  rcases List.mem_append.mp h with h | h
  · rw [List.eq_of_mem_replicate h]
    rfl
  · exact isDigit_of_mem_numeral h

/-- A number that fits its width is padded to just that width. -/
theorem length_padded {width n : Nat} (hwidth : 0 < width) (h : n < 10 ^ width) :
    (padded width n).length = width := by
  have hle := length_numeral_le hwidth h
  rw [padded, List.length_append, List.length_replicate]
  omega

/-- A run of digits within the limit is read as its number, if it reaches the limit or the text goes on with
something else. -/
theorem leading?_run {limit : Nat} {run rest : List Char} (hne : run ≠ [])
    (hrun : ∀ c ∈ run, c.isDigit = true) (hlen : run.length ≤ limit)
    (hstop : run.length = limit ∨ Stops Char.isDigit rest) :
    leading? limit (run ++ rest) = some (value run, rest) := by
  have htake : ((run ++ rest).take limit).takeWhile Char.isDigit = run := by
    rw [List.take_append, List.take_of_length_le hlen]
    apply Stops.takeWhile hrun
    rcases hstop with hfull | hstop
    · rw [hfull, Nat.sub_self]
      nofun
    · cases hk : limit - run.length with
      | zero => nofun
      | succ k =>
        cases rest with
        | nil => nofun
        | cons c rest => exact hstop
  rw [leading?, htake]
  cases run with
  | nil => contradiction
  | cons c run =>
    dsimp only
    rw [List.drop_left]

/-- A padded number is read back by its width, whatever follows. -/
theorem leading?_padded {width n : Nat} (hwidth : 0 < width) (h : n < 10 ^ width) (rest : List Char) :
    leading? width (padded width n ++ rest) = some (n, rest) := by
  have hlen := length_padded hwidth h
  have hne : padded width n ≠ [] := List.length_pos_iff.mp (by rwa [hlen])
  have hread : leading? width (padded width n ++ rest) = some (value (padded width n), rest) :=
    leading?_run hne (fun c => isDigit_of_mem_padded) (Nat.le_of_eq hlen) (.inl hlen)
  rwa [value_padded] at hread

end Decimal
end SnapshotTable.Text

namespace SnapshotTable.Json.Number
open Text (Stops)
open Text.Decimal

def continues (c : Char) : Bool := c.isDigit || c == '.' || c == 'e' || c == 'E'

private theorem stops_digits {rest : List Char} (h : Stops continues rest) :
    Stops Char.isDigit rest := by
  intro c hc
  have hnone := h c hc
  rw [continues, Bool.or_assoc, Bool.or_assoc] at hnone
  exact (Bool.or_eq_false_iff.mp hnone).1

private theorem digits?_numeral (n : Nat) {rest : List Char} (h : Stops continues rest) :
    digits? (numeral n ++ rest) = some (numeral n, rest) := by
  rw [digits?, (stops_digits h).takeWhile fun c => isDigit_of_mem_numeral]
  split
  · rename_i hnil
    exact absurd hnil (numeral_ne_nil n)
  · rw [List.drop_left]

private theorem whole?_numeral (n : Nat) {rest : List Char} (h : Stops continues rest) :
    whole? (numeral n ++ rest) = some (numeral n, rest) := by
  rw [whole?.eq_def]
  split
  · rename_i tail heq
    by_cases hn : n = 0
    · subst hn
      rw [numeral_zero] at heq ⊢
      cases heq
      rfl
    · obtain ⟨c, digits, hnum, -⟩ := head?_numeral n
      rw [hnum] at heq
      cases heq
      exact absurd (congrArg List.head? hnum) (head?_numeral_ne hn)
  · exact digits?_numeral n h

private theorem fraction?_stops {rest : List Char} (h : Stops continues rest) :
    fraction? rest = some (none, rest) := by
  rw [fraction?.eq_def]
  split
  · exact absurd (h '.' rfl) (by decide)
  · rfl

private theorem exponent?_stops {rest : List Char} (h : Stops continues rest) :
    exponent? rest = some (none, rest) := by
  cases rest with
  | nil => rfl
  | cons c rest =>
    have hc := h c rfl
    rw [continues, Bool.or_eq_false_iff, Bool.or_eq_false_iff] at hc
    have hother : ¬(c = 'e' ∨ c = 'E') := by
      rintro (rfl | rfl)
      · exact absurd hc.1.2 (by decide)
      · exact absurd hc.2 (by decide)
    rw [exponent?.eq_def]
    exact if_neg hother

/-- What is written of an integer is a literal without fraction and exponent. -/
theorem literal?_signed (z : Int) {rest : List Char} (h : Stops continues rest) :
    literal? (signed z ++ rest) =
      some (⟨decide (z < 0), numeral z.natAbs, none, none⟩, rest) := by
  cases z with
  | ofNat n =>
    have hsign : ∀ tail, numeral n ++ rest = '-' :: tail → False := by
      intro tail heq
      obtain ⟨c, digits, hnum, hdigit⟩ := head?_numeral n
      rw [hnum] at heq
      cases heq
      exact absurd hdigit (by decide)
    rw [signed, literal?.eq_2 _ hsign, whole?_numeral n h]
    simp [fraction?_stops h, exponent?_stops h]
  | negSucc n =>
    rw [signed, List.cons_append, literal?, whole?_numeral (n + 1) h]
    simp [fraction?_stops h, exponent?_stops h]

/-- So an integer of 64 bits is read back from what is written of it. -/
theorem toJson_signed {z : Int} (hlow : -signedBound ≤ z) (hhigh : z < wordBound) :
    Literal.toJson ⟨decide (z < 0), numeral z.natAbs, none, none⟩ = .int z := by
  have hvalue : (if z < 0 then -(z.natAbs : Int) else z.natAbs) = z := by omega
  rw [Literal.toJson]
  simp only [value_numeral, decide_eq_true_eq, hvalue]
  rw [if_pos]
  simp only [Option.isNone_none, Bool.and_self, Bool.true_and, Bool.and_eq_true, decide_eq_true_eq,
    hlow, hhigh, and_true, Bool.not_eq_true', Bool.and_eq_false_iff, decide_eq_false_iff_not,
    beq_eq_false_iff_ne]
  omega

end SnapshotTable.Json.Number
