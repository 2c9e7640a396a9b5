import Mathlib.Algebra.Group.Nat.Defs
import SnapshotTable.Uuid

/-! Identifiers of 128 bits in documents. Their digits name the number again, and the hyphens stand where the
reader expects them, so an identifier is read back from its text. -/

namespace SnapshotTable

namespace Text.Hexadecimal

private theorem value?_digit : ∀ n < 16, value? (digit n) = some n := by decide

private theorem number?_append (high : Nat) (cs rest : List Char) :
    number? high (cs ++ rest) = (number? high cs).bind fun n => number? n rest := by
  induction cs generalizing high with
  | nil => rfl
  | cons c cs ih =>
    rw [List.cons_append, number?, number?]
    cases value? c with
    | none => rfl
    | some d => exact ih _

end Text.Hexadecimal

namespace Uuid
open Text

private theorem length_digits (width n : Nat) : (digits width n).length = width := by
  induction width generalizing n with
  | zero => rfl
  | succ width ih => rw [digits, List.length_append, ih, List.length_singleton]

private theorem number?_digits (high width n : Nat) :
    Hexadecimal.number? high (digits width n) = some (high * 16 ^ width + n % 16 ^ width) := by
  induction width generalizing n with
  | zero => simp [digits, Hexadecimal.number?, Nat.mod_one]
  | succ width ih =>
    have hdigit := Hexadecimal.value?_digit (n % 16) (Nat.mod_lt n (by decide))
    rw [digits, Hexadecimal.number?_append, ih, Option.bind_some, Hexadecimal.number?, hdigit, Option.bind_some,
      Hexadecimal.number?, Nat.pow_succ, Nat.mul_comm (16 ^ width) 16, Nat.mod_mul]
    congr 1
    rw [Nat.add_mul, Nat.mul_assoc, Nat.mul_comm (16 ^ width) 16, Nat.mul_comm (n / 16 % _) 16]
    omega

private theorem plain?_digits (u : Uuid) : plain? (digits 32 u.toNat) = some u := by
  have hsmall : u.toNat % 16 ^ 32 = u.toNat := Nat.mod_eq_of_lt u.isLt
  rw [plain?, if_pos (length_digits _ _), number?_digits, hsmall, Nat.zero_mul, Nat.zero_add, Option.map_some,
    BitVec.ofNat_toNat, BitVec.setWidth_eq]

private theorem hyphenated?_groups {a b c d e : List Char} (ha : a.length = 8) (hb : b.length = 4)
    (hc : c.length = 4) (hd : d.length = 4) (he : e.length = 12) :
    hyphenated? (a ++ '-' :: b ++ '-' :: c ++ '-' :: d ++ '-' :: e) = plain? (a ++ b ++ c ++ d ++ e) := by
  rw [hyphenated?]
  simp [List.drop_append, List.drop_eq_nil_of_le, ha, hb, hc, hd, he]

private theorem mem_digits {width n : Nat} {c : Char} (h : c ∈ digits width n) :
    ∃ d < 16, c = Hexadecimal.digit d := by
  induction width generalizing n with
  | zero => cases h
  | succ width ih =>
    rw [digits] at h
    rcases List.mem_append.mp h with h | h
    · exact ih h
    · exact ⟨n % 16, Nat.mod_lt n (by decide), List.mem_singleton.mp h⟩

private theorem digit_ne :
    ∀ d < 16, Hexadecimal.digit d ≠ '\x7b' ∧ (Hexadecimal.digit d).toLower ≠ 'u' := by decide

private theorem ofText?_digit {d : Nat} (hd : d < 16) {rest : List Char} (hlength : rest.length = 35) :
    ofText? (String.ofList (Hexadecimal.digit d :: rest)) = hyphenated? (Hexadecimal.digit d :: rest) := by
  obtain ⟨hbrace, hurn⟩ := digit_ne d hd
  rw [ofText?, String.toList_ofList]
  split
  · rename_i heq
    exact absurd (List.cons.inj heq).1 hbrace
  · have hplain : (Hexadecimal.digit d :: rest).length ≠ 32 := by
      rw [List.length_cons, hlength]
      decide
    have hother : ((Hexadecimal.digit d :: rest).take urn.length).map Char.toLower ≠ urn := by
      intro heq
      exact hurn (List.cons.inj heq).1
    rw [if_neg hplain, if_neg hother]

/-- An identifier is read back from its text. -/
theorem ofText?_text (u : Uuid) : ofText? (text u) = some u := by
  have hlength := length_digits 32 u.toNat
  rw [text]
  generalize hcs : digits 32 u.toNat = cs at *
  have hgroups : cs.take 8 ++ (cs.drop 8).take 4 ++ (cs.drop 12).take 4 ++ (cs.drop 16).take 4 ++ cs.drop 20 = cs := by
    simp [← List.take_add]
  have hread : hyphenated? (cs.take 8 ++ '-' :: (cs.drop 8).take 4 ++ '-' :: (cs.drop 12).take 4
      ++ '-' :: (cs.drop 16).take 4 ++ '-' :: cs.drop 20) = some u := by
    rw [hyphenated?_groups (by simp [hlength]) (by simp [hlength]) (by simp [hlength]) (by simp [hlength])
      (by simp [hlength]), hgroups, ← hcs, plain?_digits]
  obtain ⟨c, tail, rfl⟩ : ∃ c tail, cs = c :: tail := List.exists_cons_of_length_eq_add_one hlength
  obtain ⟨d, hd, rfl⟩ := mem_digits (hcs ▸ List.mem_cons_self : c ∈ digits 32 u.toNat)
  rw [← hread]
  exact ofText?_digit hd (by simp at hlength ⊢; omega)

end Uuid
end SnapshotTable
