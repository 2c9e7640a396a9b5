import Mathlib.Data.List.Forall2
import SnapshotTable.Json.Quoted

/-! String literals. A character is written as itself, as an escape of one letter, or as the number of its code
unit, and what is read of that is the character again. So a literal gives back the string it was written of. -/

namespace SnapshotTable.Json.Quoted
open Text

/-- A piece that stands for a character. Only control characters are written as code units, and these are no
surrogates. -/
inductive Stands (c : Char) : Piece → Prop
  | scalar : Stands c (.scalar c)
  | unit (h : c.toNat < 0x20) : Stands c (.unit c.toNat)

private theorem number?_control : ∀ n < 0x20,
    Hexadecimal.number? 0 ['0', '0', Hexadecimal.digit (n / 16), Hexadecimal.digit (n % 16)] = some n := by
  decide

private theorem pieces?_escaped (read : List Piece) (c : Char) (rest : List Char) :
    ∃ p, Stands c p ∧ pieces? read (escaped c ++ rest) = pieces? (p :: read) rest := by
  have hself {d : Char} (h : c.toNat = d.toNat) : Stands c (.scalar d) := by
    rw [Char.toNat_inj.mp h]
    exact .scalar
  rw [escaped]
  split
  · rename_i h
    exact ⟨.scalar '"', hself h, rfl⟩
  · rename_i h
    exact ⟨.scalar '\\', hself h, rfl⟩
  · rename_i h
    exact ⟨.scalar '\x08', hself h, rfl⟩
  · rename_i h
    exact ⟨.scalar '\t', hself h, rfl⟩
  · rename_i h
    exact ⟨.scalar '\n', hself h, rfl⟩
  · rename_i h
    exact ⟨.scalar '\x0c', hself h, rfl⟩
  · rename_i h
    exact ⟨.scalar '\r', hself h, rfl⟩
  · rename_i hquote hbackslash _ _ _ _ _
    split
    · rename_i hcontrol
      refine ⟨.unit c.toNat, .unit hcontrol, ?_⟩
      simp only [List.cons_append, List.nil_append, pieces?, number?_control _ hcontrol]
    · rename_i hplain
      refine ⟨.scalar c, .scalar, ?_⟩
      have hnot : ¬(c.toNat < 0x20 ∨ c = '\\') := by
        rintro (h | rfl)
        · exact hplain h
        · exact hbackslash rfl
      have hquoted : c ≠ '"' := by
        rintro rfl
        exact hquote rfl
      rw [List.singleton_append, pieces?.eq_def]
      split
      · rename_i heq
        cases heq
        exact absurd rfl hquoted
      · rename_i heq
        cases heq
        exact absurd (.inr rfl) hnot
      · rename_i heq
        cases heq
        exact absurd (.inr rfl) hnot
      · rename_i heq
        cases heq
        exact if_neg hnot
      · rename_i heq
        cases heq

private theorem pieces?_write (cs rest : List Char) (read : List Piece) :
    ∃ ps, List.Forall₂ Stands cs ps ∧
      pieces? read (cs.flatMap escaped ++ '"' :: rest) = some (read.reverse ++ ps, rest) := by
  induction cs generalizing read with
  | nil => exact ⟨[], .nil, by rw [List.append_nil]; rfl⟩
  | cons c cs ih =>
    obtain ⟨p, hp, hstep⟩ := pieces?_escaped read c (cs.flatMap escaped ++ '"' :: rest)
    obtain ⟨ps, hps, hrun⟩ := ih (p :: read)
    refine ⟨p :: ps, .cons hp hps, ?_⟩
    rw [List.flatMap_cons, List.append_assoc, hstep, hrun, List.reverse_cons, List.append_assoc]
    rfl

private theorem join?_stands {cs : List Char} {ps : List Piece} (h : List.Forall₂ Stands cs ps)
    (joined : List Char) : join? joined ps = some (joined.reverse ++ cs) := by
  induction h generalizing joined with
  | nil => rw [join?, List.append_nil]
  | @cons c p cs ps hp _ ih =>
    have hnext : join? (c :: joined) ps = some (joined.reverse ++ c :: cs) := by
      rw [ih, List.reverse_cons, List.append_assoc]
      rfl
    cases hp with
    | scalar => rw [join?, hnext]
    | unit hlow =>
      have hhigh : isHigh c.toNat = false := by
        simp only [isHigh, Bool.and_eq_false_iff, decide_eq_false_iff_not]
        omega
      have hno : isLow c.toNat = false := by
        simp only [isLow, Bool.and_eq_false_iff, decide_eq_false_iff_not]
        omega
      rw [← hnext, join?.eq_def]
      split
      · rename_i heq
        cases heq
      · rename_i heq
        cases heq
      · rename_i heq
        cases heq
        rw [hhigh, hno, Char.ofNat_toNat]
        rfl
      · rename_i heq
        cases heq
        rw [hhigh, hno, Char.ofNat_toNat]
        rfl

/-- A string is read back from its literal, whatever follows. -/
theorem read?_write (s : String) (rest : List Char) :
    read? (s.toList.flatMap escaped ++ '"' :: rest) = some (some s, rest) := by
  obtain ⟨ps, hps, hpieces⟩ := pieces?_write s.toList rest []
  have hjoin : join? [] ps = some s.toList := join?_stands hps []
  rw [read?, hpieces]
  simp [hjoin]

end SnapshotTable.Json.Quoted
