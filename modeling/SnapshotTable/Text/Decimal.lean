/-! Decimal numerals as lists of characters: writing, padding to a width, and reading a run of
digits. Writing and then reading gives the number back. -/

namespace SnapshotTable.Text.Decimal

def numeral (n : Nat) : List Char := Nat.toDigits 10 n

def padded (width n : Nat) : List Char :=
  List.replicate (width - (numeral n).length) '0' ++ numeral n

def signed : Int → List Char
  | .ofNat n => numeral n
  | .negSucc n => '-' :: numeral (n + 1)

def value (digits : List Char) : Nat := Nat.ofDigitChars 10 digits 0

/-- The longest run of at most `limit` leading digits, as a number with the text after it. It
refuses a text that does not start with a digit. -/
def leading? (limit : Nat) (cs : List Char) : Option (Nat × List Char) :=
  match (cs.take limit).takeWhile Char.isDigit with
  | [] => none
  | run => some (value run, cs.drop run.length)

/-- A numeral is read as the number that it was written for. -/
theorem value_numeral (n : Nat) : value (numeral n) = n :=
  Nat.ofDigitChars_ten_toDigits

/-- A numeral is written in digits alone. -/
theorem isDigit_of_mem_numeral {n : Nat} {c : Char} (h : c ∈ numeral n) : c.isDigit = true :=
  Nat.isDigit_of_mem_toDigits (by decide) (by decide) h

/-- Padding does not change the number that is read. -/
theorem value_padded (width n : Nat) : value (padded width n) = n := by
  simp [value, padded, Nat.ofDigitChars_append, Nat.ofDigitChars_replicate_zero]
  exact value_numeral n

end SnapshotTable.Text.Decimal
