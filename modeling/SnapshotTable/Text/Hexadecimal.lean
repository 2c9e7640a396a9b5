/-! Hexadecimal digits, and the numbers that runs of them name. -/

namespace SnapshotTable.Text.Hexadecimal

def digit (n : Nat) : Char := Nat.digitChar n

def value? (c : Char) : Option Nat :=
  if c.isDigit then some (c.toNat - 48)
  else if 'a' ≤ c ∧ c ≤ 'f' then some (c.toNat - 87)
  else if 'A' ≤ c ∧ c ≤ 'F' then some (c.toNat - 55)
  else none

def number? (high : Nat) : List Char → Option Nat
  | [] => some high
  | c :: rest => (value? c).bind fun value => number? (high * 16 + value) rest

end SnapshotTable.Text.Hexadecimal
