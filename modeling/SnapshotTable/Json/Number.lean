import SnapshotTable.Json.Basic
import SnapshotTable.Text.Decimal

/-! JSON number literals. One without fraction and exponent is an integer if 64 bits hold it, and
minus zero is none; any other is a real, unless no double is near it. -/

namespace SnapshotTable.Json.Number

open Text (Decimal.value)

structure Literal where
  negative : Bool
  whole : List Char
  /-- The digits behind the point, if there is one. -/
  fraction : Option (List Char)
  /-- The exponent, if there is one: whether it is negative, and its digits. -/
  exponent : Option (Bool × List Char)

def digits? (cs : List Char) : Option (List Char × List Char) :=
  match cs.takeWhile Char.isDigit with
  | [] => none
  | run => some (run, cs.drop run.length)

/-- The digits in front of the point: a leading zero stands alone. -/
def whole? : List Char → Option (List Char × List Char)
  | '0' :: rest => some (['0'], rest)
  | cs => digits? cs

def fraction? : List Char → Option (Option (List Char) × List Char)
  | '.' :: rest => (digits? rest).map fun (run, rest) => (some run, rest)
  | cs => some (none, cs)

def exponent? : List Char → Option (Option (Bool × List Char) × List Char)
  | c :: rest =>
    if c = 'e' ∨ c = 'E' then
      match rest with
      | '-' :: rest => (digits? rest).map fun (run, rest) => (some (true, run), rest)
      | '+' :: rest => (digits? rest).map fun (run, rest) => (some (false, run), rest)
      | rest => (digits? rest).map fun (run, rest) => (some (false, run), rest)
    else some (none, c :: rest)
  | [] => some (none, [])

def literal? (cs : List Char) : Option (Literal × List Char) := do
  let (negative, cs) := match cs with
    | '-' :: rest => (true, rest)
    | cs => (false, cs)
  let (whole, cs) ← whole? cs
  let (fraction, cs) ← fraction? cs
  let (exponent, cs) ← exponent? cs
  pure (⟨negative, whole, fraction, exponent⟩, cs)

/-- The literal as it was written, up to a plus sign and the case of the exponent letter. -/
def Literal.text (l : Literal) : List Char :=
  (if l.negative then ['-'] else []) ++ l.whole
    ++ (match l.fraction with
        | some run => '.' :: run
        | none => [])
    ++ (match l.exponent with
        | some (true, run) => 'e' :: '-' :: run
        | some (false, run) => 'e' :: run
        | none => [])

/-- The least magnitude that rounds beyond every double, `2^1024 - 2^970`. -/
def overflowBound : Nat := Nat.pow 2 1024 - Nat.pow 2 970

def extend (significand : Nat) : List Char → Nat × List Char
  | [] => (significand, [])
  | c :: rest =>
    let longer := significand * 10 + (c.toNat - '0'.toNat)
    if longer < wordBound then extend longer rest else (significand, c :: rest)

/-- The significand of a literal and the power of ten that it is scaled by. The significand holds
the digits up to the first one that does not fit. Those left over in front of the point still count
as places; those behind it do not count. -/
def Literal.scaled (l : Literal) : Nat × Int :=
  let fraction := l.fraction.getD []
  let (significand, leftOver) := extend 0 l.whole
  let (significand, dropped) := extend significand fraction
  let shift : Int := match l.exponent with
    | some (true, e) => -(Decimal.value e : Int)
    | some (false, e) => Decimal.value e
    | none => 0
  (significand, (leftOver.length : Int) - (fraction.length - dropped.length) + shift)

/-- The double nearest to a number, which keeps the leading 53 bits; a tie goes to the even one. -/
def nearestDouble (n : Nat) : Nat :=
  let unit := Nat.pow 2 (n.log2 - 52)
  let kept := n / unit
  let rest := n % unit
  if 2 * rest < unit ∨ (2 * rest = unit ∧ kept % 2 = 0) then kept * unit else (kept + 1) * unit

def maxPower : Nat := 308

/-- Whether the literal is too large for a double. It is read as the product of two doubles, one
near its significand and one near its power of ten, and the product is what must not be too large:
of two literals close to the bound the greater one may be the one that fits. -/
def Literal.overflows (l : Literal) : Bool :=
  let (significand, exponent) := l.scaled
  if significand = 0 || exponent < 0 then false
  else if maxPower < exponent then true
  else overflowBound ≤ nearestDouble significand * nearestDouble (Nat.pow 10 exponent.toNat)

def Literal.toJson (l : Literal) : Json :=
  let z : Int := if l.negative then -(Decimal.value l.whole : Int) else Decimal.value l.whole
  if l.fraction.isNone && l.exponent.isNone && !(l.negative && z == 0)
      && -signedBound ≤ z && z < wordBound then .int z
  else if l.overflows then .broken
  else .real (String.ofList l.text)

end SnapshotTable.Json.Number
