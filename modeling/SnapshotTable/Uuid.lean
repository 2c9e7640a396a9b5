import SnapshotTable.Text.Hexadecimal

/-! Universally unique identifiers: 128 bits, written as lower-case hexadecimal digits in groups of
8, 4, 4, 4 and 12. -/

namespace SnapshotTable

open Text

abbrev Uuid := BitVec 128

namespace Uuid

def digits : Nat → Nat → List Char
  | 0, _ => []
  | width + 1, n => digits width (n / 16) ++ [Hexadecimal.digit (n % 16)]

def text (u : Uuid) : String :=
  let cs := digits 32 u.toNat
  String.ofList (cs.take 8 ++ '-' :: (cs.drop 8).take 4 ++ '-' :: (cs.drop 12).take 4
    ++ '-' :: (cs.drop 16).take 4 ++ '-' :: cs.drop 20)

def plain? (cs : List Char) : Option Uuid :=
  if cs.length = 32 then (Hexadecimal.number? 0 cs).map (BitVec.ofNat 128) else none

def hyphenated? (cs : List Char) : Option Uuid :=
  let hyphen (n : Nat) : Bool := cs[n]? == some '-'
  if cs.length = 36 && hyphen 8 && hyphen 13 && hyphen 18 && hyphen 23 then
    plain? (cs.take 8 ++ (cs.drop 9).take 4 ++ (cs.drop 14).take 4 ++ (cs.drop 19).take 4
      ++ cs.drop 24)
  else none

def urn : List Char := "urn:uuid:".toList

/-- Reads the plain form, or the hyphenated one, bare, in braces or as a URN. Letters are in either
case, those of the URN included. -/
def ofText? (text : String) : Option Uuid :=
  match text.toList with
  | '\x7b' :: rest => if rest.getLast? = some '\x7d' then hyphenated? rest.dropLast else none
  | cs =>
    if cs.length = 32 then plain? cs
    else if (cs.take urn.length).map Char.toLower = urn then hyphenated? (cs.drop urn.length)
    else hyphenated? cs

def random (bits : Nat) : Uuid :=
  let low := BitVec.ofNat 62 bits
  let middle := BitVec.ofNat 12 (bits >>> 62)
  let high := BitVec.ofNat 48 (bits >>> 74)
  high ++ 4#4 ++ middle ++ 2#2 ++ low

end Uuid

end SnapshotTable
