import SnapshotTable.Json.Basic
import SnapshotTable.Text.Hexadecimal

/-! JSON string literals. Writing escapes the quote, the backslash and the control characters;
reading also accepts every other escape and joins surrogate pairs. -/

namespace SnapshotTable.Json.Quoted

open Text

def escaped (c : Char) : List Char :=
  match c.toNat with
  | 0x22 => ['\\', '"']
  | 0x5C => ['\\', '\\']
  | 0x08 => ['\\', 'b']
  | 0x09 => ['\\', 't']
  | 0x0A => ['\\', 'n']
  | 0x0C => ['\\', 'f']
  | 0x0D => ['\\', 'r']
  | n =>
    if n < 0x20 then ['\\', 'u', '0', '0', Hexadecimal.digit (n / 16), Hexadecimal.digit (n % 16)]
    else [c]

/-- The literal of a string, quotes included. -/
def write (s : String) : List Char := '"' :: s.toList.flatMap escaped ++ ['"']

/-- What one step through a literal yields: a character, or a code unit from a numeric escape. -/
inductive Piece where
  | scalar (c : Char)
  | unit (code : Nat)

/-- The character that a one-letter escape stands for. -/
def escape? : Char → Option Char
  | '"' => some '"'
  | '\\' => some '\\'
  | '/' => some '/'
  | 'b' => some '\x08'
  | 'f' => some '\x0c'
  | 'n' => some '\n'
  | 'r' => some '\r'
  | 't' => some '\t'
  | _ => none

/-- The pieces up to the closing quote, after those already read (newest first), with the text
behind the quote. A bare control character is refused. -/
def pieces? (read : List Piece) : List Char → Option (List Piece × List Char)
  | '"' :: rest => some (read.reverse, rest)
  | '\\' :: 'u' :: a :: b :: c :: d :: rest =>
    match Hexadecimal.number? 0 [a, b, c, d] with
    | some code => pieces? (.unit code :: read) rest
    | none => none
  | '\\' :: e :: rest =>
    match escape? e with
    | some c => pieces? (.scalar c :: read) rest
    | none => none
  | c :: rest => if c.toNat < 0x20 ∨ c = '\\' then none else pieces? (.scalar c :: read) rest
  | [] => none

def isHigh (code : Nat) : Bool := 0xD800 ≤ code && code ≤ 0xDBFF

def isLow (code : Nat) : Bool := 0xDC00 ≤ code && code ≤ 0xDFFF

/-- The characters of the pieces, after those already joined (newest first); an unpaired surrogate
has none. -/
def join? (joined : List Char) : List Piece → Option (List Char)
  | [] => some joined.reverse
  | .scalar c :: rest => join? (c :: joined) rest
  | .unit high :: .unit low :: rest =>
    if isHigh high then
      if isLow low then
        join? (Char.ofNat (0x10000 + (high - 0xD800) * 0x400 + (low - 0xDC00)) :: joined) rest
      else none
    else if isLow high then none
    else join? (Char.ofNat high :: joined) (.unit low :: rest)
  | .unit code :: rest =>
    if isHigh code || isLow code then none else join? (Char.ofNat code :: joined) rest

/-- Reads behind an opening quote. The inner option is empty for a literal with an unpaired
surrogate. -/
def read? (cs : List Char) : Option (Option String × List Char) :=
  (pieces? [] cs).map fun (ps, rest) => ((join? [] ps).map String.ofList, rest)

end SnapshotTable.Json.Quoted
