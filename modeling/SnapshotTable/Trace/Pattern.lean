import SnapshotTable.Text.Alphabet
import SnapshotTable.Text.Blank
import SnapshotTable.Text.Hexadecimal

/-! Patterns for the values of fields: regular expressions that match text and know no tables of
letters. So a pattern is refused not only for its form: by default it may neither name a class of
letters nor fold their case, and where characters count as bytes it may not match a part of one. No
event has a value that a pattern is held against, so what is read of a pattern is its height. -/

namespace SnapshotTable.Trace.Pattern

open Text

structure Mode where
  /-- Whether letters stand for both cases. -/
  caseless : Bool := false
  /-- Whether characters count, and not their bytes. -/
  unicode : Bool := true
  /-- Whether blanks and comments may stand between the parts. -/
  spaced : Bool := false
  deriving DecidableEq, Repr, Inhabited

/-- The text behind blanks and comments. A comment goes from a number sign to the end of the
line. -/
def skipComments (inComment : Bool) : List Char → List Char
  | [] => []
  | c :: rest =>
    if inComment then skipComments (c ≠ '\n') rest
    else if c = '#' then skipComments true rest
    else if isBlank c then skipComments false rest
    else c :: rest

def Mode.skip (m : Mode) (cs : List Char) : List Char :=
  if m.spaced then skipComments false cs else cs

def Mode.glance? (m : Mode) (cs : List Char) : Option Char :=
  if m.spaced then
    match trimStart cs with
    | '#' :: rest => (trimStart rest).head?
    | rest => rest.head?
  else cs.head?

inductive Atom where
  /-- A character, which may be given as the number of a byte. -/
  | literal (c : Char) (isByte : Bool)
  /-- Digits, spaces or word characters, or everything but them. -/
  | shorthand (negated : Bool)
  /-- The edge of a word, or any place that is none. -/
  | edge
  /-- The start or the end of a line or of the text. -/
  | anchor
  /-- Any character. -/
  | any
  deriving DecidableEq, Repr

def Mode.admits (m : Mode) : Atom → Bool
  | .literal c isByte => if m.unicode then !m.caseless else !isByte || c.toNat < 128
  | .shorthand negated => !m.unicode && !negated
  | .edge => !m.unicode
  | .anchor => true
  | .any => m.unicode

def Mode.admitsMember (m : Mode) : Atom → Bool
  | .literal c _ => if m.unicode then !m.caseless else c.toNat < 128
  | .shorthand negated => !m.unicode && !negated
  | _ => false

def Mode.admitsClass (m : Mode) (negated : Bool) : Bool :=
  if m.unicode then !m.caseless else !negated

/-! ### Escapes -/

def controls : List (Char × Char) :=
  [('a', '\x07'), ('f', '\x0c'), ('n', '\n'), ('r', '\r'), ('t', '\t'), ('v', '\x0b')]

def spread? (m : Mode) : (width : Nat) → List Char → Option (List Char × List Char)
  | 0, cs => some ([], cs)
  | width + 1, cs =>
    match m.skip cs with
    | [] => none
    | c :: rest => (spread? m width rest).map fun (run, rest) => (c :: run, rest)

def numbered? (m : Mode) (width : Nat) (cs : List Char) : Option (Atom × List Char) := do
  let (run, rest) ← spread? m width cs
  let code ← Hexadecimal.number? 0 run
  if code.isValidChar then some (.literal (Char.ofNat code) (width = 2), rest) else none

/-- What a backslash stands for with the text behind it. Of the ASCII characters every one but
letters and digits can be escaped to stand for itself. -/
def escape? (m : Mode) : List Char → Option (Atom × List Char)
  | [] => none
  | c :: rest =>
    match c with
    | 'x' => numbered? m 2 rest
    | 'u' => numbered? m 4 rest
    | 'U' => numbered? m 8 rest
    | 'd' | 's' | 'w' => some (.shorthand false, rest)
    | 'D' | 'S' | 'W' => some (.shorthand true, rest)
    | 'b' => if rest.head? = some '\x7b' then none else some (.edge, rest)
    | 'B' | '<' | '>' => some (.edge, rest)
    | 'A' | 'z' => some (.anchor, rest)
    | c =>
      match controls.lookup c with
      | some control => some (.literal control false, rest)
      | none =>
        if c.toNat < 128 && !c.isAlphanum then some (.literal c false, rest) else none

def atom? (m : Mode) : List Char → Option (Atom × List Char)
  | [] => none
  | '\\' :: rest => escape? m rest
  | '.' :: rest => some (.any, rest)
  | '^' :: rest | '$' :: rest => some (.anchor, rest)
  | c :: rest => some (.literal c false, rest)

/-! ### Heights

The height of a part is the number of parts on the way to its innermost atom. -/

/-- The height of parts side by side. A part that stands alone is not put into another one. -/
def joined : List Nat → Nat
  | [] => 0
  | [height] => height
  | heights => heights.foldl max 0 + 1

def maxHeight : Nat := 250

/-! ### Brackets -/

def classNames : List String :=
  ["alnum", "alpha", "ascii", "blank", "cntrl", "digit", "graph", "lower", "print", "punct",
    "space", "upper", "word", "xdigit"]

def class? : List Char → Option (Bool × List Char)
  | ':' :: cs =>
    let negated := cs.head? = some '^'
    let cs := if negated then cs.tail else cs
    let name := cs.takeWhile (· ≠ ':')
    match cs.drop name.length with
    | ':' :: ']' :: rest =>
      if classNames.contains (String.ofList name) then some (negated, rest) else none
    | _ => none
  | _ => none

def bound? (m : Mode) : List Char → Option (Atom × List Char)
  | [] => none
  | '\\' :: rest => escape? m rest
  | c :: rest => some (.literal c false, rest)

/-- Passes a member of brackets, which may be a range. A hyphen in front of the closing bracket or
of another hyphen makes no range. -/
def member? (m : Mode) (cs : List Char) : Option (List Char) := do
  let (first, rest) ← bound? m cs
  let alone := if m.admitsMember first then some rest else none
  match m.skip rest with
  | '-' :: behind =>
    if m.glance? behind = some ']' || m.glance? behind = some '-' then alone
    else
      let (last, rest) ← bound? m (m.skip behind)
      match first, last with
      | .literal a _, .literal b _ =>
        if m.admitsMember first && m.admitsMember last && a ≤ b then some rest else none
      | _, _ => none
  | _ => alone

def opening? (m : Mode) (cs : List Char) : Option (List Char) :=
  match m.skip cs with
  | '^' :: rest => if m.unicode then some rest else none
  | cs => some cs

def operand (left : Option Nat) (items : List Nat) : Nat :=
  match left with
  | none => joined items
  | some left => max left (joined items) + 1

/-- Reads the members of brackets up to the closing one, and gives their height: `left` is that of
the members in front of the last operator, and `items` are those of the members behind it. At the
start, hyphens and a closing bracket in the first place are members. -/
def members (m : Mode) : (fuel : Nat) → (atStart : Bool) → (left : Option Nat) →
    (items : List Nat) → List Char → Option (Nat × List Char)
  | 0, _, _, _, _ => none
  | fuel + 1, atStart, left, items, cs =>
    match m.skip cs with
    | [] => none
    | c :: rest =>
      if atStart && (c = '-' || (c = ']' && items.isEmpty)) then
        if m.admitsMember (.literal c false) then members m fuel (c = '-') left (0 :: items) rest
        else none
      else if c = ']' then some (operand left items, rest)
      else if c = '[' then
        match class? rest with
        | some (negated, rest) =>
          if m.admitsClass negated then members m fuel false left (0 :: items) rest else none
        | none => do
          let (height, rest) ← members m fuel true none [] (← opening? m rest)
          members m fuel false left ((height + 1) :: items) rest
      else if (c = '&' || c = '-' || c = '~') && rest.head? = some c then
        members m fuel false (some (operand left items)) [] rest.tail
      else do
        let rest ← member? m (c :: rest)
        members m fuel false left (0 :: items) rest

/-! ### Groups -/

structure Cursor where
  rest : List Char
  mode : Mode := {}
  /-- The names of groups in front of the place. -/
  names : List (List Char) := []

def switchLetters : List Char := ['i', 'm', 's', 'U', 'u', 'R', 'x', '-']

/-- Reads switches up to a colon or a closing parenthesis, behind those already `seen`, newest
first. None may come twice, and a hyphen is not the last. -/
def switches? (seen : List Char) : List Char → Option (List Char × List Char)
  | [] => none
  | c :: rest =>
    if c = ':' || c = ')' then
      if seen.head? = some '-' then none else some (seen.reverse, c :: rest)
    else if switchLetters.contains c && !seen.contains c then switches? (c :: seen) rest
    else none

def Mode.switched (m : Mode) (letters : List Char) : Mode :=
  let on := letters.takeWhile (· ≠ '-')
  let off := letters.drop on.length
  let state (letter : Char) (old : Bool) := on.contains letter || (old && !off.contains letter)
  { caseless := state 'i' m.caseless, unicode := state 'u' m.unicode, spaced := state 'x' m.spaced }

def continuesName (c : Char) : Bool := isAlphanumeric c || ['_', '.', '[', ']'].contains c

def Cursor.named? (c : Cursor) : Option Cursor :=
  let name := c.rest.takeWhile (· ≠ '>')
  match name, c.rest.drop name.length with
  | first :: others, _ :: rest =>
    if (isAlphabetic first || first = '_') && others.all continuesName && !c.names.contains name
    then some { c with rest, names := name :: c.names } else none
  | _, _ => none

/-- Passes what stands behind an opening parenthesis, and tells whether it opens a group; if not,
it has turned switches for what follows. -/
def Cursor.header? (c : Cursor) : Option (Bool × Cursor) :=
  match c.mode.skip c.rest with
  | '?' :: 'P' :: '<' :: rest | '?' :: '<' :: rest =>
    ({ c with rest } : Cursor).named?.map fun c => (true, c)
  | '?' :: rest => do
    let (letters, rest) ← switches? [] rest
    let opens := rest.head? = some ':'
    if letters.isEmpty && !opens then none
    else some (opens, { c with rest := rest.tail, mode := c.mode.switched letters })
  | rest => some (true, { c with rest })

def finish (branches : List Nat) (items : List (Option Nat)) : List Nat :=
  joined (items.map (·.getD 0)) :: branches

/-- Reads alternatives up to the end of their group, and gives their height: `branches` are the
heights of the finished ones, and `items` those of the parts of the last one, newest first, where
switches have none. Switches hold up to the end of the group, and repetition needs a part. -/
def alternatives : (fuel : Nat) → (branches : List Nat) → (items : List (Option Nat)) →
    Cursor → Option (Nat × Cursor)
  | 0, _, _, _ => none
  | fuel + 1, branches, items, c =>
    match c.mode.skip c.rest with
    | [] => some (joined (finish branches items), { c with rest := [] })
    | ')' :: rest => some (joined (finish branches items), { c with rest := ')' :: rest })
    | '|' :: rest => alternatives fuel (finish branches items) [] { c with rest }
    | '(' :: rest => do
      match ← ({ c with rest } : Cursor).header? with
      | (false, c) => alternatives fuel branches (none :: items) c
      | (true, inner) =>
        let (height, inner) ← alternatives fuel [] [] inner
        match inner.rest with
        | ')' :: rest =>
          let c := { inner with rest, mode := c.mode }
          alternatives fuel branches (some (height + 1) :: items) c
        | _ => none
    | '[' :: rest => do
      let (height, rest) ← members c.mode fuel true none [] (← opening? c.mode rest)
      alternatives fuel branches (some (height + 1) :: items) { c with rest }
    | '?' :: rest | '*' :: rest | '+' :: rest =>
      match items with
      | some height :: items =>
        let rest := if rest.head? = some '?' then rest.tail else rest
        alternatives fuel branches (some (height + 1) :: items) { c with rest }
      | _ => none
    | '\x7b' :: _ => none
    | cs => do
      let (atom, rest) ← atom? c.mode cs
      if c.mode.admits atom then alternatives fuel branches (some 0 :: items) { c with rest }
      else none

def height? (cs : List Char) : Option Nat := do
  let (height, c) ← alternatives (cs.length + 1) [] [] { rest := cs }
  if c.rest.isEmpty then some height else none

def isPattern (cs : List Char) : Bool := (height? cs).any (· ≤ maxHeight)

end Pattern

/-! ### Values -/

def isDecimal (cs : List Char) : Bool :=
  let whole := cs.takeWhile Char.isDigit
  let (fraction, cs) := match cs.drop whole.length with
    | '.' :: rest => (rest.takeWhile Char.isDigit, rest.dropWhile Char.isDigit)
    | rest => ([], rest)
  let exponent : Bool := match cs with
    | [] => true
    | mark :: cs =>
      let digits := match cs with
        | '+' :: rest | '-' :: rest => rest
        | cs => cs
      mark.toLower = 'e' && !digits.isEmpty && digits.all Char.isDigit
  !(whole ++ fraction).isEmpty && exponent

def numberWords : List String := ["inf", "infinity", "nan"]

/-- Whether a field can be asked to have a text as its value: a pattern, or a number. Only numbers
with a plus sign are no patterns. -/
def isFieldValue : List Char → Bool
  | '+' :: rest => isDecimal rest || numberWords.contains (String.ofList (rest.map Char.toLower))
  | cs => Pattern.isPattern cs

end SnapshotTable.Trace
