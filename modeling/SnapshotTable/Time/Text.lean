import SnapshotTable.Time.Calendar
import SnapshotTable.Time.Instant
import SnapshotTable.Text.Blank
import SnapshotTable.Text.Decimal

/-! Instants as text. The document form is `2024-01-01T00:00:00Z` and the reading form
`2024-01-01 00:00:00 UTC`, both with the shortest of 0, 3, 6 or 9 fraction digits that is exact.
Reading takes any offset and is lenient about blanks, short numerals and separators. -/

namespace SnapshotTable.Time

open Text (trimStart)
open Text.Decimal (padded numeral value leading?)

def secondsPerDay : Int := 86400

/-- The year in at least four digits, with a sign outside 0 to 9999. -/
def yearText (year : Int) : List Char :=
  if 0 ≤ year ∧ year ≤ 9999 then padded 4 year.toNat
  else (if year < 0 then '-' else '+') :: padded 4 year.natAbs

def dateText (date : Date) : List Char :=
  yearText date.year ++ '-' :: padded 2 date.month ++ '-' :: padded 2 date.day

def fractionText (nano : Nat) : List Char :=
  if nano = 0 then []
  else if nano % 1000000 = 0 then '.' :: padded 3 (nano / 1000000)
  else if nano % 1000 = 0 then '.' :: padded 6 (nano / 1000)
  else '.' :: padded 9 nano

/-- The time of day; a leap second is shown as the second behind the one it is counted in. -/
def timeText (secondOfDay nano : Nat) : List Char :=
  let second := secondOfDay % 60 + nano / Instant.nanosPerSecond
  padded 2 (secondOfDay / 3600) ++ ':' :: padded 2 (secondOfDay / 60 % 60) ++ ':' :: padded 2 second
    ++ fractionText (nano % Instant.nanosPerSecond)

def instantText (separator : Char) (t : Instant) : List Char :=
  dateText (Date.ofDayNumber (t.second / secondsPerDay))
    ++ separator :: timeText (t.second % secondsPerDay).toNat t.nano

def literal? (c : Char) (cs : List Char) : Option (List Char) :=
  match trimStart cs with
  | d :: rest => if d = c then some rest else none
  | [] => none

def number? (width : Nat) (cs : List Char) : Option (Nat × List Char) :=
  leading? width (trimStart cs)

/-- A year, after blanks: four digits at most, or any number of them behind a sign. -/
def year? (cs : List Char) : Option (Int × List Char) :=
  match trimStart cs with
  | '-' :: rest => (leading? rest.length rest).map fun (n, rest) => (-(n : Int), rest)
  | '+' :: rest => (leading? rest.length rest).map fun (n, rest) => ((n : Int), rest)
  | cs => (leading? 4 cs).map fun (n, rest) => ((n : Int), rest)

/-- A fraction of a second in nanoseconds; digits behind the ninth are dropped. -/
def fraction? : List Char → Option (Nat × List Char)
  | '.' :: rest =>
    (leading? 9 rest).map fun (n, tail) =>
      (n * Nat.pow 10 (9 - (rest.length - tail.length)), tail.dropWhile Char.isDigit)
  | cs => some (0, cs)

def offsetAmount? : List Char → Option (Int × List Char)
  | h₁ :: h₂ :: rest =>
    if h₁.isDigit && h₂.isDigit then
      match rest.dropWhile (fun c => c = ':' || Text.isBlank c) with
      | m₁ :: m₂ :: rest =>
        if m₁.isDigit && m₂.isDigit && m₁.toNat ≤ '5'.toNat then
          some ((value [h₁, h₂] * 3600 + value [m₁, m₂] * 60 : Nat), rest)
        else none
      | _ => none
    else none
  | _ => none

/-- An offset from UTC in seconds: the letter Z, the word UTC, or a signed amount. The minus sign
may be the typographic one. -/
def offset? (cs : List Char) : Option (Int × List Char) :=
  match cs with
  | '+' :: rest => offsetAmount? rest
  | '-' :: rest | '\u2212' :: rest => (offsetAmount? rest).map fun (n, rest) => (-n, rest)
  | c :: rest =>
    if c = 'Z' ∨ c = 'z' then some (0, rest)
    else if (cs.take 3).map Char.toUpper = ['U', 'T', 'C'] then some (0, cs.drop 3)
    else none
  | [] => none

def yearInRange (year : Int) : Bool := -262143 ≤ year && year ≤ 262142

def ofClock (dayNumber : Int) (hour minute second nano : Nat) : Instant :=
  let start := dayNumber * secondsPerDay + (hour * 3600 + minute * 60 : Nat)
  if second = 60 then ⟨start + 59, Instant.nanosPerSecond + nano⟩ else ⟨start + second, nano⟩

/-- A date, a separator (`T` or a blank) and a time of day with an offset. Its date must be in range
both as written and in UTC. -/
def instant? (cs : List Char) : Option Instant := do
  let (year, cs) ← year? cs
  let cs ← literal? '-' cs
  let (month, cs) ← number? 2 cs
  let cs ← literal? '-' cs
  let (day, cs) ← number? 2 cs
  let cs ← match cs with
    | c :: rest => if c = 'T' ∨ c = 't' ∨ c = ' ' then some rest else none
    | [] => none
  let (hour, cs) ← number? 2 cs
  let cs ← literal? ':' cs
  let (minute, cs) ← number? 2 cs
  let cs ← literal? ':' cs
  let (second, cs) ← number? 2 cs
  let (nano, cs) ← fraction? cs
  let (offset, cs) ← offset? (trimStart cs)
  let date : Date := ⟨year, month, day⟩
  if (trimStart cs).isEmpty && date.valid && yearInRange year
      && hour < 24 && minute < 60 && second ≤ 60 && offset.natAbs < 86400 then
    let t := ofClock date.dayNumber hour minute second nano
    let second := t.second - offset
    if yearInRange (Date.ofDayNumber (second / secondsPerDay)).year then some ⟨second, t.nano⟩
    else none
  else none

end SnapshotTable.Time

namespace SnapshotTable.Instant

def document (t : Instant) : String := String.ofList (Time.instantText 'T' t ++ ['Z'])

def display (t : Instant) : String := String.ofList (Time.instantText ' ' t ++ " UTC".toList)

def ofText? (text : String) : Option Instant := Time.instant? text.toList

end SnapshotTable.Instant
