/-! JSON documents as trees. A tree keeps integers of up to 64 bits exactly, any other number as it
was written, and marks the places that are well-formed text without being a value. -/

namespace SnapshotTable

/-- A JSON document. Member order and repeated names are kept, since readers of records ask for
both. -/
inductive Json where
  | null
  | bool (b : Bool)
  /-- A number that is an integer from `-2^63` to `2^64 - 1` and written as one. -/
  | int (z : Int)
  /-- Any other number of double range, as it was written. -/
  | real (literal : String)
  | str (s : String)
  | arr (items : List Json)
  | obj (members : List (String × Json))
  /-- A string or name with an unpaired surrogate, or a number beyond the double range. It may
  stand only where nobody looks. -/
  | broken
  deriving Repr, Inhabited, BEq

namespace Json

def wordBound : Nat := 18446744073709551616

/-- Signed numbers of 64 bits are from minus this bound on, `-2^63`, and below it. -/
def signedBound : Int := 9223372036854775808

mutual

def depth : Json → Nat
  | .arr items => 1 + depthItems items
  | .obj members => 1 + depthMembers members
  | _ => 0

def depthItems : List Json → Nat
  | [] => 0
  | item :: rest => max (depth item) (depthItems rest)

def depthMembers : List (String × Json) → Nat
  | [] => 0
  | (_, value) :: rest => max (depth value) (depthMembers rest)

end

mutual

def sound : Json → Bool
  | .arr items => soundItems items
  | .obj members => soundMembers members
  | .broken => false
  | _ => true

def soundItems : List Json → Bool
  | [] => true
  | item :: rest => sound item && soundItems rest

def soundMembers : List (String × Json) → Bool
  | [] => true
  | (_, value) :: rest => sound value && soundMembers rest

end

/-- The nesting that a reader which looks at every part accepts. -/
def maxDepth : Nat := 127

def readable (j : Json) : Bool := j.sound && j.depth ≤ maxDepth

mutual

/-- The document with each repeated name reduced to its last member. -/
def lastMembers : Json → Json
  | .arr items => .arr (lastMembersItems items)
  | .obj members => .obj (lastMembersOf members)
  | j => j

def lastMembersItems : List Json → List Json
  | [] => []
  | item :: rest => lastMembers item :: lastMembersItems rest

def lastMembersOf : List (String × Json) → List (String × Json)
  | [] => []
  | (name, value) :: rest =>
    let kept := lastMembersOf rest
    if kept.any (·.1 == name) then kept else (name, lastMembers value) :: kept

end

def get? (name : String) : Json → Option Json
  | .obj members => members.lookup name
  | _ => none

end Json

end SnapshotTable
