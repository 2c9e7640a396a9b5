/-! Places in a text that are counted in the bytes of its UTF-8 form. -/

namespace SnapshotTable.Text

def byteCount : List Char → Nat
  | [] => 0
  | c :: rest => c.utf8Size + byteCount rest

def splitAtByte? : Nat → List Char → Option (List Char × List Char)
  | 0, cs => some ([], cs)
  | _ + 1, [] => none
  | n + 1, c :: rest =>
    if c.utf8Size ≤ n + 1 then
      (splitAtByte? (n + 1 - c.utf8Size) rest).map fun (front, back) => (c :: front, back)
    else none

def slice? (first last : Nat) (cs : List Char) : Option (List Char) := do
  let (_, rest) ← splitAtByte? first cs
  let (part, _) ← splitAtByte? (last - first) rest
  pure part

/-- The two parts of a split text make it up. -/
theorem append_of_splitAtByte? {n : Nat} {cs front back : List Char}
    (h : splitAtByte? n cs = some (front, back)) : front ++ back = cs := by
  fun_induction splitAtByte? n cs generalizing front back with
  | case1 cs => simp_all
  | case2 => simp at h
  | case3 n c rest fits ih =>
    obtain ⟨⟨front', back'⟩, split, pair⟩ := Option.map_eq_some_iff.1 h
    obtain ⟨rfl, rfl⟩ := Prod.mk.inj pair
    simp [ih split]
  | case4 => simp at h

/-- The front of a split text is as long as was asked for. -/
theorem byteCount_of_splitAtByte? {n : Nat} {cs front back : List Char}
    (h : splitAtByte? n cs = some (front, back)) : byteCount front = n := by
  fun_induction splitAtByte? n cs generalizing front back with
  | case1 cs => simp_all [byteCount]
  | case2 => simp at h
  | case3 n c rest fits ih =>
    obtain ⟨⟨front', back'⟩, split, pair⟩ := Option.map_eq_some_iff.1 h
    obtain ⟨rfl, rfl⟩ := Prod.mk.inj pair
    rw [byteCount, ih split]
    omega
  | case4 => simp at h

end SnapshotTable.Text
