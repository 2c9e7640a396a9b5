/-! Finite maps as lists in key order, where the key is a function of the entry. Inserting an entry
replaces the one with its key, and what a look-up finds depends on keys alone. -/

namespace SnapshotTable

/-- Entries with pairwise different keys, in increasing key order. -/
structure Keyed {α κ : Type} [LT κ] (key : α → κ) where
  items : List α
  ordered : items.Pairwise fun a b => key a < key b

namespace Keyed

variable {α κ : Type} [LT κ] {key : α → κ}

def empty : Keyed key := ⟨[], .nil⟩

instance : Inhabited (Keyed key) := ⟨empty⟩

instance : EmptyCollection (Keyed key) := ⟨empty⟩

def toList (m : Keyed key) : List α := m.items

def size (m : Keyed key) : Nat := m.items.length

def isEmpty (m : Keyed key) : Bool := m.items.isEmpty

def filter (p : α → Bool) (m : Keyed key) : Keyed key := ⟨m.items.filter p, m.ordered.filter p⟩

@[ext] theorem ext {m n : Keyed key} (h : m.items = n.items) : m = n := by
  cases m; cases n; simp_all

instance [DecidableEq α] : DecidableEq (Keyed key) := fun m n =>
  decidable_of_iff (m.items = n.items) ⟨ext, fun h => h ▸ rfl⟩

section Lookup

variable [DecidableEq κ]

def get? (m : Keyed key) (k : κ) : Option α := m.items.find? fun a => key a = k

def contains (m : Keyed key) (k : κ) : Bool := m.items.any fun a => key a = k

/-- An entry that is found has the key that it was looked up by. -/
theorem key_of_get? {m : Keyed key} {k : κ} {a : α} (h : m.get? k = some a) : key a = k := by
  simpa using List.find?_some h

/-- An entry that is found is in the map. -/
theorem mem_of_get? {m : Keyed key} {k : κ} {a : α} (h : m.get? k = some a) : a ∈ m.items :=
  List.mem_of_find?_eq_some h

/-- A key is in a map just if looking it up finds an entry. -/
theorem contains_eq_isSome (m : Keyed key) (k : κ) : m.contains k = (m.get? k).isSome := by
  simp [contains, get?, List.isSome_find?]

@[simp] theorem get?_empty (k : κ) : (empty : Keyed key).get? k = none := rfl

end Lookup

section Insert

private theorem key_eq [LE κ] [Std.IsLinearOrder κ] [Std.LawfulOrderLT κ] {a b : κ}
    (h₁ : ¬ a < b) (h₂ : ¬ b < a) : a = b :=
  Std.le_antisymm (Std.not_lt.1 h₂) (Std.not_lt.1 h₁)

variable [DecidableLT κ]

def place (key : α → κ) (a : α) : List α → List α
  | [] => [a]
  | b :: rest =>
    if key a < key b then a :: b :: rest
    else if key b < key a then b :: place key a rest
    else a :: rest

private theorem mem_of_mem_place {a x : α} {xs : List α} (h : x ∈ place key a xs) : x = a ∨ x ∈ xs := by
  induction xs with
  | nil => simpa [place] using h
  | cons b rest ih =>
    simp only [place] at h
    split at h
    · simpa using h
    split at h
    · rcases List.mem_cons.1 h with h | h
      · exact .inr (h ▸ List.mem_cons_self)
      · exact (ih h).imp id (List.mem_cons_of_mem _)
    · rcases List.mem_cons.1 h with h | h
      · exact .inl h
      · exact .inr (List.mem_cons_of_mem _ h)

variable [LE κ] [Std.IsLinearOrder κ] [Std.LawfulOrderLT κ]

private theorem pairwise_place {a : α} {xs : List α} (h : xs.Pairwise fun a b => key a < key b) :
    (place key a xs).Pairwise fun a b => key a < key b := by
  induction xs with
  | nil => simp [place]
  | cons b rest ih =>
    obtain ⟨hb, hrest⟩ := List.pairwise_cons.1 h
    simp only [place]
    split
    · next hab =>
      refine List.pairwise_cons.2 ⟨fun x hx => ?_, h⟩
      rcases List.mem_cons.1 hx with rfl | hx
      · exact hab
      · exact Std.lt_trans hab (hb x hx)
    · next hab =>
      split
      · next hba =>
        refine List.pairwise_cons.2 ⟨fun x hx => ?_, ih hrest⟩
        rcases mem_of_mem_place hx with rfl | hx
        · exact hba
        · exact hb x hx
      · next hba =>
        refine List.pairwise_cons.2 ⟨fun x hx => ?_, hrest⟩
        rw [key_eq hab hba]
        exact hb x hx

def insert (m : Keyed key) (a : α) : Keyed key := ⟨place key a m.items, pairwise_place m.ordered⟩

def insertNew [DecidableEq κ] (m : Keyed key) (a : α) : Keyed key :=
  if m.contains (key a) then m else m.insert a

/-- The map of a list of entries; of several with one key the last stays. -/
def ofList (xs : List α) : Keyed key := xs.foldl insert empty

/-- An insertion changes what is found under the key of its entry, and under no other. -/
theorem get?_insert [DecidableEq κ] (m : Keyed key) (a : α) (k : κ) :
    (m.insert a).get? k = if key a = k then some a else m.get? k := by
  obtain ⟨xs, hxs⟩ := m
  simp only [insert, get?]
  induction xs with
  | nil => simp [place, List.find?_cons]; split <;> simp_all
  | cons b rest ih =>
    obtain ⟨hb, hrest⟩ := List.pairwise_cons.1 hxs
    simp only [place]
    split
    · next hab => simp only [List.find?_cons]; split <;> simp_all
    · next hab =>
      split
      · next hba =>
        simp only [List.find?_cons, ih hrest]
        by_cases hk : key a = k
        · have hne : key b ≠ k := fun h => Std.lt_irrefl (h ▸ hk ▸ hba)
          simp [hk, hne]
        · simp [hk]
      · next hba =>
        have hkey := key_eq hab hba
        simp only [List.find?_cons, ← hkey]
        split <;> simp_all

end Insert

end Keyed

end SnapshotTable
