import Mathlib.Data.List.Forall2
import SnapshotTable.Json.Record
import SnapshotTable.Proofs.DocumentTexts

/-! Documents that carry values: their text can be written and read back, and what is read of them is the value.
A record carries its value if its fields do, each under its own name, and a field with a default also if it is
left out where it holds that. -/

namespace SnapshotTable.Json

/-- Members are plain if each of their values is. -/
theorem plainMembers_iff {members : List (String × Json)} :
    PlainMembers members ↔ ∀ member ∈ members, Plain member.2 := by
  induction members with
  | nil => exact iff_of_true trivial nofun
  | cons member rest ih => rw [PlainMembers, ih, List.forall_mem_cons]

mutual

/-- Every part of a plain document is a value. -/
theorem sound_of_plain : ∀ {j : Json}, Plain j → j.sound = true
  | .null, _ | .bool _, _ | .int _, _ | .str _, _ => rfl
  | .real _, h | .broken, h => h.elim
  | .arr _, h => soundItems_of_plain h
  | .obj _, h => soundMembers_of_plain h

private theorem soundItems_of_plain : ∀ {items : List Json}, PlainItems items → soundItems items = true
  | [], _ => rfl
  | _ :: _, h => Bool.and_eq_true_iff.mpr ⟨sound_of_plain h.1, soundItems_of_plain h.2⟩

private theorem soundMembers_of_plain : ∀ {members : List (String × Json)}, PlainMembers members →
    soundMembers members = true
  | [], _ => rfl
  | _ :: _, h => Bool.and_eq_true_iff.mpr ⟨sound_of_plain h.1, soundMembers_of_plain h.2⟩

end

structure Carries {α : Type} (read : Json → Option α) (value : α) (j : Json) : Prop where
  plain : j.Plain
  reads : read j = some value

/-- Whatever the layout of its text, the value is read of it again. -/
theorem Carries.parse {α : Type} {read : Json → Option α} {value : α} {j : Json}
    (h : Carries read value j) :
    (parse? j.render).bind read = some value ∧ (parse? j.pretty).bind read = some value := by
  rw [parse?_render h.plain, parse?_pretty h.plain]
  exact ⟨h.reads, h.reads⟩

/-- A string carries itself. -/
theorem carries_str (s : String) : Carries str? s (.str s) := ⟨trivial, rfl⟩

/-- A value that has a text of its own is written as that. -/
theorem carries_text {α : Type} {read : String → Option α} {value : α} {s : String}
    (h : read s = some value) :
    Carries (fun j => j.str?.bind read) value (.str s) := ⟨trivial, h⟩

/-- A truth value carries itself. -/
theorem carries_bool (b : Bool) : Carries bool? b (.bool b) := ⟨trivial, rfl⟩

/-- A number below the bound of its reader is carried by its numeral. -/
theorem carries_nat {bound n : Nat} (hbound : bound ≤ wordBound) (h : n < bound) :
    Carries (nat? bound) n (.int n) where
  plain := by
    rw [Plain, signedBound, wordBound] at *
    omega
  reads := if_pos h

/-- A word of 64 bits is carried by its numeral. -/
theorem carries_word {n : Nat} (h : n < wordBound) :
    Carries word? n (.int n) := carries_nat (Nat.le_refl _) h

/-- A signed word of 64 bits is carried by its numeral. -/
theorem carries_signedWord {z : Int} (h : -signedBound ≤ z ∧ z < signedBound) :
    Carries signedWord? z (.int z) where
  plain := by
    rw [Plain, signedBound, wordBound] at *
    omega
  reads := if_pos h

section Lists
variable {α : Type} {read : Json → Option α}

/-- A list is carried by an array whose items carry its values. -/
theorem carries_list {values : List α} {items : List Json}
    (h : List.Forall₂ (Carries read) values items) :
    Carries (list? read) values (.arr items) := by
  have hplain : PlainItems items := by
    induction h with
    | nil => trivial
    | cons hvalue _ ih => exact ⟨hvalue.plain, ih⟩
  refine ⟨hplain, ?_⟩
  induction h with
  | nil => rfl
  | cons hvalue _ ih =>
    have hrest := ih hplain.2
    rw [list?] at hrest ⊢
    rw [List.mapM_cons, hvalue.reads, hrest]
    rfl

/-- A list is carried by the array that is written of it. -/
theorem carries_map {write : α → Json} {values : List α}
    (h : ∀ value ∈ values, Carries read value (write value)) :
    Carries (list? read) values (.arr (values.map write)) := by
  apply carries_list
  rw [List.forall₂_map_right_iff, List.forall₂_same]
  exact h

/-- What may be absent and is, is carried by null. -/
theorem carries_none : Carries (nullable? read) none .null := ⟨trivial, rfl⟩

/-- What may be absent and is there is carried by what carries it, unless this is null. -/
theorem carries_some {value : α} {j : Json} (h : Carries read value j) (hnull : j ≠ .null) :
    Carries (nullable? read) (some value) j where
  plain := h.plain
  reads := by
    rw [nullable?.eq_def]
    split
    · contradiction
    · rw [h.reads]
      rfl

end Lists

/-! ### Records -/

def given : List (String × Option Json) → List (String × Json)
  | [] => []
  | (name, some value) :: rest => (name, value) :: given rest
  | (_, none) :: rest => given rest

/-- A record has the members that are given, and no others. -/
theorem mem_given {fields : List (String × Option Json)} {member : String × Json} :
    member ∈ given fields ↔ (member.1, some member.2) ∈ fields := by
  induction fields with
  | nil => exact iff_of_false nofun nofun
  | cons field rest ih =>
    obtain ⟨name, value⟩ := field
    cases value with
    | none => simp [given, ih]
    | some value => simp [given, ih, Prod.ext_iff]

/-- No other field has members of a name. -/
theorem filter_given_of_notMem {fields : List (String × Option Json)} {name : String}
    (h : name ∉ fields.map Prod.fst) : (given fields).filter (·.1 == name) = [] := by
  rw [List.filter_eq_nil_iff]
  rintro member hmember hname
  rw [beq_iff_eq] at hname
  exact h (List.mem_map.mpr ⟨_, mem_given.mp hmember, hname⟩)

private theorem single?_given {fields : List (String × Option Json)}
    (hnames : (fields.map Prod.fst).Nodup)
    {name : String} {value : Option Json} (h : (name, value) ∈ fields) :
    single? name (given fields) = some value := by
  induction fields with
  | nil => cases h
  | cons field rest ih =>
    obtain ⟨hnew, hrest⟩ := List.nodup_cons.mp hnames
    rcases List.mem_cons.mp h with rfl | hlater
    · have hnone := filter_given_of_notMem hnew
      cases value <;> simp [single?, given, hnone]
    · have hother : field.1 ≠ name := by
        rintro rfl
        exact hnew (List.mem_map.mpr ⟨_, hlater, rfl⟩)
      obtain ⟨first, _ | _⟩ := field
      · exact ih hrest hlater
      · rw [single?, given, List.filter_cons_of_neg (by simpa using hother)]
        exact ih hrest hlater

/-- The fields of a record are found under their names, whichever of them are left out. -/
theorem fields?_given {fields : List (String × Option Json)} (hnames : (fields.map Prod.fst).Nodup) :
    fields? (fields.map Prod.fst) (.obj (given fields)) = some (fields.map Prod.snd) := by
  have hfind : ∀ field ∈ fields, single? field.1 (given fields) = some field.2 :=
    fun field h => single?_given hnames h
  rw [fields?, List.mapM_map]
  generalize given fields = members at hfind
  clear hnames
  induction fields with
  | nil => rfl
  | cons field rest ih =>
    obtain ⟨hfirst, hrest⟩ := List.forall_mem_cons.mp hfind
    rw [List.mapM_cons, ih hrest, Function.comp_apply, hfirst]
    rfl

/-- A field that stands wherever another one does, and is no deeper than this. -/
def Within (field full : String × Option Json) : Prop :=
  ∀ j, field.2 = some j → ∃ k, full.2 = some k ∧ j.depth ≤ k.depth

/-- Leaving out fields makes a record no deeper. -/
theorem depth_given_le {fields full : List (String × Option Json)}
    (h : List.Forall₂ Within fields full) :
    (Json.obj (given fields)).depth ≤ (Json.obj (given full)).depth := by
  have hmembers : depthMembers (given fields) ≤ depthMembers (given full) := by
    induction h with
    | nil => exact Nat.le_refl _
    | @cons field whole rest later hfield _ ih =>
      obtain ⟨name, _ | j⟩ := field <;> obtain ⟨other, _ | k⟩ := whole <;> simp only [given, depthMembers]
      · exact ih
      · omega
      · obtain ⟨k, hk, -⟩ := hfield j rfl
        cases hk
      · obtain ⟨_, ⟨⟩, hle⟩ := hfield j rfl
        omega
  exact Nat.add_le_add_left hmembers 1

structure Holds {α : Type} (read : Option Json → Option α) (value : α) (field : Option Json) : Prop where
  plain : ∀ j, field = some j → j.Plain
  reads : read field = some value

def Field {α : Type} (default : α) (doc : α → Json → Prop) (value : α) : Option Json → Prop
  | some j => doc value j
  | none => value = default

/-- What holds of a field for one reading holds of it for a weaker one. -/
theorem Field.imp {α : Type} {default value : α} {doc doc' : α → Json → Prop} {field : Option Json}
    (h : Field default doc value field) (hdoc : ∀ j, doc value j → doc' value j) :
    Field default doc' value field := by
  cases field with
  | none => exact h
  | some j => exact hdoc j h

/-- An array is no deeper than the bound on what is written of its values. -/
theorem depthItems_map_le {α : Type} {write : α → Json} {bound : Nat}
    (h : ∀ value, (write value).depth ≤ bound) (values : List α) : depthItems (values.map write) ≤ bound := by
  induction values with
  | nil => exact Nat.zero_le _
  | cons value rest ih => exact Nat.max_le.mpr ⟨h value, ih⟩

theorem depth_le_of_eq {j k : Json} (h : j = k) : j.depth ≤ k.depth := Nat.le_of_eq (congrArg depth h)

theorem Within.some {name : String} {j k : Json} (h : j.depth ≤ k.depth) :
    Within (name, Option.some j) (name, Option.some k) := by
  rintro _ ⟨⟩
  exact ⟨k, rfl, h⟩

theorem Within.refl (field : String × Option Json) :
    Within field field := fun j hj => ⟨j, hj, Nat.le_refl _⟩

/-- A field with a default is within the one that is always written. -/
theorem Field.within {α : Type} {default value : α} {doc : α → Json → Prop} {field : Option Json}
    {name : String} {full : Json} (h : Field default doc value field) (hdoc : ∀ j, doc value j → j.depth ≤ full.depth) :
    Within (name, field) (name, some full) := by
  rintro j ⟨⟩
  exact ⟨full, rfl, hdoc j h⟩

section Fields
variable {α : Type} {read : Json → Option α} {value default : α}

/-- A field that is required is read from its document. -/
theorem Carries.required {j : Json} (h : Carries read value j) :
    Holds (required? read) value (some j) where
  plain := by
    rintro _ ⟨⟩
    exact h.plain
  reads := h.reads

/-- A field that may be left out is read as its default where it is. -/
theorem Carries.optional {field : Option Json} (h : Field default (Carries read) value field) :
    Holds (optional? default read) value field := by
  cases field with
  | none => exact ⟨nofun, congrArg some (Eq.symm h)⟩
  | some j =>
    refine ⟨?_, Carries.reads h⟩
    rintro _ ⟨⟩
    exact Carries.plain h

end Fields

private theorem plain_given {fields : List (String × Option Json)}
    (h : fields.Forall fun field => ∀ j, field.2 = some j → Plain j) : Plain (.obj (given fields)) :=
  plainMembers_iff.mpr fun _ hmember => List.forall_iff_forall_mem.mp h _ (mem_given.mp hmember) _ rfl

section Values
variable {α : Type} {read : Json → Option α} {value : α} {names : List String}
  {make : List (Option Json) → Option α}

/-- A record carries a value if its fields are plain and the value is made of what they are read as. -/
theorem carries_given {fields : List (String × Option Json)}
    (hread : ∀ j, read j = (fields? names j).bind make)
    (hfields : fields.map Prod.fst = names) (hnames : names.Nodup)
    (hplain : fields.Forall fun field => ∀ j, field.2 = some j → Plain j)
    (hmake : make (fields.map Prod.snd) = some value) : Carries read value (.obj (given fields)) where
  plain := plain_given hplain
  reads := by
    subst hfields
    rw [hread, fields?_given hnames]
    exact hmake

private theorem given_of_full (members : List (String × Json)) :
    given (members.map fun member => (member.1, some member.2)) = members := by
  induction members with
  | nil => rfl
  | cons member rest ih => exact congrArg (member :: ·) ih

/-- So does one with all its fields. -/
theorem carries_full {members : List (String × Json)} (hread : ∀ j, read j = (fields? names j).bind make)
    (hmembers : members.map Prod.fst = names) (hnames : names.Nodup)
    (hplain : members.Forall fun member => Plain member.2)
    (hmake : make (members.map fun member => some member.2) = some value) : Carries read value (.obj members) := by
  rw [← given_of_full members]
  refine carries_given hread ?_ hnames ?_ ?_
  · rwa [List.map_map]
  · rw [List.forall_iff_forall_mem] at hplain ⊢
    rintro _ hfield _ hj
    obtain ⟨member, hmember, rfl⟩ := List.mem_map.mp hfield
    cases hj
    exact hplain member hmember
  · rwa [List.map_map]

end Values

end SnapshotTable.Json
