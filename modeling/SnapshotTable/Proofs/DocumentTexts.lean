import SnapshotTable.Json.Printer
import SnapshotTable.Json.Reader
import SnapshotTable.Proofs.Numerals
import SnapshotTable.Proofs.QuotedStrings

/-! Writing documents and reading them back. The text on one line and the indented one differ only in the blanks
between their tokens, which the reader skips. So both give back the document they were written of, if it consists
of what texts keep: integers of 64 bits, strings, and no part that is broken or a number of its own spelling. -/

namespace SnapshotTable.Json
open Text (Stops)
open Text.Decimal (signed)

mutual

/-- Whether every number of the document is an integer of 64 bits and every part a value. -/
def Plain : Json → Prop
  | .null | .bool _ | .str _ => True
  | .int z => -signedBound ≤ z ∧ z < wordBound
  | .real _ | .broken => False
  | .arr items => PlainItems items
  | .obj members => PlainMembers members

def PlainItems : List Json → Prop
  | [] => True
  | item :: rest => Plain item ∧ PlainItems rest

def PlainMembers : List (String × Json) → Prop
  | [] => True
  | (_, value) :: rest => Plain value ∧ PlainMembers rest

end

structure Spacing where
  gap : Nat → List Char
  colon : List Char
  gap_blank : ∀ level, ∀ c ∈ gap level, isGap c = true
  colon_blank : ∀ c ∈ colon, isGap c = true

namespace Spacing

def tight : Spacing := ⟨fun _ => [], [], nofun, nofun⟩

private theorem isGap_of_mem_newline {level : Nat} {c : Char} (h : c ∈ newline level) :
    isGap c = true := by
  rcases List.mem_cons.mp h with rfl | h
  · rfl
  · rw [List.eq_of_mem_replicate h]
    rfl

def spread : Spacing := ⟨newline, [' '], fun _ _ => isGap_of_mem_newline, by simp [isGap]⟩

variable (sp : Spacing)

mutual

def text (level : Nat) : Json → List Char
  | .arr (item :: rest) => '[' :: sp.gap (level + 1) ++ (text (level + 1) item ++ itemsText level rest)
  | .obj ((name, value) :: rest) =>
    '\x7b' :: sp.gap (level + 1) ++ (Quoted.write name ++ ':' :: sp.colon
      ++ (text (level + 1) value ++ membersText level rest))
  | .arr [] => ['[', ']']
  | .obj [] => ['\x7b', '\x7d']
  | .null => "null".toList
  | .bool true => "true".toList
  | .bool false => "false".toList
  | .int z => signed z
  | .real literal => literal.toList
  | .str s => Quoted.write s
  | .broken => "null".toList

def itemsText (level : Nat) : List Json → List Char
  | [] => sp.gap level ++ [']']
  | item :: rest => ',' :: sp.gap (level + 1) ++ (text (level + 1) item ++ itemsText level rest)

def membersText (level : Nat) : List (String × Json) → List Char
  | [] => sp.gap level ++ ['\x7d']
  | (name, value) :: rest =>
    ',' :: sp.gap (level + 1) ++ (Quoted.write name ++ ':' :: sp.colon
      ++ (text (level + 1) value ++ membersText level rest))

end

mutual

private theorem tight_text (level : Nat) : ∀ j, tight.text level j = compact j
  | .null | .bool true | .bool false | .int _ | .real _ | .str _ | .broken | .arr [] | .obj [] => rfl
  | .arr (item :: rest) => by
    change '[' :: (tight.text (level + 1) item ++ tight.itemsText level rest) =
      '[' :: (compact item ++ compactItems rest)
    rw [tight_text (level + 1) item, tight_items level rest]
  | .obj ((name, value) :: rest) => by
    change '\x7b' :: (Quoted.write name ++ [':'] ++ (tight.text (level + 1) value ++ tight.membersText level rest)) =
      '\x7b' :: (Quoted.write name ++ ':' :: compact value ++ compactMembers rest)
    rw [tight_text (level + 1) value, tight_members level rest]
    simp only [List.append_assoc, List.cons_append, List.nil_append]

private theorem tight_items (level : Nat) : ∀ items, tight.itemsText level items = compactItems items
  | [] => rfl
  | item :: rest => by
    change ',' :: (tight.text (level + 1) item ++ tight.itemsText level rest) =
      ',' :: (compact item ++ compactItems rest)
    rw [tight_text (level + 1) item, tight_items level rest]

private theorem tight_members (level : Nat) :
    ∀ members, tight.membersText level members = compactMembers members
  | [] => rfl
  | (name, value) :: rest => by
    change ',' :: (Quoted.write name ++ [':'] ++ (tight.text (level + 1) value ++ tight.membersText level rest)) =
      ',' :: (Quoted.write name ++ ':' :: compact value ++ compactMembers rest)
    rw [tight_text (level + 1) value, tight_members level rest]
    simp only [List.append_assoc, List.cons_append, List.nil_append]

end

mutual

private theorem spread_text (level : Nat) : ∀ j, spread.text level j = indented level j
  | .null | .bool true | .bool false | .int _ | .real _ | .str _ | .broken | .arr [] | .obj [] => rfl
  | .arr (item :: rest) => by
    change '[' :: newline (level + 1) ++ (spread.text (level + 1) item ++ spread.itemsText level rest) =
      '[' :: newline (level + 1) ++ indented (level + 1) item ++ indentedItems level rest
    rw [spread_text (level + 1) item, spread_items level rest, List.append_assoc]
  | .obj ((name, value) :: rest) => by
    change '\x7b' :: newline (level + 1) ++ (Quoted.write name ++ [':', ' ']
        ++ (spread.text (level + 1) value ++ spread.membersText level rest)) =
      '\x7b' :: newline (level + 1) ++ Quoted.write name ++ ':' :: ' ' :: indented (level + 1) value
        ++ indentedMembers level rest
    rw [spread_text (level + 1) value, spread_members level rest]
    simp only [List.append_assoc, List.cons_append, List.nil_append]

private theorem spread_items (level : Nat) :
    ∀ items, spread.itemsText level items = indentedItems level items
  | [] => rfl
  | item :: rest => by
    change ',' :: newline (level + 1) ++ (spread.text (level + 1) item ++ spread.itemsText level rest) =
      ',' :: newline (level + 1) ++ indented (level + 1) item ++ indentedItems level rest
    rw [spread_text (level + 1) item, spread_items level rest, List.append_assoc]

private theorem spread_members (level : Nat) : ∀ members,
    spread.membersText level members = indentedMembers level members
  | [] => rfl
  | (name, value) :: rest => by
    change ',' :: newline (level + 1) ++ (Quoted.write name ++ [':', ' ']
        ++ (spread.text (level + 1) value ++ spread.membersText level rest)) =
      ',' :: newline (level + 1) ++ Quoted.write name ++ ':' :: ' ' :: indented (level + 1) value
        ++ indentedMembers level rest
    rw [spread_text (level + 1) value, spread_members level rest]
    simp only [List.append_assoc, List.cons_append, List.nil_append]

end
end Spacing

private theorem skipGap_append {blanks : List Char} (h : ∀ c ∈ blanks, isGap c = true) (cs : List Char) :
    skipGap (blanks ++ cs) = skipGap cs := List.dropWhile_append_of_pos h

private theorem skipGap_cons {c : Char} (h : isGap c = false) (cs : List Char) :
    skipGap (c :: cs) = c :: cs :=
  List.dropWhile_cons_of_neg (by simp [h])

private theorem value?_blanks {blanks : List Char} (h : ∀ c ∈ blanks, isGap c = true) (fuel : Nat)
    (cs : List Char) :
    value? fuel (blanks ++ cs) = value? fuel cs := by
  cases fuel with
  | zero => rw [value?, value?]
  | succ fuel => rw [value?, value?, skipGap_append h]

private theorem items?_blanks {blanks : List Char} (h : ∀ c ∈ blanks, isGap c = true) (fuel : Nat)
    (cs : List Char) :
    items? fuel (blanks ++ cs) = items? fuel cs := by
  cases fuel with
  | zero => rw [items?, items?]
  | succ fuel => rw [items?, items?, value?_blanks h]

private theorem members?_blanks {blanks : List Char} (h : ∀ c ∈ blanks, isGap c = true) (fuel : Nat)
    (cs : List Char) :
    members? fuel (blanks ++ cs) = members? fuel cs := by
  cases fuel with
  | zero => rw [members?, members?]
  | succ fuel => rw [members?, members?, skipGap_append h]

def Number.opens (c : Char) : Bool := c == '-' || c.isDigit

private theorem Number.ne_of_opens {c d : Char} (hc : opens c = true) (hd : opens d = false) :
    c ≠ d := by
  rintro rfl
  rw [hc] at hd
  cases hd

private theorem isGap_of_opens {c : Char} (hc : Number.opens c = true) : isGap c = false := by
  have hne {d : Char} (hd : Number.opens d = false) : c ≠ d := Number.ne_of_opens hc hd
  simp [isGap, hne (d := ' ') rfl, hne (d := '\n') rfl, hne (d := '\t') rfl, hne (d := '\r') rfl]

private theorem value?_number {c : Char} {cs rest : List Char} {l : Number.Literal} (fuel : Nat)
    (hc : Number.opens c = true) (h : Number.literal? (c :: cs) = some (l, rest)) :
    value? (fuel + 1) (c :: cs) = some (l.toJson, rest) := by
  have hne {d : Char} (hd : Number.opens d = false) : c ≠ d := Number.ne_of_opens hc hd
  rw [value?, skipGap_cons (isGap_of_opens hc)]
  split <;> rename_i heq
  · cases heq
    exact absurd rfl (hne (d := 'n') rfl)
  · cases heq
    exact absurd rfl (hne (d := 't') rfl)
  · cases heq
    exact absurd rfl (hne (d := 'f') rfl)
  · cases heq
    exact absurd rfl (hne (d := '"') rfl)
  · cases heq
    exact absurd rfl (hne (d := '[') rfl)
  · cases heq
    exact absurd rfl (hne (d := '\x7b') rfl)
  · rw [h]
    rfl

private theorem head?_signed (z : Int) : ∃ c tail, signed z = c :: tail ∧ Number.opens c = true := by
  cases z with
  | ofNat n =>
    obtain ⟨c, tail, hnum, hdigit⟩ := Text.Decimal.head?_numeral n
    exact ⟨c, tail, hnum, by rw [Number.opens, hdigit, Bool.or_true]⟩
  | negSucc n => exact ⟨'-', _, rfl, rfl⟩

private theorem value?_signed (fuel : Nat) {z : Int} (hlow : -signedBound ≤ z) (hhigh : z < wordBound)
    {rest : List Char} (h : Stops Number.continues rest) :
    value? (fuel + 1) (signed z ++ rest) = some (.int z, rest) := by
  have hread := Number.literal?_signed z h
  obtain ⟨c, tail, hz, hc⟩ := head?_signed z
  rw [hz, List.cons_append] at hread ⊢
  rw [value?_number fuel hc hread, Number.toJson_signed hlow hhigh]

private theorem value?_quoted (fuel : Nat) (s : String) (rest : List Char) :
    value? (fuel + 1) (Quoted.write s ++ rest) = some (.str s, rest) := by
  have hread := Quoted.read?_write s rest
  rw [value?, Quoted.write, List.cons_append, List.cons_append, List.append_assoc,
    skipGap_cons rfl]
  simp only [List.singleton_append, hread, Option.map_some]

section Tokens
variable {blanks cs rest : List Char} {fuel : Nat} {item value : Json} {name : String}

private theorem value?_bracket (fuel : Nat) (tail : List Char) : value? (fuel + 1) ('[' :: tail) =
    match skipGap tail with
    | ']' :: rest => some (.arr [], rest)
    | rest => (items? fuel rest).map fun (items, rest) => (.arr items, rest) := rfl

private theorem value?_array (hblanks : ∀ c ∈ blanks, isGap c = true) {c : Char} (hgap : isGap c = false)
    (hne : c ≠ ']') : value? (fuel + 1) ('[' :: (blanks ++ c :: cs)) =
      (items? fuel (c :: cs)).map fun (items, rest) => (.arr items, rest) := by
  rw [value?_bracket, skipGap_append hblanks, skipGap_cons hgap]
  split
  · rename_i heq
    cases heq
    exact absurd rfl hne
  · rfl

private theorem items?_more (h : value? fuel cs = some (item, ',' :: rest)) :
    items? (fuel + 1) cs = (items? fuel rest).map fun (items, rest) => (item :: items, rest) := by
  simp only [items?, h, skipGap_cons (c := ',') rfl]

private theorem items?_last (hblanks : ∀ c ∈ blanks, isGap c = true)
    (h : value? fuel cs = some (item, blanks ++ ']' :: rest)) :
    items? (fuel + 1) cs = some ([item], rest) := by
  simp only [items?, h, skipGap_append hblanks, skipGap_cons (c := ']') rfl]

private theorem value?_brace (fuel : Nat) (tail : List Char) : value? (fuel + 1) ('\x7b' :: tail) =
    match skipGap tail with
    | '\x7d' :: rest => some (.obj [], rest)
    | rest => (members? fuel rest).map fun (members, rest) => (ofMembers members, rest) := rfl

private theorem value?_object (hblanks : ∀ c ∈ blanks, isGap c = true) :
    value? (fuel + 1) ('\x7b' :: (blanks ++ '"' :: cs)) =
      (members? fuel ('"' :: cs)).map fun (members, rest) => (ofMembers members, rest) := by
  rw [value?_brace, skipGap_append hblanks, skipGap_cons rfl]
  rfl

private theorem write_append (name : String) (cs : List Char) :
    Quoted.write name ++ cs = '"' :: (name.toList.flatMap Quoted.escaped ++ '"' :: cs) := by
  rw [Quoted.write, List.cons_append, List.cons_append, List.append_assoc, List.singleton_append]

private theorem members?_more (h : value? fuel cs = some (value, ',' :: rest)) :
    members? (fuel + 1) (Quoted.write name ++ ':' :: cs) =
      (members? fuel rest).map fun (members, rest) => ((some name, value) :: members, rest) := by
  simp only [write_append, members?, skipGap_cons (c := '"') rfl, Quoted.read?_write,
    skipGap_cons (c := ':') rfl, h, skipGap_cons (c := ',') rfl]

private theorem members?_last (hblanks : ∀ c ∈ blanks, isGap c = true)
    (h : value? fuel cs = some (value, blanks ++ '\x7d' :: rest)) :
    members? (fuel + 1) (Quoted.write name ++ ':' :: cs) = some ([(some name, value)], rest) := by
  simp only [write_append, members?, skipGap_cons (c := '"') rfl, Quoted.read?_write,
    skipGap_cons (c := ':') rfl, h, skipGap_append hblanks, skipGap_cons (c := '\x7d') rfl]

private theorem mapM_named (members : List (String × Json)) :
    (members.map fun (name, value) => (some name, value)).mapM
      (fun (name, value) => name.map fun name : String => (name, value)) = some members := by
  induction members with
  | nil => rfl
  | cons member rest ih =>
    rw [List.map_cons, List.mapM_cons, ih]
    rfl

private theorem ofMembers_named (members : List (String × Json)) :
    ofMembers (members.map fun (name, value) => (some name, value)) = .obj members := by
  rw [ofMembers, mapM_named]

end Tokens

namespace Spacing
variable (sp : Spacing)

/-- The text of a value starts with no blank and no closing bracket. -/
private theorem head_text (level : Nat) {j : Json} (h : Plain j) :
    ∃ c tail, sp.text level j = c :: tail ∧ isGap c = false ∧ c ≠ ']' := by
  cases j with
  | null => exact ⟨'n', _, rfl, rfl, by decide⟩
  | bool b =>
    cases b with
    | true => exact ⟨'t', _, rfl, rfl, by decide⟩
    | false => exact ⟨'f', _, rfl, rfl, by decide⟩
  | int z =>
    obtain ⟨c, tail, hz, hc⟩ := head?_signed z
    exact ⟨c, tail, hz, isGap_of_opens hc, Number.ne_of_opens hc rfl⟩
  | real literal => exact h.elim
  | str s => exact ⟨'"', _, rfl, rfl, by decide⟩
  | arr items => cases items <;> exact ⟨'[', _, rfl, rfl, by decide⟩
  | obj members => cases members <;> exact ⟨'\x7b', _, rfl, rfl, by decide⟩
  | broken => exact h.elim

def firstItems (level : Nat) : List Json → List Char
  | [] => []
  | item :: rest => sp.text (level + 1) item ++ sp.itemsText level rest

def firstMembers (level : Nat) : List (String × Json) → List Char
  | [] => []
  | (name, value) :: rest =>
    Quoted.write name ++ ':' :: sp.colon ++ (sp.text (level + 1) value ++ sp.membersText level rest)

private theorem two_mul_length_le {c : Char} {cs blanks : List Char} {fuel : Nat}
    (h : 2 * (c :: (blanks ++ cs)).length ≤ fuel + 1) : 2 * cs.length ≤ fuel := by
  rw [List.length_cons, List.length_append] at h
  omega

private theorem stops_gap {blanks : List Char} (h : ∀ c ∈ blanks, isGap c = true) {c : Char}
    (hc : Number.continues c = false) (rest : List Char) :
    Stops Number.continues (blanks ++ c :: rest) := by
  intro d hd
  cases blanks with
  | nil =>
    cases hd
    exact hc
  | cons b blanks =>
    cases hd
    have hb := h d List.mem_cons_self
    simp only [isGap, Bool.or_eq_true, beq_iff_eq] at hb
    rcases hb with ((rfl | rfl) | rfl) | rfl <;> rfl

private theorem stops_items (level : Nat) (items : List Json) (rest : List Char) :
    Stops Number.continues (sp.itemsText level items ++ rest) := by
  cases items with
  | nil =>
    rw [itemsText, List.append_assoc]
    exact stops_gap (sp.gap_blank level) rfl rest
  | cons item items =>
    rw [itemsText]
    rintro c ⟨⟩
    rfl

private theorem stops_members (level : Nat) (members : List (String × Json)) (rest : List Char) :
    Stops Number.continues (sp.membersText level members ++ rest) := by
  cases members with
  | nil =>
    rw [membersText, List.append_assoc]
    exact stops_gap (sp.gap_blank level) rfl rest
  | cons member members =>
    rw [membersText]
    rintro c ⟨⟩
    rfl

mutual

private theorem value?_text : ∀ {j : Json}, Plain j → ∀ {level fuel : Nat} {rest : List Char},
    Stops Number.continues rest → 2 * (sp.text level j).length ≤ fuel →
    value? fuel (sp.text level j ++ rest) = some (j, rest)
  | j, h, level, 0, _, _, hfuel => by
    obtain ⟨c, tail, hhead, -⟩ := sp.head_text level h
    rw [hhead] at hfuel
    cases hfuel
  | .null, _, _, fuel + 1, rest, _, _ => rfl
  | .bool true, _, _, fuel + 1, rest, _, _ => rfl
  | .bool false, _, _, fuel + 1, rest, _, _ => rfl
  | .int z, h, _, fuel + 1, rest, hrest, _ => value?_signed fuel h.1 h.2 hrest
  | .str s, _, _, fuel + 1, rest, _, _ => value?_quoted fuel s rest
  | .arr [], _, _, fuel + 1, rest, _, _ => rfl
  | .obj [], _, _, fuel + 1, rest, _, _ => rfl
  | .arr (item :: items), h, level, fuel + 1, rest, _, hfuel => by
    have htext : sp.text level (.arr (item :: items)) =
        '[' :: (sp.gap (level + 1) ++ sp.firstItems level (item :: items)) := rfl
    rw [htext] at hfuel ⊢
    have hitems : items? fuel (sp.firstItems level (item :: items) ++ rest) = some (item :: items, rest) :=
      items?_text h (List.cons_ne_nil _ _) (two_mul_length_le hfuel)
    obtain ⟨c, tail, hhead, hgap, hne⟩ := sp.head_text (level + 1) h.1
    rw [firstItems, hhead] at hitems ⊢
    simp only [List.cons_append, List.append_assoc] at hitems ⊢
    rw [value?_array (sp.gap_blank _) hgap hne, hitems]
    rfl
  | .obj ((name, value) :: members), h, level, fuel + 1, rest, _, hfuel => by
    have htext : sp.text level (.obj ((name, value) :: members)) =
        '\x7b' :: (sp.gap (level + 1) ++ sp.firstMembers level ((name, value) :: members)) := rfl
    rw [htext] at hfuel ⊢
    have hmembers : members? fuel (sp.firstMembers level ((name, value) :: members) ++ rest) =
        some (((name, value) :: members).map fun (name, value) => (some name, value), rest) :=
      members?_text h (List.cons_ne_nil _ _) (two_mul_length_le hfuel)
    rw [firstMembers, Quoted.write] at hmembers ⊢
    simp only [List.cons_append, List.append_assoc] at hmembers ⊢
    rw [value?_object (sp.gap_blank _), hmembers]
    exact congrArg (fun j => some (j, rest)) (ofMembers_named _)
  | .real _, h, _, _, _, _, _ => h.elim
  | .broken, h, _, _, _, _, _ => h.elim

private theorem items?_text :
    ∀ {items : List Json}, PlainItems items → ∀ {level fuel : Nat} {rest : List Char},
    items ≠ [] → 2 * (sp.firstItems level items).length ≤ fuel →
    items? fuel (sp.firstItems level items ++ rest) = some (items, rest)
  | [], _, _, _, _, hne, _ => absurd rfl hne
  | item :: items, h, level, 0, _, _, hfuel => by
    obtain ⟨c, tail, hhead, -⟩ := sp.head_text (level + 1) h.1
    rw [firstItems, hhead] at hfuel
    cases hfuel
  | [item], h, level, fuel + 1, rest, _, hfuel => by
    rw [firstItems, itemsText, List.length_append, List.length_append, List.length_singleton] at hfuel
    have hitem : value? fuel (sp.text (level + 1) item ++ (sp.itemsText level [] ++ rest)) = some (item, _) :=
      value?_text h.1 (sp.stops_items level [] rest) (by omega)
    rw [itemsText, List.append_assoc] at hitem
    rw [firstItems, itemsText, List.append_assoc, List.append_assoc]
    exact items?_last (sp.gap_blank level) hitem
  | item :: next :: items, h, level, fuel + 1, rest, _, hfuel => by
    have htext : sp.itemsText level (next :: items) =
        ',' :: (sp.gap (level + 1) ++ sp.firstItems level (next :: items)) := rfl
    rw [firstItems, List.length_append, htext, List.length_cons, List.length_append] at hfuel
    have hitem : value? fuel (sp.text (level + 1) item ++ (sp.itemsText level (next :: items) ++ rest)) =
        some (item, _) :=
      value?_text h.1 (sp.stops_items level (next :: items) rest) (by omega)
    have hitems : items? fuel (sp.firstItems level (next :: items) ++ rest) = some (next :: items, rest) :=
      items?_text h.2 (List.cons_ne_nil _ _) (by omega)
    rw [htext, List.cons_append, List.append_assoc] at hitem
    rw [firstItems, htext, List.append_assoc, List.cons_append, List.append_assoc, items?_more hitem,
      items?_blanks (sp.gap_blank _), hitems]
    rfl

private theorem members?_text : ∀ {members : List (String × Json)}, PlainMembers members →
    ∀ {level fuel : Nat} {rest : List Char}, members ≠ [] →
    2 * (sp.firstMembers level members).length ≤ fuel →
    members? fuel (sp.firstMembers level members ++ rest) =
      some (members.map fun (name, value) => (some name, value), rest)
  | [], _, _, _, _, hne, _ => absurd rfl hne
  | (name, value) :: members, h, level, 0, _, _, hfuel => by
    rw [firstMembers, Quoted.write] at hfuel
    cases hfuel
  | [(name, value)], h, level, fuel + 1, rest, _, hfuel => by
    rw [firstMembers, List.length_append, List.length_append, membersText, List.length_append,
      List.length_append, List.length_singleton] at hfuel
    have hvalue : value? fuel (sp.text (level + 1) value ++ (sp.membersText level [] ++ rest)) =
        some (value, _) :=
      value?_text h.1 (sp.stops_members level [] rest) (by omega)
    rw [← value?_blanks sp.colon_blank, membersText, List.append_assoc] at hvalue
    rw [firstMembers, membersText]
    simp only [List.append_assoc, List.cons_append]
    exact members?_last (sp.gap_blank level) hvalue
  | (name, value) :: next :: members, h, level, fuel + 1, rest, _, hfuel => by
    have htext : sp.membersText level (next :: members) =
        ',' :: (sp.gap (level + 1) ++ sp.firstMembers level (next :: members)) := rfl
    rw [firstMembers, htext] at hfuel
    simp only [List.length_append, List.length_cons] at hfuel
    have hvalue : value? fuel (sp.text (level + 1) value ++ (sp.membersText level (next :: members) ++ rest)) =
        some (value, _) :=
      value?_text h.1 (sp.stops_members level (next :: members) rest) (by omega)
    have hmembers : members? fuel (sp.firstMembers level (next :: members) ++ rest) =
        some ((next :: members).map fun (name, value) => (some name, value), rest) :=
      members?_text h.2 (List.cons_ne_nil _ _) (by omega)
    rw [← value?_blanks sp.colon_blank, htext, List.cons_append, List.append_assoc] at hvalue
    rw [firstMembers, htext]
    simp only [List.append_assoc, List.cons_append] at hvalue ⊢
    rw [members?_more hvalue, members?_blanks (sp.gap_blank _), hmembers]
    rfl

end

/-- So the document that a text was written of is the one that it is. -/
theorem parse?_text {j : Json} (h : Plain j) : parse? (String.ofList (sp.text 0 j)) = some j := by
  have hread : value? (2 * (sp.text 0 j).length + 2) (sp.text 0 j ++ []) = some (j, []) :=
    sp.value?_text h nofun (Nat.le_add_right _ 2)
  rw [List.append_nil] at hread
  rw [parse?]
  simp only [String.toList_ofList, hread]
  rfl

end Spacing

/-- Written on one line and read again, a document is what it was. -/
theorem parse?_render {j : Json} (h : Plain j) : parse? j.render = some j := by
  rw [render, ← Spacing.tight_text 0]
  exact Spacing.tight.parse?_text h

/-- So is a document that was written with indentation. -/
theorem parse?_pretty {j : Json} (h : Plain j) : parse? j.pretty = some j := by
  rw [pretty, ← Spacing.spread_text]
  exact Spacing.spread.parse?_text h

end SnapshotTable.Json
