import SnapshotTable.Keyed
import Mathlib.Data.List.Nodup

/-! Keyed maps seen through their entries. A map is determined by its entries, a look-up finds the
one entry of a key, and entries with pairwise different keys are all kept when a map is built. -/

namespace SnapshotTable.Keyed
variable {α κ : Type} [LT κ] {key : α → κ}

/-- A filter keeps the entries that pass it. -/
theorem mem_filter {p : α → Bool} {m : Keyed key} {a : α} :
    a ∈ (m.filter p).items ↔ a ∈ m.items ∧ p a = true := List.mem_filter

/-- A map contains the keys of its entries. -/
theorem contains_iff [DecidableEq κ] {m : Keyed key} {k : κ} :
    m.contains k = true ↔ ∃ a ∈ m.items, key a = k := by
  simp [contains]

variable [LE κ] [Std.IsLinearOrder κ] [Std.LawfulOrderLT κ]

omit [Std.IsLinearOrder κ] in
/-- No two entries have one key. -/
theorem nodup_keys (m : Keyed key) : (m.items.map key).Nodup := by
  refine List.pairwise_map.mpr (m.ordered.imp ?_)
  intro a b h he
  exact Std.lt_irrefl (he ▸ h)

omit [Std.IsLinearOrder κ] in
theorem nodup_items (m : Keyed key) : m.items.Nodup := m.nodup_keys.of_map

omit [Std.IsLinearOrder κ] in
/-- An entry is known by its key. -/
theorem eq_of_key_eq {m : Keyed key} {a b : α} (ha : a ∈ m.items) (hb : b ∈ m.items)
    (h : key a = key b) : a = b :=
  List.inj_on_of_nodup_map m.nodup_keys ha hb h

omit [Std.IsLinearOrder κ] in
/-- What is found under a key is the entry that has it. -/
theorem get?_eq_some_iff [DecidableEq κ] {m : Keyed key} {k : κ} {a : α} :
    m.get? k = some a ↔ a ∈ m.items ∧ key a = k := by
  constructor
  · intro h
    exact ⟨mem_of_get? h, key_of_get? h⟩
  · rintro ⟨ha, hk⟩
    have hs : (m.get? k).isSome := by
      rw [← contains_eq_isSome]
      exact contains_iff.mpr ⟨a, ha, hk⟩
    obtain ⟨b, hb⟩ := Option.isSome_iff_exists.mp hs
    rw [hb, eq_of_key_eq (mem_of_get? hb) ha ((key_of_get? hb).trans hk.symm)]

/-- Two maps with the same entries are equal. -/
theorem ext_mem {m n : Keyed key} (h : ∀ a, a ∈ m.items ↔ a ∈ n.items) : m = n := by
  have hp : m.items.Perm n.items :=
    (List.perm_ext_iff_of_nodup m.nodup_items n.nodup_items).mpr h
  apply ext
  apply hp.eq_of_pairwise _ m.ordered n.ordered
  intro a b _ _ hab hba
  exact absurd (Std.lt_trans hab hba) Std.lt_irrefl

variable [DecidableLT κ]

private theorem mem_insert {m : Keyed key} {a x : α} :
    x ∈ (m.insert a).items ↔ x = a ∨ x ∈ m.items ∧ key x ≠ key a := by
  classical
  have hx : x ∈ (m.insert a).items ↔ (m.insert a).get? (key x) = some x := by
    simp [get?_eq_some_iff]
  rw [hx, get?_insert]
  by_cases h : key a = key x
  · simp [h, eq_comm]
  · have hne : x ≠ a := fun he => h (he ▸ rfl)
    simp [h, hne, Ne.symm h, get?_eq_some_iff]

private theorem items_insert_of_lt {m : Keyed key} {a : α} (h : ∀ b ∈ m.items, key b < key a) :
    (m.insert a).items = m.items ++ [a] := by
  obtain ⟨xs, hxs⟩ := m
  simp only [insert] at h ⊢
  induction xs with
  | nil => rfl
  | cons b rest ih =>
    have hb : key b < key a := h b List.mem_cons_self
    have hn : ¬ key a < key b := fun hc => Std.lt_irrefl (Std.lt_trans hb hc)
    have hr := ih (List.pairwise_cons.mp hxs).2 fun c hc => h c (List.mem_cons_of_mem _ hc)
    simp only [place, if_neg hn, if_pos hb, hr, List.cons_append]

/-- Entries inserted in a row, with pairwise different keys, are all kept; of the others those
whose keys they do not have. -/
theorem mem_foldl_insert {xs : List α} (hxs : (xs.map key).Nodup) {m : Keyed key} {x : α} :
    x ∈ (xs.foldl insert m).items ↔ x ∈ xs ∨ x ∈ m.items ∧ key x ∉ xs.map key := by
  induction xs generalizing m with
  | nil => simp
  | cons a rest ih =>
    obtain ⟨ha, hrest⟩ := List.nodup_cons.mp hxs
    rw [List.foldl_cons, ih hrest, mem_insert]
    simp only [List.mem_cons, List.map_cons, not_or]
    constructor
    · rintro (h | ⟨rfl | ⟨hm, hne⟩, hk⟩)
      · exact .inl (.inr h)
      · exact .inl (.inl rfl)
      · exact .inr ⟨hm, hne, hk⟩
    · rintro ((rfl | h) | ⟨hm, hne, hk⟩)
      · exact .inr ⟨.inl rfl, ha⟩
      · exact .inl h
      · exact .inr ⟨.inr ⟨hm, hne⟩, hk⟩

/-- A map built from entries with pairwise different keys has exactly these. -/
theorem mem_ofList {xs : List α} (hxs : (xs.map key).Nodup) {x : α} :
    x ∈ (ofList xs : Keyed key).items ↔ x ∈ xs := by
  rw [ofList, mem_foldl_insert hxs]
  simp [empty]

/-- Entries with pairwise different keys are those of the map that is built of them. -/
theorem perm_ofList {xs : List α} (hxs : (xs.map key).Nodup) :
    (ofList xs : Keyed key).items.Perm xs :=
  (List.perm_ext_iff_of_nodup (nodup_items _) hxs.of_map).mpr fun _ => mem_ofList hxs

/-- Entries inserted in increasing key order, all behind those of the map, go to the end. -/
theorem items_foldl_insert {xs : List α} {m : Keyed key}
    (hm : ∀ b ∈ m.items, ∀ a ∈ xs, key b < key a) (hxs : xs.Pairwise fun a b => key a < key b) :
    (xs.foldl insert m).items = m.items ++ xs := by
  induction xs generalizing m with
  | nil => simp
  | cons a rest ih =>
    obtain ⟨ha, hrest⟩ := List.pairwise_cons.mp hxs
    have hi : (m.insert a).items = m.items ++ [a] :=
      items_insert_of_lt fun b hb => hm b hb a List.mem_cons_self
    rw [List.foldl_cons, ih _ hrest, hi, List.append_assoc, List.singleton_append]
    intro b hb c hc
    rw [hi] at hb
    rcases List.mem_append.mp hb with hb | hb
    · exact hm b hb c (List.mem_cons_of_mem _ hc)
    · exact List.mem_singleton.mp hb ▸ ha c hc

/-- A map is built again from its entries. -/
theorem ofList_toList (m : Keyed key) : ofList m.toList = m :=
  ext (items_foldl_insert (m := empty) nofun m.ordered)

/-- Membership of a key after entries with any keys are put in a map. -/
theorem contains_ofList [DecidableEq κ] {xs : List α} {k : κ} :
    (ofList xs : Keyed key).contains k = true ↔ ∃ a ∈ xs, key a = k := by
  suffices h : ∀ m : Keyed key, (xs.foldl insert m).contains k = true ↔
      (∃ a ∈ xs, key a = k) ∨ m.contains k = true by
    rw [ofList, h]
    simp [contains, empty]
  induction xs with
  | nil => simp
  | cons a rest ih =>
    intro m
    rw [List.foldl_cons, ih]
    have hi : (m.insert a).contains k = true ↔ key a = k ∨ m.contains k = true := by
      rw [contains_eq_isSome, contains_eq_isSome, get?_insert]
      split <;> simp_all
    rw [hi]
    simp only [List.mem_cons, exists_eq_or_imp]
    rw [or_left_comm, or_assoc]

end SnapshotTable.Keyed
