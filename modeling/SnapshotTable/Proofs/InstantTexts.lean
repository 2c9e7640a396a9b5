import SnapshotTable.Proofs.CalendarDates
import SnapshotTable.Proofs.Numerals
import SnapshotTable.Time.Text

/-! Instants in documents. The text of an instant with a year of four digits is read part by part: each numeral
has its width, the fraction is as long as it needs to be, and the date is one of the calendar. So the instant is
read back to the nanosecond. -/

namespace SnapshotTable

namespace Text

private theorem isBlank_of_isDigit {c : Char} (h : c.isDigit = true) : isBlank c = false := by
  rw [Char.isDigit, Bool.and_eq_true, decide_eq_true_eq, decide_eq_true_eq] at h
  have hlow : 48 ≤ c.toNat := h.1
  have hhigh : c.toNat ≤ 57 := h.2
  simp only [isBlank, blankCodes, List.contains_eq_mem, List.mem_cons, List.not_mem_nil, or_false,
    decide_eq_false_iff_not]
  omega

private theorem trimStart_cons {c : Char} (h : isBlank c = false) (cs : List Char) :
    trimStart (c :: cs) = c :: cs :=
  List.dropWhile_cons_of_neg (by simp [h])

end Text

namespace Time
open Text Text.Decimal

private theorem head?_padded {width n : Nat} (hwidth : 0 < width) (h : n < 10 ^ width) :
    ∃ c tail, padded width n = c :: tail ∧ c.isDigit = true := by
  cases hcs : padded width n with
  | nil =>
    have hlen := length_padded hwidth h
    rw [hcs, List.length_nil] at hlen
    omega
  | cons c tail => exact ⟨c, tail, rfl, isDigit_of_mem_padded (hcs ▸ List.mem_cons_self)⟩

private theorem number?_padded {width n : Nat} (hwidth : 0 < width) (h : n < 10 ^ width)
    (rest : List Char) :
    number? width (padded width n ++ rest) = some (n, rest) := by
  obtain ⟨c, tail, hcs, hdigit⟩ := head?_padded hwidth h
  have hread := leading?_padded hwidth h rest
  rw [hcs, List.cons_append] at hread ⊢
  rw [number?, trimStart_cons (isBlank_of_isDigit hdigit), hread]

private theorem number?_pair {n : Nat} (h : n < 100) (rest : List Char) :
    number? 2 (padded 2 n ++ rest) = some (n, rest) := number?_padded (by decide) h rest

private theorem literal?_cons {c : Char} (h : isBlank c = false) (rest : List Char) :
    literal? c (c :: rest) = some rest := by
  rw [literal?, trimStart_cons h]
  exact if_pos rfl

private theorem year?_yearText {year : Int} (h : 0 ≤ year ∧ year ≤ 9999) (rest : List Char) :
    year? (yearText year ++ rest) = some (year, rest) := by
  have hsmall : year.toNat < 10 ^ 4 := by omega
  obtain ⟨c, tail, hcs, hdigit⟩ := head?_padded (by decide) hsmall
  have hread := leading?_padded (by decide) hsmall rest
  rw [yearText, if_pos h]
  rw [hcs, List.cons_append] at hread ⊢
  rw [year?, trimStart_cons (isBlank_of_isDigit hdigit)]
  split
  · rename_i heq
    cases heq
    exact absurd hdigit (by decide)
  · rename_i heq
    cases heq
    exact absurd hdigit (by decide)
  · rw [hread, Option.map_some]
    dsimp only
    rw [Int.toNat_of_nonneg h.1]

private theorem fraction?_padded {width n : Nat} (hwidth : 0 < width) (hmax : width ≤ 9)
    (h : n < 10 ^ width) {rest : List Char} (hrest : Stops Char.isDigit rest) :
    fraction? ('.' :: padded width n ++ rest) = some (n * 10 ^ (9 - width), rest) := by
  have hlen := length_padded hwidth h
  have hread : leading? 9 (padded width n ++ rest) = some (value (padded width n), rest) :=
    leading?_run (List.length_pos_iff.mp (by rwa [hlen])) (fun c => isDigit_of_mem_padded) (by rwa [hlen])
      (.inr hrest)
  rw [value_padded] at hread
  have hdrop : rest.dropWhile Char.isDigit = rest := by
    cases rest with
    | nil => rfl
    | cons c rest => exact List.dropWhile_cons_of_neg (by simp [hrest c rfl])
  rw [List.cons_append, fraction?, hread, Option.map_some]
  dsimp only
  rw [hdrop, List.length_append, hlen, Nat.add_sub_cancel]
  rfl

private theorem fraction?_fractionText {nano : Nat} (h : nano < Instant.nanosPerSecond)
    {rest : List Char} (hdigit : Stops Char.isDigit rest) (hpoint : rest.head? ≠ some '.') :
    fraction? (fractionText nano ++ rest) = some (nano, rest) := by
  rw [Instant.nanosPerSecond] at h
  rw [fractionText]
  split
  · rename_i hzero
    rw [List.nil_append, fraction?.eq_def, hzero]
    split
    · exact absurd rfl hpoint
    · rfl
  split
  · rename_i hmillis
    rw [fraction?_padded (by decide) (by decide) (by omega) hdigit]
    simp only [Option.some.injEq, Prod.mk.injEq, and_true]
    omega
  split
  · rename_i hmicros
    rw [fraction?_padded (by decide) (by decide) (by omega) hdigit]
    simp only [Option.some.injEq, Prod.mk.injEq, and_true]
    omega
  · rw [fraction?_padded (by decide) (by decide) (by omega) hdigit]
    simp

end Time

namespace Instant
open Time

structure Dated (t : Instant) : Prop where
  nano : t.nano < nanosPerSecond
  year : 0 ≤ (Date.ofDayNumber (t.second / secondsPerDay)).year ∧
    (Date.ofDayNumber (t.second / secondsPerDay)).year ≤ 9999

private theorem ofClock_eq {t : Instant} {second : Nat}
    (ht : t.second = t.second / secondsPerDay * secondsPerDay + second) :
    ofClock (t.second / secondsPerDay) (second / 3600) (second / 60 % 60) (second % 60) t.nano = t := by
  have hclock : ((second / 3600 * 3600 + second / 60 % 60 * 60 : Nat) : Int) + (second % 60 : Nat) = second := by
    omega
  rw [ofClock, if_neg (by omega), Int.add_assoc, hclock, ← ht]

/-- The text of a dated instant is read as that instant. -/
theorem instant?_instantText {t : Instant} (h : t.Dated) :
    instant? (instantText 'T' t ++ ['Z']) = some t := by
  have hvalid := Date.valid_ofDayNumber (t.second / secondsPerDay)
  have hnumber := Date.dayNumber_ofDayNumber (t.second / secondsPerDay)
  obtain ⟨hmonth, hday⟩ := Date.range_of_valid hvalid
  obtain ⟨hnano, hyear⟩ := h
  generalize hd : Date.ofDayNumber (t.second / secondsPerDay) = date at *
  generalize hs : (t.second % secondsPerDay).toNat = second
  have hsecond : second < 86400 ∧ t.second = t.second / secondsPerDay * secondsPerDay + second := by
    rw [secondsPerDay] at hs ⊢
    omega
  have hclock := ofClock_eq hsecond.2
  have hquotient : t.nano / nanosPerSecond = 0 := Nat.div_eq_of_lt hnano
  have hremainder : t.nano % nanosPerSecond = t.nano := Nat.mod_eq_of_lt hnano
  rw [instantText, hd, hs, timeText, dateText, hquotient, hremainder, Nat.add_zero]
  simp only [List.append_assoc, List.cons_append]
  -- The parts are read in the order in which they stand.
  rw [instant?]
  refine Option.bind_eq_some_iff.mpr ⟨_, year?_yearText hyear _, ?_⟩
  refine Option.bind_eq_some_iff.mpr ⟨_, literal?_cons (c := '-') rfl _, ?_⟩
  refine Option.bind_eq_some_iff.mpr ⟨_, number?_pair (by omega) _, ?_⟩
  refine Option.bind_eq_some_iff.mpr ⟨_, literal?_cons (c := '-') rfl _, ?_⟩
  refine Option.bind_eq_some_iff.mpr ⟨_, number?_pair (by omega) _, ?_⟩
  refine (if_pos (.inl rfl)).trans (Option.bind_eq_some_iff.mpr ⟨_, rfl, ?_⟩)
  refine Option.bind_eq_some_iff.mpr ⟨_, number?_pair (by omega) _, ?_⟩
  refine Option.bind_eq_some_iff.mpr ⟨_, literal?_cons (c := ':') rfl _, ?_⟩
  refine Option.bind_eq_some_iff.mpr ⟨_, number?_pair (by omega) _, ?_⟩
  refine Option.bind_eq_some_iff.mpr ⟨_, literal?_cons (c := ':') rfl _, ?_⟩
  refine Option.bind_eq_some_iff.mpr ⟨_, number?_pair (by omega) _, ?_⟩
  refine Option.bind_eq_some_iff.mpr ⟨_, fraction?_fractionText hnano (by rintro c ⟨⟩; rfl) (by simp), ?_⟩
  refine Option.bind_eq_some_iff.mpr ⟨(0, []), rfl, ?_⟩
  dsimp only
  have hinyears : yearInRange date.year = true := by
    simp only [yearInRange, Bool.and_eq_true, decide_eq_true_eq]
    omega
  have hchecks : ((Text.trimStart []).isEmpty && date.valid && yearInRange date.year && decide (second / 3600 < 24)
      && decide (second / 60 % 60 < 60) && decide (second % 60 ≤ 60) && decide ((0 : Int).natAbs < 86400)) = true := by
    simp only [hvalid, hinyears, Bool.and_eq_true, decide_eq_true_eq, and_true]
    refine ⟨⟨⟨⟨rfl, ?_⟩, ?_⟩, ?_⟩, by decide⟩ <;> omega
  rw [if_pos hchecks, hnumber, hclock, Int.sub_zero, hd, if_pos hinyears]

/-- A dated instant is read from the document that is written of it. -/
theorem ofText?_document {t : Instant} (h : t.Dated) : ofText? t.document = some t := by
  rw [ofText?, document, String.toList_ofList]
  exact instant?_instantText h

end Instant
end SnapshotTable
