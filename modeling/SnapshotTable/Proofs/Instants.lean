import SnapshotTable.Time.Instant

/-! Instants as counts of nanoseconds. Outside leap seconds an instant is its count: counts have the order of
their instants, time that is added to an instant is added to its count, and its milliseconds are the count
divided and rounded down, before 1970 as well as behind it. -/

namespace SnapshotTable.Instant

def nanos (t : Instant) : Int := t.second * nanosPerSecond + t.nano

/-- Whether the instant is its count, which it is where it lies in no leap second. -/
def Counted (t : Instant) : Prop := t = ofNanos t.nanos

variable {a b c : Instant}

private theorem before_iff :
    a.before b = true ↔ a.second < b.second ∨ a.second = b.second ∧ a.nano < b.nano := by
  simp [before]

theorem before_irrefl (a : Instant) : a.before a = false := by simp [before]

theorem before_asymm (h : a.before b = true) : b.before a = false := by
  rw [← Bool.not_eq_true]
  rw [before_iff] at h ⊢
  omega

/-- What is before an instant is before every other one that is no earlier. -/
theorem before_mono (h : a.before b = true) (hle : c.before b = false) : a.before c = true := by
  rw [← Bool.not_eq_true] at hle
  rw [before_iff] at h hle ⊢
  omega

@[simp] theorem nanos_ofNanos (n : Int) : (ofNanos n).nanos = n := by
  simp only [nanos, ofNanos, nanosPerSecond]
  omega

/-- A time that was counted in nanoseconds is counted. -/
theorem counted_ofNanos (n : Int) : (ofNanos n).Counted := by rw [Counted, nanos_ofNanos]

private theorem counted_iff : a.Counted ↔ a.isLeap = false := by
  rw [Counted, isLeap, decide_eq_false_iff_not, Nat.not_le]
  constructor
  · intro h
    rw [h, ofNanos, nanosPerSecond]
    dsimp only
    omega
  · intro h
    rw [ofNanos, nanos, mk.injEq]
    simp only [nanosPerSecond] at h ⊢
    omega

@[simp] theorem before_ofNanos (m n : Int) : (ofNanos m).before (ofNanos n) = true ↔ m < n := by
  rw [before_iff]
  simp only [ofNanos, nanosPerSecond]
  omega

/-- Counted times are in the order of their counts. -/
theorem Counted.before_iff (ha : a.Counted) (hb : b.Counted) :
    a.before b = true ↔ a.nanos < b.nanos := by
  rw [ha, hb, before_ofNanos, nanos_ofNanos, nanos_ofNanos]

/-- The later of two counts is the greater one. -/
theorem latest_ofNanos (m n : Int) : (ofNanos m).latest (ofNanos n) = ofNanos (max m n) := by
  rw [latest]
  split
  · rename_i h
    rw [Int.max_eq_right (Int.le_of_lt ((before_ofNanos m n).mp h))]
  · rename_i h
    rw [before_ofNanos, Int.not_lt] at h
    rw [Int.max_eq_left h]

/-- To advance a time is to count on. -/
theorem advance_ofNanos (m : Int) (n : Nat) : (ofNanos m).advance n = ofNanos (m + n) := by
  have hleap : (ofNanos m).isLeap = false := counted_iff.mp (counted_ofNanos m)
  rw [advance, if_neg (by simp [hleap])]
  simp only [ofNanos, nanosPerSecond, mk.injEq]
  omega

/-- The milliseconds of a counted time are its nanoseconds, rounded down. -/
theorem Counted.millis_eq (ha : a.Counted) : a.millis = a.nanos / nanosPerMilli := by
  rw [ha, nanos_ofNanos]
  simp only [millis, ofNanos, nanosPerSecond, nanosPerMilli]
  omega

end SnapshotTable.Instant
