/-! Points in time with nanosecond precision, and clocks. A leap second is the second before it with
its nanoseconds counted on from 10^9. -/

namespace SnapshotTable

structure Instant where
  second : Int
  nano : Nat
  deriving DecidableEq, Repr, Inhabited

namespace Instant

def nanosPerSecond : Nat := 1000000000

def nanosPerMilli : Nat := 1000000

def ofNanos (n : Int) : Instant := ⟨n / nanosPerSecond, (n % nanosPerSecond).toNat⟩

def isLeap (t : Instant) : Bool := nanosPerSecond ≤ t.nano

def before (a b : Instant) : Bool :=
  a.second < b.second || (a.second == b.second && a.nano < b.nano)

def latest (a b : Instant) : Instant := if a.before b then b else a

/-- The instant `nanos` later. Time spent inside a leap second stays in it; time that leads out of
one counts from the second before it. -/
def advance (t : Instant) (nanos : Nat) : Instant :=
  let carried (nano : Nat) : Instant :=
    let total := nano + nanos
    ⟨t.second + (total / nanosPerSecond : Nat), total % nanosPerSecond⟩
  if t.isLeap then
    if t.nano + nanos < 2 * nanosPerSecond then ⟨t.second, t.nano + nanos⟩
    else carried (t.nano - nanosPerSecond)
  else carried t.nano

def millis (t : Instant) : Int := t.second * 1000 + (t.nano / nanosPerMilli : Nat)

end Instant

/-- A clock as the sequence of its readings, in nanoseconds since 1970-01-01T00:00:00Z. Readings may
stand still or go backwards. -/
structure Clock where
  reading : Nat → Int

def Clock.now (clock : Clock) : Instant := Instant.ofNanos (clock.reading 0)

def Clock.tick (clock : Clock) : Clock := ⟨fun n => clock.reading (n + 1)⟩

def Clock.still (nanos : Int) : Clock := ⟨fun _ => nanos⟩

end SnapshotTable
