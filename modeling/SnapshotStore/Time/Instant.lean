import SnapshotStore.Time.Duration

/-! Points on a clock that never goes back. A clock counts fewer than 2^63
seconds, so a point may lie too far ahead to have a reading. -/
namespace SnapshotStore

/-- A reading of the clock, in nanoseconds since its origin. -/
structure Instant where
  nanos : Nat
  nanos_lt : nanos < UInt64.size / 2 * 1000000000
deriving DecidableEq

namespace Instant

instance : Inhabited Instant :=
  ⟨0, by decide⟩

/-- A reading, if the clock can show it. -/
def ofNanos? (n : Nat) : Option Instant :=
  if h : n < UInt64.size / 2 * 1000000000 then some ⟨n, h⟩ else none

/-- The instant after a duration, if the clock can show it. -/
def add? (t : Instant) (d : Duration) : Option Instant :=
  ofNanos? (t.nanos + d.nanos)

/-- The time from an earlier instant; zero if that one is not earlier. -/
def since (t earlier : Instant) : Duration :=
  ⟨t.nanos - earlier.nanos, by have := t.nanos_lt; omega⟩

end Instant

end SnapshotStore
