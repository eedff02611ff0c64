import SnapshotStore.Decimal.Digits

/-! Lengths of time in whole nanoseconds. The longest one is a nanosecond
short of 2^64 seconds. -/
namespace SnapshotStore

/-- A length of time. -/
structure Duration where
  nanos : Nat
  nanos_lt : nanos < UInt64.size * 1000000000
deriving DecidableEq

namespace Duration

def zero : Duration :=
  ⟨0, by decide⟩

instance : Inhabited Duration :=
  ⟨zero⟩

/-- The longest duration. -/
def max : Duration :=
  ⟨UInt64.size * 1000000000 - 1, by decide⟩

/-- A number of nanoseconds, cut at the longest duration. -/
def ofNanos (n : Nat) : Duration :=
  ⟨min n max.nanos, Nat.lt_of_le_of_lt (Nat.min_le_right ..) max.nanos_lt⟩

def ofMillis (n : Nat) : Duration :=
  ofNanos (n * 1000000)

/-- A number of ticks of the host, of which twenty make a second. -/
def ofTicks (n : Nat) : Duration :=
  ofMillis (n * 50)

def isZero (d : Duration) : Bool :=
  d.nanos = 0

/-- Seconds and nine places. -/
def text (d : Duration) : String :=
  String.ofList <|
    Decimal.digits (d.nanos / 1000000000) ++ '.' :: Decimal.padded 9 (d.nanos % 1000000000)

end Duration

end SnapshotStore
