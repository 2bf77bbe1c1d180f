import FairLease.Width

/-!
# Lengths of time

Settings give lengths of time to the nanosecond. Stores and retry delays count
whole milliseconds in 64 bits, so longer lengths wrap around.
-/

namespace FairLease

structure Duration where
  nanos : Nat
  deriving DecidableEq, Repr, Inhabited

namespace Duration

def ofMillis (ms : Nat) : Duration :=
  ⟨ms * 1000000⟩

def ofSeconds (seconds : Nat) : Duration :=
  ⟨seconds * 1000000000⟩

def ofParts (seconds nanos : Nat) : Duration :=
  ⟨seconds * 1000000000 + nanos⟩

def seconds (d : Duration) : Nat :=
  d.nanos / 1000000000

def subsecNanos (d : Duration) : Nat :=
  d.nanos % 1000000000

/-- Whole milliseconds, modulo `2 ^ 64`. -/
def millis (d : Duration) : Nat :=
  d.nanos / 1000000 % wordSize 64

def isZero (d : Duration) : Bool :=
  d.nanos == 0

end Duration
end FairLease
