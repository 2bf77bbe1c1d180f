import FairLease.Duration

/-!
# Tickers

A ticker is due once in every period. The clock behind it has a resolution of a
millisecond, so that a tick in between comes at the next whole one. A ticker
that is asked too late either starts its period anew or skips to the next
regular tick.
-/

namespace FairLease

/-- The next whole millisecond, in nanoseconds. -/
def ceilMillis (nanos : Nat) : Nat :=
  (nanos + 999999) / 1000000 * 1000000

structure Ticker where
  /-- When the next tick is due, in nanoseconds. -/
  due : Nat
  period : Nat
  deriving DecidableEq, Repr

namespace Ticker

/-- A ticker whose first tick comes after one period. -/
def startAfter (now : Nat) (period : Duration) : Ticker :=
  ⟨now + period.nanos, period.nanos⟩

/-- A ticker whose first tick comes at once. -/
def startAt (now : Nat) (period : Duration) : Ticker :=
  ⟨now, period.nanos⟩

def alarm (t : Ticker) : Nat :=
  ceilMillis t.due

def isDue (t : Ticker) (now : Nat) : Bool :=
  decide (t.alarm ≤ now)

/-- A tick taken later than this is late. -/
def tolerance : Nat :=
  5000000

def isLate (t : Ticker) (now : Nat) : Bool :=
  decide (t.due + tolerance < now)

/-- Take a tick. After a late one the period starts anew. -/
def delay (t : Ticker) (now : Nat) : Ticker :=
  { t with due := if t.isLate now then now + t.period else t.due + t.period }

/-- Take a tick. After a late one the ticks that were missed are left out. -/
def skip (t : Ticker) (now : Nat) : Ticker :=
  { t with
    due := if t.isLate now then now + t.period - (now - t.due) % t.period
      else t.due + t.period }

end Ticker
end FairLease
