import FairLease.Duration

/-!
# Retry delays

The delay before the next attempt doubles with every failure up to a limit, and
goes back to its initial value after a success. Up to half of it is added at
random, so that clients do not all come back at once. Everything is counted in
milliseconds of 64 bits and stays at the largest value.
-/

namespace FairLease

structure Backoff where
  initialMs : Nat
  maxMs : Nat
  currentMs : Nat
  deriving DecidableEq, Repr

namespace Backoff

/-- A limit below the initial delay is raised to it. -/
def new (initial max : Duration) : Backoff :=
  { initialMs := initial.millis, maxMs := Nat.max max.millis initial.millis
    currentMs := initial.millis }

def maxDelay : Nat :=
  wordSize 64 - 1

def delay (b : Backoff) (seed : Nat) : Nat :=
  min (b.currentMs + seed % (b.currentMs / 2 + 1)) maxDelay

def next (b : Backoff) (seed : Nat) : Nat × Backoff :=
  (b.delay seed, { b with currentMs := min (min (2 * b.currentMs) maxDelay) b.maxMs })

def reset (b : Backoff) : Backoff :=
  { b with currentMs := b.initialMs }

end Backoff
end FairLease
