import FairLease.Lease.Backoff
import Mathlib.Data.List.DropRight

/-!
# Growing delays

After a number of failures in a row the delay is the initial one doubled as
often, or the limit, with up to half of it added. It is zero only if it was zero
from the beginning.
-/

namespace FairLease

theorem Duration.millis_lt (d : Duration) : d.millis < wordSize 64 :=
  Nat.mod_lt _ (by decide)

namespace Backoff

/-!
# Failures in a row

The state of the delays is determined by the settings and the number of
failures since the last success.
-/

def limit (initial max : Duration) : Nat :=
  Nat.max max.millis initial.millis

def doubled (initial : Duration) (n : Nat) : Nat :=
  initial.millis * Nat.pow 2 n

/-- The delays have grown with `n` failures since they were made or reset. -/
structure HasGrown (initial max : Duration) (n : Nat) (b : Backoff) : Prop where
  initialMs : b.initialMs = initial.millis
  maxMs : b.maxMs = limit initial max
  currentMs : b.currentMs = min (doubled initial n) (limit initial max)

section

variable {initial max : Duration} {n : Nat} {b : Backoff}

theorem doubled_zero (initial : Duration) :
    doubled initial 0 = initial.millis :=
  Nat.mul_one initial.millis

theorem doubled_succ (initial : Duration) (n : Nat) :
    doubled initial (n + 1) = 2 * doubled initial n := by
  show initial.millis * (Nat.pow 2 n * 2) = _
  rw [← Nat.mul_assoc, Nat.mul_comm, doubled]

theorem doubled_pos_iff (initial : Duration) (n : Nat) :
    0 < doubled initial n <-> 0 < initial.millis :=
  Nat.mul_pos_iff_of_pos_right (Nat.two_pow_pos n)

theorem millis_le_limit (initial max : Duration) :
    initial.millis ≤ limit initial max :=
  Nat.le_max_right _ _

theorem limit_le_maxDelay (initial max : Duration) :
    limit initial max ≤ maxDelay := by
  have hinitial := initial.millis_lt
  have hmax := max.millis_lt
  have hlast : maxDelay + 1 = wordSize 64 := by decide
  rw [limit, Nat.max_le]
  omega

theorem hasGrown_new (initial max : Duration) :
    (new initial max).HasGrown initial max 0 where
  initialMs := rfl
  maxMs := rfl
  currentMs := by
    rw [doubled_zero, Nat.min_eq_left (millis_le_limit initial max)]
    rfl

theorem HasGrown.currentMs_le_maxDelay (h : b.HasGrown initial max n) :
    b.currentMs ≤ maxDelay := by
  rw [h.currentMs]
  exact Nat.le_trans (Nat.min_le_right _ _) (limit_le_maxDelay initial max)

/-- The largest number of 64 bits is not below the limit, so that staying there
changes nothing. -/
theorem HasGrown.next (h : b.HasGrown initial max n) (seed : Nat) :
    (b.next seed).2.HasGrown initial max (n + 1) where
  initialMs := h.initialMs
  maxMs := h.maxMs
  currentMs := by
    have hlimit := limit_le_maxDelay initial max
    show min (min (2 * b.currentMs) maxDelay) b.maxMs = _
    rw [h.currentMs, h.maxMs, doubled_succ]
    omega

theorem HasGrown.reset (h : b.HasGrown initial max n) :
    b.reset.HasGrown initial max 0 where
  initialMs := h.initialMs
  maxMs := h.maxMs
  currentMs := by
    rw [doubled_zero, Nat.min_eq_left (millis_le_limit initial max)]
    exact h.initialMs

/-!
# Delays of no length
-/

theorem delay_pos_iff (b : Backoff) (seed : Nat) :
    0 < b.delay seed <-> 0 < b.currentMs := by
  have hlast : 0 < maxDelay := by decide
  rw [delay]
  constructor
  · intro h
    rcases Nat.eq_zero_or_pos b.currentMs with hzero | hpos
    · rw [hzero, Nat.zero_div, Nat.zero_add, Nat.zero_add, Nat.mod_one] at h
      omega
    · exact hpos
  · omega

theorem HasGrown.currentMs_pos_iff (h : b.HasGrown initial max n) :
    0 < b.currentMs <-> 0 < initial.millis := by
  have hlimit := millis_le_limit initial max
  rw [h.currentMs, Nat.lt_min, doubled_pos_iff]
  omega

theorem HasGrown.delay_pos_iff (h : b.HasGrown initial max n) (seed : Nat) :
    0 < b.delay seed <-> 0 < initial.millis :=
  (b.delay_pos_iff seed).trans h.currentMs_pos_iff

end

/-!
# The range of a delay

The divisor is above zero and the remainder below it, so the seed adds at most
half of the delay. All of that range is reached, up to the largest number.
-/

def longest (b : Backoff) : Nat :=
  min (b.currentMs + b.currentMs / 2) maxDelay

section

variable {b : Backoff} {seed d : Nat}

theorem currentMs_le_delay (h : b.currentMs ≤ maxDelay) :
    b.currentMs ≤ b.delay seed :=
  Nat.le_min.mpr ⟨Nat.le_add_right _ _, h⟩

theorem delay_le_longest (b : Backoff) (seed : Nat) :
    b.delay seed ≤ b.longest := by
  have hadded : seed % (b.currentMs / 2 + 1) < b.currentMs / 2 + 1 :=
    Nat.mod_lt _ (Nat.succ_pos _)
  rw [delay, longest]
  omega

theorem delay_eq_of_le
    (h : b.currentMs + seed % (b.currentMs / 2 + 1) ≤ maxDelay) :
    b.delay seed = b.currentMs + seed % (b.currentMs / 2 + 1) :=
  Nat.min_eq_left h

theorem delay_eq_maxDelay
    (h : maxDelay ≤ b.currentMs + seed % (b.currentMs / 2 + 1)) :
    b.delay seed = maxDelay :=
  Nat.min_eq_right h

/-- The seed is what the delay has in addition. -/
theorem delay_sub_currentMs (hshort : b.currentMs ≤ d) (hlong : d ≤ b.longest) :
    b.delay (d - b.currentMs) = d := by
  have hbounds : d ≤ b.currentMs + b.currentMs / 2 ∧ d ≤ maxDelay :=
    Nat.le_min.mp hlong
  have hadded : (d - b.currentMs) % (b.currentMs / 2 + 1) = d - b.currentMs :=
    Nat.mod_eq_of_lt (by omega)
  have hsum : b.currentMs + (d - b.currentMs) = d := Nat.add_sub_of_le hshort
  rw [delay, hadded, hsum]
  exact Nat.min_eq_left hbounds.right

theorem exists_delay_eq_iff (h : b.currentMs ≤ maxDelay) :
    (exists seed, seed < wordSize 64 ∧ b.delay seed = d) <->
      b.currentMs ≤ d ∧ d ≤ b.longest := by
  constructor
  · rintro ⟨seed, _, rfl⟩
    exact ⟨currentMs_le_delay h, delay_le_longest b seed⟩
  · rintro ⟨hshort, hlong⟩
    have hlast : maxDelay < wordSize 64 := by decide
    have hd : d ≤ maxDelay := (Nat.le_min.mp hlong).right
    exact ⟨d - b.currentMs, by omega, delay_sub_currentMs hshort hlong⟩

end

/-!
# Calls in any order
-/

inductive Call where
  | next (seed : Nat)
  | reset

def Call.isNext : Call -> Bool
  | .next _ => true
  | .reset => false

def apply (b : Backoff) : Call -> Backoff
  | .next seed => (b.next seed).2
  | .reset => b.reset

def after (initial max : Duration) (calls : List Call) : Backoff :=
  calls.foldl apply (new initial max)

/-- How many calls for a delay there were since the last reset, or since the
beginning. -/
def inARow (calls : List Call) : Nat :=
  (calls.rtakeWhile Call.isNext).length

section

variable (initial max : Duration) (calls : List Call)

theorem after_concat (call : Call) :
    after initial max (calls ++ [call]) =
      (after initial max calls).apply call :=
  List.foldl_concat ..

theorem inARow_concat_next (seed : Nat) :
    inARow (calls ++ [.next seed]) = inARow calls + 1 := by
  rw [inARow, List.rtakeWhile_concat_pos _ _ _ rfl, List.length_append]
  rfl

theorem inARow_concat_reset : inARow (calls ++ [.reset]) = 0 := by
  rw [inARow, List.rtakeWhile_concat_neg _ _ _ Bool.false_ne_true]
  rfl

theorem hasGrown_after :
    (after initial max calls).HasGrown initial max (inARow calls) := by
  induction calls using List.reverseRecOn with
  | nil => exact hasGrown_new initial max
  | append_singleton calls call ih =>
      rw [after_concat]
      cases call with
      | next seed =>
          rw [inARow_concat_next]
          exact ih.next seed
      | reset =>
          rw [inARow_concat_reset]
          exact ih.reset

end

/-- After any calls the state, its delays and the numbers they are computed from
are given by the number of calls since the last reset. -/
theorem delays_have_closed_form (initial max : Duration) (calls : List Call) :
    let b := after initial max calls
    b.currentMs =
      min (initial.millis * Nat.pow 2 (inARow calls))
        (Nat.max initial.millis max.millis) ∧
    (forall seed, b.currentMs ≤ (b.next seed).1 ∧
      (b.next seed).1 ≤ b.currentMs + b.currentMs / 2 ∧
      (b.next seed).1 ≤ wordSize 64 - 1 ∧
      (b.currentMs + seed % (b.currentMs / 2 + 1) ≤ wordSize 64 - 1 ->
        (b.next seed).1 = b.currentMs + seed % (b.currentMs / 2 + 1)) ∧
      (wordSize 64 - 1 ≤ b.currentMs + seed % (b.currentMs / 2 + 1) ->
        (b.next seed).1 = wordSize 64 - 1)) ∧
    (forall d, b.currentMs ≤ d -> d ≤ b.currentMs + b.currentMs / 2 ->
      d ≤ wordSize 64 - 1 ->
      exists seed, seed < wordSize 64 ∧ (b.next seed).1 = d) ∧
    (0 < b.currentMs / 2 + 1 ∧ b.currentMs / 2 + 1 < wordSize 64 ∧
      b.initialMs < wordSize 64 ∧ b.maxMs < wordSize 64 ∧
        b.currentMs < wordSize 64) := by
  intro b
  have hgrown : b.HasGrown initial max (inARow calls) :=
    hasGrown_after initial max calls
  have hcurrent : b.currentMs ≤ maxDelay := hgrown.currentMs_le_maxDelay
  have hlast : maxDelay + 1 = wordSize 64 := by decide
  refine ⟨?_, fun seed => ?_, fun d hshort hlong hlargest => ?_, ?_⟩
  · rw [hgrown.currentMs]
    exact congrArg (min _) (Nat.max_comm max.millis initial.millis)
  · have hlong := Nat.le_min.mp (delay_le_longest b seed)
    exact ⟨currentMs_le_delay hcurrent, hlong.left, hlong.right, delay_eq_of_le,
      delay_eq_maxDelay⟩
  · exact (exists_delay_eq_iff hcurrent).mpr ⟨hshort,
      Nat.le_min.mpr ⟨hlong, hlargest⟩⟩
  · have hinitial : b.initialMs < wordSize 64 :=
      hgrown.initialMs ▸ initial.millis_lt
    have hmax : b.maxMs ≤ maxDelay :=
      hgrown.maxMs ▸ limit_le_maxDelay initial max
    have hone : 2 < wordSize 64 := by decide
    omega

example :
    (after (.ofMillis maxDelay) (.ofMillis 0) [.next 0, .next 5, .reset,
      .next 7]).next 1 =
    (maxDelay, ⟨maxDelay, maxDelay, maxDelay⟩) := by
  decide

end Backoff
end FairLease
