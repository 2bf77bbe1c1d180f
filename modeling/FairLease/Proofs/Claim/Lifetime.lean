import FairLease.Claim.Manager

/-!
# Lifetimes and their renewal

Settings are checked for a renewal that comes before the end of the lifetime.
The store is told the lifetime in milliseconds of 64 bits, which may be less.
-/

namespace FairLease

/-!
# Counted time

A length of time is what is counted of it and what is left out.
-/

namespace Duration

/-- What milliseconds of 64 bits leave out: the part of a millisecond at the
end, and every full turn of the counter. -/
def uncounted (d : Duration) : Nat :=
  d.nanos % 1000000 + d.nanos / 1000000 / wordSize 64 * wordSize 64 * 1000000

theorem millis_add_uncounted (d : Duration) :
    (ofMillis d.millis).nanos + d.uncounted = d.nanos := by
  have hsplit (n part turn : Nat) :
      n / part % turn * part + (n % part + n / part / turn * turn * part) =
        n := by
    have hturns := Nat.mod_add_div' (n / part) turn
    have hparts := Nat.div_add_mod' n part
    calc n / part % turn * part + (n % part + n / part / turn * turn * part)
        = (n / part % turn + n / part / turn * turn) * part + n % part := by
          rw [Nat.add_mul]
          omega
      _ = n := by rw [hturns, hparts]
  exact hsplit d.nanos 1000000 (wordSize 64)

theorem uncounted_ofMillis {ms : Nat} (h : ms < wordSize 64) :
    (ofMillis ms).uncounted = 0 := by
  rw [uncounted, ofMillis, Nat.mul_mod_left, Nat.mul_div_cancel _ (by decide),
    Nat.div_eq_of_lt h, Nat.zero_mul, Nat.zero_mul]

end Duration

/-!
# Valid settings
-/

theorem ite_some_eq_none_iff {α : Type} {p : Prop} [Decidable p] {x : α}
    {rest : Option α} :
    (if p then some x else rest) = none <-> ¬ p ∧ rest = none := by
  by_cases hp : p <;> simp [hp]

theorem Duration.isZero_eq_false_iff (d : Duration) :
    d.isZero = false <-> 0 < d.nanos := by
  rw [isZero, beq_eq_false_iff_ne, Nat.pos_iff_ne_zero]

namespace ClaimSettings

structure IsValid (s : ClaimSettings) : Prop where
  root : s.root.toList.getLast? = some '/'
  ttl : 0 < s.ttlMs
  renewInterval : 0 < s.renewInterval.nanos
  inTime : s.renewInterval.nanos < s.ttl.nanos
  retryBackoff : 0 < s.retryBackoff.nanos
  retryBackoffMax : 0 < s.retryBackoffMax.nanos
  pageSize : 0 < s.pageSize

theorem defect?_eq_none_iff (s : ClaimSettings) :
    s.defect? = none <-> s.IsValid := by
  simp only [defect?, ite_some_eq_none_iff, Bool.not_eq_true,
    Bool.or_eq_false_iff, Duration.isZero_eq_false_iff, Nat.not_le,
    Nat.pos_iff_ne_zero.symm, ne_eq, Decidable.not_not, and_true]
  constructor
  · rintro ⟨hroot, httl, hinterval, htime, ⟨hbackoff, hmax⟩, hpage⟩
    exact ⟨hroot, httl, hinterval, htime, hbackoff, hmax, hpage⟩
  · intro h
    exact ⟨h.root, h.ttl, h.renewInterval, h.inTime,
      ⟨h.retryBackoff, h.retryBackoffMax⟩, h.pageSize⟩

theorem validate_eq_ok_iff (s : ClaimSettings) :
    s.validate = .ok () <-> s.IsValid := by
  rw [← defect?_eq_none_iff, validate]
  cases s.defect? with
  | none => simp
  | some defect => simp

/-!
# Renewals in time

A claim lives from each write for the lifetime that the write gives it, and the
next write is due one interval later.
-/

def lifetime (s : ClaimSettings) : Duration :=
  .ofMillis s.ttlMs

theorem lifetime_add_uncounted (s : ClaimSettings) :
    s.lifetime.nanos + s.ttl.uncounted = s.ttl.nanos :=
  s.ttl.millis_add_uncounted

/-- (1) The interval of valid settings is not zero. (2) It is shorter than the
lifetime that the store is told if and only if the lifetime of the settings is
longer by more than what is not counted of it. (3) So it is for lifetimes of
whole milliseconds that fit 64 bits. (4) The settings make a manager, and the
lifetime that the store is told is in the command that creates a claim and in
those that renew it, the first of which is due one interval after the grant. -/
theorem renews_before_lapse_iff {s : ClaimSettings}
    (hvalid : s.validate = .ok ()) :
    0 < s.renewInterval.nanos ∧
    (s.renewInterval.nanos < s.lifetime.nanos <->
      s.renewInterval.nanos + s.ttl.uncounted < s.ttl.nanos) ∧
    ((exists ms, ms < wordSize 64 ∧ s.ttl = .ofMillis ms) ->
      s.renewInterval.nanos < s.lifetime.nanos) ∧
    exists m, Manager.new s = .ok m ∧ forall (a : Admission) (now : Nat),
      (a.command m.settings).ttlMs? = some s.ttlMs ∧
      (Renewal.start now (m.lease a)).command.ttlMs? = some s.ttlMs ∧
      (Renewal.start now (m.lease a)).ticker =
        ⟨now + s.renewInterval.nanos, s.renewInterval.nanos⟩ := by
  have hchecked := s.validate_eq_ok_iff.mp hvalid
  have hlifetime := s.lifetime_add_uncounted
  refine ⟨hchecked.renewInterval, ?_, ?_, ?_⟩
  · omega
  · rintro ⟨ms, hms, httl⟩
    have hcounted : s.ttl.uncounted = 0 := by
      rw [httl, Duration.uncounted_ofMillis hms]
    have htime := hchecked.inTime
    omega
  · refine ⟨⟨s, false, .empty⟩, ?_, fun a now => ⟨rfl, rfl, rfl⟩⟩
    rw [Manager.new, hvalid]
    rfl

/-- Half a millisecond is not counted of this lifetime, and the interval leaves
more than that. -/
def fractional : ClaimSettings :=
  { ClaimSettings.default with ttl := ⟨1500000⟩, renewInterval := ⟨900000⟩ }

theorem renews_before_lapse_iff_fractional :
    fractional.validate = .ok () ∧ fractional.ttl.uncounted = 500000 ∧
      fractional.renewInterval.nanos < fractional.lifetime.nanos := by
  have hvalid : fractional.validate = .ok () := rfl
  rcases renews_before_lapse_iff hvalid with ⟨_, hiff, _⟩
  exact ⟨hvalid, by decide, hiff.mpr (by decide)⟩

/-- One second is shorter than this lifetime, of which the store is told one
millisecond. -/
def overlong : ClaimSettings :=
  { ClaimSettings.default with ttl := .ofMillis (wordSize 64 + 1), renewInterval := .ofSeconds 1 }

def overrunning : ClaimSettings :=
  { fractional with renewInterval := ⟨1200000⟩ }

theorem lapses_before_renewal :
    (overrunning.validate = .ok () ∧ overrunning.ttlMs = 1 ∧
      overrunning.lifetime.nanos < overrunning.renewInterval.nanos) ∧
    (overlong.validate = .ok () ∧ overlong.ttlMs = 1 ∧
      overlong.lifetime.nanos < overlong.renewInterval.nanos) :=
  ⟨⟨rfl, by decide, by decide⟩, rfl, by decide, by decide⟩

end ClaimSettings
end FairLease
