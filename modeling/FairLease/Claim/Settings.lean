import FairLease.Claim.Error
import FairLease.Duration

/-!
# Settings of a claim manager

Where claims are kept, how long one lives without being renewed, how often it
is renewed, how long to wait before a broken watch is tried again, and how many
claims are listed at a time.
-/

namespace FairLease

structure ClaimSettings where
  root : String
  ttl : Duration
  renewInterval : Duration
  retryBackoff : Duration
  retryBackoffMax : Duration
  pageSize : Nat
  deriving DecidableEq, Repr

namespace ClaimSettings

def defaultRoot : String :=
  "/ipclaim/"

def default : ClaimSettings :=
  { root := defaultRoot, ttl := .ofSeconds 10, renewInterval := .ofSeconds 3
    retryBackoff := .ofMillis 500, retryBackoffMax := .ofSeconds 10,
    pageSize := 1000 }

def ttlMs (s : ClaimSettings) : Nat :=
  s.ttl.millis

def defect? (s : ClaimSettings) : Option SettingsDefect :=
  if s.root.toList.getLast? ≠ some '/' then some .openNamespace
  else if s.ttlMs = 0 then some .zeroTtl
  else if s.renewInterval.isZero then some .zeroRenewal
  else if s.ttl.nanos ≤ s.renewInterval.nanos then some .lateRenewal
  else if s.retryBackoff.isZero || s.retryBackoffMax.isZero then
    some .zeroBackoff
  else if s.pageSize = 0 then some .zeroPage
  else none

def validate (s : ClaimSettings) : Except ClaimError Unit :=
  match s.defect? with
  | some defect => .error (.invalidSettings defect)
  | none => .ok ()

end ClaimSettings
end FairLease
