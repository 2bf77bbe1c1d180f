import FairLease.Store.Error

/-!
# Claim errors

What can go wrong when a resource is claimed: the request makes no sense, the
store holds a key that is no claim, the settings contradict each other, the
manager has been shut down, or the store failed.
-/

namespace FairLease

inductive ClaimDefect where
  | emptyOwner
  | emptyIdentifier
  | doubledColon (cidr : String)
  | colonBesideSlash (cidr : String)
  deriving DecidableEq, Repr

def ClaimDefect.message : ClaimDefect -> String
  | emptyOwner => "uid must not be empty"
  | emptyIdentifier => "resource identifier must not be empty: ''"
  | doubledColon cidr =>
      "resource identifier must not contain '::': '" ++ cidr ++ "'"
  | colonBesideSlash cidr =>
      "resource identifier must not place ':' next to '/': '" ++ cidr ++ "'"

inductive SettingsDefect where
  | openNamespace
  | zeroTtl
  | zeroRenewal
  | lateRenewal
  | zeroBackoff
  | zeroPage
  deriving DecidableEq, Repr

def SettingsDefect.message : SettingsDefect -> String
  | openNamespace => "prefix must end with '/'"
  | zeroTtl => "ttl must be at least 1ms"
  | zeroRenewal => "renew_interval must be non-zero"
  | lateRenewal => "renew_interval must be shorter than ttl"
  | zeroBackoff => "watch retry backoff must be non-zero"
  | zeroPage => "scan_page_size must be non-zero"

inductive ClaimError where
  | invalidClaim (defect : ClaimDefect)
  | corruptedKey (key root : String)
  | invalidSettings (defect : SettingsDefect)
  | shutDown
  | storage (source : StoreError)
  deriving DecidableEq, Repr

namespace ClaimError

def kind : ClaimError -> String
  | invalidClaim _ => "InvalidClaim"
  | corruptedKey _ _ => "CorruptedKey"
  | invalidSettings _ => "InvalidConfig"
  | shutDown => "ShutDown"
  | storage _ => "Storage"

def message : ClaimError -> String
  | invalidClaim defect => "invalid claim: " ++ defect.message
  | corruptedKey key root =>
      "key '" ++ key ++ "' is outside the claim prefix '" ++ root ++ "'"
  | invalidSettings defect => "invalid configuration: " ++ defect.message
  | shutDown => "allocation manager is shut down"
  | storage source => "storage error: " ++ source.message

end ClaimError
end FairLease
