import FairLease.Claim.Key
import FairLease.Claim.Settings

/-!
# Node configuration

What a node needs to know: which addresses it serves and under which name, how
claims are decided on, and where they are kept.
-/

namespace FairLease

inductive ManagerKind where
  /-- Every claim is granted without coordination. -/
  | noop
  | fair
  deriving DecidableEq, Repr

inductive StoreKind where
  | etcd
  | memory
  deriving DecidableEq, Repr

structure NodeConfig where
  iface : String
  /-- The mask of the addresses that are given without one. -/
  mask : Nat
  hostname : Option String
  manager : ManagerKind
  store : StoreKind
  endpoints : List String
  requestTimeoutMs : Nat
  ttlMs : Nat
  renewIntervalMs : Nat
  root : String
  cidrs : List String
  deriving DecidableEq, Repr

namespace ManagerKind

def name : ManagerKind -> String
  | noop => "noop"
  | fair => "fair"

def ofName? (name : String) : Option ManagerKind :=
  [noop, fair].find? (fun kind => kind.name == name)

end ManagerKind

namespace StoreKind

def name : StoreKind -> String
  | etcd => "etcd"
  | memory => "memory"

def ofName? (name : String) : Option StoreKind :=
  [etcd, memory].find? (fun kind => kind.name == name)

end StoreKind

namespace NodeConfig

def default : NodeConfig :=
  { iface := "eth0", mask := 32, hostname := none, manager := .noop, store := .etcd
    endpoints := [], requestTimeoutMs := 5000, ttlMs := 10000,
    renewIntervalMs := 3000
    root := ClaimSettings.defaultRoot, cidrs := [] }

def settings (c : NodeConfig) : ClaimSettings :=
  { ClaimSettings.default with
    root := c.root
    ttl := .ofMillis c.ttlMs
    renewInterval := .ofMillis c.renewIntervalMs }

/-- An address with the mask, unless it has one of its own. -/
def withMask (mask : Nat) (cidr : String) : String :=
  if cidr.toList.contains '/' then cidr else cidr ++ "/" ++ toString mask

def served (c : NodeConfig) : List String :=
  c.cidrs.map (withMask c.mask)

/-- The name under which a node claims, which is that of its machine by
default. -/
def uid (machine : String) (c : NodeConfig) : String :=
  c.hostname.getD machine

end NodeConfig
end FairLease
