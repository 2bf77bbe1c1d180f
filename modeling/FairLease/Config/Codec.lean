import FairLease.Config.Basic
import FairLease.Json.Record
import FairLease.Store.Codec

/-!
# JSON form of a configuration

A configuration is a record in which every field has a default.
-/

namespace FairLease

open Json

def ManagerKind.ofJson? (j : Json) : Option ManagerKind :=
  bareTag j >>= ManagerKind.ofName?

def StoreKind.ofJson? (j : Json) : Option StoreKind :=
  bareTag j >>= StoreKind.ofName?

namespace NodeConfig

def fieldNames : List String :=
  ["iface", "mask", "hostname", "ipmanager", "store_backend", "etcd_endpoints",
    "request_timeout_ms", "ttl_ms", "renew_interval_ms", "prefix", "cidrs"]

def toJson (c : NodeConfig) : Json :=
  object [("iface", string c.iface), ("mask", ofNat c.mask),
    ("hostname", ofText? c.hostname), ("ipmanager", string c.manager.name),
    ("store_backend", string c.store.name),
    ("etcd_endpoints", array (c.endpoints.map string)),
    ("request_timeout_ms", ofNat c.requestTimeoutMs), ("ttl_ms", ofNat c.ttlMs),
    ("renew_interval_ms", ofNat c.renewIntervalMs), ("prefix", string c.root),
    ("cidrs", array (c.cidrs.map string))]

def ofJson? (j : Json) : Option NodeConfig := do
  let d := NodeConfig.default
  match ← cells (fieldNames.map fieldWithDefault) j with
  | [iface, mask, hostname, manager, store, endpoints, requestTimeoutMs, ttlMs,
      renewIntervalMs, root, cidrs] =>
      return { iface := ← withDefault d.iface string? iface
               mask := ← withDefault d.mask (unsigned? 8) mask
               hostname := ← optional string? hostname
               manager := ← withDefault d.manager ManagerKind.ofJson? manager
               store := ← withDefault d.store StoreKind.ofJson? store
               endpoints := ← withDefault d.endpoints (listOf string?) endpoints
               requestTimeoutMs := ← withDefault d.requestTimeoutMs
                 (unsigned? 64) requestTimeoutMs
               ttlMs := ← withDefault d.ttlMs (unsigned? 64) ttlMs
               renewIntervalMs := ← withDefault d.renewIntervalMs (unsigned? 64)
                 renewIntervalMs
               root := ← withDefault d.root string? root
               cidrs := ← withDefault d.cidrs (listOf string?) cidrs }
  | _ => none

end NodeConfig
end FairLease
