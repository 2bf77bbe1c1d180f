import FairLease.Config.Basic
import FairLease.Text.Blank
import FairLease.Text.Digits
import FairLease.Text.Split

/-!
# Layers of configuration

A configuration is put together from layers. A field of a higher layer replaces
that of a lower one unless it has its default value. The lowest layer are the
variables of the environment, in which a value that cannot be read counts as
absent.
-/

namespace FairLease

/-!
## Values in text
-/

def foldCase (text : String) : String :=
  String.ofList (text.toList.map Char.toLower)

namespace ManagerKind

def ofText? (text : String) : Option ManagerKind :=
  ofName? (foldCase text)

def textError (text : String) : String :=
  "invalid ipmanager: " ++ text ++ " (expected noop or fair)"

end ManagerKind

namespace StoreKind

/-- The store in memory goes by two names. -/
def ofText? (text : String) : Option StoreKind :=
  if foldCase text = "inmemory" then some memory else ofName? (foldCase text)

def textError (text : String) : String :=
  "invalid store backend: " ++ text ++ " (expected etcd or memory)"

end StoreKind

/-- The items of a list with commas. Blanks around an item do not count, and
neither do empty items. -/
def splitList (text : String) : List String :=
  (((Text.splitAt ',' text.toList).map Text.trimChars).filter
    (fun item => !item.isEmpty)).map String.ofList

/-!
## The environment
-/

namespace NodeConfig

def ofEnvironment (lookup : String -> Option String) : NodeConfig :=
  let read := fun {α : Type} (name : String) (parse : String ->
    Option α) (default : α) =>
    (((lookup name).map Text.trim).bind parse).getD default
  let items := fun name => ((lookup name).map splitList).getD []
  let d := NodeConfig.default
  { iface := (lookup "IPCLAIM_IFACE").getD d.iface
    mask := read "IPCLAIM_MASK" (Text.unsigned? 8) d.mask
    hostname := (lookup "IPCLAIM_HOSTNAME").filter (fun name => !name.isEmpty)
    manager := read "IPCLAIM_IPMANAGER" ManagerKind.ofText? d.manager
    store := read "IPCLAIM_STORE_BACKEND" StoreKind.ofText? d.store
    endpoints := items "IPCLAIM_ETCD_ENDPOINTS"
    requestTimeoutMs :=
      read "IPCLAIM_REQUEST_TIMEOUT_MS" (Text.unsigned? 64) d.requestTimeoutMs
    ttlMs := read "IPCLAIM_TTL_MS" (Text.unsigned? 64) d.ttlMs
    renewIntervalMs :=
      read "IPCLAIM_RENEW_INTERVAL_MS" (Text.unsigned? 64) d.renewIntervalMs
    root := (lookup "IPCLAIM_PREFIX").getD d.root
    cidrs := items "IPCLAIM_CIDRS" }

/-!
## Merging
-/

/-- The value of the upper layer, unless it is the default. -/
def override {α : Type} [DecidableEq α] (default lower upper : α) : α :=
  if upper = default then lower else upper

def merge (lower upper : NodeConfig) : NodeConfig :=
  let d := NodeConfig.default
  { iface := override d.iface lower.iface upper.iface
    mask := override d.mask lower.mask upper.mask
    hostname := override d.hostname lower.hostname upper.hostname
    manager := override d.manager lower.manager upper.manager
    store := override d.store lower.store upper.store
    endpoints := override d.endpoints lower.endpoints upper.endpoints
    requestTimeoutMs :=
      override d.requestTimeoutMs lower.requestTimeoutMs upper.requestTimeoutMs
    ttlMs := override d.ttlMs lower.ttlMs upper.ttlMs
    renewIntervalMs :=
      override d.renewIntervalMs lower.renewIntervalMs upper.renewIntervalMs
    root := override d.root lower.root upper.root
    cidrs := override d.cidrs lower.cidrs upper.cidrs }

end NodeConfig
end FairLease
