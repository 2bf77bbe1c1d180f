import FairLease.Claim.Key
import FairLease.Claim.Settings
import FairLease.Claim.Snapshot
import FairLease.Store.Request

/-!
# Listing the claims

The claims are read page by page until a page says that nothing follows. The
pages are read at different times, so that the snapshot need not be a state the
store was ever in. A key under the root that is no claim ends the listing.
-/

namespace FairLease

inductive Listing where
  /-- The claims found so far, and the key after which the next page starts. -/
  | reading (found : Snapshot) (after : Option String)
  | finished (result : Except ClaimError Snapshot)

namespace Listing

def start : Listing :=
  reading .empty none

def request (s : ClaimSettings) (after : Option String) : ScanRequest :=
  { lead := s.root, limit := some s.pageSize, after }

def collect (root : String) :
    Snapshot -> List KeyValue -> Except ClaimError Snapshot
  | found, [] => .ok found
  | found, kv :: rest =>
      match ClaimKey.toCidr root kv.key with
      | .error e => .error e
      | .ok cidr => collect root (found.insert cidr kv.value) rest

/-- The key that leads on to the next page, if there is one. -/
def following (page : ScanResult) : Option String :=
  if page.isTruncated then page.continuation else none

def receive (root : String) (page : Except StoreError ScanResult) :
    Listing -> Listing
  | finished result => finished result
  | reading found _ =>
      match page with
      | .error e => finished (.error (.storage e))
      | .ok page =>
          match collect root found page.entries with
          | .error e => finished (.error e)
          | .ok found =>
              match following page with
              | some key => reading found (some key)
              | none => finished (.ok found)

end Listing
end FairLease
