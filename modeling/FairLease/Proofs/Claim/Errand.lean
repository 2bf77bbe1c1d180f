import Mathlib.Data.List.Forall2
import FairLease.Proofs.Claim.Admission
import FairLease.Proofs.Claim.Domain
import FairLease.Proofs.Claim.Snapshot
import FairLease.Proofs.Lease.Machine
import FairLease.Proofs.Run
import FairLease.Simulation.Run

/-!
# One call and a store that may answer anything

A call asks the store one thing at a time and waits for the answer, which is not
restricted here. Others use the manager of the call in the meantime, and it may
be cancelled at any moment. What was asked, heard and ensured is kept on record.
-/

namespace FairLease

open Simulation

variable {W : Type}

/-- A call at a node, with all that it asked of the store, what it heard, and
the leases that it had ensured. -/
structure Errand (W : Type) where
  node : Node
  call : Admission
  asked : List (StoreCall W)
  heard : List (StoreReply W)
  ensured : List Lease

def Simulation.StoreReply.fits : StoreReply W -> StoreCall W -> Bool
  | .written _, .write _ => true
  | .found _, .read _ => true
  | .listed _, .scan _ => true
  | .subscribed _, .watch _ => true
  | .notified _ _, .next _ => true
  | _, _ => false

namespace Errand

inductive Event (W : Type) where
  | ask
  | answer (reply : StoreReply W)
  | register (now : Nat)
  /-- Somebody else uses the manager, or cancels it. -/
  | meanwhile (e : Manager.Event)

def start (node : Node) (uid cidr : String) : Errand W :=
  { node, call := node.manager.attempt uid cidr, asked := [], heard := [], ensured := [] }

def pending? (e : Errand W) : Option (StoreCall W) :=
  e.asked[e.heard.length]?

def setManager (e : Errand W) (manager : Manager) : Errand W :=
  { e with node := { e.node with manager } }

def step (e : Errand W) : Event W -> Errand W
  | .ask =>
      match e.pending?, callOfAdmission? e.node e.call with
      | none, some call => { e with asked := e.asked ++ [call] }
      | _, _ => e
  | .answer reply =>
      match e.pending? with
      | some call =>
          if reply.fits call then
            { e with call := receiveAdmission e.node reply e.call, heard := e.heard ++ [reply] }
          else e
      | none => e
  | .register now =>
      match e.call.phase with
      | .registering =>
          { e.setManager (e.node.manager.register now e.call).2 with
            call := e.call.registered,
            ensured := e.ensured ++ [e.node.manager.lease e.call] }
      | _ => e
  | .meanwhile event => e.setManager (e.node.manager.step event)

def after (start : Errand W) (events : List (Event W)) (n : Nat) : Errand W :=
  stateAt step start events n

/-- A simulation has the lease of a call ensured in the same way. -/
theorem job_step_registering {σ : Type} (b : Backend W σ) (i : Nat) (n : Node)
    (w : World W σ) {a : Admission} (h : a.phase = .registering) :
    exists w', (Job.admission a).step b i n w =
      (.admission a.registered, { n with manager := (n.manager.register w.now a).2 }, w') := by
  simp only [Job.step, stepAdmission, h, World.register]
  rcases n.manager.register w.now a with ⟨id, manager⟩
  cases id with
  | none => exact ⟨_, rfl⟩
  | some id => exact ⟨_, rfl⟩

end Errand

/-!
# Reading the claims of pages
-/

namespace Listing

def Decodes (root : String) : List KeyValue -> List (String × String) -> Prop :=
  List.Forall₂ (fun kv claim => ClaimKey.toCidr root kv.key = .ok claim.1 ∧
    kv.value = claim.2)

section

variable {root : String} {kvs : List KeyValue}
  {claims more : List (String × String)}

theorem Decodes.unique (h : Decodes root kvs claims)
    (h' : Decodes root kvs more) :
    claims = more := by
  induction h generalizing more with
  | nil =>
      cases h'
      rfl
  | cons hhead _ ih =>
      cases h' with
      | cons hhead' htail' =>
          rw [hhead.left] at hhead'
          rw [ih htail', Prod.ext (Except.ok.inj hhead'.left)
            (hhead.right.symm.trans hhead'.right)]

theorem Decodes.readable (h : Decodes root kvs claims) {kv : KeyValue}
    (hkv : kv ∈ kvs) :
    exists cidr, ClaimKey.toCidr root kv.key = .ok cidr := by
  induction h with
  | nil => cases hkv
  | @cons kv' claim _ _ hhead _ ih =>
      rcases List.mem_cons.mp hkv with rfl | hrest
      · exact ⟨claim.1, hhead.left⟩
      · exact ih hrest

theorem collect_decodes {all : Snapshot}
    (h : collect root (.ofList claims) kvs = .ok all) :
    exists more, Decodes root kvs more ∧ all = .ofList (claims ++ more) := by
  induction kvs generalizing claims with
  | nil =>
      cases h
      exact ⟨[], .nil, by rw [List.append_nil]⟩
  | cons kv rest ih =>
      unfold collect at h
      cases hcidr : ClaimKey.toCidr root kv.key with
      | error e => simp [hcidr] at h
      | ok cidr =>
          simp only [hcidr] at h
          rw [← Snapshot.ofList_append_singleton claims (cidr, kv.value)] at h
          rcases ih h with ⟨more, hmore, hall⟩
          refine ⟨(cidr, kv.value) :: more, .cons ⟨hcidr, rfl⟩ hmore, ?_⟩
          rw [hall, List.append_assoc, List.singleton_append]

theorem collect_eq_error {found : Snapshot} {e : ClaimError}
    (h : collect root found kvs = .error e) :
    exists kv, kv ∈ kvs ∧ ClaimKey.toCidr root kv.key = .error e := by
  induction kvs generalizing found with
  | nil => cases h
  | cons kv rest ih =>
      unfold collect at h
      cases hcidr : ClaimKey.toCidr root kv.key with
      | error e' =>
          simp only [hcidr] at h
          cases h
          exact ⟨kv, List.mem_cons_self, hcidr⟩
      | ok cidr =>
          simp only [hcidr] at h
          rcases ih h with ⟨kv', hkv', herror⟩
          exact ⟨kv', List.mem_cons_of_mem kv hkv', herror⟩

end

/-- Pages that were asked for one after the other, each of which leads on to the
next, and their claims. -/
inductive Survey (s : ClaimSettings) :
    List ScanRequest -> List ScanResult -> List (String × String) ->
      Option String -> Prop where
  | start : Survey s [] [] [] none
  | turn {requests : List ScanRequest} {pages : List ScanResult}
      {claims more : List (String × String)}
      {token : Option String} {page : ScanResult} {key : String} :
      Survey s requests pages claims token ->
      Decodes s.root page.entries more ->
      following page = some key ->
      Survey s (requests ++ [request s token]) (pages ++ [page])
        (claims ++ more) (some key)

/-- All pages, the last of which leads nowhere. -/
inductive Surveyed (s : ClaimSettings) :
    List ScanRequest -> List ScanResult -> List (String × String) -> Prop where
  | finish {requests : List ScanRequest} {pages : List ScanResult}
      {claims more : List (String × String)} {token : Option String}
      {page : ScanResult} :
      Survey s requests pages claims token ->
      Decodes s.root page.entries more ->
      following page = none ->
      Surveyed s (requests ++ [request s token]) (pages ++ [page])
        (claims ++ more)

section

variable {s : ClaimSettings} {requests : List ScanRequest}
  {pages : List ScanResult}
  {claims : List (String × String)} {token : Option String}

theorem Survey.length_eq (h : Survey s requests pages claims token) :
    requests.length = pages.length := by
  induction h with
  | start => rfl
  | turn _ _ _ ih => simp [ih]

theorem Surveyed.length_eq (h : Surveyed s requests pages claims) :
    requests.length = pages.length := by
  cases h with
  | finish hsurvey => simp [hsurvey.length_eq]

theorem Survey.leads_on (h : Survey s requests pages claims token) :
    forall page, page ∈ pages -> following page ≠ none := by
  induction h with
  | start => simp
  | @turn _ _ _ _ _ page _ _ _ hfollowing ih =>
      intro other hother
      rcases List.mem_append.mp hother with hfront | hlast
      · exact ih other hfront
      · rw [List.mem_singleton.mp hlast, hfollowing]
        exact Option.some_ne_none _

theorem Survey.decodes (h : Survey s requests pages claims token) :
    Decodes s.root (pages.flatMap (·.entries)) claims := by
  induction h with
  | start => exact .nil
  | turn _ hpage _ ih =>
      rw [List.flatMap_append, List.flatMap_singleton]
      exact List.rel_append ih hpage

end

end Listing

/-!
# The account of a call

At every moment the record of a call is that of one of the stages below, each of
which is an exit or leads on to others by a single answer.
-/

namespace Errand

open Listing

def shown (page : ScanResult) : StoreReply W :=
  .listed (.ok page)

def MayCreate (d : Decision) : Prop :=
  d = .unconstrained ∨ exists count least, d = .withinBound count least

def MustRefuse (d : Decision) : Prop :=
  (exists owner, d = .takenBy owner) ∨
    exists count least, d = .exceedsBound count least

theorem decide_of_evaluate (a : Admission) (found : Snapshot) :
    (found.evaluate a.uid a.cidr = .alreadyOwned ∧
      a.decide found = .registering) ∨
      (MayCreate (found.evaluate a.uid a.cidr) ∧ a.decide found = .creating) ∨
      (MustRefuse (found.evaluate a.uid a.cidr) ∧
        a.decide found = .finished (.ok false)) := by
  unfold Admission.decide
  cases found.evaluate a.uid a.cidr with
  | alreadyOwned => exact Or.inl ⟨rfl, rfl⟩
  | takenBy owner => exact Or.inr (Or.inr ⟨Or.inl ⟨owner, rfl⟩, rfl⟩)
  | unconstrained => exact Or.inr (Or.inl ⟨Or.inl rfl, rfl⟩)
  | withinBound count least =>
      exact Or.inr (Or.inl ⟨Or.inr ⟨count, least, rfl⟩, rfl⟩)
  | exceedsBound count least =>
      exact Or.inr (Or.inr ⟨Or.inr ⟨count, least, rfl⟩, rfl⟩)

def creation (s : ClaimSettings) (uid cidr : String) : StoreCall W :=
  .write (.createWithTtl (ClaimKey.ofCidr s.root cidr) uid s.ttlMs)

def leaseOf (s : ClaimSettings) (uid cidr : String) : Lease :=
  { key := ClaimKey.ofCidr s.root cidr, owner := uid, ttlMs := s.ttlMs
    interval := s.renewInterval }

/-- How far a call has got, with what it asked, heard and had ensured. -/
inductive Account (s : ClaimSettings) (uid cidr : String) :
    Admission.Phase -> List (StoreCall W) -> List (StoreReply W) ->
      List Lease -> Prop where
  | reading {requests : List ScanRequest} {pages : List ScanResult}
      {claims : List (String × String)} {token : Option String} :
      Survey s requests pages claims token ->
      Account s uid cidr (.listing (.reading (.ofList claims) token))
        (requests.map .scan) (pages.map shown) []
  | turning {requests : List ScanRequest} {pages : List ScanResult}
      {claims : List (String × String)} {token : Option String} :
      Survey s requests pages claims token ->
      Account s uid cidr (.listing (.reading (.ofList claims) token))
        ((requests ++ [request s token]).map .scan) (pages.map shown) []
  | missed {requests : List ScanRequest} {pages : List ScanResult}
      {claims : List (String × String)} {token : Option String}
      {e : StoreError} :
      Survey s requests pages claims token ->
      Account s uid cidr (.finished (.error (.storage e)))
        ((requests ++ [request s token]).map .scan)
        (pages.map shown ++ [.listed (.error e)]) []
  | unreadable {requests : List ScanRequest} {pages : List ScanResult}
      {claims : List (String × String)} {token : Option String}
      {page : ScanResult} {kv : KeyValue} :
      Survey s requests pages claims token -> kv ∈ page.entries ->
      ClaimKey.toCidr s.root kv.key = .error (.corruptedKey kv.key s.root) ->
      Account s uid cidr (.finished (.error (.corruptedKey kv.key s.root)))
        ((requests ++ [request s token]).map .scan)
        ((pages ++ [page]).map shown) []
  | owned {requests : List ScanRequest} {pages : List ScanResult}
      {claims : List (String × String)} :
      Surveyed s requests pages claims ->
      (Snapshot.ofList claims).evaluate uid cidr = .alreadyOwned ->
      Account s uid cidr .registering (requests.map .scan) (pages.map shown) []
  | refused {requests : List ScanRequest} {pages : List ScanResult}
      {claims : List (String × String)} :
      Surveyed s requests pages claims ->
      MustRefuse ((Snapshot.ofList claims).evaluate uid cidr) ->
      Account s uid cidr (.finished (.ok false)) (requests.map .scan)
        (pages.map shown) []
  | admitted {requests : List ScanRequest} {pages : List ScanResult}
      {claims : List (String × String)} :
      Surveyed s requests pages claims ->
      MayCreate ((Snapshot.ofList claims).evaluate uid cidr) ->
      Account s uid cidr .creating (requests.map .scan) (pages.map shown) []
  | submitted {requests : List ScanRequest} {pages : List ScanResult}
      {claims : List (String × String)} :
      Surveyed s requests pages claims ->
      MayCreate ((Snapshot.ofList claims).evaluate uid cidr) ->
      Account s uid cidr .creating (requests.map .scan ++ [creation s uid cidr])
        (pages.map shown) []
  | created {requests : List ScanRequest} {pages : List ScanResult}
      {claims : List (String × String)} {result : WriteResult} :
      Surveyed s requests pages claims ->
      MayCreate ((Snapshot.ofList claims).evaluate uid cidr) ->
      Account s uid cidr .registering
        (requests.map .scan ++ [creation s uid cidr])
        (pages.map shown ++ [.written (.ok result)]) []
  | beaten {requests : List ScanRequest} {pages : List ScanResult}
      {claims : List (String × String)} {key : String} :
      Surveyed s requests pages claims ->
      MayCreate ((Snapshot.ofList claims).evaluate uid cidr) ->
      Account s uid cidr (.finished (.ok false))
        (requests.map .scan ++ [creation s uid cidr])
        (pages.map shown ++ [.written (.error (.keyExists key))]) []
  | failed {requests : List ScanRequest} {pages : List ScanResult}
      {claims : List (String × String)} {e : StoreError} :
      Surveyed s requests pages claims ->
      MayCreate ((Snapshot.ofList claims).evaluate uid cidr) ->
      (forall key, e ≠ .keyExists key) ->
      Account s uid cidr (.finished (.error (.storage e)))
        (requests.map .scan ++ [creation s uid cidr])
        (pages.map shown ++ [.written (.error e)]) []
  | registered {asked : List (StoreCall W)} {heard : List (StoreReply W)} :
      Account s uid cidr .registering asked heard [] ->
      Account s uid cidr (.finished (.ok true)) asked heard [leaseOf s uid cidr]

section

variable {s : ClaimSettings} {uid cidr : String} {phase : Admission.Phase}
  {asked : List (StoreCall W)} {heard : List (StoreReply W)}
  {ensured : List Lease}

theorem Account.open_cases (h : Account s uid cidr phase asked heard ensured) :
    asked.length = heard.length ∨
      (exists requests pages claims token,
        Survey s requests pages claims token ∧
        phase = .listing (.reading (.ofList claims) token) ∧
        asked = (requests ++ [request s token]).map .scan ∧
        heard = pages.map shown ∧
        ensured = []) ∨
      (exists requests pages claims, Surveyed s requests pages claims ∧
        MayCreate ((Snapshot.ofList claims).evaluate uid cidr) ∧
        phase = .creating ∧
        asked = requests.map .scan ++ [creation s uid cidr] ∧
        heard = pages.map shown ∧
        ensured = []) := by
  induction h with
  | @turning requests pages claims token hsurvey =>
      exact Or.inr (Or.inl ⟨requests, pages, claims, token, hsurvey, rfl,
        rfl, rfl, rfl⟩)
  | @submitted requests pages claims hsurveyed hmay =>
      exact Or.inr (Or.inr ⟨requests, pages, claims, hsurveyed, hmay, rfl,
        rfl, rfl, rfl⟩)
  | reading hsurvey | missed hsurvey | unreadable hsurvey =>
      exact Or.inl (by simp [hsurvey.length_eq])
  | owned hsurveyed | refused hsurveyed | admitted hsurveyed | created hsurveyed
  | beaten hsurveyed | failed hsurveyed =>
      exact Or.inl (by simp [hsurveyed.length_eq])
  | registered _ ih =>
      rcases ih with hlength | ⟨_, _, _, _, _, hphase, _⟩ | ⟨_, _, _, _,
        _, hphase, _⟩
      · exact Or.inl hlength
      · cases hphase
      · cases hphase

theorem Account.listed_result {requests : List ScanRequest}
    {pages : List ScanResult} {claims : List (String × String)}
    {token : Option String} (h : Survey s requests pages claims token)
    (result : Except StoreError ScanResult) :
    Account (W := W) s uid cidr
      (Admission.listed s result ⟨uid, cidr,
        .listing (.reading (.ofList claims) token)⟩).phase
      ((requests ++ [request s token]).map .scan)
      (pages.map shown ++ [.listed result]) [] := by
  cases result with
  | error e => exact Account.missed h
  | ok page =>
      change Account s uid cidr _ _ (pages.map shown ++ [page].map shown) []
      rw [← List.map_append]
      simp only [Admission.listed, receive]
      cases hcollect : collect s.root (.ofList claims) page.entries with
      | error e =>
          rcases collect_eq_error hcollect with ⟨kv, hkv, hcidr⟩
          rcases (ClaimKey.toCidr_eq_error_iff.mp hcidr).left with rfl
          exact Account.unreadable h hkv hcidr
      | ok all =>
          rcases collect_decodes hcollect with ⟨more, hmore, rfl⟩
          cases hfollowing : following page with
          | some key => exact Account.reading (h.turn hmore hfollowing)
          | none =>
              have hsurveyed := Surveyed.finish h hmore hfollowing
              rcases decide_of_evaluate ⟨uid, cidr,
                .listing (.reading (.ofList claims) token)⟩
                (.ofList (claims ++ more)) with
                  ⟨hown, hphase⟩ | ⟨hmay, hphase⟩ | ⟨hmust, hphase⟩
              · simpa only [hphase] using Account.owned hsurveyed hown
              · simpa only [hphase] using Account.admitted hsurveyed hmay
              · simpa only [hphase] using Account.refused hsurveyed hmust

theorem Account.created_result {requests : List ScanRequest}
    {pages : List ScanResult} {claims : List (String × String)}
    (h : Surveyed s requests pages claims)
    (hmay : MayCreate ((Snapshot.ofList claims).evaluate uid cidr))
    (result : Except StoreError WriteResult) :
    Account (W :=
      W) s uid cidr (Admission.created result ⟨uid, cidr, .creating⟩).phase
      (requests.map .scan ++ [creation s uid cidr])
      (pages.map shown ++ [.written result]) [] := by
  cases result with
  | ok result => exact Account.created h hmay
  | error e =>
      cases e with
      | keyExists key => exact Account.beaten h hmay
      | _ => exact Account.failed h hmay nofun

end

/-!
# The record along a run
-/

structure IsSound (s : ClaimSettings) (uid cidr : String) (e : Errand W) :
    Prop where
  settings_eq : e.node.manager.settings = s
  uid_eq : e.call.uid = uid
  cidr_eq : e.call.cidr = cidr
  account : Account s uid cidr e.call.phase e.asked e.heard e.ensured

section

variable {s : ClaimSettings} {uid cidr : String} {e : Errand W}

theorem isSound_start {node : Node}
    (h : Admission.entryError? node.manager.isCancelled uid cidr = none) :
    IsSound node.manager.settings uid cidr (start (W := W) node uid cidr) := by
  simp only [start, Manager.attempt, Admission.start, h]
  exact ⟨rfl, rfl, rfl, Account.reading .start⟩

theorem IsSound.ask (h : IsSound s uid cidr e) :
    IsSound s uid cidr (e.step .ask) := by
  rcases e with ⟨node, ⟨uid', cidr', phase⟩, asked, heard, ensured⟩
  rcases h with ⟨rfl, rfl, rfl, haccount⟩
  dsimp only at haccount
  simp only [step]
  split
  · rename_i call hnone hcall
    refine ⟨rfl, rfl, rfl, ?_⟩
    cases haccount with
    | @reading requests pages claims token hsurvey =>
        cases hcall
        simpa using Account.turning hsurvey
    | @admitted requests pages claims hsurveyed hmay =>
        cases hcall
        exact Account.submitted hsurveyed hmay
    | turning hsurvey => simp [pending?, hsurvey.length_eq] at hnone
    | submitted hsurveyed => simp [pending?, hsurveyed.length_eq] at hnone
    | missed | unreadable | owned | refused | created | beaten | failed | registered =>
        cases hcall
  · exact ⟨rfl, rfl, rfl, haccount⟩

theorem IsSound.answer (h : IsSound s uid cidr e) (reply : StoreReply W) :
    IsSound s uid cidr (e.step (.answer reply)) := by
  rcases e with ⟨node, ⟨uid', cidr', phase⟩, asked, heard, ensured⟩
  rcases h with ⟨rfl, rfl, rfl, haccount⟩
  dsimp only at haccount
  simp only [step, pending?]
  rcases haccount.open_cases with hlength |
    ⟨requests, pages, claims, token, hsurvey, rfl, rfl, rfl, rfl⟩ |
    ⟨requests, pages, claims, hsurveyed, hmay, rfl, rfl, rfl, rfl⟩
  · -- Everything was answered already, so that nobody takes the answer up.
    rw [List.getElem?_eq_none (Nat.le_of_eq hlength)]
    exact ⟨rfl, rfl, rfl, haccount⟩
  · have hopen : ((requests ++ [request node.manager.settings token]).map
        StoreCall.scan)[ (pages.map (shown (W := W))).length]? =
          some (StoreCall.scan (W :=
            W) (request node.manager.settings token)) := by
      simp [← hsurvey.length_eq]
    rw [hopen]
    cases reply with
    | listed result =>
        exact ⟨rfl, Admission.uid_listed _ _ _, Admission.cidr_listed _ _ _,
          Account.listed_result hsurvey result⟩
    | _ => exact ⟨rfl, rfl, rfl, haccount⟩
  · have hopen : (requests.map StoreCall.scan ++
        [creation node.manager.settings uid' cidr'])[
        (pages.map (shown (W := W))).length]? =
          some (creation (W := W) node.manager.settings uid' cidr') := by
      simp [← hsurveyed.length_eq]
    rw [hopen]
    cases reply with
    | written result =>
        exact ⟨rfl, Admission.uid_created _ _, Admission.cidr_created _ _,
          Account.created_result hsurveyed hmay result⟩
    | _ => exact ⟨rfl, rfl, rfl, haccount⟩

theorem IsSound.register (h : IsSound s uid cidr e) (now : Nat) :
    IsSound s uid cidr (e.step (.register now)) := by
  rcases e with ⟨node, ⟨uid', cidr', phase⟩, asked, heard, ensured⟩
  rcases h with ⟨rfl, rfl, rfl, haccount⟩
  dsimp only at haccount
  cases phase with
  | registering =>
      have hensured : ensured = [] := by
        cases haccount <;> rfl
      subst hensured
      exact ⟨rfl, rfl, rfl, Account.registered haccount⟩
  | _ => exact ⟨rfl, rfl, rfl, haccount⟩

theorem IsSound.step (h : IsSound s uid cidr e) (event : Event W) :
    IsSound s uid cidr (e.step event) := by
  cases event with
  | ask => exact h.ask
  | answer reply => exact h.answer reply
  | register now => exact h.register now
  | meanwhile event =>
      exact ⟨(Manager.settings_step _ event).trans h.settings_eq, h.uid_eq,
        h.cidr_eq, h.account⟩

theorem isSound_after {node : Node}
    (h : Admission.entryError? node.manager.isCancelled uid cidr = none)
    (events : List (Event W)) (n : Nat) :
    IsSound node.manager.settings uid cidr
      ((start node uid cidr).after events n) :=
  stateAt_invariant (isSound_start h) (fun _ event hsound =>
    hsound.step event) events n

end

end Errand
end FairLease
