import FairLease.Proofs.Claim.Errand
import FairLease.Proofs.Claim.Watch

/-!
# The effects of a call

Whatever the store answers and whatever else becomes of the manager, a call
creates its claim once at most and only after a complete listing allows it. Its
result tells what was read and what came of the creation, and no lease is
ensured unless the claim is granted.
-/

namespace FairLease

open Simulation

/-!
# Complete listings

Pages are complete when all but the last lead on. What the rule decides on them
is settled by their entries, and undecided as long as a page is still to come or
holds a key that claims nothing.
-/

namespace Listing

/-- The pages are complete, and this is the decision on the claims in them. -/
def Decides (s : ClaimSettings) (uid cidr : String) (pages : List ScanResult)
    (d : Decision) :
    Prop :=
  exists front last claims, pages = front ++ [last] ∧
    (forall page, page ∈ front -> following page ≠ none) ∧
    following last = none ∧
    Decodes s.root (pages.flatMap (·.entries)) claims ∧
    (Snapshot.ofList claims).evaluate uid cidr = d

def HasCorruptedKey (s : ClaimSettings) (pages : List ScanResult) : Prop :=
  exists page kv, page ∈ pages ∧ kv ∈ page.entries ∧
    exists e, ClaimKey.toCidr s.root kv.key = .error e

section

variable {s : ClaimSettings} {uid cidr : String} {pages : List ScanResult}
  {requests : List ScanRequest} {claims : List (String × String)}
  {token : Option String} {d : Decision}

theorem not_hasCorruptedKey_of_decodes
    (h : Decodes s.root (pages.flatMap (·.entries)) claims) :
    ¬ HasCorruptedKey s pages := by
  rintro ⟨page, kv, hpage, hkv, e, he⟩
  rcases h.readable (List.mem_flatMap.mpr ⟨page, hpage, hkv⟩) with ⟨cidr, hcidr⟩
  rw [hcidr] at he
  cases he

theorem Surveyed.decodes (h : Surveyed s requests pages claims) :
    Decodes s.root (pages.flatMap (·.entries)) claims := by
  cases h with
  | finish hsurvey hpage _ =>
      rw [List.flatMap_append, List.flatMap_singleton]
      exact List.rel_append hsurvey.decodes hpage

theorem Survey.not_hasCorruptedKey (h : Survey s requests pages claims token) :
    ¬ HasCorruptedKey s pages :=
  not_hasCorruptedKey_of_decodes h.decodes

theorem Surveyed.not_hasCorruptedKey (h : Surveyed s requests pages claims) :
    ¬ HasCorruptedKey s pages :=
  not_hasCorruptedKey_of_decodes h.decodes

theorem Surveyed.decides_iff (h : Surveyed s requests pages claims) :
    Decides s uid cidr pages d <->
      (Snapshot.ofList claims).evaluate uid cidr = d := by
  constructor
  · rintro ⟨_, _, claims', _, _, _, hdecodes, hdecision⟩
    rw [h.decodes.unique hdecodes]
    exact hdecision
  · intro hdecision
    have hdecodes := h.decodes
    cases h with
    | finish hsurvey _ hlast =>
        exact ⟨_, _, _, rfl, hsurvey.leads_on, hlast, hdecodes, hdecision⟩

theorem Survey.not_decides (h : Survey s requests pages claims token) :
    ¬ Decides s uid cidr pages d := by
  rintro ⟨front, last, _, hpages, _, hlast, _⟩
  exact h.leads_on last (by simp [hpages]) hlast

/-- Every page but the first is asked for where the one before it leads on. -/
theorem Survey.requests_eq (h : Survey s requests pages claims token) :
    requests ++ [request s token] = (none :: pages.map following).map
      (request s) := by
  induction h with
  | start => rfl
  | turn _ _ hfollowing ih =>
      rw [ih, ← hfollowing, List.map_append, ← List.cons_append,
        List.map_append]
      rfl

theorem Survey.requests_prefix (h : Survey s requests pages claims token)
    (page : ScanResult) :
    requests ++ [request s token] <+:
      (none :: (pages ++ [page]).map following).map (request s) := by
  rw [h.requests_eq, List.map_append, ← List.cons_append, List.map_append]
  exact List.prefix_append _ _

theorem Surveyed.requests_prefix (h : Surveyed s requests pages claims) :
    requests <+: (none :: pages.map following).map (request s) := by
  cases h with
  | finish hsurvey _ _ => exact hsurvey.requests_prefix _

theorem HasCorruptedKey.not_decides (h : HasCorruptedKey s pages) :
    ¬ Decides s uid cidr pages d := by
  rintro ⟨_, _, _, _, _, _, hdecodes, _⟩
  exact not_hasCorruptedKey_of_decodes hdecodes h

end
end Listing

namespace Errand

open Listing

variable {W : Type}

/-!
# What the record shows
-/

def pagesOf (heard : List (StoreReply W)) : List ScanResult :=
  heard.filterMap (fun
    | .listed (.ok page) => some page
    | _ => none)

/-- No page was missed, and the pages that were read let the claim be
created. -/
def IsCleared (s : ClaimSettings) (uid cidr : String)
    (heard : List (StoreReply W)) : Prop :=
  (forall source, .listed (.error source) ∉ heard) ∧
    exists d, MayCreate d ∧ Decides s uid cidr (pagesOf heard) d

def AsksInOrder (s : ClaimSettings) (uid cidr : String)
    (asked : List (StoreCall W)) (heard : List (StoreReply W)) : Prop :=
  exists requests, requests <+: (none :: (pagesOf heard).map following).map
    (request s) ∧
    (asked = requests.map .scan ∨
      (asked = requests.map .scan ++ [creation s uid cidr] ∧
        IsCleared s uid cidr heard))

/-- The result of a call and what it goes back to. -/
structure Explains (s : ClaimSettings) (uid cidr : String)
    (heard : List (StoreReply W)) (result : Except ClaimError Bool) : Prop where
  granted : result = .ok true <->
    Decides s uid cidr (pagesOf heard) .alreadyOwned ∨
      exists w, .written (.ok w) ∈ heard
  refused : result = .ok false <->
    (exists d, MustRefuse d ∧ Decides s uid cidr (pagesOf heard) d) ∨
      exists key, .written (.error (.keyExists key)) ∈ heard
  storage : forall source, result = .error (.storage source) <->
    .listed (.error source) ∈ heard ∨
      ((forall key, source ≠ .keyExists key) ∧ .written (.error source) ∈ heard)
  corrupted : (exists key root, result = .error (.corruptedKey key root)) <->
    HasCorruptedKey s (pagesOf heard)
  named : forall key root, result = .error (.corruptedKey key root) ->
    root = s.root ∧
    exists page kv, page ∈ pagesOf heard ∧ kv ∈ page.entries ∧ kv.key = key ∧
      ClaimKey.toCidr s.root key = .error (.corruptedKey key root)
  failed : forall error, result = .error error ->
    (exists source, error = .storage source) ∨
      exists key root, error = .corruptedKey key root

@[simp] theorem pagesOf_append (heard more : List (StoreReply W)) :
    pagesOf (heard ++ more) = pagesOf heard ++ pagesOf more :=
  List.filterMap_append

@[simp] theorem pagesOf_shown (pages : List ScanResult) :
    pagesOf (pages.map (shown (W := W))) = pages := by
  rw [pagesOf, List.filterMap_map]
  exact List.filterMap_some

@[simp] theorem pagesOf_missed (source : StoreError) :
    pagesOf [StoreReply.listed (W := W) (.error source)] = [] := rfl

@[simp] theorem pagesOf_written (result : Except StoreError WriteResult) :
    pagesOf [StoreReply.written (W := W) result] = [] := rfl

@[simp] theorem written_notMem_shown (result : Except StoreError WriteResult)
    (pages : List ScanResult) :
    StoreReply.written (W := W) result ∉ pages.map shown := by
  simp [shown]

@[simp] theorem missed_notMem_shown (source : StoreError)
    (pages : List ScanResult) :
    StoreReply.listed (W := W) (.error source) ∉ pages.map shown := by
  simp [shown]

section

variable {s : ClaimSettings} {uid cidr : String} {phase : Admission.Phase}
  {asked : List (StoreCall W)} {heard : List (StoreReply W)}
  {ensured : List Lease} {d : Decision}

theorem MayCreate.ne_alreadyOwned (h : MayCreate d) : d ≠ .alreadyOwned := by
  rcases h with rfl | ⟨_, _, rfl⟩ <;> nofun

theorem MustRefuse.ne_alreadyOwned (h : MustRefuse d) : d ≠ .alreadyOwned := by
  rcases h with ⟨_, rfl⟩ | ⟨_, _, rfl⟩ <;> nofun

theorem not_mustRefuse_alreadyOwned : ¬ MustRefuse .alreadyOwned :=
  fun h => h.ne_alreadyOwned rfl

theorem MayCreate.not_mustRefuse (h : MayCreate d) : ¬ MustRefuse d := by
  rintro (⟨_, rfl⟩ | ⟨_, _, rfl⟩) <;> rcases h with h | ⟨_, _, h⟩ <;> cases h

theorem Account.explains {result : Except ClaimError Bool}
    (h : Account s uid cidr (.finished result) asked heard ensured) :
    Explains s uid cidr heard result := by
  cases h with
  | @missed _ pages _ _ e hsurvey =>
      constructor <;> simp [hsurvey.not_decides,
        hsurvey.not_hasCorruptedKey, eq_comm]
  | @unreadable _ pages _ _ page kv hsurvey hkv hcidr =>
      have hcorrupted : HasCorruptedKey s (pages ++ [page]) :=
        ⟨page, kv, by simp, hkv, _, hcidr⟩
      have hpage : page ∈ pages ++ [page] := by simp
      -- As one list, the pages are recovered from the answers like those of the
      -- other exits.
      generalize pages ++ [page] = all at hcorrupted hpage
      constructor
      case named =>
        intro key root hresult
        cases hresult
        exact ⟨rfl, page, kv, by simpa using hpage, hkv, rfl, hcidr⟩
      all_goals simp [hcorrupted, hcorrupted.not_decides]
  | @refused _ pages claims hsurveyed hmust =>
      constructor <;> simp [hsurveyed.decides_iff, hmust, hmust.ne_alreadyOwned,
        hsurveyed.not_hasCorruptedKey]
  | beaten hsurveyed hmay =>
      constructor
      case storage =>
        intro source
        simp only [reduceCtorEq, false_iff]
        rintro (hmissed | ⟨hne, hwritten⟩)
        · simp at hmissed
        · simp [hne] at hwritten
      all_goals simp [hsurveyed.decides_iff, hmay.ne_alreadyOwned,
        hsurveyed.not_hasCorruptedKey]
  | @failed _ pages _ e hsurveyed hmay hne =>
      have hnot : forall key, StoreError.keyExists key ≠ e := fun key =>
        (hne key).symm
      constructor
      case storage =>
        intro source
        by_cases hsource : e = source
        · subst hsource
          simp [hne]
        · simp [hsource, Ne.symm hsource]
      all_goals
        simp [hsurveyed.decides_iff, hmay.ne_alreadyOwned, hmay.not_mustRefuse,
          hnot, hsurveyed.not_hasCorruptedKey]
  | registered haccount =>
      cases haccount with
      | owned hsurveyed hown =>
          constructor <;>
            simp [hsurveyed.decides_iff, hown, not_mustRefuse_alreadyOwned,
              hsurveyed.not_hasCorruptedKey]
      | created hsurveyed hmay =>
          constructor <;>
            simp [hsurveyed.decides_iff, hmay.not_mustRefuse,
              hsurveyed.not_hasCorruptedKey]

theorem isCleared_shown {requests : List ScanRequest} {pages : List ScanResult}
    {claims : List (String × String)} (h : Surveyed s requests pages claims)
    (hmay : MayCreate ((Snapshot.ofList claims).evaluate uid cidr)) :
    IsCleared (W := W) s uid cidr (pages.map shown) :=
  ⟨fun source => missed_notMem_shown source pages, _, hmay, by
    rw [pagesOf_shown]
    exact h.decides_iff.mpr rfl⟩

theorem IsCleared.written (h : IsCleared s uid cidr heard)
    (result : Except StoreError WriteResult) :
    IsCleared s uid cidr (heard ++ [.written result]) := by
  rcases h with ⟨hread, d, hmay, hdecides⟩
  exact ⟨by simpa using hread, d, hmay, by simpa using hdecides⟩

theorem Account.asksInOrder (h : Account s uid cidr phase asked heard ensured) :
    AsksInOrder s uid cidr asked heard := by
  induction h with
  | reading hsurvey =>
      refine ⟨_, ?_, Or.inl rfl⟩
      rw [pagesOf_shown, ← hsurvey.requests_eq]
      exact List.prefix_append _ _
  | turning hsurvey =>
      refine ⟨_, ?_, Or.inl rfl⟩
      rw [pagesOf_shown]
      exact hsurvey.requests_eq ▸ List.prefix_refl _
  | missed hsurvey =>
      refine ⟨_, ?_, Or.inl rfl⟩
      rw [pagesOf_append, pagesOf_shown, pagesOf_missed, List.append_nil]
      exact hsurvey.requests_eq ▸ List.prefix_refl _
  | unreadable hsurvey =>
      refine ⟨_, ?_, Or.inl rfl⟩
      rw [pagesOf_shown]
      exact hsurvey.requests_prefix _
  | owned hsurveyed | refused hsurveyed | admitted hsurveyed =>
      exact ⟨_, by simpa only [pagesOf_shown] using hsurveyed.requests_prefix,
        Or.inl rfl⟩
  | submitted hsurveyed hmay =>
      exact ⟨_, by simpa only [pagesOf_shown] using hsurveyed.requests_prefix,
        Or.inr ⟨rfl, isCleared_shown hsurveyed hmay⟩⟩
  | created hsurveyed hmay | beaten hsurveyed hmay | failed hsurveyed hmay =>
      refine ⟨_, ?_, Or.inr ⟨rfl, (isCleared_shown hsurveyed hmay).written _⟩⟩
      rw [pagesOf_append, pagesOf_shown, pagesOf_written, List.append_nil]
      exact hsurveyed.requests_prefix
  | registered _ ih => exact ih

/-- The lease is ensured at the very moment at which the call returns that the
claim is granted. -/
theorem Account.ensured_eq (h : Account s uid cidr phase asked heard ensured) :
    (phase = .finished (.ok true) ∧ ensured = [leaseOf s uid cidr]) ∨
      (phase ≠ .finished (.ok true) ∧ ensured = []) := by
  cases h with
  | registered => exact Or.inl ⟨rfl, rfl⟩
  | _ => exact Or.inr ⟨nofun, rfl⟩

/-- The call has a question for the store, or only its lease is left to be
ensured. -/
def IsUnderWay (e : Errand W) : Prop :=
  (exists call : StoreCall W, callOfAdmission? e.node e.call = some call) ∨
    e.call.phase = .registering

/-- A call that has not returned is never stuck. -/
theorem IsSound.isUnderWay {e : Errand W} (h : e.IsSound s uid cidr)
    (hresult : e.call.result? = none) : e.IsUnderWay := by
  rcases e with ⟨node, ⟨uid', cidr', phase⟩, asked, heard, ensured⟩
  have haccount := h.account
  dsimp only at haccount
  cases haccount with
  | reading | turning | admitted | submitted => exact Or.inl ⟨_, rfl⟩
  | owned | created => exact Or.inr rfl
  | missed | unreadable | refused | beaten | failed | registered =>
      cases hresult

end

/-!
# Who changes the manager
-/

theorem manager_step_cases (e : Errand W) (event : Event W) :
    (e.step event).node.manager = e.node.manager ∨
      (exists other, event = .meanwhile other ∧
        (e.step event).node.manager = e.node.manager.step other) ∨
      (exists now, event = .register now ∧
        (e.step event).node.manager = (e.node.manager.register now e.call).2 ∧
        (e.step event).call.result? = some (.ok true)) := by
  cases event with
  | ask =>
      left
      simp only [step]
      split <;> rfl
  | answer reply =>
      left
      simp only [step]
      split
      · split <;> rfl
      · rfl
  | register now =>
      cases hphase : e.call.phase with
      | registering =>
          refine Or.inr (Or.inr ⟨now, rfl, ?_, ?_⟩)
          · simp [step, hphase, setManager]
          · simp [step, hphase, Admission.result?, Admission.registered]
      | _ =>
          left
          simp [step, hphase]
  | meanwhile other => exact Or.inr (Or.inl ⟨other, rfl, rfl⟩)

/-!
# Calls that fail at once
-/

/-- The call has returned this error and had nothing to do with the store. -/
def IsIdle (error : ClaimError) (e : Errand W) : Prop :=
  e.call.phase = .finished (.error error) ∧ e.asked = [] ∧ e.ensured = []

theorem IsIdle.step {error : ClaimError} {e : Errand W} (h : e.IsIdle error)
    (event : Event W) :
    (e.step event).IsIdle error := by
  rcases e with ⟨node, ⟨uid, cidr, phase⟩, asked, heard, ensured⟩
  rcases h with ⟨rfl, rfl, rfl⟩
  cases event <;> exact ⟨rfl, rfl, rfl⟩

theorem isIdle_after {node : Node} {uid cidr : String} {error : ClaimError}
    (h : Admission.entryError? node.manager.isCancelled uid cidr = some error)
    (events : List (Event W)) (n : Nat) :
    ((start node uid cidr).after events n).IsIdle error := by
  refine stateAt_invariant ?_ (fun _ event hidle => hidle.step event) events n
  simp only [start, Manager.attempt, Admission.start, h]
  exact ⟨rfl, rfl, rfl⟩

theorem entryError?_eq_none_iff {isShutDown : Bool} {uid cidr : String} :
    Admission.entryError? isShutDown uid cidr = none <->
      uid ≠ "" ∧ ClaimKey.validate cidr = .ok () ∧ isShutDown = false := by
  rw [ClaimKey.validate_eq_ok_iff]
  unfold Admission.entryError?
  by_cases huid : uid = ""
  · simp [huid]
  · cases ClaimKey.defect? cidr <;> simp [huid]

/-!
# All effects of a call
-/

/-- At any moment, whatever the store has answered by then and whatever has
become of the manager: (1) a call without an owner, for an invalid identifier or
of a cancelled manager has returned an error and asks nothing. (2) Any other
call reads one page after the other and sends one command at most, the creation
of its claim, after all pages have been read and allow it. (3) It goes on until
it returns, and (4) its result is explained by the pages and by what came of the
creation. (5) Its lease is ensured if and only if it has returned that the claim
is granted, and (6) neither before nor after that has it anything to do with the
renewals of the manager. -/
theorem effects_of_a_call (node : Node) (uid cidr : String)
    (events : List (Event W)) (n : Nat) :
    let s := node.manager.settings
    let e := (start node uid cidr).after events n
    (uid = "" ∨ ClaimKey.validate cidr ≠ .ok () ∨
      node.manager.isCancelled = true ->
      exists error, e.IsIdle error) ∧
    (uid ≠ "" ∧ ClaimKey.validate cidr = .ok () ∧
      node.manager.isCancelled = false ->
      AsksInOrder s uid cidr e.asked e.heard ∧
      (e.call.result? = none -> e.IsUnderWay) ∧
      (forall result, e.call.result? = some result ->
        Explains s uid cidr e.heard result) ∧
      ((e.call.result? = some (.ok true) ∧ e.ensured = [leaseOf s uid cidr]) ∨
        (e.call.result? ≠ some (.ok true) ∧ e.ensured = []))) ∧
    forall event,
      (e.step event).node.manager = e.node.manager ∨
      (exists other, event = .meanwhile other ∧
        (e.step event).node.manager = e.node.manager.step other) ∨
      (exists now, event = .register now ∧
        (e.step event).node.manager = (e.node.manager.register now e.call).2 ∧
        (e.step event).call.result? = some (.ok true)) := by
  intro s e
  refine ⟨?_, ?_, e.manager_step_cases⟩
  · intro hentry
    cases herror : Admission.entryError? node.manager.isCancelled uid cidr with
    | some error => exact ⟨error, isIdle_after herror events n⟩
    | none =>
        rcases entryError?_eq_none_iff.mp herror with ⟨huid, hcidr, hcancelled⟩
        simp [huid, hcidr, hcancelled] at hentry
  · intro hentry
    have hsound : e.IsSound s uid cidr :=
      isSound_after (entryError?_eq_none_iff.mpr hentry) events n
    refine ⟨hsound.account.asksInOrder, hsound.isUnderWay, ?_, ?_⟩
    · intro result hresult
      have haccount := hsound.account
      rw [Admission.result?_eq_some_iff.mp hresult] at haccount
      exact haccount.explains
    · rw [Admission.result?_eq_some_iff, ne_eq, Admission.result?_eq_some_iff]
      exact hsound.account.ensured_eq

/-- Two pages are read, the manager is cancelled between them, and the claim is
created. -/
def interruptedEvents : List (Event Unit) :=
  [.ask, .answer (shown ⟨[⟨"/ipclaim/a", "1", 1, 1, none⟩], 1, true,
    some "/ipclaim/a"⟩), .meanwhile .cancel, .ask,
    .answer (shown ⟨[⟨"/ipclaim/b", "2", 2, 2, none⟩], 1, false, none⟩), .ask,
    .answer (.written (.ok ⟨none, some 3, none⟩)), .register 0]

theorem effects_of_a_call_interruptedEvents :
    let e := (start Watch.idleNode "2" "c").after interruptedEvents 8
    ("2" ≠ "" ∧ ClaimKey.validate "c" = .ok () ∧
      Watch.idleNode.manager.isCancelled = false) ∧
      e.node.manager.isCancelled = true ∧
      e.call.result? = some (.ok true) ∧
      Explains .default "2" "c" e.heard (.ok true) ∧
      e.ensured = [leaseOf .default "2" "c"] ∧
      e.asked.getLast? = some (creation .default "2" "c") ∧
      IsCleared .default "2" "c" e.heard := by
  intro e
  have hentry : "2" ≠ "" ∧ ClaimKey.validate "c" = .ok () ∧
      Watch.idleNode.manager.isCancelled = false := by decide
  have hresult : e.call.result? = some (.ok true) := by rfl
  have hasked : e.asked.getLast? = some (creation .default "2" "c") := by rfl
  rcases (effects_of_a_call Watch.idleNode "2" "c" interruptedEvents
    8).right.left hentry with
    ⟨⟨requests, _, hscans | ⟨_, hcleared⟩⟩, _, hexplains, hlease⟩
  · have hcreation := List.mem_of_getLast? hasked
    change e.asked = _ at hscans
    rw [hscans] at hcreation
    simp [creation] at hcreation
  · rcases hlease with ⟨_, hensured⟩ | ⟨hnot, _⟩
    · exact ⟨hentry, rfl, hresult, hexplains _ hresult, hensured,
        hasked, hcleared⟩
    · exact absurd hresult hnot

end Errand
end FairLease
