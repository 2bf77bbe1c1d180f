import FairLease.Proofs.Fleet.Record
import FairLease.Proofs.Store.Survival

/-!
# Calls one at a time

Members are asked for claims one after the other, and each call is carried
through before anything else happens. What they grant is what the fairness rule
gives away, and the store keeps the allocation that comes of it.
-/

namespace FairLease

def MemoryStore.lapsesBy (s : MemoryStore) (now : Nat) (key : String) : Bool :=
  (s.get? key).any (fun e => e.hasLapsed now)

namespace Fleet

open MemoryStore

/-!
# Turns
-/

inductive Turn (ι : Type) where
  | fit (i : ι) (uid cidr : String)
  | ask (i : ι) (cidr : String)
  | survey (i : ι)
  | renew (i : ι) (id : Nat)
  | elapse (nanos : Nat)
  | sweep
  | delete (key : String)

variable {ι : Type} [DecidableEq ι]

/-- A call that is carried through. Every page but the last shows a claim, and
two more steps may follow. -/
def fit (f : Fleet ι) (i : ι) (uid cidr : String) : Fleet ι :=
  (f.next (.begin i uid cidr)).carry f.calls.size
    ((f.claims (f.members i).manager.settings.root).length + 3)

def turn (f : Fleet ι) : Turn ι -> Fleet ι
  | .fit i uid cidr => f.fit i uid cidr
  | .ask i cidr => f.setStore (f.ask i cidr).2
  | .survey i => f.setStore (f.survey i).2
  | .renew i id => f.next (.renew i id)
  | .elapse nanos => f.next (.elapse nanos)
  | .sweep => f.next .sweep
  | .delete key => f.next (.delete key)

def played (start : Fleet ι) (turns : List (Turn ι)) (n : Nat) : Fleet ι :=
  stateAt turn start turns n

def Turn.IsSound (root : String) : Turn ι -> Prop
  | .fit _ uid cidr => uid ≠ "" ∧ uid.utf8ByteSize ≤ maxValueSize ∧
      ClaimKey.defect? cidr = none ∧
        (ClaimKey.ofCidr root cidr).utf8ByteSize ≤ maxKeySize
  | _ => True

instance (root : String) : (t : Turn ι) -> Decidable (t.IsSound root)
  | .fit _ uid _ => inferInstanceAs (Decidable (uid ≠ "" ∧ _ ∧ _ ∧ _))
  | .ask _ _ | .survey _ | .renew _ _ | .elapse _ | .sweep | .delete _ =>
      isTrue trivial

/-- What a turn does to the allocation: a call asks for one more claim, and
claims are lost when they lapse or are deleted. -/
def Turn.book (root : String) (f : Fleet ι) (m : Allocation) :
    Turn ι -> Allocation
  | .fit _ uid cidr => (m.fit uid cidr).2
  | .elapse nanos =>
      m.lose (fun cidr =>
        f.store.lapsesBy (f.now + nanos) (ClaimKey.ofCidr root cidr))
  | .delete key => m.lose (fun cidr => ClaimKey.ofCidr root cidr == key)
  | _ => m

/-- The allocation after the first `n` turns, as the fairness rule gives it
away. -/
def ledger (root : String) (start : Fleet ι) (turns : List (Turn ι)) :
    Nat -> Allocation
  | 0 => ∅
  | n + 1 =>
      match turns[n]? with
      | none => ledger root start turns n
      | some t => t.book root (start.played turns n) (ledger root start turns n)

/-!
# Members that admit claims
-/

structure Member.Serves (m : Member) (root : String) : Prop where
  rooted : m.manager.settings.root = root
  sound : m.manager.settings.defect? = none
  running : m.manager.isCancelled = false

section

variable {root : String}

omit [DecidableEq ι] in
theorem Member.Serves.step {m : Member} (h : m.Serves root) {e : Manager.Event}
    (he : e ≠ .cancel) : (m.step e).Serves root where
  rooted := by
    rw [Member.manager_step, Manager.settings_step]
    exact h.rooted
  sound := by
    rw [Member.manager_step, Manager.settings_step]
    exact h.sound
  running := by
    have hrunning := h.running
    rw [Member.manager_step]
    cases e with
    | cancel => exact absurd rfl he
    | stop | drain => simp [Manager.step, hrunning]
    | _ => exact hrunning

omit [DecidableEq ι] in
theorem Member.Serves.post {m : Member} (h : m.Serves root) (id : Nat)
    (reply : Option Reply) :
    (m.post id reply).Serves root :=
  ⟨h.rooted, h.sound, h.running⟩

omit [DecidableEq ι] in
theorem Member.Move.serves {f : Fleet ι} {store : MemoryStore} {i : ι}
    {act : Act ι} {m m' : Member} (h : Member.Move f store i act m m')
    (hact : act ≠ .cancel i) (hm : m.Serves root) : m'.Serves root := by
  cases h with
  | stay => exact hm
  | ensured => exact hm.step (by simp)
  | @answered id reply =>
      refine (hm.step ?_).post id none
      cases reply <;> simp [Reply.event]
  | worked he =>
      refine hm.step ?_
      rcases he with rfl | rfl | rfl <;> simp
  | swapped | looked => exact hm.post _ _
  | stopped => exact (hm.step (by simp)).post _ none
  | cancelled => exact absurd rfl hact
  | drained => exact hm.step (by simp)

theorem Step.serves {f g : Fleet ι} {act : Act ι} (h : Step f act g)
    (hact : forall i, act ≠ .cancel i)
    (hf : forall i, (f.members i).Serves root) (i : ι) :
    (g.members i).Serves root :=
  (h.member i).serves (hact i) (hf i)

theorem serves_carry {f : Fleet ι} (hf : forall i, (f.members i).Serves root)
    (j n : Nat) (i : ι) :
    ((f.carry j n).members i).Serves root := by
  induction n generalizing f with
  | zero => exact hf i
  | succ n ih => exact ih ((step_next f (.proceed j)).serves (by simp) hf)

end

/-!
# Calls that are carried through

A call lists the claims and decides. It is over then, unless the claim is its
own already, or is created first.
-/

/-- The allocation is on record: its claims are the live ones, and can be
deleted. -/
structure Records (f : Fleet ι) (root : String) (m : Allocation) : Prop where
  members : forall i, (f.members i).Serves root
  inventory : f.IsInventory root m.toList
  short : forall cidr uid, m[cidr]? = some uid ->
    (ClaimKey.ofCidr root cidr).utf8ByteSize ≤ maxKeySize

def decided (f : Fleet ι) (root : String) (i : ι) (a : Admission) : Fleet ι :=
  ((f.next (.begin i a.uid a.cidr)).setStore
    (f.store.scan f.now ⟨root, none, none⟩).2).setCall f.calls.size a

section

variable {f : Fleet ι} {root : String} {m : Allocation} {i : ι}
  {uid cidr : String}

omit [DecidableEq ι] in
theorem Records.isRooted (h : f.Records root m) : f.IsRooted root :=
  fun i => (h.members i).rooted

theorem Member.Serves.attempt_eq {x : Member} (h : x.Serves root)
    (huid : uid ≠ "") (hvalid : ClaimKey.defect? cidr = none) :
    x.manager.attempt uid cidr = ⟨uid, cidr, .listing .start⟩ := by
  have hentry : Admission.entryError? x.manager.isCancelled uid
      cidr = none := by
    simp [Admission.entryError?, huid, hvalid, h.running]
  rw [Manager.attempt, Admission.start, hentry]

theorem calls_decided (f : Fleet ι) (root : String) (i : ι) (a : Admission) :
    (f.decided root i a).calls[f.calls.size]? = some ⟨i, a⟩ := by
  rw [decided, calls_setCall, if_pos rfl, calls_setStore, next,
    Array.getElem?_push_size]
  rfl

theorem live?_decided (f : Fleet ι) (root : String) (i : ι) (a : Admission)
    (key : String) :
    (f.decided root i a).store.live? (f.decided root i a).now key =
      f.store.live? f.now key :=
  (purged_scan f.store f.now ⟨root, none, none⟩).live?_eq key

theorem Records.fit_eq (h : f.Records root m)
    (hsound : (Turn.fit i uid cidr).IsSound root) {s : Snapshot}
    (hs : f.snapshot root = .ok s) :
    exists n, f.fit i uid cidr =
      (f.decided root i ⟨uid, cidr,
        Admission.decide ⟨uid, cidr, .listing .start⟩ s⟩).carry
        f.calls.size (n + 2) := by
  rcases hsound with ⟨huid, _, hvalid, _⟩
  have hroot := (step_next f (.begin i uid cidr)).isRooted h.isRooted
  have hc : (f.next (.begin i uid cidr)).calls[f.calls.size]? =
      some ⟨i, uid, cidr, .listing .start⟩ := by
    rw [next, Array.getElem?_push_size, (h.members i).attempt_eq huid hvalid]
  rcases carry_listed hroot hc rfl (Listing.reads_start root (f.claims root)) hs
    (Nat.lt_succ_self _) with ⟨k, hk, hdecided⟩
  refine ⟨(f.claims root).length + 1 - k, ?_⟩
  have hsteps : (f.claims root).length + 3 = (f.claims root).length + 1 - k +
      2 + k := by omega
  rw [fit, h.isRooted i, hsteps, carry_add, hdecided]
  rfl

theorem carry_finished {j : Nat} {c : Call ι} (hc : f.calls[j]? = some c)
    {result : Except ClaimError Bool}
    (hphase : c.admission.phase = .finished result) (n : Nat) :
    f.carry j n = f := by
  refine Function.iterate_fixed ?_ n
  simp [next, proceed, hc, hphase]

theorem next_registered {j : Nat} {c : Call ι} (hc : f.calls[j]? = some c)
    (hphase : c.admission.phase = .registering) :
    (f.next (.proceed j)).store = f.store ∧ (f.next (.proceed j)).now = f.now ∧
      (f.next (.proceed j)).calls[j]? =
        some ⟨c.member, { c.admission with phase := .finished (.ok true) }⟩ := by
  simp only [next, proceed, hc, hphase, store_setCall, store_setMember,
    now_setCall, now_setMember, calls_setCall, calls_setMember, if_true,
    Option.map_some, Admission.registered]
  simp

theorem carry_registering {j : Nat} {c : Call ι} (hc : f.calls[j]? = some c)
    (hphase : c.admission.phase = .registering) (n : Nat) :
    (f.carry j (n + 1)).store = f.store ∧ (f.carry j (n + 1)).now = f.now ∧
      (f.carry j (n + 1)).calls[j]? =
        some ⟨c.member, { c.admission with phase := .finished (.ok true) }⟩ := by
  have hnext := next_registered hc hphase
  rw [carry_succ, carry_finished hnext.right.right rfl]
  exact hnext

structure IsFitted (f g : Fleet ι) (root : String) (m : Allocation) (i : ι)
    (uid cidr : String) :
    Prop where
  answer : g.calls[f.calls.size]? = some ⟨i, uid, cidr,
    .finished (.ok (m.fit uid cidr).1)⟩
  inventory : g.IsInventory root (m.fit uid cidr).2.toList
  unwritten : m[cidr]? ≠ none ->
    g.store = (f.store.scan f.now ⟨root, none, none⟩).2

theorem Records.fitted_refused (h : f.Records root m)
    (hfit : m.fit uid cidr = (false, m)) (n : Nat) :
    IsFitted f ((f.decided root i ⟨uid, cidr, .finished (.ok false)⟩).carry
      f.calls.size n)
      root m i uid cidr := by
  rw [carry_finished (calls_decided f root i _) rfl]
  refine ⟨?_, ?_, fun _ => rfl⟩
  · rw [calls_decided, hfit]
  · rw [hfit]
    exact h.inventory.of_live?_eq (live?_decided f root i _)

theorem Records.fitted_owned (h : f.Records root m)
    (hfit : m.fit uid cidr = (true, m)) (n : Nat) :
    IsFitted f ((f.decided root i ⟨uid, cidr, .registering⟩).carry
      f.calls.size (n + 1))
      root m i uid cidr := by
  rcases carry_registering
    (calls_decided f root i ⟨uid, cidr, .registering⟩) rfl n with
    ⟨hstore, hnow, hcall⟩
  refine ⟨?_, ?_, fun _ => hstore⟩
  · rw [hcall, hfit]
  · rw [hfit]
    apply h.inventory.of_live?_eq
    intro key
    rw [hstore, hnow]
    exact live?_decided f root i _ key

omit [DecidableEq ι] in
theorem Member.Serves.validate_command {x : Member} (h : x.Serves root)
    {a : Admission} (hvalid : ClaimKey.defect? a.cidr = none)
    (hshort : (ClaimKey.ofCidr root a.cidr).utf8ByteSize ≤ maxKeySize)
    (huid : a.uid.utf8ByteSize ≤ maxValueSize) :
    (a.command x.manager.settings).validate = .ok () := by
  have httl : x.manager.settings.ttlMs ≠ 0 := by
    intro hzero
    have hsound := h.sound
    rw [ClaimSettings.defect?, hzero] at hsound
    split at hsound <;> simp at hsound
  rw [Admission.command, Admission.key, h.rooted]
  exact validate_createWithTtl
    (ClaimKey.checkKey_ofCidr hvalid hshort) huid httl

theorem Records.fitted_created (h : f.Records root m)
    (hsound : (Turn.fit i uid cidr).IsSound root) (hfree : m[cidr]? = none)
    (hfit : m.fit uid cidr = (true, m.insert cidr uid)) (n : Nat) :
    IsFitted f ((f.decided root i ⟨uid, cidr, .creating⟩).carry
      f.calls.size (n + 2))
      root m i uid cidr := by
  rcases hsound with ⟨_, huid, hvalid, hshort⟩
  have hinventory : (f.decided root i ⟨uid, cidr, .creating⟩).IsInventory
      root m.toList :=
    h.inventory.of_live?_eq (live?_decided f root i _)
  have hcommand := (h.members i).validate_command (a :=
    ⟨uid, cidr, .creating⟩) hvalid hshort huid
  rcases hinventory.created h.isRooted (calls_decided f root i _) rfl hvalid
    (Allocation.notMem_of_free hfree) hcommand with ⟨hcreated, hcalls⟩
  have hcall : ((f.decided root i ⟨uid, cidr, .creating⟩).next
      (.proceed f.calls.size)).calls[f.calls.size]? =
        some ⟨i, uid, cidr, .registering⟩ := by
    rw [hcalls, calls_setCall, if_pos rfl, calls_decided]
    rfl
  rcases carry_registering hcall rfl n with ⟨hstore, hnow, hover⟩
  rw [carry_succ]
  refine ⟨?_, ?_, fun howned => absurd hfree howned⟩
  · rw [hover, hfit]
  · rw [hfit]
    refine (hcreated.congr (Allocation.nodup_toList _)
      (Allocation.mem_toList_insert hfree)).of_live?_eq ?_
    intro key
    rw [hstore, hnow]

/-- A call that is carried through does what the fairness rule does. -/
theorem Records.fitted (h : f.Records root m)
    (hsound : (Turn.fit i uid cidr).IsSound root)
    (hsize : m.size < wordSize 32) :
    IsFitted f (f.fit i uid cidr) root m i uid cidr := by
  rcases h.inventory.snapshot_shows hsize with ⟨s, hs, hshows⟩
  rcases h.fit_eq hsound hs with ⟨n, hfit⟩
  rw [hshows.decide_eq] at hfit
  rw [hfit]
  cases hm : m[cidr]? with
  | some owner =>
      by_cases hown : owner = uid
      · simp only [if_pos hown]
        exact h.fitted_owned
          (by simp [Allocation.fit_of_owned hm, hown]) (n + 1)
      · simp only [if_neg hown]
        exact h.fitted_refused
          (by simp [Allocation.fit_of_owned hm, hown]) (n + 2)
  | none =>
      by_cases hadmits : m.Admits uid
      · simp only [if_pos hadmits]
        exact h.fitted_created hsound hm
          (by rw [Allocation.fit_of_free hm, if_pos hadmits]) n
      · simp only [if_neg hadmits]
        exact h.fitted_refused
          (by rw [Allocation.fit_of_free hm, if_neg hadmits]) (n + 2)

theorem Records.fit (h : f.Records root m)
    (hsound : (Turn.fit i uid cidr).IsSound root)
    (hsize : m.size < wordSize 32) :
    (f.fit i uid cidr).Records root (m.fit uid cidr).2 where
  members :=
    serves_carry ((step_next f (.begin i uid cidr)).serves (by simp) h.members)
      _ _
  inventory := (h.fitted hsound hsize).inventory
  short := by
    intro c u hc
    rcases Allocation.getElem?_fit hc with hold | hnew
    · exact h.short c u hold
    · rw [hnew]
      exact hsound.right.right.right

end

/-!
# What happens between calls

Questions and renewals take nothing away. Claims are lost by the clock, and to
those who delete them.
-/

section

variable {f g : Fleet ι} {root : String} {m : Allocation}

omit [DecidableEq ι] in
theorem Records.of_holds_iff (h : f.Records root m)
    (hmembers : forall i, (g.members i).Serves root)
    (hsame : forall key uid, g.Holds key uid <-> f.Holds key uid) :
    g.Records root m where
  members := hmembers
  inventory := h.inventory.of_holds_iff hsame
  short := h.short

omit [DecidableEq ι] in
theorem Records.setStore (h : f.Records root m) {store : MemoryStore}
    (hpurged : Purged f.now f.store store) :
    (f.setStore store).Records root m where
  members := h.members
  inventory := h.inventory.of_live?_eq hpurged.live?_eq
  short := h.short

omit [DecidableEq ι] in
theorem purged_ask (f : Fleet ι) (i : ι) (cidr : String) :
    Purged f.now f.store (f.ask i cidr).2 := by
  unfold ask
  cases ClaimKey.validate cidr with
  | error e => exact purged_of_get?_eq fun _ => rfl
  | ok => exact purged_read f.store f.now _

omit [DecidableEq ι] in
theorem purged_survey (hroot : f.IsRooted root) (i : ι) :
    Purged f.now f.store (f.survey i).2 := by
  rw [survey_eq hroot i]
  exact purged_scan f.store f.now _

theorem Step.live_of_renew {i : ι} {id : Nat} (h : Step f (.renew i id) g)
    {key : String} (hlive : f.store.live? f.now key ≠ none) :
    g.store.live? g.now key ≠ none := by
  cases h with
  | swapped => exact live?_renew_ne_none hlive
  | @looked _ _ _ r =>
      have hsame := (purged_read f.store f.now r.lease.key).live?_eq key
      rw [← hsame] at hlive
      exact hlive
  | _ => exact hlive

theorem Step.holds_iff_of_renew {i : ι} {id : Nat} (h : Step f (.renew i id) g)
    (hroot : f.IsRooted root) (key uid : String) :
    g.Holds key uid <-> f.Holds key uid := by
  constructor
  · intro hg
    rcases h.holds_before hroot hg with hf | ⟨_, _, hact, _⟩
    · exact hf
    · cases hact
  · intro hf
    refine h.holds (h.live_of_renew ?_) hf
    rcases hf with ⟨e, hlive, _⟩
    rw [hlive]
    simp

theorem holds_elapse_iff (f : Fleet ι) (nanos : Nat) (key uid : String) :
    (f.next (.elapse nanos)).Holds key uid <->
      f.Holds key uid ∧ f.store.lapsesBy (f.now + nanos) key = false := by
  constructor
  · rintro ⟨e, hlive, hvalue⟩
    refine ⟨⟨e, live?_of_later (Nat.le_add_right f.now nanos) hlive, hvalue⟩,
      ?_⟩
    rcases live?_eq_some_iff.mp hlive with ⟨hget, hlapsed⟩
    change f.store.get? key = some e at hget
    rw [lapsesBy, hget]
    exact hlapsed
  · rintro ⟨⟨e, hlive, hvalue⟩, hlapses⟩
    have hget := (live?_eq_some_iff.mp hlive).left
    rw [lapsesBy, hget] at hlapses
    exact ⟨e, live?_eq_some_iff.mpr ⟨hget, hlapses⟩, hvalue⟩

omit [DecidableEq ι] in
theorem Records.checkKey (h : f.Records root m) {key uid : String}
    (hlead : Text.startsWith key root = true) (hholds : f.Holds key uid) :
    Command.checkKey key = .ok () := by
  rcases (h.inventory.holds_iff key uid hlead).mp hholds with
    ⟨claim, hclaim, rfl, _⟩
  exact ClaimKey.checkKey_ofCidr (h.inventory.valid claim hclaim)
    (h.short claim.1 claim.2 (Allocation.mem_toList_iff.mp hclaim))

theorem Records.holds_delete_iff (h : f.Records root m) (key : String)
    {k uid : String} (hlead : Text.startsWith k root = true) :
    (f.next (.delete key)).Holds k uid <-> f.Holds k uid ∧
      (k == key) = false := by
  rw [Holds, next, store_setStore, now_setStore, beq_eq_false_iff_ne]
  by_cases hkey : Command.checkKey key = .ok ()
  · rw [live?_delete hkey, Holds]
    by_cases hk : key = k
    · simp [hk]
    · simp [hk, Ne.symm hk]
  · rw [live?_delete_of_refused hkey]
    constructor
    · intro hholds
      refine ⟨hholds, ?_⟩
      rintro rfl
      exact hkey (h.checkKey hlead hholds)
    · exact And.left

omit [DecidableEq ι] in
theorem Records.lose (h : f.Records root m)
    (hmembers : forall i, (g.members i).Serves root)
    {gone : String -> Bool}
    (hholds : forall key uid, Text.startsWith key root = true ->
      (g.Holds key uid <-> f.Holds key uid ∧ gone key = false)) :
    g.Records root (m.lose (fun cidr => gone (ClaimKey.ofCidr root cidr))) where
  members := hmembers
  inventory := h.inventory.lose gone hholds
  short := by
    intro cidr uid hcidr
    rw [Allocation.getElem?_lose] at hcidr
    split at hcidr
    · cases hcidr
    · exact h.short cidr uid hcidr

/-- What is on record stays on record, turn by turn. -/
theorem Records.turn (h : f.Records root m) {t : Turn ι}
    (hsound : t.IsSound root) (hsize : m.size < wordSize 32) :
    (f.turn t).Records root (t.book root f m) := by
  have hmembers {act : Act ι} (hact : forall i, act ≠ .cancel i) :
      forall i, ((f.next act).members i).Serves root :=
    (step_next f act).serves hact h.members
  cases t with
  | fit i uid cidr => exact h.fit hsound hsize
  | ask i cidr => exact h.setStore (purged_ask f i cidr)
  | survey i => exact h.setStore (purged_survey h.isRooted i)
  | renew i id =>
      exact h.of_holds_iff (hmembers (by simp))
        ((step_next f (.renew i id)).holds_iff_of_renew h.isRooted)
  | elapse nanos =>
      exact h.lose (hmembers (by simp)) fun key uid _ =>
        holds_elapse_iff f nanos key uid
  | sweep => exact h.setStore (purged_expireDue f.store f.now)
  | delete key =>
      exact h.lose (hmembers (by simp)) fun _ _ hlead =>
        h.holds_delete_iff key hlead

end

/-!
# Refinement
-/

omit [DecidableEq ι] in
theorem Turn.size_book_le (root : String) (f : Fleet ι) (m : Allocation)
    (t : Turn ι) :
    (t.book root f m).size ≤ m.size + 1 := by
  have hlose (p : String -> Bool) : (m.lose p).size ≤ m.size + 1 :=
    Nat.le_succ_of_le Std.ExtTreeMap.size_filter_le_size
  cases t with
  | fit i uid cidr => exact m.size_fit_le uid cidr
  | elapse nanos => exact hlose _
  | delete key => exact hlose _
  | _ => exact Nat.le_succ m.size

section

variable {root : String} {start : Fleet ι} {turns : List (Turn ι)}

omit [DecidableEq ι] in
theorem IsFresh.serves (h : start.IsFresh root) (i : ι) :
    (start.members i).Serves root := by
  rcases h.made i with ⟨s, hroot, hnew⟩
  rcases settings_of_new hnew with ⟨hsettings, hrunning, _⟩
  refine ⟨by rw [hsettings, hroot], ?_, hrunning⟩
  rw [hsettings]
  cases hdefect : s.defect? with
  | none => rfl
  | some defect =>
      simp [Manager.new, ClaimSettings.validate, hdefect, Except.map] at hnew

omit [DecidableEq ι] in
theorem IsFresh.records (h : start.IsFresh root) : start.Records root ∅ where
  members := h.serves
  inventory := by
    refine ⟨Allocation.nodup_toList ∅, by simp, ?_⟩
    intro key uid _
    simp [Holds, h.store, live?_of_get?_eq_none (get?_empty key)]
  short := by simp

theorem played_succ {n : Nat} {t : Turn ι} (h : turns[n]? = some t) :
    start.played turns (n + 1) = (start.played turns n).turn t :=
  stateAt_succ h

theorem records_played (hfresh : start.IsFresh root)
    (hsound : forall t, t ∈ turns -> t.IsSound root)
    (hsize : forall n, (ledger root start turns n).size < wordSize 32)
    (n : Nat) :
    (start.played turns n).Records root (ledger root start turns n) := by
  induction n with
  | zero => exact hfresh.records
  | succ n ih =>
      rw [ledger]
      cases ht : turns[n]? with
      | none =>
          rw [played, stateAt_succ_of_none ht]
          exact ih
      | some t =>
          rw [played_succ ht]
          exact ih.turn (hsound t (List.mem_of_getElem? ht)) (hsize n)

/-- Members under one root are asked for claims one at a time, and anything but
a shutdown may happen in between. (1) A call answers as the fairness rule does,
given the allocation that it has made so far. (2) For a resource that is owned
it writes nothing, and only what has lapsed is gone from the store. (3) Each
member reads every owner off the store, and (4) lists all claims with their
counts, whatever the size of its pages. -/
theorem admission_refines_allocation {root : String} (start : Fleet ι)
    (turns : List (Turn ι))
    (hfresh : start.IsFresh root)
    (hsound : forall t, t ∈ turns -> t.IsSound root)
    (hsize : forall n, (ledger root start turns n).size < wordSize 32)
    (n : Nat) :
    (forall i uid cidr, turns[n]? = some (.fit i uid cidr) ->
      (start.played turns (n + 1)).calls[(start.played turns n).calls.size]? =
        some ⟨i, uid, cidr,
          .finished (.ok ((ledger root start turns n).fit uid cidr).1)⟩) ∧
    (forall i uid cidr, turns[n]? = some (.fit i uid cidr) ->
      (ledger root start turns n)[cidr]? ≠ none ->
      (start.played turns (n + 1)).store = (start.played turns n).store.purgeAll
          (start.played turns n).now (fun key => Text.startsWith key root) ∧
        (start.played turns (n + 1)).store.log =
          (start.played turns n).store.log ∧
        forall key, (start.played turns (n + 1)).store.live?
          (start.played turns n).now key =
          (start.played turns n).store.live? (start.played turns n).now key) ∧
    (forall i cidr, ClaimKey.defect? cidr = none ->
      ((start.played turns n).ask i cidr).1 =
        .ok (ledger root start turns n)[cidr]?) ∧
    forall i, exists s, ((start.played turns n).survey i).1 =
      .finished (.ok s) ∧
      s.owners = ledger root start turns n ∧
      forall uid, s.count uid = (ledger root start turns n).held uid := by
  have hrecords := records_played hfresh hsound hsize n
  have hfitted {i : ι} {uid cidr : String}
      (ht : turns[n]? = some (.fit i uid cidr)) :
      IsFitted (start.played turns n) (start.played turns (n + 1)) root
        (ledger root start turns n) i uid cidr := by
    rw [played_succ ht]
    exact hrecords.fitted (hsound _ (List.mem_of_getElem? ht)) (hsize n)
  refine ⟨?_, ?_, ?_, ?_⟩
  · intro i uid cidr ht
    exact (hfitted ht).answer
  · intro i uid cidr ht howned
    have hstore := (hfitted ht).unwritten howned
    refine ⟨hstore, ?_, ?_⟩
    · rw [hstore]
      exact log_purgeAll _ _ _
    · intro key
      rw [hstore]
      exact (purged_scan _ _ _).live?_eq key
  · intro i cidr hvalid
    exact ask_eq hrecords.inventory hrecords.isRooted i hvalid
  · intro i
    rcases hrecords.inventory.snapshot_shows (hsize n) with ⟨s, hs, hshows⟩
    refine ⟨s, ?_, hshows.owners, hshows.count⟩
    rw [survey_eq hrecords.isRooted i, hs]

theorem size_ledger_le (n : Nat) :
    (ledger root start turns n).size ≤ turns.length := by
  have hle : (ledger root start turns n).size ≤ min n turns.length := by
    induction n with
    | zero => simp [ledger]
    | succ n ih =>
        rw [ledger]
        cases ht : turns[n]? with
        | none => exact Nat.le_trans ih (by omega)
        | some t =>
            rcases List.getElem?_eq_some_iff.mp ht with ⟨hn, _⟩
            have hbook :=
              t.size_book_le root (start.played turns n)
                (ledger root start turns n)
            exact Nat.le_trans hbook (by omega)
  omega

end

def pair : Fleet Bool :=
  { (idle .default : Fleet Bool) with
    members := fun i =>
      { manager :=
          { settings := { ClaimSettings.default with pageSize := if i then 2 else 1 }
            isCancelled := false, registry := .empty }
        replies := fun _ => none } }

theorem isFresh_pair : pair.IsFresh "/ipclaim/" where
  store := rfl
  calls := rfl
  made := by
    intro i
    cases i with
    | false => exact ⟨{ ClaimSettings.default with pageSize := 1 }, rfl, rfl⟩
    | true => exact ⟨{ ClaimSettings.default with pageSize := 2 }, rfl, rfl⟩
  silent := fun _ _ => rfl

/-- Two owners divide some resources. Most of the claims lapse, one is renewed
and then deleted. -/
def dividing : List (Turn Bool) :=
  [.fit false "a" "x", .fit true "b" "y", .fit true "b" "z", .fit false "b" "w",
    .fit true "a" "y", .elapse 3000000000, .renew false 0, .renew false 0,
    .renew false 0, .fit false "a" "x", .elapse 8000000000, .survey true,
    .fit true "b" "z", .delete "/ipclaim/x", .ask false "x", .sweep,
    .fit true "b" "w"]

theorem admission_refines_allocation_dividing :
    (pair.played dividing 4).calls[3]? = some ⟨false, "b", "w",
      .finished (.ok false)⟩ ∧
    (pair.played dividing 17).calls[7]? = some ⟨true, "b", "w",
      .finished (.ok true)⟩ ∧
    (pair.played dividing 10).store.log = (pair.played dividing 9).store.log ∧
    ((pair.played dividing 11).ask true "y").1 = .ok none ∧
    exists s, ((pair.played dividing 13).survey false).1 = .finished (.ok s) ∧
      s.owners.toList = [("x", "a"), ("z", "b")] ∧ s.count "b" = 1 := by
  have hsound : forall t, t ∈ dividing -> t.IsSound "/ipclaim/" := by
    decide +kernel
  have hsize (n : Nat) : (ledger "/ipclaim/" pair dividing n).size <
      wordSize 32 :=
    Nat.lt_of_le_of_lt (size_ledger_le n) (by decide)
  have hrefines :=
    admission_refines_allocation pair dividing isFresh_pair hsound hsize
  have hrefused : ((ledger "/ipclaim/" pair dividing 3).fit "b" "w").1 =
      false := by
    decide +kernel
  have hgranted : ((ledger "/ipclaim/" pair dividing 16).fit "b" "w").1 =
      true := by
    decide +kernel
  have howned : (ledger "/ipclaim/" pair dividing 9)["x"]? ≠ none := by
    decide +kernel
  have hlapsed : (ledger "/ipclaim/" pair dividing 11)["y"]? = none := by
    decide +kernel
  have hcalls : (pair.played dividing 3).calls.size = 3 ∧
      (pair.played dividing 16).calls.size = 7 := by decide +kernel
  have hlisted : (ledger "/ipclaim/" pair dividing 13).toList =
      [("x", "a"), ("z", "b")] ∧
      (ledger "/ipclaim/" pair dividing 13).held "b" = 1 := by decide +kernel
  refine ⟨?_, ?_, ?_, ?_, ?_⟩
  · have hanswer := (hrefines 3).left false "b" "w" rfl
    rw [hcalls.left, hrefused] at hanswer
    exact hanswer
  · have hanswer := (hrefines 16).left true "b" "w" rfl
    rw [hcalls.right, hgranted] at hanswer
    exact hanswer
  · have hunwritten := (hrefines 9).right.left false "a" "x" rfl howned
    simp only [Nat.reduceAdd] at hunwritten
    exact hunwritten.right.left
  · rw [← hlapsed]
    exact (hrefines 11).right.right.left true "y" rfl
  · rcases (hrefines 13).right.right.right false with ⟨s, hs, howners, hcount⟩
    exact ⟨s, hs, by rw [howners, hlisted.left], by rw [hcount, hlisted.right]⟩

end Fleet
end FairLease
