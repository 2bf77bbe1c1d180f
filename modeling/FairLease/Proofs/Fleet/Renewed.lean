import FairLease.Proofs.Fleet.Ownership

/-!
# Who renews a claim

The registry of a manager knows renewals by their keys alone. A claim that is
created while a renewal for another owner still runs under its key is therefore
not renewed at all, and this is the only case in which it is not.
-/

namespace FairLease
namespace Fleet

open MemoryStore

variable {ι : Type} [DecidableEq ι]

/-!
# Guarded claims

A renewal leaves if it has seen another value and was not asked for its claim
since. While its owner's value is stored, a renewal can only have seen another
one before it was last asked.
-/

/-- The renewal works for the claim of `uid`, and nothing it has read so far
makes it leave. -/
structure IsGuarded (m : Member) (key uid : String) (id : Nat) (r : Renewal) :
    Prop where
  known : m.manager.renewal? id = some r
  key : r.lease.key = key
  owner : r.lease.owner = uid
  alive : r.phase ≠ .released ∧ r.phase ≠ .ended
  leaving : forall seen, r.phase = .releasing seen -> seen < r.touches
  doubting : forall seen found, r.phase = .rereading seen ->
    m.replies id = some (.found (.ok found)) ->
    found.entry.map (·.value) = some uid ∨ seen < r.touches

section

variable {m m' : Member} {key uid : String} {id : Nat} {r r' : Renewal}

theorem IsGuarded.keep (h : IsGuarded m key uid id r)
    (hr' : m'.manager.renewal? id = some r)
    (hreplies : forall reply, m'.replies id = some reply ->
      m.replies id = some reply) :
    IsGuarded m' key uid id r :=
  { h with
    known := hr'
    doubting := fun seen found hphase hreply =>
      h.doubting seen found hphase (hreplies _ hreply) }

/-- A renewal that was asked for its claim again does not leave for what it saw
before. -/
theorem isGuarded_touch (hknown : m'.manager.renewal? id = some r.touch)
    (hkey : r.lease.key = key) (howner : r.lease.owner = uid)
    (halive : r.phase ≠ .released ∧ r.phase ≠ .ended)
    (hseen : forall seen, r.phase = .rereading seen ∨
      r.phase = .releasing seen ->
      seen ≤ r.touches) : IsGuarded m' key uid id r.touch where
  known := hknown
  key := hkey
  owner := howner
  alive := halive
  leaving := fun seen hphase => Nat.lt_succ_of_le (hseen seen (Or.inr hphase))
  doubting := fun seen _ hphase _ =>
    Or.inr (Nat.lt_succ_of_le (hseen seen (Or.inl hphase)))

theorem isGuarded_of_calm (hknown : m'.manager.renewal? id = some r')
    (hkey : r'.lease.key = key) (howner : r'.lease.owner = uid)
    (hcalm : r'.phase = .waiting ∨ r'.phase = .swapping) :
    IsGuarded m' key uid id r' where
  known := hknown
  key := hkey
  owner := howner
  alive := by rcases hcalm with hcalm | hcalm <;> simp [hcalm]
  leaving := by
    intro seen hphase
    rcases hcalm with hcalm | hcalm <;> simp [hcalm] at hphase
  doubting := by
    intro seen found hphase
    rcases hcalm with hcalm | hcalm <;> simp [hcalm] at hphase

theorem replies_post_of_ne {id' : Nat} (hne : id' ≠ id) (reply : Option Reply) :
    (m.post id' reply).replies id = m.replies id := by
  simp [Member.post, hne.symm]

theorem replies_post_self (reply : Option Reply) :
    (m.post id reply).replies id = reply := by
  simp [Member.post]

theorem replies_of_post_none {id' : Nat} {reply : Reply}
    (h : (m.post id' none).replies id = some reply) :
    m.replies id = some reply := by
  by_cases hid : id' = id
  · subst hid
    rw [replies_post_self] at h
    cases h
  · rw [replies_post_of_ne hid] at h
    exact h

/-- A renewal that takes up an answer goes on, since it has not been told of
another value since it was last asked for its claim. -/
theorem IsGuarded.answered (h : IsGuarded m key uid id r) {id' : Nat}
    {reply : Reply} (hreply : m.replies id' = some reply) :
    exists r', IsGuarded ((m.step (reply.event id')).post id' none)
      key uid id r' := by
  rcases Manager.step_renewal (reply.event id') h.known with ⟨r', hr', hmove⟩
  cases reply with
  | swapped result =>
      cases hmove with
      | stay => exact ⟨r, h.keep hr' (fun _ => replies_of_post_none)⟩
      | answered => exact ⟨_, isGuarded_of_calm hr' h.key h.owner (Or.inl rfl)⟩
      | doubted hphase =>
          refine ⟨_, ⟨hr', h.key, h.owner, by simp [Renewal.enter], ?_, ?_⟩⟩
          · intro seen hreleasing
            cases hreleasing
          · intro seen found _ hpending
            rw [replies_post_self] at hpending
            cases hpending
  | found result =>
      cases hmove with
      | stay => exact ⟨r, h.keep hr' (fun _ => replies_of_post_none)⟩
      | undecided => exact ⟨_, isGuarded_of_calm hr' h.key h.owner (Or.inl rfl)⟩
      | confirmed => exact ⟨_, isGuarded_of_calm hr' h.key h.owner (Or.inl rfl)⟩
      | @lost found seen _ hphase hother =>
          refine ⟨_, ⟨hr', h.key, h.owner, by simp [Renewal.enter], ?_, ?_⟩⟩
          · intro seen' hreleasing
            cases hreleasing
            rcases h.doubting seen found hphase hreply with hown | hlater
            · rw [h.owner] at hother
              exact absurd hown hother
            · exact hlater
          · intro seen' found' hrereading
            cases hrereading

theorem IsGuarded.worked (h : IsGuarded m key uid id r) {id' now : Nat}
    {e : Manager.Event}
    (he : e = .tick id' now ∨ e = .release id' ∨ e = .finish id') :
    exists r', IsGuarded (m.step e) key uid id r' := by
  rcases Manager.step_renewal e h.known with ⟨r', hr', hmove⟩
  rcases he with rfl | rfl | rfl
  · cases hmove with
    | stay => exact ⟨r, h.keep hr' (fun _ hreply => hreply)⟩
    | ticked => exact ⟨_, isGuarded_of_calm hr' h.key h.owner (Or.inr rfl)⟩
  · cases hmove with
    | stay => exact ⟨r, h.keep hr' (fun _ hreply => hreply)⟩
    | kept => exact ⟨_, isGuarded_of_calm hr' h.key h.owner (Or.inl rfl)⟩
    | released hphase =>
        exact absurd (h.leaving r.touches hphase) (Nat.lt_irrefl _)
  · cases hmove with
    | stay => exact ⟨r, h.keep hr' (fun _ hreply => hreply)⟩
    | finished hphase => exact absurd hphase h.alive.left

theorem IsGuarded.looked (h : IsGuarded m key uid id r) {id' : Nat}
    {s : Renewal} {store : MemoryStore} {found : ReadResult}
    (hs : m.manager.renewal? id' = some s)
    (hfound : found.entry.map (·.value) = store.value? s.lease.key)
    (hvalue : store.value? key = some uid) :
    IsGuarded (m.post id' (some (.found (.ok found)))) key uid id r := by
  by_cases hid : id' = id
  · subst hid
    rw [h.known] at hs
    cases hs
    refine { h with known := h.known, doubting := ?_ }
    intro seen found' hphase hreply
    rw [replies_post_self] at hreply
    cases hreply
    rw [hfound, h.key]
    exact Or.inl hvalue
  · refine h.keep h.known ?_
    intro reply hreply
    rw [replies_post_of_ne hid] at hreply
    exact hreply

theorem IsGuarded.swapped (h : IsGuarded m key uid id r) (id' : Nat)
    (result : Except StoreError WriteResult) :
    IsGuarded (m.post id' (some (.swapped result))) key uid id r := by
  by_cases hid : id' = id
  · subst hid
    refine { h with known := h.known, doubting := ?_ }
    intro seen found' hphase hreply
    rw [replies_post_self] at hreply
    cases hreply
  · refine h.keep h.known ?_
    intro reply hreply
    rw [replies_post_of_ne hid] at hreply
    exact hreply

end

omit [DecidableEq ι] in
/-- As long as its value is stored and the manager is not cancelled, a claim
stays guarded. -/
theorem IsGuarded.move {f : Fleet ι} {store : MemoryStore} {i : ι} {act : Act ι}
    {m m' : Member} {key uid : String} {id : Nat} {r : Renewal}
    (hmove : Member.Move f store i act m m')
    (hcancelled : m'.manager.isCancelled = false)
    (hvalue : store.value? key = some uid) (h : IsGuarded m key uid id r) :
    exists r', IsGuarded m' key uid id r' := by
  cases hmove with
  | stay => exact ⟨r, h⟩
  | ensured hc hi hphase =>
      rcases Manager.step_renewal _ h.known with ⟨r', hr', hmove'⟩
      cases hmove' with
      | stay => exact ⟨r, h.keep hr' (fun _ hreply => hreply)⟩
      | touched =>
          refine ⟨_, ⟨hr', h.key, h.owner, h.alive, ?_, ?_⟩⟩
          · intro seen hreleasing
            exact Nat.lt_succ_of_lt (h.leaving seen hreleasing)
          · intro seen found hrereading hreply
            rcases h.doubting seen found hrereading hreply with hown | hlater
            · exact Or.inl hown
            · exact Or.inr (Nat.lt_succ_of_lt hlater)
  | answered hreply => exact h.answered hreply
  | worked he _ => exact h.worked he
  | swapped => exact ⟨r, h.swapped _ _⟩
  | looked hs _ hfound => exact ⟨r, h.looked hs hfound hvalue⟩
  | stopped hstopped =>
      rw [Manager.isCancelled_of_step hcancelled] at hstopped
      cases hstopped
  | cancelled => cases hcancelled
  | drained =>
      rcases Manager.step_renewal .drain h.known with ⟨r', hr', hmove'⟩
      cases hmove' with
      | stay => exact ⟨r, h.keep hr' (fun _ hreply => hreply)⟩

/-!
# Runs of a fleet
-/

/-- A renewal of the claim is running, and it is the owner's. -/
def IsRenewedBy (m : Manager) (key uid : String) : Prop :=
  exists id r, m.registry.running? key = some id ∧ m.renewal? id = some r ∧
    r.lease.owner = uid

def RegistersAt (start : Fleet ι) (acts : List (Act ι)) (j n : Nat) : Prop :=
  acts[n]? = some (.proceed j) ∧
    exists c, (start.after acts n).calls[j]? = some c ∧
      c.admission.phase = .registering

section

variable {root : String} {start : Fleet ι} {acts : List (Act ι)}

theorem call_after {j m n : Nat} {c : Call ι} (hmn : m ≤ n)
    (hc : (start.after acts m).calls[j]? = some c) :
    exists c', (start.after acts n).calls[j]? = some c' ∧ c'.member = c.member ∧
      c'.admission.uid = c.admission.uid ∧
        c'.admission.cidr = c.admission.cidr := by
  refine stateAt_related
    (R := fun f g : Fleet ι => forall c, f.calls[j]? = some c ->
      exists c', g.calls[j]? = some c' ∧
      c'.member = c.member ∧ c'.admission.uid = c.admission.uid ∧
      c'.admission.cidr = c.admission.cidr)
    ?_ ?_ ?_ start acts hmn c hc
  · intro f c hc
    exact ⟨c, hc, rfl, rfl, rfl⟩
  · intro f g h hfg hgh c hc
    rcases hfg c hc with ⟨c', hc', hmember', huid', hcidr'⟩
    rcases hgh c' hc' with ⟨c'', hc'', hmember'', huid'', hcidr''⟩
    exact ⟨c'', hc'', hmember''.trans hmember', huid''.trans huid',
      hcidr''.trans hcidr'⟩
  · intro f act c hc
    rcases (step_next f act).call hc with ⟨c', hc', hmove⟩
    exact ⟨c', hc', hmove.request_eq⟩

theorem isCancelled_after {i : ι} {m n : Nat} (hmn : m ≤ n)
    (h : ((start.after acts n).members i).manager.isCancelled = false) :
    ((start.after acts m).members i).manager.isCancelled = false := by
  refine stateAt_related
    (R := fun f g : Fleet ι => (g.members i).manager.isCancelled = false ->
      (f.members i).manager.isCancelled = false)
    ?_ ?_ ?_ start acts hmn h
  · intro f hf
    exact hf
  · intro f g h hfg hgh hh
    exact hfg (hgh hh)
  · intro f act hg
    rcases ((step_next f act).member i).manager_cases with hsame | ⟨e, hstep⟩
    · rw [hsame] at hg
      exact hg
    · rw [hstep] at hg
      exact Manager.isCancelled_of_step hg

theorem wellFormed_after (hfresh : start.IsFresh root) (i : ι) (n : Nat) :
    ((start.after acts n).members i).manager.WellFormed := by
  refine after_invariant (P := fun f : Fleet ι =>
    (f.members i).manager.WellFormed) ?_ ?_ n
  · rcases hfresh.made i with ⟨s, _, hnew⟩
    exact Manager.wellFormed_of_empty (settings_of_new hnew).right.right
  · intro f act g hstep hf
    rcases (hstep.member i).manager_cases with hsame | ⟨e, he⟩
    · rw [hsame]
      exact hf
    · rw [he]
      exact Manager.wellFormed_step hf e

omit [DecidableEq ι] in
theorem IsGuarded.isRenewedBy {m : Member} {key uid : String} {id : Nat}
    {r : Renewal} (h : IsGuarded m key uid id r) (hm : m.manager.WellFormed)
    (hcancelled : m.manager.isCancelled = false) :
    IsRenewedBy m.manager key uid :=
  ⟨id, r, (Manager.running?_eq_some_iff hm hcancelled).mpr
    ⟨r, h.known, h.key, h.alive.left, h.alive.right⟩, h.known, h.owner⟩

omit [DecidableEq ι] in
/-- Asking for a claim guards it, unless its key is renewed for somebody
else. -/
theorem isGuarded_of_ensure {m : Member} (hm : m.manager.WellFormed)
    (hcancelled : m.manager.isCancelled = false) (now : Nat) (lease : Lease)
    (hown : forall id r, m.manager.registry.running? lease.key = some id ->
      m.manager.renewal? id = some r -> r.lease.owner = lease.owner) :
    exists id r, IsGuarded (m.step (.ensure now lease))
      lease.key lease.owner id r := by
  rcases m.manager.registry.ensure_cases m.manager.isCancelled now lease with
    ⟨hshut, _⟩ | ⟨_, id, hrunning, hensure⟩ | ⟨_, _, hensure⟩
  · rw [hcancelled] at hshut
    cases hshut
  · rcases (Manager.running?_eq_some_iff hm hcancelled).mp hrunning with
      ⟨r, hr, hkey, hreleased, hended⟩
    have hknown : (m.step (.ensure now lease)).manager.renewal? id =
        some r.touch := by
      rw [Manager.renewal?] at hr
      rw [Member.manager_step, Manager.renewal?, Manager.step, hensure,
        Registry.renewal?_update, if_pos rfl, hr]
      rfl
    exact ⟨id, r.touch,
      isGuarded_touch hknown hkey (hown id r hrunning hr) ⟨hreleased, hended⟩
      (fun seen => hm.seen id r seen hr)⟩
  · refine ⟨m.manager.registry.renewals.size, .start now lease,
      isGuarded_of_calm ?_ rfl rfl (Or.inl rfl)⟩
    rw [Member.manager_step, Manager.renewal?, Manager.step, hensure,
      Registry.renewal?_begin, if_pos rfl]

theorem members_registered {f : Fleet ι} {j : Nat} {c : Call ι}
    (hc : f.calls[j]? = some c) (hphase : c.admission.phase = .registering) :
    (f.next (.proceed j)).members c.member = (f.members c.member).step
      (.ensure f.now ((f.members c.member).manager.lease c.admission)) := by
  simp [next, proceed, hc, hphase, members_setMember]

/-- A guarded claim stays guarded while it is stored and its manager is not
cancelled. -/
theorem isGuarded_after {i : ι} {key uid : String} {m n : Nat} (hmn : m ≤ n)
    (hguarded : exists id r, IsGuarded ((start.after acts m).members i)
      key uid id r)
    (hcancelled : ((start.after acts n).members i).manager.isCancelled = false)
    (hvalue : forall k, m ≤ k -> k ≤ n ->
      (start.after acts k).store.value? key = some uid) :
    exists id r, IsGuarded ((start.after acts n).members i) key uid id r := by
  induction hmn with
  | refl => exact hguarded
  | @step n hmn ih =>
      have hbefore := isCancelled_after (Nat.le_succ n) hcancelled
      rcases ih hbefore (fun k hmk hkn =>
        hvalue k hmk (Nat.le_succ_of_le hkn)) with
        ⟨id, r, hg⟩
      rcases after_cases start acts n with ⟨_, hsame⟩ | ⟨act, _, hstep⟩
      · rw [hsame]
        exact ⟨id, r, hg⟩
      · have hnow := hvalue (n + 1) (Nat.le_succ_of_le hmn) (Nat.le_refl _)
        exact ⟨id, IsGuarded.move (hstep.member i) hcancelled hnow hg⟩

theorem value?_after_creates (hfresh : start.IsFresh root) {j n : Nat}
    {c : Call ι}
    (hcreates : CreatesAt start acts j c n) {k : Nat} (hnk : n < k)
    (hkept : ¬ RemovedBetween (start.after acts (n + 1)).store
      (start.after acts k).store
      (ClaimKey.ofCidr root c.admission.cidr)) :
    (start.after acts k).store.value? (ClaimKey.ofCidr root c.admission.cidr) =
      some c.admission.uid := by
  rcases hcreates with ⟨hact, hc, hphase, c', hc', hregistering⟩
  have howns : (start.after acts (n + 1)).Owns root c.admission.cidr
      c.admission.uid := by
    rcases Admission.created_cases hphase ((start.after acts n).store.write
      (start.after acts n).now
        (c.admission.command ((start.after acts n).settings c))).1 with
      ⟨w, hresult, _⟩ | ⟨_, _, hother⟩
    · rw [after_succ hact]
      exact owns_of_created (isRooted_after hfresh.isRooted n) hc hphase hresult
    · rw [after_succ hact, next_created hc hphase, calls_setCall, if_pos rfl,
        calls_setStore, hc] at hc'
      cases hc'
      rcases hother with hrefused | ⟨e, hfailed⟩
      · rw [hregistering] at hrefused
        cases hrefused
      · rw [hregistering] at hfailed
        cases hfailed
  have hkeeps : KeepsValues (start.after acts (n + 1)).store
      (start.after acts k).store :=
    keepsValues_after hnk
  rcases hkeeps.kept _ _ howns.value? with hremoved | hvalue
  · exact absurd hremoved hkept
  · exact hvalue

theorem owner_of_isRenewedBy_ensure {m : Manager} {now : Nat} {lease : Lease}
    {uid : String} {id : Nat} {r : Renewal} (hcancelled : m.isCancelled = false)
    (hrunning : m.registry.running? lease.key = some id)
    (hr : m.renewal? id = some r)
    (h : IsRenewedBy (m.step (.ensure now lease)) lease.key uid) :
    r.lease.owner = uid := by
  rcases m.registry.ensure_cases m.isCancelled now lease with
    ⟨hshut, _⟩ | ⟨_, i, hi, hensure⟩ | ⟨_, hnone, _⟩
  · rw [hcancelled] at hshut
    cases hshut
  · rw [hrunning] at hi
    cases hi
    rcases h with ⟨k, s, hk, hs, howner⟩
    have hentry := (Registry.running?_eq_some_iff.mp hk).left
    rw [Manager.step, hensure, Registry.entries_update,
      (Registry.running?_eq_some_iff.mp hrunning).left] at hentry
    cases hentry
    rw [Manager.renewal?] at hr
    rw [Manager.step, hensure, Manager.renewal?, Registry.renewal?_update,
      if_pos rfl, hr] at hs
    cases hs
    exact howner
  · rw [hrunning] at hnone
    cases hnone

end

/-- A claim that a call has created is renewed for its owner from the return of
the call on, for as long as it is stored and the shutdown has not begun, if and
only if no renewal for another owner ran under its key when the call had its own
ensured. -/
theorem renewed_iff_not_shadowed
    {root : String} {start : Fleet ι} (acts : List (Act ι))
    (hfresh : start.IsFresh root)
    {j created registered : Nat} {c : Call ι}
    (hcreates : CreatesAt start acts j c created)
    (hlater : created < registered)
    (hregisters : RegistersAt start acts j registered)
    (hkept : ¬ RemovedBetween (start.after acts (created + 1)).store
      (start.after acts (registered + 1)).store
        (ClaimKey.ofCidr root c.admission.cidr))
    (hrunning : ((start.after acts (registered + 1)).members
      c.member).manager.isCancelled =
      false) :
    (forall n, registered < n ->
      ¬ RemovedBetween (start.after acts (created + 1)).store
        (start.after acts n).store
        (ClaimKey.ofCidr root c.admission.cidr) ->
      ((start.after acts n).members c.member).manager.isCancelled = false ->
      IsRenewedBy ((start.after acts n).members c.member).manager
        (ClaimKey.ofCidr root c.admission.cidr) c.admission.uid) <->
    forall id r,
      ((start.after acts registered).members c.member).manager.registry.running?
        (ClaimKey.ofCidr root c.admission.cidr) = some id ->
      ((start.after acts registered).members c.member).manager.renewal?
        id = some r ->
      r.lease.owner = c.admission.uid := by
  rcases hregisters with ⟨hact, d, hd, hphase⟩
  have hcall : d.member = c.member ∧ d.admission.uid = c.admission.uid ∧
      d.admission.cidr = c.admission.cidr := by
    rcases call_after (Nat.le_of_lt hlater) hcreates.right.left with
      ⟨d', hd', hsame⟩
    rw [hd] at hd'
    cases hd'
    exact hsame
  rcases hcall with ⟨hmember, huid, hcidr⟩
  have hbefore := isCancelled_after (Nat.le_succ registered) hrunning
  have hroot : (start.after acts registered).IsRooted root :=
    isRooted_after hfresh.isRooted _
  have hstep := members_registered hd hphase
  rw [← after_succ hact, hmember] at hstep
  have hkey : (((start.after acts registered).members c.member).manager.lease
      d.admission).key =
      ClaimKey.ofCidr root c.admission.cidr := by
    rw [Manager.lease, Admission.key, hroot, hcidr]
  constructor
  · intro hall id r hid hr
    have hnow := hall (registered + 1) (Nat.lt_succ_self _) hkept hrunning
    rw [← hkey] at hid hnow
    rw [hstep] at hnow
    exact owner_of_isRenewedBy_ensure hbefore hid hr hnow
  · intro hown n hn hstored hcancelled
    have hguarded :=
      isGuarded_of_ensure (wellFormed_after hfresh c.member registered) hbefore
      (start.after acts registered).now
      (((start.after acts registered).members c.member).manager.lease
        d.admission)
      (by
        intro id r hid hr
        rw [hkey] at hid
        rw [hown id r hid hr, Manager.lease, huid])
    rw [← hstep, hkey, Manager.lease, huid] at hguarded
    have hvalue : forall k, registered + 1 ≤ k -> k ≤ n ->
        (start.after acts k).store.value?
          (ClaimKey.ofCidr root c.admission.cidr) =
          some c.admission.uid := by
      intro k hk hkn
      refine value?_after_creates hfresh hcreates (Nat.lt_trans hlater hk) ?_
      intro hremoved
      have hkeeps : KeepsValues (start.after acts k).store
          (start.after acts n).store :=
        keepsValues_after hkn
      exact hstored (hremoved.left hkeeps.published)
    rcases isGuarded_after hn hguarded hcancelled hvalue with ⟨id, r, hg⟩
    exact hg.isRenewedBy (wellFormed_after hfresh c.member n) hcancelled

def claimingAlone : List (Act Unit) :=
  [.begin () "a" "x", .proceed 0, .proceed 0, .proceed 0]

theorem renewed_when_claimingAlone :
    IsRenewedBy (((idle .default).after claimingAlone 4).members ()).manager
      (ClaimKey.ofCidr "/ipclaim/" "x") "a" := by
  have hfresh : (idle .default : Fleet Unit).IsFresh "/ipclaim/" :=
    isFresh_idle rfl rfl
  have hcreates : CreatesAt (idle .default) claimingAlone 0 ⟨(), "a", "x",
      .creating⟩ 2 :=
    ⟨rfl, rfl, rfl, ⟨(), "a", "x", .registering⟩, rfl, rfl⟩
  have hregisters : RegistersAt (idle .default) claimingAlone 0 3 :=
    ⟨rfl, ⟨(), "a", "x", .registering⟩, rfl, rfl⟩
  have hkept : ¬ RemovedBetween ((idle .default).after claimingAlone 3).store
      ((idle .default).after claimingAlone 4).store
        (ClaimKey.ofCidr "/ipclaim/" "x") := by
    rintro ⟨e, hmem, _⟩
    cases hmem
  have hiff :=
    renewed_iff_not_shadowed claimingAlone hfresh hcreates
      (by decide) hregisters
    hkept rfl
  refine hiff.mpr ?_ 4 (by decide) hkept rfl
  intro id r hid
  cases hid

/-- A claim is taken away from its owner and claimed by somebody else on the
same manager. -/
def takingOver : List (Act Unit) :=
  [.begin () "a" "x", .proceed 0, .proceed 0, .proceed 0, .delete "/ipclaim/x",
    .begin () "b" "x", .proceed 1, .proceed 1, .proceed 1]

theorem not_renewed_after_takingOver :
    CreatesAt (idle .default) takingOver 1 ⟨(), "b", "x", .creating⟩ 7 ∧
      RegistersAt (idle .default) takingOver 1 8 ∧
      ((idle .default).after takingOver 9).calls[1]? =
        some ⟨(), "b", "x", .finished (.ok true)⟩ ∧
      ¬ RemovedBetween ((idle .default).after takingOver 8).store
        ((idle .default).after takingOver 9).store
          (ClaimKey.ofCidr "/ipclaim/" "x") ∧
      (((idle .default).after takingOver 9).members ()).manager.isCancelled =
        false ∧
      ¬ IsRenewedBy (((idle .default).after takingOver 9).members ()).manager
        (ClaimKey.ofCidr "/ipclaim/" "x") "b" := by
  refine ⟨⟨rfl, rfl, rfl, ⟨(), "b", "x", .registering⟩, rfl, rfl⟩,
    ⟨rfl, ⟨(), "b", "x", .registering⟩, rfl, rfl⟩, rfl, ?_, rfl, ?_⟩
  · rintro ⟨e, hmem, _⟩
    cases hmem
  · rintro ⟨id, r, hid, hr, howner⟩
    have hfirst : (((idle .default).after takingOver 9).members
        ()).manager.registry.running?
        (ClaimKey.ofCidr "/ipclaim/" "x") = some 0 := by
      decide
    rw [hfirst] at hid
    cases hid
    have hother : ((((idle .default).after takingOver 9).members
        ()).manager.renewal? 0).map (fun r => r.lease.owner) = some "a" := by
      decide
    rw [hr, Option.map_some, howner] at hother
    exact absurd hother (by decide)

end Fleet
end FairLease
