import FairLease.Proofs.Config.Validity
import FairLease.Proofs.Fleet.Attempts

/-!
# Survival of a claim

A claim lives as long as its renewal reaches the store often enough. The renewal
keeps to a schedule of whole milliseconds, and each time that it reaches the
store the claim is good for its whole lifetime from there.
-/

namespace FairLease
namespace Fleet

open MemoryStore

/-!
# Tenures

A claim is held from its grant on. Its renewal is due at regular times, and its
deadline is counted from the last time at which the store was reached.
-/

/-- A claim that was granted to a call, with the renewal that was begun for
it. -/
structure Tenure where
  config : NodeConfig
  uid : String
  cidr : String
  id : Nat
  /-- The time of the grant in milliseconds. -/
  since : Nat

namespace Tenure

def key (t : Tenure) : String :=
  ClaimKey.ofCidr t.config.root t.cidr

def lease (t : Tenure) : Lease :=
  { key := t.key, owner := t.uid, ttlMs := t.config.ttlMs
    interval := .ofMillis t.config.renewIntervalMs }

def tick (t : Tenure) (k : Nat) : Nat :=
  (t.since + k * t.config.renewIntervalMs) * 1000000

def ticker (t : Tenure) (k : Nat) : Ticker :=
  ⟨t.tick k, t.config.renewIntervalMs * 1000000⟩

/-- Attempts that have failed since the last success do not move the
deadline. -/
def deadline (t : Tenure) (l : List Attempt) : Nat :=
  t.tick (l.length - failures l) + t.config.ttlMs * 1000000

/-- Not so many attempts have failed in a row that the claim lapses before the
next one. -/
def Bears (t : Tenure) (l : List Attempt) : Prop :=
  (failures l + 1) * t.config.renewIntervalMs < t.config.ttlMs

instance (t : Tenure) (l : List Attempt) : Decidable (t.Bears l) :=
  inferInstanceAs (Decidable (_ < _))

theorem tick_add (t : Tenure) (k n : Nat) :
    t.tick (k + n) = t.tick k + n * t.config.renewIntervalMs * 1000000 := by
  simp only [tick, Nat.add_mul, Nat.add_assoc]

theorem alarm_ticker (t : Tenure) (k : Nat) :
    (t.ticker k).alarm = t.tick k := by
  simp only [Ticker.alarm, ceilMillis, ticker, tick]
  omega

theorem isDue_ticker (t : Tenure) (k now : Nat) :
    (t.ticker k).isDue now = decide (t.tick k ≤ now) := by
  rw [Ticker.isDue, alarm_ticker]

theorem delay_ticker (t : Tenure) (k : Nat) :
    (t.ticker k).delay (t.tick k) = t.ticker (k + 1) := by
  have hlate : (t.ticker k).isLate (t.tick k) = false := by
    simp [Ticker.isLate, Ticker.tolerance, ticker]
  rw [Ticker.delay, hlate, ticker, ticker, tick_add t k 1, Nat.one_mul]
  rfl

theorem start_lease (t : Tenure) :
    Renewal.start (t.tick 0) t.lease = ⟨t.lease, t.ticker 1, 0, .waiting⟩ := by
  rw [ticker, ← Nat.zero_add 1, tick_add, Nat.one_mul]
  rfl

theorem tick_lt_deadline {t : Tenure} {l : List Attempt} (h : t.Bears l) :
    t.tick (l.length + 1) < t.deadline l := by
  have hlength : l.length + 1 = l.length - failures l + (failures l + 1) := by
    have hle := failures_le l
    omega
  rw [deadline, hlength, tick_add]
  have hlt := Nat.mul_lt_mul_of_pos_right h (show 0 < 1000000 by decide)
  omega

theorem deadline_of_failed (t : Tenure) (now : Nat) (l : List Attempt) :
    t.deadline (⟨now, true⟩ :: l) = t.deadline l := by
  simp [deadline, failures]

theorem deadline_of_reached (t : Tenure) (now : Nat) (l : List Attempt) :
    t.deadline (⟨now, false⟩ :: l) = t.tick (l.length + 1) +
      t.config.ttlMs * 1000000 := by
  simp [deadline, failures]

def OnTime (t : Tenure) (l : List Attempt) : Prop :=
  l.map (·.now) = ((List.range' 1 l.length).map t.tick).reverse

theorem OnTime.cons {t : Tenure} {l : List Attempt} (h : t.OnTime l)
    (hasFailed : Bool) :
    t.OnTime (⟨t.tick (l.length + 1), hasFailed⟩ :: l) := by
  rw [OnTime] at h ⊢
  rw [List.map_cons, h, List.length_cons, List.range'_1_concat, List.map_append,
    List.reverse_append, Nat.add_comm 1]
  rfl

/-!
# Stages of a tenure

The renewal waits for its tick, asks the store, and is told what came of it, at
the time of the tick itself.
-/

inductive Stage (t : Tenure) (f : Fleet Unit) (l : List Attempt) : Prop where
  | waiting :
      (f.members ()).Renews t.id t.lease .waiting
        (t.ticker (l.length + 1)) none ->
      f.now ≤ t.tick (l.length + 1) -> Stage t f l
  | asking :
      (f.members ()).Renews t.id t.lease .swapping
        (t.ticker (l.length + 2)) none ->
      f.now = t.tick (l.length + 1) -> Stage t f l
  | told {result : Except StoreError WriteResult} :
      (f.members ()).Renews t.id t.lease .swapping (t.ticker (l.length + 1))
        (some (.swapped result)) ->
      (forall key expected actual, result ≠ .error
        (.compareFailed key expected actual)) ->
      f.now = t.tick l.length -> Stage t f l

/-- The claim is stored and its renewal keeps to its schedule, after the
attempts `l`. -/
structure IsHeld (t : Tenure) (f : Fleet Unit) (l : List Attempt) : Prop where
  stage : t.Stage f l
  leased : f.store.IsLeased t.key t.uid (t.deadline l)
  onTime : t.OnTime l
  reached : t.tick l.length ≤ f.now

section

variable {t : Tenure} {f : Fleet Unit} {l : List Attempt}

theorem Stage.now_le (h : t.Stage f l) : f.now ≤ t.tick (l.length + 1) := by
  cases h with
  | waiting _ hnow => exact hnow
  | asking _ hnow => exact Nat.le_of_eq hnow
  | told _ _ hnow =>
      rw [hnow, tick_add]
      exact Nat.le_add_right _ _

theorem Stage.renews (h : t.Stage f l) : exists phase ticker reply,
    (f.members ()).Renews t.id t.lease phase ticker reply ∧
      (phase = .waiting ∨ phase = .swapping) := by
  cases h with
  | waiting hrenews => exact ⟨_, _, _, hrenews, Or.inl rfl⟩
  | asking hrenews => exact ⟨_, _, _, hrenews, Or.inr rfl⟩
  | told hrenews => exact ⟨_, _, _, hrenews, Or.inr rfl⟩

theorem IsHeld.now_lt (h : t.IsHeld f l) (hbears : t.Bears l) :
    f.now < t.deadline l :=
  Nat.lt_of_le_of_lt h.stage.now_le (tick_lt_deadline hbears)

/-- What the renewal does next keeps the claim, whether or not it reaches the
store. -/
theorem IsHeld.renew (h : t.IsHeld f l) (hbears : t.Bears l)
    (hvalid : (Command.compareAndSwapWithTtl t.key t.uid t.uid
      t.config.ttlMs).validate = .ok ()) :
    t.IsHeld (f.renew () t.id)
      (((Deed.act (.renew () t.id)).attempt? f t.id).toList ++ l) ∧
      Retains t.key f.store (f.renew () t.id).store := by
  have hstage := h.stage
  cases hstage with
  | waiting hrenews hnow =>
      have hquiet : (Deed.act (.renew () t.id)).attempt? f t.id = none :=
        attempt?_eq_none_of_not_asking (isAsking_of_renews hrenews) _
      rw [renew_of_waiting hrenews, hquiet]
      refine ⟨⟨?_, h.leased, h.onTime, h.reached⟩, retains_of_events_eq rfl⟩
      by_cases hdue : t.tick (l.length + 1) ≤ f.now
      · -- the tick is taken at the very time at which it is due
        have heq := Nat.le_antisymm hnow hdue
        have hticked := hrenews.tick_of_due
          (show (t.ticker (l.length + 1)).isDue f.now = true by
            rw [isDue_ticker, decide_eq_true_eq]
            exact hdue)
        refine Stage.asking ?_ heq
        rw [heq, delay_ticker, ← heq] at hticked
        rw [members_setMember, if_pos rfl]
        exact hticked
      · refine Stage.waiting ?_ hnow
        rw [members_setMember, if_pos rfl]
        exact hrenews.tick_of_not_due (by
          rw [isDue_ticker, decide_eq_false_iff_not]
          exact hdue)
  | asking hrenews hnow =>
      have hattempt : (Deed.act (.renew () t.id)).attempt? f t.id =
          some ⟨f.now, false⟩ := by
        simp [Deed.attempt?, isAsking_of_renews hrenews]
      rcases isLeased_renew h.leased (h.now_lt hbears) hvalid with
        ⟨w, hw, hleased, hretains⟩
      have honTime := h.onTime.cons false
      rw [← hnow] at honTime
      rw [renew_of_asking hrenews, hattempt]
      refine ⟨⟨@Stage.told _ _ _ (.ok w) ?_ (by simp) hnow, ?_, honTime,
        Nat.le_of_eq hnow.symm⟩, hretains⟩
      · rw [members_setMember, if_pos rfl]
        rw [show (f.store.write f.now
          (.compareAndSwapWithTtl t.lease.key t.lease.owner
          t.lease.owner t.lease.ttlMs)).1 = .ok w from hw]
        exact hrenews.post _
      · rw [Option.toList_some, List.singleton_append,
          deadline_of_reached, ← hnow]
        exact hleased
  | told hrenews hresult hnow =>
      have hquiet : (Deed.act (.renew () t.id)).attempt? f t.id = none :=
        attempt?_eq_none_of_not_asking (isAsking_of_renews hrenews) _
      rw [renew_of_reply hrenews, hquiet]
      refine ⟨⟨Stage.waiting ?_ h.stage.now_le, h.leased, h.onTime, h.reached⟩,
        retains_of_events_eq rfl⟩
      rw [members_setMember, if_pos rfl]
      exact (hrenews.swapped hresult).post none

/-- An attempt that fails leaves the claim to its deadline. -/
theorem IsHeld.fail (h : t.IsHeld f l) {e : StoreError}
    (he : forall key expected actual, e ≠ .compareFailed key expected actual) :
    t.IsHeld (f.fail t.id e)
      (((Deed.fail t.id e).attempt? f t.id).toList ++ l) ∧
      Retains t.key f.store (f.fail t.id e).store := by
  have hstage := h.stage
  cases hstage with
  | waiting hrenews hnow =>
      have hquiet : (Deed.fail t.id e).attempt? f t.id = none :=
        attempt?_eq_none_of_not_asking (isAsking_of_renews hrenews) _
      rw [fail_of_not_asking hrenews (Or.inl rfl), hquiet]
      exact ⟨h, retains_of_events_eq rfl⟩
  | asking hrenews hnow =>
      have hattempt : (Deed.fail t.id e).attempt? f t.id =
          some ⟨f.now, true⟩ := by
        simp [Deed.attempt?, isAsking_of_renews hrenews]
      have honTime := h.onTime.cons true
      rw [← hnow] at honTime
      rw [fail_of_asking hrenews, hattempt]
      refine ⟨⟨@Stage.told _ _ _ (.error e) ?_ ?_ hnow, ?_, honTime,
        Nat.le_of_eq hnow.symm⟩, retains_of_events_eq rfl⟩
      · rw [members_setMember, if_pos rfl]
        exact hrenews.post _
      · rintro key expected actual ⟨⟩
        exact he key expected actual rfl
      · rw [Option.toList_some, List.singleton_append, deadline_of_failed]
        exact h.leased
  | told hrenews hresult hnow =>
      have hquiet : (Deed.fail t.id e).attempt? f t.id = none :=
        attempt?_eq_none_of_not_asking (isAsking_of_renews hrenews) _
      rw [fail_of_not_asking hrenews (Or.inr (by simp)), hquiet]
      exact ⟨h, retains_of_events_eq rfl⟩

/-- Time goes on only while the renewal waits for its next tick, and not beyond
that. -/
def IsPrompt (t : Tenure) (f g : Fleet Unit) : Prop :=
  f.now < g.now -> forall r, r ∈ (f.members ()).manager.renewal? t.id ->
    r.phase ≠ .released -> r.phase ≠ .ended -> r.phase = .waiting ∧
      g.now ≤ r.ticker.alarm

instance (t : Tenure) (f g : Fleet Unit) : Decidable (t.IsPrompt f g) :=
  inferInstanceAs (Decidable (_ < _ ->
    forall r, r ∈ (f.members ()).manager.renewal? t.id -> _ -> _ -> _))

/-- Nothing but the renewal itself can make it miss its schedule. -/
theorem Stage.perform (h : t.Stage f l) {d : Deed}
    (hcancelled : ((f.perform d).members ()).manager.isCancelled = false)
    (hprompt : t.IsPrompt f (f.perform d)) (hact : d ≠ .act (.renew () t.id))
    (hfail : forall e, d ≠ .fail t.id e) : t.Stage (f.perform d) l := by
  rcases Nat.lt_or_ge f.now (f.perform d).now with hlater | hsame
  · cases h with
    | waiting hrenews hnow =>
        rcases hrenews.known with ⟨touches, hr⟩
        rcases hprompt hlater _ hr (by simp) (by simp) with ⟨_, hnow'⟩
        rw [alarm_ticker] at hnow'
        exact Stage.waiting (renews_perform hcancelled hrenews hact hfail) hnow'
    | asking hrenews | told hrenews =>
        rcases hrenews.known with ⟨touches, hr⟩
        rcases hprompt hlater _ hr (by simp) (by simp) with ⟨hphase, _⟩
        cases hphase
  · have hnow' := Nat.le_antisymm hsame (now_le_perform f d)
    cases h with
    | waiting hrenews hnow =>
        exact Stage.waiting (renews_perform hcancelled hrenews hact hfail)
          (by rw [hnow']; exact hnow)
    | asking hrenews hnow =>
        exact Stage.asking (renews_perform hcancelled hrenews hact hfail)
          (hnow'.trans hnow)
    | told hrenews hresult hnow =>
        exact Stage.told (renews_perform hcancelled hrenews hact hfail) hresult
          (hnow'.trans hnow)

theorem IsHeld.perform {s : ClaimSettings} (h : t.IsHeld f l) {d : Deed}
    (hsound : (f.members ()).IsSound s) (hbears : t.Bears l)
    (hvalid : (Command.compareAndSwapWithTtl t.key t.uid t.uid
      t.config.ttlMs).validate = .ok ())
    (hbefore : (f.members ()).manager.isCancelled = false)
    (hcancelled : ((f.perform d).members ()).manager.isCancelled = false)
    (hprompt : t.IsPrompt f (f.perform d)) (halone : d.LeavesAlone f t.key)
    (hhonest : forall e, d = .fail t.id e ->
      forall key expected actual, e ≠ .compareFailed key expected actual) :
    t.IsHeld (f.perform d) ((d.attempt? f t.id).toList ++ l) ∧
      Retains t.key f.store (f.perform d).store := by
  by_cases hact : d = .act (.renew () t.id)
  · subst hact
    exact h.renew hbears hvalid
  · by_cases hfail : exists e, d = .fail t.id e
    · rcases hfail with ⟨e, rfl⟩
      exact h.fail (hhonest e rfl)
    · have hfail' : forall e, d ≠ .fail t.id e := fun e he => hfail ⟨e, he⟩
      rw [attempt?_eq_none_of_ne hact hfail']
      have hnow := h.now_lt hbears
      rcases spares_perform_cases hsound halone h.leased hnow with
        hspares | ⟨id, r, rfl, hr, hphase, hkey, _, _⟩
      · rcases hspares.isLeased h.leased hnow with ⟨hleased, hretains⟩
        exact ⟨⟨h.stage.perform hcancelled hprompt hact hfail', hleased,
          h.onTime, Nat.le_trans h.reached (now_le_perform f d)⟩, hretains⟩
      · -- another renewal of the key would have the same entry
        rcases h.stage.renews with
          ⟨phase, ticker, reply, ⟨⟨touches, hown⟩, _⟩, hactive⟩
        have howner :=
          hsound.wellFormed.owner hbefore id r hr (by simp [hphase])
            (by simp [hphase])
        have howner' := hsound.wellFormed.owner hbefore t.id _ hown
          (by rcases hactive with rfl | rfl <;> simp)
          (by rcases hactive with rfl | rfl <;> simp)
        rw [hkey] at howner
        rw [lease, howner] at howner'
        cases howner'
        exact absurd rfl hact

end

/-!
# Survival as a whole
-/

/-- A call is granted the claim by the deed `created`, and the renewal is begun
for it by the deed `begun` at the same time. -/
structure BeginsIn (t : Tenure) (start : Fleet Unit) (deeds : List Deed)
    (j created begun : Nat) :
    Prop where
  creates : deeds[created]? = some (.act (.proceed j))
  creating : (start.course deeds created).calls[j]? =
    some ⟨(), t.uid, t.cidr, .creating⟩
  granted : (start.course deeds (created + 1)).calls[j]? =
    some ⟨(), t.uid, t.cidr, .registering⟩
  registers : deeds[begun]? = some (.act (.proceed j))
  registering : (start.course deeds begun).calls[j]? =
    some ⟨(), t.uid, t.cidr, .registering⟩
  begins : (((start.course deeds begun).members ()).manager.register
    (start.course deeds begun).now ⟨t.uid, t.cidr, .registering⟩).1 = some t.id
  order : created < begun
  time : (start.course deeds created).now = t.tick 0 ∧
    (start.course deeds begun).now = t.tick 0

/-- The renewal is served in time, nobody else changes the claim, and the
renewal does not fail to reach the store too often in a row. -/
structure IsKept (t : Tenure) (start : Fleet Unit) (deeds : List Deed)
    (created : Nat) : Prop where
  prompt : forall n,
    t.IsPrompt (start.course deeds n) (start.course deeds (n + 1))
  alone : forall n d, created < n -> deeds[n]? = some d ->
    d.LeavesAlone (start.course deeds n) t.key
  honest : forall (n : Nat) (e : StoreError),
    deeds[n]? = some (Deed.fail t.id e) ->
    forall key expected actual, e ≠ .compareFailed key expected actual
  bears : forall n, 0 < failures (attempts start deeds t.id n) ->
    t.Bears (attempts start deeds t.id n)

section

variable {t : Tenure} {start : Fleet Unit} {deeds : List Deed}
  {j created begun : Nat}

theorem bears_of_no_failures (hvalid : t.config.validate = .ok ())
    {l : List Attempt} (h : failures l = 0) : t.Bears l := by
  rw [Bears, h, Nat.zero_add, Nat.one_mul]
  exact (NodeConfig.validate_eq_ok_iff.mp hvalid).renewIntervalMs_lt

theorem IsKept.bears' (h : t.IsKept start deeds created)
    (hvalid : t.config.validate = .ok ()) (n : Nat) :
    t.Bears (attempts start deeds t.id n) := by
  rcases Nat.eq_zero_or_pos (failures (attempts start deeds t.id n)) with
    hnone | hsome
  · exact bears_of_no_failures hvalid hnone
  · exact h.bears n hsome

theorem BeginsIn.leased (h : t.BeginsIn start deeds j created begun)
    (hfits : t.config.ttlMs < wordSize 64)
    (hsound : (start.members ()).IsSound t.config.settings) :
    (Command.createWithTtl t.key t.uid t.config.ttlMs).validate = .ok () ∧
      (start.course deeds (created + 1)).store.IsLeased t.key t.uid
        (t.deadline []) := by
  have hcommand : Admission.command ((start.course deeds created).settings
      ⟨(), t.uid, t.cidr, .creating⟩) ⟨t.uid, t.cidr, .creating⟩ =
      .createWithTtl t.key t.uid t.config.ttlMs := by
    rw [settings, (isSound_course hsound created).settings, Admission.command,
      NodeConfig.ttlMs_settings hfits]
    rfl
  have hnext := next_created h.creating rfl
  rw [hcommand] at hnext
  have hcall := h.granted
  rw [course_succ h.creates, perform, hnext, calls_setCall, if_pos rfl,
    calls_setStore, h.creating, Option.map_some] at hcall
  rcases Admission.created_cases (a := ⟨t.uid, t.cidr, .creating⟩) rfl
    ((start.course deeds created).store.write (start.course deeds created).now
      (.createWithTtl t.key t.uid t.config.ttlMs)).1 with
    ⟨w, hw, _⟩ | ⟨_, _, hrefused | ⟨_, hfailed⟩⟩
  · refine ⟨validate_of_write hw, ?_⟩
    have hleased := isLeased_create hw
    rw [course_succ h.creates, perform, hnext, store_setCall,
      store_setStore, deadline]
    rw [h.time.left] at hleased ⊢
    exact hleased
  · have hphase := congrArg (·.admission.phase) (Option.some.inj hcall)
    rw [hrefused] at hphase
    cases hphase
  · have hphase := congrArg (·.admission.phase) (Option.some.inj hcall)
    rw [hfailed] at hphase
    cases hphase

theorem BeginsIn.isHeld (h : t.BeginsIn start deeds j created begun)
    (hfits : t.config.ttlMs < wordSize 64)
    (hsound : (start.members ()).IsSound t.config.settings)
    (hleased : (start.course deeds begun).store.IsLeased t.key t.uid
      (t.deadline [])) :
    t.IsHeld (start.course deeds (begun + 1))
      (attempts start deeds t.id (begun + 1)) ∧
      (start.course deeds (begun + 1)).store =
        (start.course deeds begun).store := by
  have hbegun : ((start.course deeds begun).members ()).IsSound
      t.config.settings :=
    isSound_course hsound begun
  have hlease :
      ((start.course deeds begun).members ()).manager.lease ⟨t.uid, t.cidr,
        .registering⟩ =
      t.lease := by
    rw [Manager.lease, hbegun.settings, NodeConfig.ttlMs_settings hfits]
    rfl
  have hbegins := h.begins
  rw [Manager.register, hlease] at hbegins
  rcases ((start.course deeds begun).members ()).manager.registry.ensure_cases
    ((start.course deeds begun).members ()).manager.isCancelled
      (start.course deeds begun).now
    t.lease with ⟨_, hensure⟩ | ⟨_, _, _, hensure⟩ | ⟨_, _, hensure⟩
  · rw [hensure] at hbegins
    cases hbegins
  · rw [hensure] at hbegins
    cases hbegins
  · rw [hensure] at hbegins
    have hid : ((start.course deeds begun).members
        ()).manager.registry.renewals.size = t.id :=
      Option.some.inj hbegins
    have hnone : ((start.course deeds begun).members ()).manager.renewal?
        t.id = none := by
      rw [← hid]
      exact Manager.renewal?_size _
    have hmembers := members_registered h.registering rfl
    dsimp only at hmembers
    rw [hlease] at hmembers
    have hnext : start.course deeds (begun + 1) =
        (start.course deeds begun).next (.proceed j) := course_succ h.registers
    have hstore : (start.course deeds (begun + 1)).store =
        (start.course deeds begun).store ∧
        (start.course deeds (begun + 1)).now =
          (start.course deeds begun).now := by
      rw [hnext]
      simp [next, proceed, h.registering]
    rw [attempts_eq_nil hnone]
    refine ⟨⟨Stage.waiting ⟨⟨0, ?_⟩, ?_⟩ ?_, ?_, rfl, ?_⟩, hstore.left⟩
    · rw [hnext, hmembers, Member.manager_step, Manager.renewal?, Manager.step,
        hensure, Registry.renewal?_begin,
        if_pos hid.symm, h.time.right, start_lease]
      rfl
    · rw [hnext, hmembers]
      exact hbegun.silent t.id hnone
    · rw [hstore.right, h.time.right, tick_add]
      exact Nat.le_add_right _ _
    · rw [hstore.left]
      exact hleased
    · rw [hstore.right, h.time.right]
      exact Nat.le_refl _

theorem isLeased_course_of_le (h : t.BeginsIn start deeds j created begun)
    (hvalid : t.config.validate = .ok ()) (hfits : t.config.ttlMs < wordSize 64)
    (hsound : (start.members ()).IsSound t.config.settings)
    (hkept : t.IsKept start deeds created) {n : Nat} (hn : created < n)
    (hbegun : n ≤ begun) :
    (start.course deeds n).store.IsLeased t.key t.uid (t.deadline []) ∧
      Retains t.key (start.course deeds (created + 1)).store
        (start.course deeds n).store := by
  rcases h.leased hfits hsound with ⟨hcommand, hleased⟩
  induction hn with
  | refl => exact ⟨hleased, retains_of_events_eq rfl⟩
  | @step n hn ih =>
      rcases ih (Nat.le_of_succ_le hbegun) with ⟨hleased, hretains⟩
      -- the time of the grant has not passed yet
      have hnow : (start.course deeds n).now = t.tick 0 := by
        apply Nat.le_antisymm
        · rw [← h.time.right]
          exact now_le_course (Nat.le_of_succ_le hbegun)
        · rw [← h.time.left]
          exact now_le_course (Nat.le_of_succ_le hn)
      have hlive : (start.course deeds n).now < t.deadline [] := by
        rw [hnow]
        exact Nat.lt_of_le_of_lt (by rw [tick_add]; exact Nat.le_add_right _ _)
          (tick_lt_deadline (bears_of_no_failures hvalid rfl))
      rcases course_cases start deeds n with ⟨_, hsame⟩ | ⟨d, hd, hstep⟩
      · rw [hsame]
        exact ⟨hleased, hretains⟩
      · rw [hstep]
        rcases spares_perform_cases (isSound_course hsound n)
          (hkept.alone n d hn hd) hleased hlive with
          hspares | ⟨_, _, _, _, _, _, _, hstore⟩
        · rcases hspares.isLeased hleased hlive with ⟨hleased', hretains'⟩
          exact ⟨hleased', hretains.trans hretains'⟩
        · -- an earlier renewal of the owner renews the claim at the same time
          rw [hstore, NodeConfig.ttlMs_settings hfits]
          rcases isLeased_renew hleased hlive (validate_renew hcommand) with
            ⟨_, _, hleased', hretains'⟩
          rw [hnow] at hleased'
          exact ⟨by rw [hnow]; exact hleased', hretains.trans hretains'⟩

theorem isHeld_course (h : t.BeginsIn start deeds j created begun)
    (hvalid : t.config.validate = .ok ()) (hfits : t.config.ttlMs < wordSize 64)
    (hsound : (start.members ()).IsSound t.config.settings)
    (hkept : t.IsKept start deeds created) {n : Nat} (hn : begun < n)
    (hcancelled : ((start.course deeds n).members ()).manager.isCancelled =
      false) :
    t.IsHeld (start.course deeds n) (attempts start deeds t.id n) ∧
      Retains t.key (start.course deeds (created + 1)).store
        (start.course deeds n).store := by
  rcases h.leased hfits hsound with ⟨hcommand, _⟩
  induction hn with
  | refl =>
      rcases isLeased_course_of_le h hvalid hfits hsound hkept h.order
        (Nat.le_refl _) with
        ⟨hleased, hretains⟩
      rcases h.isHeld hfits hsound hleased with ⟨hheld, hstore⟩
      exact ⟨hheld, by rw [hstore]; exact hretains⟩
  | @step n hn ih =>
      have hbefore := isCancelled_course (Nat.le_succ n) hcancelled
      rcases ih hbefore with ⟨hheld, hretains⟩
      rcases course_cases start deeds n with ⟨hd, hsame⟩ | ⟨d, hd, hstep⟩
      · rw [hsame, attempts, hd]
        exact ⟨hheld, hretains⟩
      · have hprompt := hkept.prompt n
        rw [hstep] at hcancelled hprompt ⊢
        have hcreated : created < n :=
          Nat.lt_of_lt_of_le h.order (Nat.le_of_succ_le hn)
        rcases hheld.perform (isSound_course hsound n) (hkept.bears' hvalid n)
          (validate_renew hcommand) hbefore hcancelled hprompt
            (hkept.alone n d hcreated hd)
          (fun e he => hkept.honest n e (by rw [hd, he])) with
            ⟨hheld', hretains'⟩
        rw [attempts, hd]
        exact ⟨hheld', hretains.trans hretains'⟩

end

/-- A node is configured validly, and a claim is granted to one of its calls,
which begins a renewal of it at once. If the renewal is served in time, nobody
else changes the claim, and the attempts to renew it fail at most so often in a
row that the next one comes before the claim has lapsed, then until the manager
is cancelled the claim is live and its owner's, no event removes it, and its
renewal is running and has asked the store at each time at which it was due, and
only then. -/
theorem claims_survive (t : Tenure) (hvalid : t.config.validate = .ok ())
    (hfits : t.config.ttlMs < wordSize 64) (start : Fleet Unit)
    (hstart : start.members () =
      (idle t.config.settings : Fleet Unit).members ())
    (deeds : List Deed) {j created begun : Nat}
    (hbegins : t.BeginsIn start deeds j created begun)
    (hkept : t.IsKept start deeds created) :
    Manager.new t.config.settings = .ok (start.members ()).manager ∧
    forall n, created < n ->
      ((start.course deeds n).members ()).manager.isCancelled = false ->
      (start.course deeds n).Holds t.key t.uid ∧
      ¬ RemovedBetween (start.course deeds (created + 1)).store
        (start.course deeds n).store t.key ∧
      (begun < n ->
        ((start.course deeds n).members ()).manager.registry.running?
          t.key = some t.id ∧
        exists k, (attempts start deeds t.id n).map (·.now) =
            ((List.range' 1 k).map t.tick).reverse ∧
          t.tick k ≤ (start.course deeds n).now ∧
            (start.course deeds n).now ≤ t.tick (k + 1)) := by
  have hsound : (start.members ()).IsSound t.config.settings := by
    rw [hstart]
    exact isSound_idle _
  refine ⟨?_, ?_⟩
  · rw [hstart, Manager.new, ClaimSettings.validate,
      NodeConfig.settings_defect?_of_validate hvalid]
    rfl
  · intro n hcreated hcancelled
    rcases Nat.lt_or_ge begun n with hn | hn
    · rcases isHeld_course hbegins hvalid hfits hsound hkept hn hcancelled with
        ⟨hheld, hretains⟩
      refine ⟨hheld.leased.live? (hheld.now_lt (hkept.bears' hvalid n)),
        hretains.kept, ?_⟩
      intro _
      refine ⟨?_, _, hheld.onTime, hheld.reached, hheld.stage.now_le⟩
      rcases hheld.stage.renews with
        ⟨phase, ticker, reply, ⟨⟨touches, hr⟩, _⟩, hactive⟩
      rw [Manager.running?_eq_some_iff
        (isSound_course hsound n).wellFormed hcancelled]
      exact ⟨_, hr, rfl, by rcases hactive with rfl | rfl <;> simp,
        by rcases hactive with rfl | rfl <;> simp⟩
    · rcases isLeased_course_of_le hbegins hvalid hfits hsound hkept
        hcreated hn with
        ⟨hleased, hretains⟩
      refine ⟨hleased.live? ?_, hretains.kept,
        fun hlater => absurd hlater (Nat.not_lt.mpr hn)⟩
      have hnow : (start.course deeds n).now ≤ t.tick 0 := by
        rw [← hbegins.time.right]
        exact now_le_course hn
      exact Nat.lt_of_le_of_lt
        (Nat.le_trans hnow (by rw [tick_add]; exact Nat.le_add_right _ _))
        (tick_lt_deadline (bears_of_no_failures hvalid rfl))

def inMemory : NodeConfig :=
  { NodeConfig.default with manager := .fair, store := .memory }

def holding : Tenure :=
  { config := inMemory, uid := "a", cidr := "x", id := 0, since := 5 }

/-- A claim is granted and renewed once, whereupon two attempts fail in a row
while others use the store and lapsed claims are removed. -/
def holdingDeeds : List Deed :=
  [.act (.elapse 5000000), .act (.begin () "a" "x"), .act (.proceed 0),
    .act (.proceed 0), .write (.setWithTtl "/ipclaim/y" "b" 1),
    .act (.proceed 0), .act (.elapse 3000000000), .act (.renew () 0),
    .act (.renew () 0), .act (.renew () 0), .act (.elapse 3000000000),
    .act (.renew () 0), .fail 0 (.timeout 5000), .act (.renew () 0),
    .act .sweep,
    .act (.elapse 3000000000), .act (.renew () 0), .fail 0 (.timeout 5000),
    .act (.renew () 0), .act (.elapse 2999999999),
    .scan ⟨"/ipclaim/", none, none⟩, .act .sweep]

theorem claims_survive_holdingDeeds :
    holding.IsKept (idle inMemory.settings) holdingDeeds 3 ∧
      ((idle inMemory.settings).course holdingDeeds 22).Holds "/ipclaim/x" "a" ∧
      (((idle inMemory.settings).course holdingDeeds 22).members
        ()).manager.registry.running?
        "/ipclaim/x" = some 0 ∧
      (attempts (idle inMemory.settings) holdingDeeds 0 22).map (·.now) =
        [9005000000, 6005000000, 3005000000] := by
  have hkept : holding.IsKept (idle inMemory.settings) holdingDeeds 3 := by
    refine ⟨?_, ?_, ?_, ?_⟩
    · intro n
      rcases Nat.lt_or_ge n 22 with hn | hn
      · have hall : forall n, n < 22 -> holding.IsPrompt
            ((idle inMemory.settings).course holdingDeeds n)
            ((idle inMemory.settings).course holdingDeeds (n + 1)) := by
              decide +kernel
        exact hall n hn
      · have hsame : (idle inMemory.settings).course holdingDeeds (n + 1) =
            (idle inMemory.settings).course holdingDeeds n :=
          stateAt_succ_of_none (List.getElem?_eq_none hn)
        rw [hsame]
        intro hlater
        exact absurd hlater (Nat.lt_irrefl _)
    · intro n d _ hd
      have hall : forall d, d ∈ holdingDeeds ->
          forall f, d.LeavesAlone f "/ipclaim/x" := by
        simp [holdingDeeds, Deed.LeavesAlone, Command.key]
      exact hall d (List.mem_of_getElem? hd) _
    · intro n e he
      have hall : forall d, d ∈ holdingDeeds -> forall id e, d = .fail id e ->
          e = .timeout 5000 := by
        simp [holdingDeeds]
      rw [hall _ (List.mem_of_getElem? he) _ _ rfl]
      simp
    · intro n
      have hall : forall n, n < 23 ->
          0 < failures (attempts (idle inMemory.settings) holdingDeeds 0 n) ->
          holding.Bears (attempts (idle inMemory.settings)
            holdingDeeds 0 n) := by decide +kernel
      rcases Nat.lt_or_ge n 23 with hn | hn
      · exact hall n hn
      · have hend : attempts (idle inMemory.settings) holdingDeeds 0 n =
            attempts (idle inMemory.settings) holdingDeeds 0 22 :=
          attempts_of_length_le (Nat.le_of_succ_le hn)
        rw [show holding.id = 0 from rfl, hend]
        exact hall 22 (by decide)
  have hbegins : holding.BeginsIn (idle inMemory.settings) holdingDeeds 0 3 5 :=
    ⟨rfl, rfl, rfl, rfl, rfl, rfl, by decide, rfl, rfl⟩
  rcases claims_survive holding rfl (by decide) (idle inMemory.settings)
    rfl holdingDeeds hbegins hkept with ⟨_, hall⟩
  rcases hall 22 (by decide) rfl with ⟨hholds, _, hrunning⟩
  exact ⟨hkept, hholds, (hrunning (by decide)).left, by decide +kernel⟩

end Tenure
end Fleet
end FairLease
