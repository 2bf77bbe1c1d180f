import Mathlib.Data.List.Forall2
import Mathlib.Order.Bounds.Defs
import FairLease.Proofs.Etcd.Leaf

/-!
# A cluster and the in-memory store

A client of a cluster makes of replies the answers that the in-memory store
gives, and looks again for what a refusal does not say. So nobody who uses a
store can tell by its answers which of the two it is.
-/

namespace FairLease
namespace Etcd

/-!
# Single requests

Every request on a leaf is sent once, to the first endpoint, and has a reply
that is due to it.
-/

structure Connected {σ : Type} (c : Client) (send : Transport σ)
    (keys : String -> Prop) (held : σ -> String -> Option String)
    (P : σ -> Prop) : Prop where
  client : exists texts timeoutMs, Client.new texts timeoutMs = .ok c
  alone : forall e, e ∈ c.endpoints -> e.LeavesConditionsAlone
  kept : forall key, keys key -> IsKeptKey key
  serves : Serves c send keys held P

/-- One state leads to the other by requests that ask for certain lifetimes. -/
def Leads {σ : Type} (send : Transport σ) (s : σ) (ttls : List String) (t : σ) :
    Prop :=
  exists qs : List HttpRequest,
    t = qs.foldl (fun s q => (send q s).2) s ∧
      qs.filterMap HttpRequest.ttl? = ttls

section

variable {σ : Type} {c : Client} {send : Transport σ} {keys : String -> Prop}
  {held : σ -> String -> Option String} {P : σ -> Prop} {s t u : σ}

theorem leads_refl (send : Transport σ) (s : σ) : Leads send s [] s :=
  ⟨[], rfl, rfl⟩

theorem Leads.trans {ttls later : List String} (h : Leads send s ttls t)
    (h' : Leads send t later u) : Leads send s (ttls ++ later) u := by
  rcases h with ⟨qs, rfl, rfl⟩
  rcases h' with ⟨qs', rfl, rfl⟩
  exact ⟨qs ++ qs', List.foldl_append.symm, List.filterMap_append⟩

theorem Connected.exchange (h : Connected c send keys held P) (hs : P s)
    {key : String}
    (hkey : keys key) {r : KeyRequest} (hr : r.key = key) {d : Demand}
    (hdemand : forall e : Endpoint, e.LeavesConditionsAlone ->
      (r.at e).demand? = some d) :
    exists index reply value t, c.exchange send r s =
      (.ok ⟨index, reply⟩, t) ∧ P t ∧
      Leads send s (r.form.lookup "ttl").toList t ∧
      d.Due (held s key) reply value ∧
      forall k, keys k -> held t k = if key = k then value else held s k := by
  rcases h.client with ⟨texts, timeoutMs, hnew⟩
  rcases Client.endpoints_of_new hnew with ⟨hne, hdirectory⟩
  cases hendpoints : c.endpoints with
  | nil => exact absurd hendpoints hne
  | cons e rest =>
      have he : e ∈ c.endpoints := by
        rw [hendpoints]
        exact List.mem_cons_self
      have habout : (r.at e).IsAbout e key := by
        rw [← hr] at hkey ⊢
        exact KeyRequest.isAbout_at (hdirectory e he) (h.kept r.key hkey)
      rcases h.serves e (r.at e) s key d he hs hkey habout
        (hdemand e (h.alone e he)) with
        ⟨hP, ⟨index, reply⟩, value, hcarries, hdue, hheld⟩
      have hcontact := contact_of_carries hcarries rest
      refine ⟨index, reply, value, (send (r.at e) s).2, ?_, hP,
        ⟨[r.at e], rfl, ?_⟩, hdue, hheld⟩
      · rw [Client.exchange_eq, hendpoints, hcontact, hcarries.result_eq]
      · rw [List.filterMap_cons, HttpRequest.ttl?, KeyRequest.fields_at]
        cases r.form.lookup "ttl" <;> rfl

theorem held_of_same {key : String}
    (h : forall k, keys k -> held t k = if key = k then held s key
      else held s k) :
    forall k, keys k -> held t k = held s k := by
  intro k hk
  rw [h k hk]
  exact ite_eq_right_iff.mpr (congrArg (held s))

/-!
# Looking without touching
-/

/-- Requests that ask for no lifetime lead from one state to the other and leave
all values. -/
structure Spares (send : Transport σ) (keys : String -> Prop)
    (held : σ -> String -> Option String) (P : σ -> Prop) (s t : σ) : Prop where
  invariant : P t
  leads : Leads send s [] t
  held : forall k, keys k -> held t k = held s k

theorem spares_refl (hs : P s) : Spares send keys held P s s :=
  ⟨hs, leads_refl send s, fun _ _ => rfl⟩

theorem Connected.currentValue (h : Connected c send keys held P) (hs : P s)
    {key : String} (hkey : keys key) :
    exists t, c.currentValue send key s = (held s key, t) ∧
      Spares send keys held P s t := by
  rcases h.exchange hs hkey (r := .ofRead key) rfl
    (fun e he => KeyRequest.demand?_ofRead he key) with
    ⟨index, reply, value, t, hexchange, ht, hleads, hdue, hheld⟩
  rcases hdue.of_get with ⟨rfl, hreply⟩
  refine ⟨t, ?_, ht, hleads, held_of_same hheld⟩
  rcases hreply with ⟨hnone, e, rfl, _⟩ | ⟨_, r, rfl, hentry⟩
  · simp only [Client.currentValue, bind, StateT.bind, hexchange]
    rw [hnone]
    rfl
  · simp only [Client.currentValue, bind, StateT.bind, hexchange]
    rw [← hentry]
    rfl

theorem Connected.compareFailed (h : Connected c send keys held P) (hs : P s)
    {key : String} (hkey : keys key) (expected : Option String) :
    exists t, c.compareFailed send key expected s =
      (.compareFailed key expected (held s key), t) ∧
      Spares send keys held P s t := by
  rcases h.currentValue hs hkey with ⟨t, hcurrent, ht⟩
  refine ⟨t, ?_, ht⟩
  simp only [Client.compareFailed, bind, StateT.bind, hcurrent]
  rfl

/-- What a client makes of a refusal is the reason that the in-memory store
has. -/
theorem Connected.refusal (h : Connected c send keys held P) (hs : P s)
    {command : Command}
    (hkey : keys command.key) {e : ErrorBody}
    (he : (Demand.ofCommand command).verdict (held s command.key) =
      .error e.code) :
    exists reason t, c.refusal send command e s = (reason, t) ∧
      Spares send keys held P s t ∧
      command.valueAfter (held s command.key) = .error reason := by
  rcases Demand.refusal_cases he with
    ⟨key, value, ttlMs, rfl, hcode, hreason⟩ | ⟨key, expected, newValue, rfl,
      hcode, hreason⟩ |
      ⟨key, expected, newValue, ttlMs, rfl, hcode, hreason⟩ | ⟨key, rfl,
        hcode, hreason⟩
  · refine ⟨.keyExists key, s, ?_, spares_refl hs, hreason⟩
    simp only [Client.refusal, hcode, beq_self_eq_true, if_true]
    rfl
  · rcases h.compareFailed hs hkey expected with ⟨t, hfailed, ht⟩
    refine ⟨_, t, ?_, ht, hreason⟩
    rcases hcode with hcode | hcode | hcode <;> rw [Client.refusal,
      hcode] <;> exact hfailed
  · rcases h.compareFailed hs hkey (some expected) with ⟨t, hfailed, ht⟩
    refine ⟨_, t, ?_, ht, hreason⟩
    rcases hcode with hcode | hcode <;> rw [Client.refusal,
      hcode] <;> exact hfailed
  · refine ⟨.notFound key, s, ?_, spares_refl hs, hreason⟩
    simp only [Client.refusal, hcode, beq_self_eq_true, if_true]
    rfl

end

/-!
# Writes

A valid command is sent once, with its lifetime if it has one.
-/

def lifetime (op : KeyOperation) : Option String :=
  op.ttlMs?.map (fun ttlMs => toString (ttlSeconds ttlMs))

theorem lookup_ttl_ofCommand {command : Command}
    (hvalid : command.validate = .ok ()) :
    (KeyRequest.ofCommand command).form.lookup "ttl" =
      lifetime (.write command) := by
  rw [lifetime, KeyOperation.ttlMs?, hvalid]
  cases command with
  | compareAndSwap key expected newValue => cases expected <;> rfl
  | _ => rfl

theorem lifetime_of_invalid {command : Command} {e : StoreError}
    (hvalid : command.validate = .error e) :
    lifetime (.write command) = none := by
  rw [lifetime, KeyOperation.ttlMs?, hvalid]
  rfl

section

variable {σ : Type} {c : Client} {send : Transport σ}
  {command : Command} {s t u : σ} {index : Option Nat}

theorem write_of_invalid {e : StoreError} (hvalid : command.validate = .error e)
    (s : σ) :
    c.write send command s = (.error e, s) := by
  simp only [Client.write, hvalid]
  rfl

theorem write_of_success (hvalid : command.validate = .ok ()) {r : Response}
    (h : c.exchange send (.ofCommand command) s =
      (.ok ⟨index, .success r⟩, t)) :
    c.write send command s =
      (.ok ⟨some command, some r.node.modifiedIndex,
        r.prevNode.bind Node.value⟩, t) := by
  simp only [Client.write, hvalid, bind, StateT.bind, h]
  rfl

theorem write_of_failure (hvalid : command.validate = .ok ()) {e : ErrorBody}
    {reason : StoreError}
    (h : c.exchange send (.ofCommand command) s = (.ok ⟨index, .failure e⟩, t))
    (hrefusal : c.refusal send command e t = (reason, u)) :
    c.write send command s = (.error reason, u) := by
  simp only [Client.write, hvalid, bind, StateT.bind, h, hrefusal]
  rfl

end

section

variable {σ : Type} {c : Client} {send : Transport σ} {keys : String -> Prop}
  {held : σ -> String -> Option String} {P : σ -> Prop} {s : σ}

structure Performs (send : Transport σ) (keys : String -> Prop)
    (held : σ -> String -> Option String) (P : σ -> Prop) (op : KeyOperation)
    (answer : KeyAnswer) (s t : σ) : Prop where
  invariant : P t
  leads : Leads send s (lifetime op).toList t
  done : op.IsDone keys (held s) (held t) answer

theorem Connected.write (h : Connected c send keys held P) (hs : P s)
    {command : Command} (hkey : keys command.key)
    (hexpected : command.expectation ≠ some "") :
    exists result t, c.write send command s = (result, t) ∧
      Performs send keys held P (.write command) (.ofWrite result) s t := by
  cases hvalid : command.validate with
  | error e =>
      have hmeaning : (KeyOperation.write command).meaning
          (held s command.key) =
          (.written (.error e), held s command.key) :=
        KeyOperation.meaning_write_of_error (by rw [hvalid]; rfl)
      refine ⟨.error e, s, write_of_invalid hvalid s, hs, ?_, ?_⟩
      · rw [lifetime_of_invalid hvalid]
        exact leads_refl send s
      · exact KeyOperation.isDone_of_same hmeaning fun _ _ => rfl
  | ok =>
      rcases h.exchange hs hkey (key_ofCommand command)
        (fun e he => KeyRequest.demand?_ofCommand he hexpected) with
        ⟨index, reply, value, t, hexchange, ht, hleads, hdue, hheld⟩
      rw [lookup_ttl_ofCommand hvalid] at hleads
      cases hdue with
      | @refusal e hrefused =>
          -- The client may look again in the state after the refusal, where the
          -- values are the same.
          have hsame := held_of_same hheld
          rw [← hsame _ hkey] at hrefused
          rcases h.refusal ht hkey hrefused with
            ⟨reason, u, hrefusal, hu, hreason⟩
          rw [hsame _ hkey] at hreason
          have hmeaning : (KeyOperation.write command).meaning
              (held s command.key) =
              (.written (.error reason), held s command.key) :=
            KeyOperation.meaning_write_of_error (by rw [hvalid]; exact hreason)
          refine ⟨.error reason, u, write_of_failure hvalid hexchange hrefusal,
            hu.invariant, ?_, ?_⟩
          · rw [← List.append_nil (lifetime _).toList]
            exact hleads.trans hu.leads
          · exact KeyOperation.isDone_of_same hmeaning fun k
              hk => by rw [hu.held k hk, hsame k hk]
      | @result r _ hgranted hshown =>
          have hmeaning : (KeyOperation.write command).meaning
              (held s command.key) =
              (.written (.ok (some command, held s command.key)), value) :=
            KeyOperation.meaning_write_of_ok
              (by rw [hvalid]; exact Demand.valueAfter_of_verdict hgranted)
          have hanswer : KeyAnswer.ofWrite
              (.ok ⟨some command, some r.node.modifiedIndex,
                r.prevNode.bind Node.value⟩) =
                  .written (.ok (some command, held s command.key)) := by
            rw [← Demand.prevNode_of_isShownBy hshown]
            rfl
          refine ⟨_, t, write_of_success hvalid hexchange, ht, hleads,
            value, ?_, hheld⟩
          rw [hanswer]
          exact hmeaning

/-!
# Reads and deletions

A key that is not found has no value to be read or deleted.
-/

theorem Connected.read (h : Connected c send keys held P) (hs : P s)
    {key : String} (hkey : keys key) :
    exists result t, c.read send key s = (result, t) ∧
      Performs send keys held P (.read key) (.ofRead result) s t := by
  rcases h.exchange hs hkey (r := .ofRead key) rfl
    (fun e he => KeyRequest.demand?_ofRead he key) with
    ⟨index, reply, value, t, hexchange, ht, hleads, hdue, hheld⟩
  rcases hdue.of_get with ⟨rfl, hreply⟩
  have hdone : (KeyOperation.read key).IsDone keys (held s) (held t)
      (.found (.ok (held s key))) :=
    KeyOperation.isDone_of_same rfl (held_of_same hheld)
  rcases hreply with ⟨hnone, e, rfl, hcode⟩ | ⟨_, r, rfl, hentry⟩
  · rw [hnone] at hdone
    refine ⟨.ok ⟨none⟩, t, ?_, ht, hleads, hdone⟩
    simp only [Client.read, bind, StateT.bind, hexchange, hcode,
      beq_self_eq_true, if_true]
    rfl
  · rw [← hentry] at hdone
    refine ⟨.ok ⟨r.node.entry?⟩, t, ?_, ht, hleads, hdone⟩
    simp only [Client.read, bind, StateT.bind, hexchange]
    rfl

theorem Connected.delete (h : Connected c send keys held P) (hs : P s)
    {key : String} (hkey : keys key) :
    exists result t, c.delete send key s = (result, t) ∧
      Performs send keys held P (.delete key) (.deleted result) s t := by
  cases hvalid : (Command.delete key).validate with
  | error e =>
      refine ⟨.error e, s, ?_, hs, leads_refl send s, ?_⟩
      · simp only [Client.delete, hvalid]
        rfl
      · exact KeyOperation.isDone_of_same
          (KeyOperation.meaning_delete_of_invalid hvalid _) fun _ _ => rfl
  | ok =>
      rcases h.exchange hs hkey (r := .ofDelete key) rfl
        (fun e he => KeyRequest.demand?_ofDelete he key) with
        ⟨index, reply, value, t, hexchange, ht, hleads, hdue, hheld⟩
      rcases hdue.of_delete with ⟨rfl, hreply⟩
      have hdone : (KeyOperation.delete key).IsDone keys (held s) (held t)
          (.deleted (.ok ⟨key, (held s key).isSome⟩)) :=
        ⟨none, KeyOperation.meaning_delete_of_valid hvalid _, hheld⟩
      refine ⟨.ok ⟨key, (held s key).isSome⟩, t, ?_, ht, hleads, hdone⟩
      rcases hreply with ⟨hnone, e, rfl, hcode⟩ | ⟨hsome, r, rfl⟩
      · simp only [Client.delete, hvalid, bind, StateT.bind, hexchange, hcode,
          beq_self_eq_true, if_true, hnone]
        rfl
      · simp only [Client.delete, hvalid, bind, StateT.bind, hexchange, hsome]
        rfl

end

/-!
# Runs

A client and a store that start with the same values give the same answers to
the operations of a run. What the client sends meanwhile is kept by a transport
that is otherwise the same.
-/

section

variable {σ : Type}

namespace Client

def respond (c : Client) (send : Transport σ) :
    KeyOperation -> StateM σ KeyAnswer
  | .write command => return .ofWrite (← c.write send command)
  | .read key => return .ofRead (← c.read send key)
  | .delete key => return .deleted (← c.delete send key)

def responses (c : Client) (send : Transport σ) :
    List KeyOperation -> StateM σ (List KeyAnswer)
  | [] => return []
  | op :: rest => return (← c.respond send op) :: (← c.responses send rest)

end Client

def recording (send : Transport σ) : Transport (σ × List HttpRequest) :=
  fun q s => ((send q s.1).1, ((send q s.1).2, s.2 ++ [q]))

/-- The text is the least number of whole seconds, at least one, that is not
shorter than a number of milliseconds. -/
def IsLeastSeconds (ttlMs : Nat) (text : String) : Prop :=
  exists n, text = toString n ∧ IsLeast {n | 1 ≤ n ∧ ttlMs ≤ 1000 * n} n

theorem isLeastSeconds_ttlSeconds (ttlMs : Nat) :
    IsLeastSeconds ttlMs (toString (ttlSeconds ttlMs)) := by
  refine ⟨ttlSeconds ttlMs, rfl, ?_, ?_⟩
  · unfold ttlSeconds
    constructor <;> omega
  · intro n hn
    have hpositive : 1 ≤ n := hn.left
    have hlong : ttlMs ≤ 1000 * n := hn.right
    unfold ttlSeconds
    omega

theorem leads_recording {send : Transport σ} {s t : σ × List HttpRequest}
    {ttls : List String} (h : Leads (recording send) s ttls t) :
    t.2.filterMap HttpRequest.ttl? =
      s.2.filterMap HttpRequest.ttl? ++ ttls := by
  rcases h with ⟨qs, rfl, rfl⟩
  induction qs generalizing s with
  | nil => exact (List.append_nil _).symm
  | cons q rest ih =>
      rw [List.foldl_cons, ih]
      show (s.2 ++ [q]).filterMap _ ++ _ = _
      rw [List.filterMap_append, List.append_assoc, ← List.filterMap_append]
      rfl

variable {c : Client} {send : Transport σ} {keys : String -> Prop}
  {held : σ -> String -> Option String} {P : σ -> Prop}

theorem Connected.recording (h : Connected c send keys held P) :
    Connected c (recording send) keys (fun s => held s.1) (fun s => P s.1) where
  client := h.client
  alone := h.alone
  kept := h.kept
  serves := fun e q s key d he hs hkey habout hdemand =>
    h.serves e q s.1 key d he hs hkey habout hdemand

theorem Connected.respond (h : Connected c send keys held P) {s : σ} (hs : P s)
    {op : KeyOperation} (hkey : keys op.key)
    (hexpected : op.expectation ≠ some "") :
    exists answer t, c.respond send op s = (answer, t) ∧
      Performs send keys held P op answer s t := by
  cases op with
  | write command =>
      rcases h.write hs hkey hexpected with ⟨result, t, hwrite, ht⟩
      refine ⟨_, t, ?_, ht⟩
      simp only [Client.respond, bind, StateT.bind, hwrite]
      rfl
  | read key =>
      rcases h.read hs (show keys key from hkey) with ⟨result, t, hread, ht⟩
      refine ⟨_, t, ?_, ht⟩
      simp only [Client.respond, bind, StateT.bind, hread]
      rfl
  | delete key =>
      rcases h.delete hs (show keys key from hkey) with ⟨result, t, hdelete, ht⟩
      refine ⟨_, t, ?_, ht⟩
      simp only [Client.respond, bind, StateT.bind, hdelete]
      rfl

theorem Connected.responses (h : Connected c send keys held P)
    {t : σ} (ht : P t)
    {s : MemoryStore} (hagree : forall key, keys key ->
      held t key = s.value? key)
    {run : List KeyOperation.Call}
    (hrun : forall call, call ∈ run ->
      keys call.operation.key ∧ call.operation.expectation ≠ some "")
    (hlasts : s.Outlasts run) :
    exists u, c.responses send (run.map (·.operation)) t =
      (s.responses run, u) ∧
      Leads send t (run.filterMap (fun call => lifetime call.operation)) u := by
  -- The states of both go on from where the values agree, so that both are
  -- generalized.
  induction run generalizing s t with
  | nil => exact ⟨t, rfl, leads_refl send t⟩
  | cons call rest ih =>
      rcases hrun call List.mem_cons_self with ⟨hkey, hexpected⟩
      rcases h.respond ht hkey hexpected with ⟨answer, u, hrespond, hu⟩
      have hstore := MemoryStore.isDone_respond hlasts.left keys
      rcases hu.done.agree hstore hkey hagree with ⟨hanswer, hagree'⟩
      rcases ih hu.invariant hagree'
        (fun later hlater => hrun later (List.mem_cons_of_mem call hlater))
          hlasts.right with
        ⟨v, hresponses, hleads⟩
      refine ⟨v, ?_, ?_⟩
      · simp only [List.map_cons, Client.responses, bind, StateT.bind,
          hrespond, hresponses]
        rw [hanswer]
        rfl
      · have hboth := hu.leads.trans hleads
        rw [List.filterMap_cons]
        cases hlifetime : lifetime call.operation with
        | none =>
            rw [hlifetime] at hboth
            exact hboth
        | some text =>
            rw [hlifetime] at hboth
            exact hboth

/-- A client of a cluster and the in-memory store, with the same values at the
start, give the same answers to any run of operations on leaves in which nothing
lapses. Each lifetime is asked for in whole seconds: as few as are not shorter,
and at least one. -/
theorem answers_agree (h : Connected c send keys held P) {t : σ} (ht : P t)
    {s : MemoryStore}
    (hagree : forall key, keys key -> held t key = s.value? key)
    {run : List KeyOperation.Call}
    (hrun : forall call, call ∈ run ->
      keys call.operation.key ∧ call.operation.expectation ≠ some "")
    (hlasts : s.Outlasts run) :
    (c.responses send (run.map (·.operation)) t).1 = s.responses run ∧
      List.Forall₂ IsLeastSeconds (run.filterMap (·.operation.ttlMs?))
        ((c.responses (recording send) (run.map (·.operation))
          (t, [])).2.2.filterMap
          HttpRequest.ttl?) := by
  rcases h.responses ht hagree hrun hlasts with ⟨u, hresponses, _⟩
  rcases h.recording.responses (t := (t, [])) ht hagree hrun hlasts with
    ⟨v, hrecorded, hleads⟩
  have hasked : run.filterMap (fun call => lifetime call.operation) =
      (run.filterMap (·.operation.ttlMs?)).map
        (fun ttlMs => toString (ttlSeconds ttlMs)) :=
    List.map_filterMap.symm
  constructor
  · rw [hresponses]
  · rw [hrecorded, leads_recording hleads, hasked]
    exact List.forall₂_map_right_iff.mpr
      (List.forall₂_same.mpr fun ttlMs _ => isLeastSeconds_ttlSeconds ttlMs)

end

/-- Every command, carried out, refused for each reason, or not valid. -/
def exercise : List KeyOperation.Call :=
  [⟨0, .write (.createWithTtl "/ips/a" "x" 1500)⟩,
    ⟨1, .write (.createWithTtl "/ips/a" "y" 1000)⟩,
    ⟨2, .write (.compareAndSwapWithTtl "/ips/a" "y" "z" 3000)⟩,
    ⟨3, .write (.compareAndSwapWithTtl "/ips/a" "x" "z" 2000)⟩,
    ⟨4, .read "/ips/a"⟩,
    ⟨5, .write (.compareAndSwap "/ips/b" (some "u") "v")⟩,
    ⟨6, .write (.compareAndSwap "/ips/b" none "v")⟩,
    ⟨7, .write (.compareAndSwap "/ips/b" none "w")⟩,
    ⟨8, .write (.compareAndSwap "/ips/b" (some "v") "w")⟩,
    ⟨9, .write (.set "/ips/b" "u")⟩,
    ⟨10, .write (.setWithTtl "/ips/a" "t" 1)⟩,
    ⟨11, .write (.setWithTtl "/ips/a" "t" 0)⟩,
    ⟨12, .delete "/ips/b"⟩,
    ⟨13, .delete "/ips/b"⟩,
    ⟨14, .read "/ips/b"⟩,
    ⟨15, .write (.delete "/ips/b")⟩,
    ⟨16, .write (.delete "/ips/a")⟩]

theorem connected_leafServer {keys : String -> Prop}
    (hkept : forall key, keys key -> IsKeptKey key) :
    Connected singleClient leafServer keys (fun held => held)
      (fun _ => True) where
  client := ⟨["http://e"], 5000, rfl⟩
  alone := by
    intro e he name _
    rw [List.mem_singleton.mp he]
    rfl
  kept := hkept
  serves := serves_leafServer keys

theorem isKeptKey_of_mem {key : String} (h : key ∈ ["/ips/a", "/ips/b"]) :
    IsKeptKey key := by
  simp only [List.mem_cons, List.not_mem_nil, or_false] at h
  rcases h with rfl | rfl
  · exact isKeptKey_of_all rfl (by decide +kernel) (by decide +kernel)
  · exact isKeptKey_of_all rfl (by decide +kernel) (by decide +kernel)

theorem answers_agree_exercise :
    (singleClient.responses leafServer (exercise.map (·.operation))
      (fun _ => none)).1 =
      [.written (.ok (some (.createWithTtl "/ips/a" "x" 1500), none)),
        .written (.error (.keyExists "/ips/a")),
        .written (.error (.compareFailed "/ips/a" (some "y") (some "x"))),
        .written (.ok (some (.compareAndSwapWithTtl "/ips/a" "x" "z" 2000),
          some "x")),
        .found (.ok (some "z")),
        .written (.error (.compareFailed "/ips/b" (some "u") none)),
        .written (.ok (some (.compareAndSwap "/ips/b" none "v"), none)),
        .written (.error (.compareFailed "/ips/b" none (some "v"))),
        .written (.ok (some (.compareAndSwap "/ips/b" (some "v") "w"),
          some "v")),
        .written (.ok (some (.set "/ips/b" "u"), some "w")),
        .written (.ok (some (.setWithTtl "/ips/a" "t" 1), some "z")),
        .written (.error (.invalidTtl "/ips/a")),
        .deleted (.ok ⟨"/ips/b", true⟩),
        .deleted (.ok ⟨"/ips/b", false⟩),
        .found (.ok none),
        .written (.error (.notFound "/ips/b")),
        .written (.ok (some (.delete "/ips/a"), some "t"))] ∧
    List.Forall₂ IsLeastSeconds [1500, 1000, 3000, 2000, 1]
      ((singleClient.responses (recording leafServer)
        (exercise.map (·.operation))
        (fun _ => none, [])).2.2.filterMap HttpRequest.ttl?) := by
  have hagree : forall key, key ∈ ["/ips/a", "/ips/b"] ->
      none = MemoryStore.empty.value? key := by
    intro key _
    rw [MemoryStore.value?, MemoryStore.get?_empty]
    rfl
  have hrun : forall call, call ∈ exercise ->
      call.operation.key ∈ ["/ips/a", "/ips/b"] ∧
        call.operation.expectation ≠ some "" := by
    decide +kernel
  have hlasts : MemoryStore.empty.Outlasts exercise := by decide +kernel
  have hagrees :=
    answers_agree (connected_leafServer fun key hkey => isKeptKey_of_mem hkey)
    (t := fun _ => none) trivial hagree hrun hlasts
  refine ⟨?_, hagrees.right⟩
  rw [hagrees.left]
  decide +kernel

end Etcd
end FairLease
