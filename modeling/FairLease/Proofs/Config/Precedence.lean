import FairLease.Config.Build
import FairLease.Proofs.CommandLine.Presence

/-!
# Precedence of settings

Every layer sets some fields of the configuration. The highest one that sets a
field ought to decide on it. When layers are put on top of each other, a field
that is set to its default cannot be told from one that is not set, so that the
highest one decides that sets the field to anything else.
-/

namespace FairLease

/-!
# Values given by layers
-/

section

variable {α : Type} {d : α}

/-- The value that is given first, from the highest layer on. -/
def firstGiven (d : α) (given : List (Option α)) : α :=
  (given.findSome? id).getD d

variable [DecidableEq α]

/-- The value other than the default that is given first. -/
def firstChanged (d : α) (given : List (Option α)) : α :=
  firstGiven d (given.map (·.filter (· ≠ d)))

/-- A layer that gives the default is passed over like one that gives
nothing. -/
theorem firstChanged_cons (value : Option α) (given : List (Option α)) :
    firstChanged d (value :: given) =
      NodeConfig.override d (firstChanged d given) (value.getD d) := by
  cases value with
  | none => simp [firstChanged, firstGiven, NodeConfig.override]
  | some v =>
      by_cases hv : v = d
      · simp [firstChanged, firstGiven, NodeConfig.override, Option.filter, hv]
      · simp [firstChanged, firstGiven, NodeConfig.override, Option.filter, hv]

theorem firstChanged_of_not_given {given : List (Option α)}
    (h : some d ∉ given) :
    firstChanged d given = firstGiven d given := by
  have hsame : given.map (·.filter (· ≠ d)) = given := by
    refine (List.map_congr_left ?_).trans (List.map_id given)
    intro value hvalue
    cases value with
    | none => rfl
    | some v =>
        have hv : v ≠ d := fun hd => h (hd ▸ hvalue)
        simp [Option.filter, hv]
  rw [firstChanged, hsame]

theorem firstChanged_eq_default_iff (given : List (Option α)) :
    firstChanged d given = d <-> forall v, some v ∈ given -> v = d := by
  induction given with
  | nil => simp [firstChanged, firstGiven]
  | cons value given ih =>
      rw [firstChanged_cons, NodeConfig.override]
      cases value with
      | none => simpa using ih
      | some v =>
          by_cases hv : v = d
          · simpa [hv] using ih
          · simp [hv]

/-- Passing over defaults makes no difference unless the value given first is
the default and another one is given after it. -/
theorem firstChanged_eq_firstGiven_iff (given : List (Option α)) :
    firstChanged d given = firstGiven d given <->
      (firstGiven d given = d -> forall v, some v ∈ given -> v = d) := by
  induction given with
  | nil => simp [firstChanged, firstGiven]
  | cons value given ih =>
      rw [firstChanged_cons, NodeConfig.override]
      cases value with
      | none => simpa [firstGiven] using ih
      | some v =>
          by_cases hv : v = d
          · simpa [firstGiven, hv] using firstChanged_eq_default_iff given
          · simp [firstGiven, hv]

end

def nonEmpty {α : Type} (items : List α) : Option (List α) :=
  if items.isEmpty then none else some items

theorem isSome_nonEmpty {α : Type} (items : List α) :
    (nonEmpty items).isSome = !items.isEmpty := by
  cases items <;> rfl

theorem getD_nonEmpty {α : Type} (items : List α) :
    (nonEmpty items).getD [] = items := by
  cases items <;> rfl

theorem nonEmpty_ne_nil {α : Type} (items : List α) :
    nonEmpty items ≠ some [] := by
  cases items <;> simp [nonEmpty]

theorem bind_nonEmpty_ne_nil {α : Type} (items : Option (List α)) :
    items.bind nonEmpty ≠ some [] := by
  cases items with
  | none => simp
  | some items => exact nonEmpty_ne_nil items

theorem getD_bind_nonEmpty {α : Type} (items : Option (List α)) :
    (items.bind nonEmpty).getD [] = items.getD [] := by
  cases items with
  | none => rfl
  | some items => exact getD_nonEmpty items

namespace NodeConfig

/-!
# Fields
-/

inductive Field where
  | iface
  | mask
  | hostname
  | manager
  | store
  | endpoints
  | requestTimeoutMs
  | ttlMs
  | renewIntervalMs
  | root
  | cidrs
  deriving DecidableEq, Repr

def Field.Value : Field -> Type
  | .iface | .root => String
  | .mask | .requestTimeoutMs | .ttlMs | .renewIntervalMs => Nat
  | .hostname => Option String
  | .manager => ManagerKind
  | .store => StoreKind
  | .endpoints | .cidrs => List String

instance (f : Field) : DecidableEq f.Value :=
  match f with
  | .iface | .root => inferInstanceAs (DecidableEq String)
  | .mask | .requestTimeoutMs | .ttlMs | .renewIntervalMs =>
      inferInstanceAs (DecidableEq Nat)
  | .hostname => inferInstanceAs (DecidableEq (Option String))
  | .manager => inferInstanceAs (DecidableEq ManagerKind)
  | .store => inferInstanceAs (DecidableEq StoreKind)
  | .endpoints | .cidrs => inferInstanceAs (DecidableEq (List String))

def get (c : NodeConfig) : (f : Field) -> f.Value
  | .iface => c.iface
  | .mask => c.mask
  | .hostname => c.hostname
  | .manager => c.manager
  | .store => c.store
  | .endpoints => c.endpoints
  | .requestTimeoutMs => c.requestTimeoutMs
  | .ttlMs => c.ttlMs
  | .renewIntervalMs => c.renewIntervalMs
  | .root => c.root
  | .cidrs => c.cidrs

theorem get_merge (lower upper : NodeConfig) (f : Field) :
    (lower.merge upper).get f = override (default.get f) (lower.get f)
    (upper.get f) := by
  cases f <;> rfl

def Field.flag : Field -> CommandLine.Flag
  | .iface => .iface
  | .mask => .mask
  | .hostname => .hostname
  | .manager => .manager
  | .store => .store
  | .endpoints => .endpoints
  | .requestTimeoutMs => .requestTimeoutMs
  | .ttlMs => .ttlMs
  | .renewIntervalMs => .renewIntervalMs
  | .root => .root
  | .cidrs => .cidrs

/-!
# Layers

A layer sets a field if it has a value for it. A list without items sets
nothing.
-/

/-- What is set, field by field. -/
abbrev Layer : Type :=
  (f : Field) -> Option f.Value

/-- The variables that are present and can be read. An empty name counts as
absent. -/
def environmentLayer (lookup : String -> Option String) : Layer
  | .iface => lookup "IPCLAIM_IFACE"
  | .mask => ((lookup "IPCLAIM_MASK").map Text.trim).bind (Text.unsigned? 8)
  | .hostname =>
      ((lookup "IPCLAIM_HOSTNAME").filter (fun name => !name.isEmpty)).map some
  | .manager =>
      ((lookup "IPCLAIM_IPMANAGER").map Text.trim).bind ManagerKind.ofText?
  | .store =>
      ((lookup "IPCLAIM_STORE_BACKEND").map Text.trim).bind StoreKind.ofText?
  | .endpoints =>
      ((lookup "IPCLAIM_ETCD_ENDPOINTS").map splitList).bind nonEmpty
  | .requestTimeoutMs =>
      ((lookup "IPCLAIM_REQUEST_TIMEOUT_MS").map Text.trim).bind
        (Text.unsigned? 64)
  | .ttlMs => ((lookup "IPCLAIM_TTL_MS").map Text.trim).bind (Text.unsigned? 64)
  | .renewIntervalMs =>
      ((lookup "IPCLAIM_RENEW_INTERVAL_MS").map Text.trim).bind
        (Text.unsigned? 64)
  | .root => lookup "IPCLAIM_PREFIX"
  | .cidrs => ((lookup "IPCLAIM_CIDRS").map splitList).bind nonEmpty

def fileLayer (m : Toml.Members) : Layer
  | .iface => (m.lookup "iface").bind textValue?
  | .mask => (m.lookup "mask").bind (unsignedValue? 8)
  | .hostname => (m.lookup "hostname").bind (fun v => (textValue? v).map some)
  | .manager => (m.lookup "ipmanager").bind (fun v => (choiceName? v).bind ManagerKind.ofName?)
  | .store => (m.lookup "store_backend").bind (fun v => (choiceName? v).bind StoreKind.ofName?)
  | .endpoints => ((m.lookup "etcd_endpoints").bind textsValue?).bind nonEmpty
  | .requestTimeoutMs =>
      (m.lookup "request_timeout_ms").bind (unsignedValue? 64)
  | .ttlMs => (m.lookup "ttl_ms").bind (unsignedValue? 64)
  | .renewIntervalMs => (m.lookup "renew_interval_ms").bind (unsignedValue? 64)
  | .root => (m.lookup "prefix").bind textValue?
  | .cidrs => ((m.lookup "cidrs").bind textsValue?).bind nonEmpty

def argumentsLayer (a : CommandLine.Arguments) : Layer
  | .iface => a.iface
  | .mask => a.mask
  | .hostname => a.hostname.map some
  | .manager => a.manager
  | .store => a.store
  | .endpoints => nonEmpty a.endpoints
  | .requestTimeoutMs => a.requestTimeoutMs
  | .ttlMs => a.ttlMs
  | .renewIntervalMs => a.renewIntervalMs
  | .root => a.root
  | .cidrs => nonEmpty a.cidrs

/-- The configuration has what the layer sets, and otherwise defaults. -/
def IsRecord (c : NodeConfig) (layer : Layer) : Prop :=
  forall f, c.get f = (layer f).getD (default.get f)

theorem isRecord_ofEnvironment (lookup : String -> Option String) :
    (ofEnvironment lookup).IsRecord (environmentLayer lookup) := by
  intro f
  cases f with
  | hostname =>
      show (lookup "IPCLAIM_HOSTNAME").filter (fun name => !name.isEmpty) = _
      unfold environmentLayer
      cases (lookup "IPCLAIM_HOSTNAME").filter
        (fun name => !name.isEmpty) <;> rfl
  | endpoints | cidrs => exact (getD_bind_nonEmpty _).symm
  | _ => rfl

theorem isRecord_ofArguments (a : CommandLine.Arguments) :
    (ofArguments a).IsRecord (argumentsLayer a) := by
  intro f
  cases f with
  | hostname =>
      show a.hostname = (a.hostname.map some).getD none
      cases a.hostname <;> rfl
  | endpoints | cidrs => exact (getD_nonEmpty _).symm
  | _ => rfl

theorem eq_of_fieldValue {α : Type} {m : Toml.Members} {name : String} {d x : α}
    {read : Toml.Value -> Option α} (h : fieldValue m name d read = some x) :
    x = ((m.lookup name).bind read).getD d := by
  unfold fieldValue at h
  cases hv : m.lookup name with
  | none =>
      rw [hv] at h
      exact (Option.some.inj h).symm
  | some v =>
      rw [hv] at h
      show x = (read v).getD d
      have hread : read v = some x := h
      rw [hread]
      rfl

theorem isRecord_ofMembers {m : Toml.Members} {c : NodeConfig}
    (h : ofMembers? m = some c) :
    c.IsRecord (fileLayer m) := by
  simp only [ofMembers?, Option.bind_eq_bind, Option.bind_eq_some_iff,
    Option.pure_def, Option.some.injEq] at h
  rcases h with ⟨iface, hiface, mask, hmask, hostname, hhostname, manager,
    hmanager, store, hstore, endpoints, hendpoints, requestTimeoutMs, hrequest,
    ttlMs, httl, renewIntervalMs, hrenew, root, hroot, cidrs, hcidrs, rfl⟩
  intro f
  cases f with
  | iface => exact eq_of_fieldValue hiface
  | mask => exact eq_of_fieldValue hmask
  | hostname => exact eq_of_fieldValue hhostname
  | manager => exact eq_of_fieldValue hmanager
  | store => exact eq_of_fieldValue hstore
  | endpoints =>
      exact (eq_of_fieldValue hendpoints).trans (getD_bind_nonEmpty _).symm
  | requestTimeoutMs => exact eq_of_fieldValue hrequest
  | ttlMs => exact eq_of_fieldValue httl
  | renewIntervalMs => exact eq_of_fieldValue hrenew
  | root => exact eq_of_fieldValue hroot
  | cidrs => exact (eq_of_fieldValue hcidrs).trans (getD_bind_nonEmpty _).symm

/-- The default of the field stands for what cannot be set. -/
def Field.IsUnset (f : Field) : Prop :=
  f = .hostname ∨ f = .endpoints ∨ f = .cidrs

section

variable {f : Field} (hf : f.IsUnset)

include hf

theorem environmentLayer_ne_default (lookup : String -> Option String) :
    environmentLayer lookup f ≠ some (default.get f) := by
  rcases hf with rfl | rfl | rfl
  · show ((lookup "IPCLAIM_HOSTNAME").filter _).map some ≠ some none
    simp
  · exact bind_nonEmpty_ne_nil _
  · exact bind_nonEmpty_ne_nil _

theorem fileLayer_ne_default (m : Toml.Members) :
    fileLayer m f ≠ some (default.get f) := by
  rcases hf with rfl | rfl | rfl
  · show (m.lookup "hostname").bind (fun v =>
        (textValue? v).map some) ≠ some none
    simp [Option.bind_eq_some_iff]
  · exact bind_nonEmpty_ne_nil _
  · exact bind_nonEmpty_ne_nil _

theorem argumentsLayer_ne_default (a : CommandLine.Arguments) :
    argumentsLayer a f ≠ some (default.get f) := by
  rcases hf with rfl | rfl | rfl
  · show a.hostname.map some ≠ some none
    simp
  · exact nonEmpty_ne_nil _
  · exact nonEmpty_ne_nil _

end

/-!
# Layers on top of each other
-/

def given (layers : List Layer) (f : Field) : List (Option f.Value) :=
  layers.map (fun layer => layer f)

def documented (layers : List Layer) (f : Field) : f.Value :=
  firstGiven (default.get f) (given layers f)

/-- The configuration has what the layers give to it when they are put on top of
each other. -/
def Shows (c : NodeConfig) (layers : List Layer) : Prop :=
  forall f, c.get f = firstChanged (default.get f) (given layers f)

theorem IsRecord.shows {c : NodeConfig} {layer : Layer} (h : c.IsRecord layer) :
    c.Shows [layer] := by
  intro f
  rw [given, List.map_singleton, firstChanged_cons, ← h f]
  by_cases hf : c.get f = default.get f
  · rw [override, if_pos hf, hf]
    rfl
  · rw [override, if_neg hf]

theorem Shows.merge {lower upper : NodeConfig} {layers : List Layer}
    {layer : Layer} (hlower : lower.Shows layers)
    (hupper : upper.IsRecord layer) :
    (lower.merge upper).Shows (layer :: layers) := by
  intro f
  rw [get_merge, hlower f, hupper f]
  exact (firstChanged_cons (layer f) (given layers f)).symm

inductive Loads (fileText? : String -> Option String) :
    Option String -> List Layer -> Prop where
  | nothing : Loads fileText? none []
  | file {path text : String} {m : Toml.Members} {c : NodeConfig}
      (htext : fileText? path = some text)
      (hmembers : Toml.parse? text = some m)
      (hc : ofMembers? m = some c) : Loads fileText? (some path) [fileLayer m]

def layers (lookup : String -> Option String) (file : List Layer)
    (a : CommandLine.Arguments) :
    List Layer :=
  argumentsLayer a :: file ++ [environmentLayer lookup]

theorem layered_shows (lookup : String -> Option String)
    {fileText? : String -> Option String} {a : CommandLine.Arguments}
    {file : List Layer} (hfile : Loads fileText? a.config file) :
    exists c, layered (ofEnvironment lookup) fileText? a = .ok c ∧
      c.Shows (layers lookup file a) := by
  have henvironment := (isRecord_ofEnvironment lookup).shows
  have harguments := isRecord_ofArguments a
  unfold layered
  generalize a.config = config at hfile
  cases hfile with
  | nothing => exact ⟨_, rfl, henvironment.merge harguments⟩
  | @file path text m c htext hmembers hc =>
      have hload : load (fileText? path) = .ok c := by
        simp [load, htext, ofFile?, hmembers, hc]
      refine ⟨((ofEnvironment lookup).merge c).merge (ofArguments a), ?_, ?_⟩
      · simp only [hload]
        rfl
      · exact (henvironment.merge (isRecord_ofMembers hc)).merge harguments

theorem isSome_argumentsLayer (a : CommandLine.Arguments) (f : Field) :
    (argumentsLayer a f).isSome = a.has f.flag := by
  cases f with
  | hostname => exact Option.isSome_map
  | endpoints | cidrs => exact isSome_nonEmpty _
  | _ => rfl

theorem default_not_given {lookup : String -> Option String}
    {fileText? : String -> Option String} {a : CommandLine.Arguments}
    {file : List Layer} (hfile : Loads fileText? a.config file) {f : Field}
    (hf : f.IsUnset) :
    some (default.get f) ∉ given (layers lookup file a) f := by
  have henvironment := environmentLayer_ne_default hf lookup
  have harguments := argumentsLayer_ne_default hf a
  intro h
  rcases List.mem_map.mp h with ⟨layer, hlayer, hgiven⟩
  rcases List.mem_append.mp hlayer with hlayer | hlayer
  · rcases List.mem_cons.mp hlayer with rfl | hlayer
    · exact harguments hgiven
    · generalize a.config = config at hfile
      cases hfile with
      | nothing => cases hlayer
      | file _ _ _ =>
          obtain rfl := List.mem_singleton.mp hlayer
          exact fileLayer_ne_default hf _ hgiven
  · obtain rfl := List.mem_singleton.mp hlayer
    exact henvironment hgiven

/-- The environment, a command line and a file, if one is named, are put on top
of each other: (1) a configuration comes out, which is used if it is valid; (2)
a field is set by the command line exactly if a word names its flag; (3) every
field has the value of the highest layer that sets it to anything but its
default; (4) this is the documented value unless that one is the default and a
layer gives another; (5) it is the documented one whenever the default of the
field cannot be set. -/
theorem precedence_holds_iff (lookup : String -> Option String)
    {fileText? : String -> Option String} {words : List String}
    {a : CommandLine.Arguments} {file : List Layer}
    (ha : CommandLine.parse words = .ok a)
    (hfile : Loads fileText? a.config file) :
    exists c, layered (ofEnvironment lookup) fileText? a = .ok c ∧
      build (ofEnvironment lookup) fileText? a = (do c.validate; return c) ∧
      forall f,
        (argumentsLayer a f).isSome =
          words.any (fun word => (CommandLine.Word.ofText word).names f.flag) ∧
        c.get f = firstChanged (default.get f)
          (given (layers lookup file a) f) ∧
        (c.get f = documented (layers lookup file a) f <->
          (documented (layers lookup file a) f = default.get f ->
            forall v, some v ∈ given (layers lookup file a) f ->
              v = default.get f)) ∧
        (f.IsUnset -> c.get f = documented (layers lookup file a) f) := by
  rcases layered_shows lookup hfile with ⟨c, hlayered, hshows⟩
  refine ⟨c, hlayered, ?_, fun f => ⟨?_, hshows f, ?_, ?_⟩⟩
  · rw [build, hlayered]
    rfl
  · rw [isSome_argumentsLayer, CommandLine.has_parse ha]
  · rw [hshows f]
    exact firstChanged_eq_firstGiven_iff _
  · intro hf
    rw [hshows f]
    exact firstChanged_of_not_given (default_not_given hfile hf)

/-- The flag gives the default to the interface, for which the file has another
name. -/
def maskedWords : List String :=
  ["--config", "node.toml", "--iface", "eth0", "--cidr", "10.0.0.7"]

/-- The file gives the default to the lifetime, for which the environment has
another value. -/
def maskedText : String :=
  "iface = \"eth1\"\nttl_ms = 10000\ncidrs = [\"10.0.0.1\"]\n"

def maskedLookup (name : String) : Option String :=
  if name = "IPCLAIM_TTL_MS" then some "20000" else none

theorem masked_given : exists a m, CommandLine.parse maskedWords = .ok a ∧
    Loads (fun _ => some maskedText) a.config [fileLayer m] ∧
    given (layers maskedLookup [fileLayer m] a) .iface =
      [some "eth0", some "eth1", none] ∧
    given (layers maskedLookup [fileLayer m] a) .ttlMs =
      [none, some (10000 : Nat), some (20000 : Nat)] ∧
    given (layers maskedLookup [fileLayer m] a) .cidrs =
      [some ["10.0.0.7"], some ["10.0.0.1"], none] := by
  have hwords : (CommandLine.parse maskedWords).toOption.map
      (fun a => (a.config, a.iface, a.ttlMs, a.cidrs)) =
      some (some "node.toml", some "eth0", none, ["10.0.0.7"]) := by
        decide +kernel
  have htext : (Toml.parse? maskedText).map (fun m => ((ofMembers? m).isSome,
      (m.lookup "iface").bind textValue?,
      (m.lookup "ttl_ms").bind (unsignedValue? 64),
      (m.lookup "cidrs").bind textsValue?)) =
      some (true, some "eth1", some 10000, some ["10.0.0.1"]) := by
        decide +kernel
  cases ha : CommandLine.parse maskedWords with
  | error e =>
      rw [ha] at hwords
      cases hwords
  | ok a =>
      rw [ha] at hwords
      rcases Option.map_eq_some_iff.mp htext with ⟨m, hm, hmembers⟩
      have hgiven := Option.some.inj hwords
      simp only [Prod.mk.injEq, Option.isSome_iff_exists] at hgiven hmembers
      rcases hgiven with ⟨hconfig, hiface, httl, hcidrs⟩
      rcases hmembers with ⟨⟨c, hc⟩, hfileIface, hfileTtl, hfileCidrs⟩
      refine ⟨a, m, rfl, hconfig ▸ .file rfl hm hc, ?_, ?_, ?_⟩
      · show [a.iface, (m.lookup "iface").bind textValue?,
            maskedLookup "IPCLAIM_IFACE"] =
          [some "eth0", some "eth1", none]
        rw [hiface, hfileIface]
        decide
      · show [a.ttlMs, (m.lookup "ttl_ms").bind (unsignedValue? 64),
          ((maskedLookup "IPCLAIM_TTL_MS").map Text.trim).bind
            (Text.unsigned? 64)] =
          [none, some 10000, some 20000]
        rw [httl, hfileTtl]
        decide +kernel
      · show [nonEmpty a.cidrs,
            ((m.lookup "cidrs").bind textsValue?).bind nonEmpty,
          ((maskedLookup "IPCLAIM_CIDRS").map splitList).bind nonEmpty] =
          [some ["10.0.0.7"], some ["10.0.0.1"], none]
        rw [hcidrs, hfileCidrs]
        decide

theorem precedence_holds_iff_maskedWords :
    exists a m c, CommandLine.parse maskedWords = .ok a ∧
      Loads (fun _ => some maskedText) a.config [fileLayer m] ∧
      layered (ofEnvironment maskedLookup)
        (fun _ => some maskedText) a = .ok c ∧
      c.iface = "eth1" ∧ c.ttlMs = 20000 ∧ c.cidrs = ["10.0.0.7"] := by
  rcases masked_given with ⟨a, m, ha, hfile, hiface, httl, hcidrs⟩
  rcases precedence_holds_iff maskedLookup ha hfile with
    ⟨c, hlayered, _, hfields⟩
  refine ⟨a, m, c, ha, hfile, hlayered, ?_, ?_, ?_⟩
  · have h := (hfields .iface).right.left
    rw [hiface] at h
    exact h
  · have h := (hfields .ttlMs).right.left
    rw [httl] at h
    exact h
  · have h := (hfields .cidrs).right.left
    rw [hcidrs] at h
    exact h

/-- A default does not override what a lower layer gives, even if it is set. -/
theorem default_does_not_override :
    ¬ forall (lookup : String -> Option String)
      (fileText? : String -> Option String)
      (words : List String) (a : CommandLine.Arguments) (file : List Layer),
      CommandLine.parse words = .ok a -> Loads fileText? a.config file ->
      exists c, layered (ofEnvironment lookup) fileText? a = .ok c ∧
        forall f, c.get f = documented (layers lookup file a) f := by
  intro halways
  rcases masked_given with ⟨a, m, ha, hfile, hiface, _⟩
  rcases halways maskedLookup _ maskedWords a _ ha hfile with
    ⟨c, hlayered, hdocumented⟩
  rcases layered_shows maskedLookup hfile with ⟨c', hlayered', hshows⟩
  obtain rfl : c = c' := Except.ok.inj (hlayered.symm.trans hlayered')
  have hused := (hshows .iface).symm.trans (hdocumented .iface)
  rw [documented, hiface] at hused
  exact absurd hused (by decide)

end NodeConfig
end FairLease
