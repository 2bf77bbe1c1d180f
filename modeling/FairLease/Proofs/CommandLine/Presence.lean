import FairLease.CommandLine.Parser
import FairLease.Proofs.Url.Form

/-!
# Flags that are given

When the command line can be read, a flag has been given exactly if one of the
words names it: no word that looks like a flag is ever taken for a value, and
every flag that is named gets a value.
-/

namespace FairLease.CommandLine

/-!
# Taking values
-/

namespace Arguments

def has (a : Arguments) : Flag -> Bool
  | .config => a.config.isSome
  | .iface => a.iface.isSome
  | .mask => a.mask.isSome
  | .hostname => a.hostname.isSome
  | .manager => a.manager.isSome
  | .store => a.store.isSome
  | .endpoints => !a.endpoints.isEmpty
  | .requestTimeoutMs => a.requestTimeoutMs.isSome
  | .ttlMs => a.ttlMs.isSome
  | .renewIntervalMs => a.renewIntervalMs.isSome
  | .root => a.root.isSome
  | .cidrs => !a.cidrs.isEmpty

theorem has_none (flag : Flag) : none.has flag = false := by
  cases flag <;> rfl

theorem isSome_of_once {α : Type} {old value : Option α}
    {f : Option α -> Arguments} {b : Arguments}
    (h : (do return f (← once old value)) = Except.ok b) :
    exists new, new.isSome = true ∧ f new = b := by
  unfold once at h
  cases old with
  | some v => cases h
  | none =>
      cases value with
      | none => cases h
      | some v => exact ⟨some v, rfl, Except.ok.inj h⟩

theorem has_set {flag : Flag} {value : String} {a b : Arguments}
    (h : a.set flag value = .ok b) (g : Flag) :
    b.has g = (a.has g || decide (flag = g)) := by
  cases flag with
  | config =>
      have hb : b = { a with config := some value } := by
        unfold set at h
        cases hgiven : a.config.isSome with
        | true =>
            simp only [hgiven, if_true] at h
            cases h
        | false =>
            cases hempty : value.isEmpty with
            | true =>
                simp only [hgiven, hempty, if_true] at h
                cases h
            | false =>
                simp only [hgiven, hempty] at h
                exact (Except.ok.inj h).symm
      subst hb
      cases g <;> simp [has]
  | endpoints =>
      have hparts : (Text.splitAt ',' value.toList).map String.ofList ≠ [] :=
        fun hnil => Text.splitAt_ne_nil _ _ (List.map_eq_nil_iff.mp hnil)
      obtain rfl := Except.ok.inj h
      cases g <;> simp [has, hparts]
  | cidrs =>
      obtain rfl := Except.ok.inj h
      cases g <;> simp [has]
  | iface | mask | hostname | manager | store | requestTimeoutMs | ttlMs | renewIntervalMs
  | root =>
      rcases isSome_of_once h with ⟨new, hnew, rfl⟩
      cases g <;> simp [has, hnew]

end Arguments

/-!
# Reading words
-/

def Word.names (flag : Flag) : Word -> Bool
  | .long name _ => name == flag.name
  | _ => false

theorem Flag.name_inj {f g : Flag} (h : f.name = g.name) : f = g := by
  revert h
  cases f <;> cases g <;> decide

theorem Flag.name_of_ofName? {name : String} {flag : Flag}
    (h : Flag.ofName? name = some flag) :
    flag.name = name := by
  have hfound := List.find?_some h
  exact beq_iff_eq.mp hfound

theorem Word.names_long {flag : Flag} {name : String}
    (h : Flag.ofName? name = some flag) (value : Option String) (g : Flag) :
    (Word.long name value).names g = decide (flag = g) := by
  obtain rfl := Flag.name_of_ofName? h
  by_cases hg : flag = g
  · simp [names, hg]
  · simp [names, hg, mt Flag.name_inj hg]

namespace Reading

def has (r : Reading) (flag : Flag) : Bool :=
  r.arguments.has flag || r.pending.any (fun p => decide (p.1 = flag))

theorem has_resolve {r : Reading} {a : Arguments} (h : r.resolve = .ok a)
    (g : Flag) :
    a.has g = r.has g := by
  rcases r with ⟨arguments, _ | ⟨flag, _ | value⟩⟩
  · obtain rfl := Except.ok.inj h
    simp [has]
  · cases h
  · rw [Arguments.has_set h]
    simp [has]

theorem has_read {r r' : Reading} {w : Word} (h : r.read w = .ok r')
    (g : Flag) :
    r'.has g = (r.has g || w.names g) := by
  cases w with
  | separator =>
      obtain rfl := Except.ok.inj h
      simp [Word.names]
  | short letters => cases h
  | plain text =>
      rcases r with ⟨arguments, _ | ⟨flag, _ | value⟩⟩
      · cases h
      · obtain rfl := Except.ok.inj h
        simp [has, Word.names]
      · cases h
  | long name value =>
      by_cases hhelp : name = "help"
      · simp only [read, readLong, hhelp, if_true] at h
        cases h
      · simp only [read, readLong, hhelp, if_false] at h
        cases hflag : Flag.ofName? name with
        | none =>
            rw [hflag] at h
            cases h
        | some flag =>
            rw [hflag] at h
            rw [Word.names_long hflag]
            cases hresolve : r.resolve with
            | error e =>
                cases value <;> simp [hresolve, bind, Except.bind] at h
            | ok a =>
                rw [← has_resolve hresolve]
                cases value with
                | none =>
                    simp only [hresolve] at h
                    obtain rfl := Except.ok.inj h
                    simp [has]
                | some value =>
                    simp only [hresolve] at h
                    cases hset : a.set flag value with
                    | error e => simp [hset, bind, Except.bind] at h
                    | ok b =>
                        simp only [bind, Except.bind, hset] at h
                        obtain rfl := Except.ok.inj h
                        simp [has, Arguments.has_set hset]

end Reading

theorem readWords_cons {word : String} {rest : List String} {r : Reading}
    {a : Arguments} (h : readWords (word :: rest) r = .ok a) :
    (Word.ofText word = .separator ∧ rest = [] ∧ r.resolve = .ok a) ∨
      (exists r', r.read (Word.ofText word) = .ok r' ∧
        readWords rest r' = .ok a) := by
  rw [readWords] at h
  split at h
  next hword =>
    cases rest with
    | nil => exact Or.inl ⟨hword, rfl, h⟩
    | cons next rest => cases h
  next hword =>
    cases hread : r.read (Word.ofText word) with
    | error e =>
        rw [hread] at h
        cases h
    | ok r' =>
        rw [hread] at h
        exact Or.inr ⟨r', rfl, h⟩

theorem has_readWords {words : List String} {r : Reading} {a : Arguments}
    (h : readWords words r = .ok a) (g : Flag) :
    a.has g = (r.has g ||
      words.any (fun word => (Word.ofText word).names g)) := by
  induction words generalizing r with
  | nil => simp [Reading.has_resolve h]
  | cons word rest ih =>
      rcases readWords_cons h with ⟨hword, rfl, hresolve⟩ | ⟨r', hread, hrest⟩
      · simp [Reading.has_resolve hresolve, hword, Word.names]
      · rw [ih hrest, Reading.has_read hread, List.any_cons, Bool.or_assoc]

/-- A flag has been given exactly if a word names it. -/
theorem has_parse {words : List String} {a : Arguments}
    (h : parse words = .ok a) (g : Flag) :
    a.has g = words.any (fun word => (Word.ofText word).names g) := by
  rw [has_readWords h]
  simp [Reading.has, Reading.start, Arguments.has_none]

end FairLease.CommandLine
