import FairLease.Etcd.Client
import FairLease.Proofs.Url.Form
import FairLease.Proofs.Url.Path

/-!
# Requests as a server reads them

A server reads from a request its path, the parameters of its query and the
fields of its form. These are what the client meant to ask.
-/

namespace FairLease
namespace Etcd

/-!
# Reading a request
-/

namespace HttpRequest

def path (q : HttpRequest) : List Char :=
  q.target.toList.takeWhile (· != '?')

def parameters (q : HttpRequest) : List (String × String) :=
  Url.readForm ((q.target.toList.dropWhile (· != '?')).drop 1)

/-- Of parameters of the same name the first one counts. -/
def parameter (q : HttpRequest) (name : String) : Option String :=
  q.parameters.lookup name

def fields (q : HttpRequest) : List (String × String) :=
  Url.readForm q.form.toList

end HttpRequest

def Endpoint.parameters (e : Endpoint) : List (String × String) :=
  Url.readForm (e.query.getD [])

/-!
# The parts of a request

The path of an address holds no question mark, so that its query is found, and
parameters of its own come first.
-/

theorem questionMark_notMem_keyUrl (e : Endpoint) (key : String) :
    '?' ∉ (e.keyUrl key).path :=
  Url.notMem_normalizePath (by decide) (by decide) _

theorem takeWhile_target {e : Endpoint} (h : '?' ∉ e.path) :
    e.target.toList.takeWhile (· != '?') = e.path ∧
      (e.target.toList.dropWhile (· != '?')).drop 1 = e.query.getD [] := by
  have hpath : forall c, c ∈ e.path -> (c != '?') = true := by
    intro c hc
    rw [bne_iff_ne]
    rintro rfl
    exact h hc
  unfold Endpoint.target
  rw [String.toList_ofList, List.takeWhile_append_of_pos hpath,
    List.dropWhile_append_of_pos hpath]
  cases e.query with
  | none => exact ⟨List.append_nil _, rfl⟩
  | some query => exact ⟨List.append_nil _, rfl⟩

theorem query_withQuery (e : Endpoint) (pairs : List (String × String)) :
    (e.withQuery pairs).query.getD [] = match e.query with
      | none => Url.formPairs pairs
      | some [] => Url.formPairs pairs
      | some old =>
          if (Url.formPairs pairs).isEmpty then old
          else old ++ '&' :: Url.formPairs pairs := by
  unfold Endpoint.withQuery
  simp only
  split <;> split <;> simp_all

theorem readForm_withQuery (e : Endpoint) (pairs : List (String × String)) :
    Url.readForm ((e.withQuery pairs).query.getD []) =
      e.parameters ++ pairs := by
  have hadded := Url.readForm_formPairs pairs
  rw [query_withQuery, Endpoint.parameters]
  cases hquery : e.query with
  | none => exact hadded
  | some old =>
      cases old with
      | nil => exact hadded
      | cons c old =>
          show Url.readForm (if (Url.formPairs pairs).isEmpty then c :: old
            else c :: old ++ '&' :: Url.formPairs pairs) =
              Url.readForm (c :: old) ++ pairs
          cases hempty : (Url.formPairs pairs).isEmpty with
          | true =>
              rw [List.isEmpty_iff.mp hempty] at hadded
              rw [if_pos rfl, ← hadded]
              exact (List.append_nil _).symm
          | false => rw [if_neg Bool.false_ne_true, Url.readForm_append, hadded]

namespace KeyRequest

variable (r : KeyRequest) (e : Endpoint)

theorem path_at : (r.at e).path = (e.keyUrl r.key).path :=
  (takeWhile_target (e := (e.keyUrl r.key).withQuery r.query)
    (questionMark_notMem_keyUrl e r.key)).left

theorem parameters_at : (r.at e).parameters = e.parameters ++ r.query := by
  have htarget := (takeWhile_target (e := (e.keyUrl r.key).withQuery r.query)
    (questionMark_notMem_keyUrl e r.key)).right
  show Url.readForm ((Endpoint.target _).toList.dropWhile
      (· != '?') |>.drop 1) = _
  rw [htarget, readForm_withQuery]
  rfl

theorem fields_at : (r.at e).fields = r.form := by
  show Url.readForm (String.ofList (Url.formPairs r.form)).toList = r.form
  rw [String.toList_ofList, Url.readForm_formPairs]

/-- A parameter that the address does not set has the value that the request
gives it. -/
theorem parameter_at {name : String} (h : e.parameters.lookup name = none) :
    (r.at e).parameter name = r.query.lookup name := by
  rw [HttpRequest.parameter, parameters_at, List.lookup_append, h,
    Option.none_or]

end KeyRequest

/-!
# Keys that are kept

The path of an endpoint ends in a slash. A key of clean segments stands behind
it as it is, so that a server finds the very key in the path.
-/

/-- The key starts with a slash, holds only characters that paths keep, and has
no dot segments. -/
structure IsKeptKey (key : String) : Prop where
  leading : exists rest, key.toList = '/' :: rest
  kept : forall c, c ∈ key.toList -> c = '/' ∨ Url.isKept c = true
  noDots : forall part, part ∈ Text.splitAt '/' key.toList ->
    Url.isDot part = false ∧ Url.isDoubleDot part = false

theorem isKeptKey_of_all {key : String} {rest : List Char}
    (hleading : key.toList = '/' :: rest)
    (hkept : key.toList.all (fun c => c == '/' || Url.isKept c) = true)
    (hdots : (Text.splitAt '/' key.toList).all
      (fun part => !Url.isDot part && !Url.isDoubleDot part) = true) :
      IsKeptKey key := by
  refine ⟨⟨rest, hleading⟩, ?_, ?_⟩
  · intro c hc
    have hchar := List.all_eq_true.mp hkept c hc
    rwa [Bool.or_eq_true, beq_iff_eq] at hchar
  · intro part hpart
    have hnames := List.all_eq_true.mp hdots part hpart
    rwa [Bool.and_eq_true, Bool.not_eq_true', Bool.not_eq_true'] at hnames

def Endpoint.IsDirectory (e : Endpoint) : Prop :=
  exists segments, (forall s, s ∈ segments -> Url.IsClean s) ∧
    e.path = Url.pathChars segments ++ ['/']

theorem pathChars_append_singleton (segments : List (List Char))
    (last : List Char) :
    Url.pathChars (segments ++ [last]) = Url.pathChars segments ++
      '/' :: last := by
  simp [Url.pathChars]

theorem isDirectory_asDirectory {e : Endpoint} {cs : List Char}
    (h : e.path = Url.normalizePath cs) :
    (e.asDirectory).IsDirectory := by
  rcases Url.exists_segments cs with ⟨segments, hne, hclean, heq⟩
  rw [heq] at h
  unfold Endpoint.asDirectory
  split
  · rename_i hslash
    rcases List.eq_nil_or_concat segments with hnil | ⟨front, last, hsegments⟩
    · exact absurd hnil hne
    rw [List.concat_eq_append] at hsegments
    rw [hsegments, pathChars_append_singleton] at h
    have hlast : last = [] := by
      rcases List.eq_nil_or_concat last with hnil | ⟨start, c, hc⟩
      · exact hnil
      rw [List.concat_eq_append] at hc
      rw [h, hc, ← List.cons_append, ← List.append_assoc, List.getLast?_concat,
        Option.some_inj] at hslash
      have hkept :=
        (hclean last (by rw [hsegments]; simp)).kept c (by rw [hc]; simp)
      rw [hslash] at hkept
      exact absurd hkept (by decide)
    refine ⟨front, fun s hs => hclean s (by rw [hsegments]; simp [hs]), ?_⟩
    rw [h, hlast]
  · refine ⟨segments, hclean, ?_⟩
    have hslash : Url.pathChars segments ++ ['/'] =
        Url.pathChars (segments ++ [[]]) :=
      (pathChars_append_singleton segments []).symm
    show Url.normalizePath (e.path ++ ['/']) = _
    rw [h, hslash, Url.normalizePath_pathChars (by simp)]
    intro s hs
    rcases List.mem_append.mp hs with hs | hs
    · exact hclean s hs
    · rw [List.mem_singleton.mp hs]
      exact Url.isClean_nil

theorem path_of_parse {text : String} {url : Url.WebUrl}
    (h : Url.parse text = .ok (.web url)) :
    exists cs, url.path = Url.normalizePath cs := by
  unfold Url.parse at h
  split at h
  · cases h
  · rename_i scheme rest _
    split at h
    · cases hweb : Url.parseWeb scheme rest with
      | error e =>
          rw [hweb] at h
          cases h
      | ok found =>
          rw [hweb] at h
          cases h
          unfold Url.parseWeb at hweb
          simp only [bind, Except.bind] at hweb
          split at hweb
          · cases hweb
          · cases hweb
            exact ⟨_, rfl⟩
    · split at h
      · cases hcheck : Url.checkFile rest <;> rw [hcheck] at h <;> cases h
      · cases hcheck : Url.checkOther scheme rest <;>
          rw [hcheck] at h <;> cases h

theorem isDirectory_parse {text : String} {e : Endpoint}
    (h : Endpoint.parse text = .ok e) :
    e.IsDirectory := by
  unfold Endpoint.parse at h
  split at h
  · cases h
  · cases h
  · rename_i url hparse
    rcases path_of_parse hparse with ⟨cs, hpath⟩
    split at h
    · cases h
      exact isDirectory_asDirectory hpath
    · cases h

theorem isDirectory_parseAll {texts : List String} {endpoints : List Endpoint}
    (h : texts.mapM Endpoint.parse = .ok endpoints) :
    endpoints.length = texts.length ∧ forall e, e ∈ endpoints ->
      e.IsDirectory := by
  induction texts generalizing endpoints with
  | nil =>
      cases h
      exact ⟨rfl, fun e he => absurd he List.not_mem_nil⟩
  | cons text rest ih =>
      rw [List.mapM_cons] at h
      cases hfirst : Endpoint.parse text with
      | error e =>
          rw [hfirst] at h
          cases h
      | ok first =>
          cases hrest : rest.mapM Endpoint.parse with
          | error e =>
              rw [hfirst, hrest] at h
              cases h
          | ok others =>
              rw [hfirst, hrest] at h
              cases h
              rcases ih hrest with ⟨hlength, hdirectory⟩
              constructor
              · rw [List.length_cons, List.length_cons, hlength]
              · intro e he
                rcases List.mem_cons.mp he with rfl | he
                · exact isDirectory_parse hfirst
                · exact hdirectory e he

theorem Client.endpoints_of_new {texts : List String} {timeoutMs : Nat}
    {c : Client} (h : Client.new texts timeoutMs = .ok c) :
    c.endpoints ≠ [] ∧ forall e, e ∈ c.endpoints -> e.IsDirectory := by
  unfold Client.new Endpoint.parseAll at h
  cases hempty : texts.isEmpty with
  | true =>
      rw [hempty] at h
      cases h
  | false =>
      rw [hempty, if_neg Bool.false_ne_true] at h
      cases hparse : texts.mapM Endpoint.parse with
      | error e =>
          rw [hparse] at h
          cases h
      | ok endpoints =>
          rw [hparse] at h
          cases h
          rcases isDirectory_parseAll hparse with ⟨hlength, hdirectory⟩
          refine ⟨?_, hdirectory⟩
          intro hnil
          rw [show endpoints = [] from hnil, List.length_nil] at hlength
          rw [List.eq_nil_of_length_eq_zero hlength.symm] at hempty
          cases hempty

theorem pathChars_splitAt (cs : List Char) :
    Url.pathChars (Text.splitAt '/' cs) = '/' :: cs := by
  induction cs with
  | nil => rfl
  | cons c rest ih =>
      unfold Text.splitAt
      split
      · rename_i hc
        rw [hc]
        show '/' :: Url.pathChars (Text.splitAt '/' rest) = _
        rw [ih]
      · cases hsplit : Text.splitAt '/' rest with
        | nil => exact absurd hsplit (Text.splitAt_ne_nil '/' rest)
        | cons part parts =>
            rw [hsplit] at ih
            have htail := (List.cons.inj ih).right
            show '/' :: c :: (part ++ Url.pathChars parts) = _
            rw [← htail]
            rfl

theorem mem_of_mem_splitAt {separator c : Char} {cs part : List Char}
    (hpart : part ∈ Text.splitAt separator cs) (hc : c ∈ part) :
    c ∈ cs ∧ c ≠ separator := by
  induction cs generalizing part with
  | nil =>
      rw [Text.splitAt, List.mem_singleton] at hpart
      rw [hpart] at hc
      cases hc
  | cons d rest ih =>
      unfold Text.splitAt at hpart
      split at hpart
      · rcases List.mem_cons.mp hpart with rfl | hpart
        · cases hc
        · exact ⟨List.mem_cons_of_mem d (ih hpart hc).left, (ih hpart hc).right⟩
      · rename_i hd
        cases hsplit : Text.splitAt separator rest with
        | nil => exact absurd hsplit (Text.splitAt_ne_nil separator rest)
        | cons first parts =>
            rw [hsplit] at hpart ih
            rcases List.mem_cons.mp hpart with rfl | hpart
            · rcases List.mem_cons.mp hc with rfl | hc
              · exact ⟨List.mem_cons_self, hd⟩
              · have hmem := ih List.mem_cons_self hc
                exact ⟨List.mem_cons_of_mem d hmem.left, hmem.right⟩
            · have hmem := ih (List.mem_cons_of_mem first hpart) hc
              exact ⟨List.mem_cons_of_mem d hmem.left, hmem.right⟩

theorem IsKeptKey.isClean {key : String} (hkey : IsKeptKey key)
    {part : List Char} (hpart : part ∈ Text.splitAt '/' key.toList) :
    Url.IsClean part := by
  refine ⟨?_, (hkey.noDots part hpart).left, (hkey.noDots part hpart).right⟩
  intro c hc
  have hmem := mem_of_mem_splitAt hpart hc
  rcases hkey.kept c hmem.left with hslash | hkept
  · exact absurd hslash hmem.right
  · exact hkept

def keysSegments (segments : List (List Char)) : List (List Char) :=
  segments ++ ["v2".toList, "keys".toList]

theorem isClean_keysSegments {segments : List (List Char)}
    (h : forall s, s ∈ segments -> Url.IsClean s) :
    forall s, s ∈ keysSegments segments -> Url.IsClean s := by
  intro s hs
  rcases List.mem_append.mp hs with hs | hs
  · exact h s hs
  rcases List.mem_cons.mp hs with rfl | hs
  · exact ⟨List.all_eq_true.mp (by decide +kernel), by decide +kernel,
      by decide +kernel⟩
  · rw [List.mem_singleton.mp hs]
    exact ⟨List.all_eq_true.mp (by decide +kernel), by decide +kernel,
      by decide +kernel⟩

theorem pathChars_append (a b : List (List Char)) :
    Url.pathChars (a ++ b) = Url.pathChars a ++ Url.pathChars b :=
  List.flatMap_append

theorem pathChars_keysSegments {e : Endpoint} {segments : List (List Char)}
    (h : e.path = Url.pathChars segments ++ ['/']) :
    Url.pathChars (keysSegments segments) = e.path ++ "v2/keys".toList := by
  have hnames : Url.pathChars ["v2".toList, "keys".toList] =
      '/' :: "v2/keys".toList := by
    decide +kernel
  rw [keysSegments, pathChars_append, hnames, h, List.append_assoc,
    List.singleton_append]

/-- The slash that a key starts with is the one behind the name of the keys. -/
theorem path_keyUrl_of_leading {e : Endpoint} {segments : List (List Char)}
    {key : String} {rest : List Char}
    (hpath : e.path = Url.pathChars segments ++ ['/'])
    (hkey : key.toList = '/' :: rest) :
    (e.keyUrl key).path =
      Url.normalizePath (Url.pathChars (keysSegments segments) ++
        key.toList) := by
  have hlead : keysPath = "v2/keys".toList ++ ['/'] := by decide +kernel
  have hrelative : relativeKey key = rest := by
    simp only [relativeKey, hkey]
  show Url.normalizePath (e.path ++ keysPath ++ relativeKey key) = _
  rw [pathChars_keysSegments hpath, hlead, hrelative, hkey]
  simp only [List.append_assoc, List.singleton_append]

theorem path_keyUrl {e : Endpoint} (he : e.IsDirectory) {key : String}
    (hkey : IsKeptKey key) :
    (e.keyUrl key).path = e.path ++ "v2/keys".toList ++ key.toList := by
  rcases he with ⟨segments, hclean, hpath⟩
  rcases hkey.leading with ⟨rest, hrest⟩
  have hparts : Text.splitAt '/' key.toList = [] :: Text.splitAt '/' rest := by
    rw [hrest, Text.splitAt, if_pos rfl]
  have hkeyChars : key.toList = Url.pathChars (Text.splitAt '/' rest) := by
    rw [pathChars_splitAt, hrest]
  rw [path_keyUrl_of_leading hpath hrest, ← pathChars_keysSegments hpath,
    hkeyChars, ← pathChars_append,
    Url.normalizePath_pathChars (by simp [keysSegments])]
  intro s hs
  rcases List.mem_append.mp hs with hs | hs
  · exact isClean_keysSegments hclean s hs
  · exact hkey.isClean (by rw [hparts]; exact List.mem_cons_of_mem [] hs)

end Etcd
end FairLease
