import Mathlib.Data.String.Basic
import FairLease.Claim.Key

/-!
# Claim keys and identifiers

A key that was made from an identifier is made again from the identifier it is
read as. Escaped text holds no slash, and only a slash would be lost.
-/

namespace FairLease

/-!
# Leading text
-/

theorem Text.dropLeading?_eq_some_iff {lead s rest : List Char} :
    Text.dropLeading? lead s = some rest <-> s = lead ++ rest := by
  induction lead generalizing s with
  | nil =>
      simp [Text.dropLeading?]
  | cons a lead ih =>
      cases s with
      | nil =>
          simp [Text.dropLeading?]
      | cons c s =>
          by_cases hac : a = c
          · simp [Text.dropLeading?, hac, ih]
          · simp [Text.dropLeading?, hac, Ne.symm hac]

theorem Text.startsWith_iff {s lead : String} :
    Text.startsWith s lead = true <->
      exists rest, s.toList = lead.toList ++ rest := by
  unfold Text.startsWith
  rw [Option.isSome_iff_exists]
  simp only [Text.dropLeading?_eq_some_iff]

theorem Text.not_lt_of_startsWith {key lead : String}
    (h : Text.startsWith key lead = true) :
    ¬ key < lead := by
  rcases Text.startsWith_iff.mp h with ⟨rest, hrest⟩
  rw [String.lt_iff_toList_lt, hrest, List.not_lt]
  exact List.le_append_left

theorem Text.exists_append_of_between {lead a rest : List Char}
    (ha : ¬ a < lead) (hrest : a < lead ++ rest) :
    exists rest', a = lead ++ rest' := by
  induction lead generalizing a with
  | nil => exact ⟨a, rfl⟩
  | cons c lead ih =>
      cases a with
      | nil => exact absurd (List.nil_lt_cons c lead) ha
      | cons d a =>
          rw [List.cons_append, List.cons_lt_cons_iff] at hrest
          rw [List.cons_lt_cons_iff, not_or, not_and] at ha
          rcases hrest with hlt | ⟨rfl, hrest⟩
          · exact absurd hlt ha.left
          · rcases ih (ha.right rfl) hrest with ⟨rest', rfl⟩
            exact ⟨rest', rfl⟩

theorem Text.startsWith_of_between {lead a b : String} (ha : ¬ a < lead)
    (hab : a < b) (hb : Text.startsWith b lead = true) :
    Text.startsWith a lead = true := by
  rcases Text.startsWith_iff.mp hb with ⟨rest, hrest⟩
  rw [String.lt_iff_toList_lt] at ha hab
  rw [hrest] at hab
  exact Text.startsWith_iff.mpr (Text.exists_append_of_between ha hab)

namespace ClaimKey

/-!
# Escaping
-/

theorem slash_notMem_escape (cs : List Char) : '/' ∉ escape cs := by
  induction cs with
  | nil =>
      simp [escape]
  | cons c rest ih =>
      by_cases hc : c = '/'
      · simp [escape, hc, ih]
      · simp [escape, hc, ih, Ne.symm hc]

theorem escape_unescape {cs : List Char} (h : '/' ∉ cs) :
    escape (unescape cs) = cs := by
  fun_induction unescape cs with
  | case1 rest ih =>
      have hrest : '/' ∉ rest := by
        intro hmem
        exact h (by simp [hmem])
      simp [escape, ih hrest]
  | case2 c rest _ ih =>
      have hc : c ≠ '/' := by
        intro heq
        exact h (by simp [heq])
      have hrest : '/' ∉ rest := by
        intro hmem
        exact h (by simp [hmem])
      simp [escape, hc, ih hrest]
  | case3 =>
      rfl

/-!
# Keys that come from identifiers
-/

def IsEncoded (root key : String) : Prop :=
  exists cidr, key = ofCidr root cidr

theorem toList_ofCidr (root cidr : String) :
    (ofCidr root cidr).toList = root.toList ++ escape cidr.toList := by
  simp [ofCidr]

theorem startsWith_ofCidr (root cidr : String) :
    Text.startsWith (ofCidr root cidr) root = true := by
  rw [Text.startsWith_iff]
  exact ⟨escape cidr.toList, toList_ofCidr root cidr⟩

theorem toCidr_eq_ok {root key cidr : String} (h : toCidr root key = .ok cidr) :
    exists rest, key.toList = root.toList ++ rest ∧
      cidr = String.ofList (unescape rest) := by
  unfold toCidr at h
  split at h
  · rename_i c rest hdrop
    cases h
    exact ⟨c :: rest, Text.dropLeading?_eq_some_iff.mp hdrop, rfl⟩
  · cases h

/-- Below the root there is no key that could not be read. -/
theorem toCidr_of_ne_root {root key : String} (hkey : IsEncoded root key)
    (hne : key ≠ root) :
    exists cidr, toCidr root key = .ok cidr := by
  rcases hkey with ⟨origin, rfl⟩
  have hdrop : Text.dropLeading? root.toList (ofCidr root origin).toList =
      some (escape origin.toList) := by
    rw [Text.dropLeading?_eq_some_iff, toList_ofCidr]
  unfold toCidr
  rw [hdrop]
  cases hescape : escape origin.toList with
  | nil =>
      rw [ofCidr, hescape] at hne
      exact absurd (by simp) hne
  | cons c rest => exact ⟨_, rfl⟩

theorem toCidr_root_ne_ok (root cidr : String) :
    toCidr root root ≠ .ok cidr := by
  intro h
  have hdrop : Text.dropLeading? root.toList root.toList = some [] := by
    rw [Text.dropLeading?_eq_some_iff, List.append_nil]
  rw [toCidr, hdrop] at h
  cases h

theorem ofCidr_toCidr
    {root key cidr : String}
    (hkey : IsEncoded root key) (h : toCidr root key = .ok cidr) :
    ofCidr root cidr = key := by
  rcases hkey with ⟨origin, rfl⟩
  rcases toCidr_eq_ok h with ⟨rest, hrest, rfl⟩
  rw [toList_ofCidr] at hrest
  have hescape : escape origin.toList = rest := List.append_cancel_left hrest
  have hslash : '/' ∉ rest := by
    rw [← hescape]
    exact slash_notMem_escape origin.toList
  unfold ofCidr
  rw [String.toList_ofList, escape_unescape hslash, hescape]

/-- Keys that come from identifiers are told apart by what they are read as. -/
theorem toCidr_injective
    {root key key' cidr : String}
    (hkey : IsEncoded root key) (hkey' : IsEncoded root key')
    (h : toCidr root key = .ok cidr) (h' : toCidr root key' = .ok cidr) :
    key = key' := by
  rw [← ofCidr_toCidr hkey h, ofCidr_toCidr hkey' h']

/-!
# Valid identifiers

A valid identifier can be read from its key. A colon in it is never followed by
another one or by a slash, so that no pair of colons in the key is its own.
-/

theorem escape_cons_of_ne {c : Char} (hc : c ≠ '/') (cs : List Char) :
    escape (c :: cs) = c :: escape cs := by
  rw [escape, if_neg hc]

theorem hasPair_tail {a b c : Char} {rest : List Char}
    (h : hasPair a b (c :: rest) = false) :
    hasPair a b rest = false := by
  cases rest with
  | nil => rfl
  | cons d rest =>
      rw [hasPair, Bool.or_eq_false_iff] at h
      exact h.right

theorem hasPair_of_notMem {a : Char} {cs : List Char} (h : a ∉ cs) (b : Char) :
    hasPair a b cs = false := by
  induction cs with
  | nil => rfl
  | cons c rest ih =>
      have hc : c ≠ a := by
        rintro rfl
        exact h List.mem_cons_self
      have hrest := ih (fun hmem => h (List.mem_cons_of_mem c hmem))
      cases rest with
      | nil => rfl
      | cons d rest => simp [hasPair, hc, hrest]

theorem escape_of_notMem {cs : List Char} (h : '/' ∉ cs) : escape cs = cs := by
  induction cs with
  | nil => rfl
  | cons c rest ih =>
      have hc : c ≠ '/' := by
        rintro rfl
        exact h List.mem_cons_self
      rw [escape_cons_of_ne hc,
        ih (fun hmem => h (List.mem_cons_of_mem c hmem))]

theorem unescape_escape {cs : List Char} (hcolons : hasPair ':' ':' cs = false)
    (hslash : hasPair ':' '/' cs = false) : unescape (escape cs) = cs := by
  induction cs with
  | nil => rfl
  | cons c rest ih =>
      have hrest : unescape (escape rest) = rest :=
        ih (hasPair_tail hcolons) (hasPair_tail hslash)
      by_cases hc : c = '/'
      · simp [hc, escape, unescape, hrest]
      · rw [escape_cons_of_ne hc]
        have hnext : forall more, c = ':' ->
            escape rest = ':' :: more -> False := by
          rintro more rfl hmore
          cases rest with
          | nil => cases hmore
          | cons d rest =>
              by_cases hd : d = '/'
              · simp [hd, hasPair] at hslash
              · rw [escape_cons_of_ne hd] at hmore
                cases hmore
                simp [hasPair] at hcolons
        rw [unescape, hrest]
        exact hnext

theorem defect?_eq_none_iff {cidr : String} :
    defect? cidr = none <->
      cidr.toList ≠ [] ∧ hasPair ':' ':' cidr.toList = false ∧
        hasPair ':' '/' cidr.toList = false ∧
          hasPair '/' ':' cidr.toList = false := by
  unfold defect?
  cases cidr.toList with
  | nil => simp
  | cons c rest =>
      cases hcolons : hasPair ':' ':' (c :: rest) with
      | true => simp [hcolons]
      | false => simp [hcolons]

theorem toCidr_ofCidr (root : String) {cidr : String}
    (h : defect? cidr = none) :
    toCidr root (ofCidr root cidr) = .ok cidr := by
  rw [defect?_eq_none_iff] at h
  rcases h with ⟨hne, hcolons, hslash, _⟩
  have hround := unescape_escape hcolons hslash
  have hdrop : Text.dropLeading? root.toList (ofCidr root cidr).toList =
      some (escape cidr.toList) := by
    rw [Text.dropLeading?_eq_some_iff, toList_ofCidr]
  unfold toCidr
  rw [hdrop]
  cases hescape : escape cidr.toList with
  | nil =>
      rw [hescape] at hround
      exact absurd hround.symm hne
  | cons c rest =>
      rw [hescape] at hround
      simp [hround]

theorem ofCidr_ne_root {root cidr : String} (h : defect? cidr = none) :
    ofCidr root cidr ≠ root := by
  intro heq
  have hread := toCidr_ofCidr root h
  rw [heq] at hread
  exact toCidr_root_ne_ok root cidr hread

theorem ofCidr_injective {root cidr cidr' : String} (h : defect? cidr = none)
    (h' : defect? cidr' = none) (heq : ofCidr root cidr = ofCidr root cidr') :
    cidr = cidr' := by
  have hread := toCidr_ofCidr root h
  rw [heq, toCidr_ofCidr root h'] at hread
  exact (Except.ok.inj hread).symm

end ClaimKey
end FairLease
