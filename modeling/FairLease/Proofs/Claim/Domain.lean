import FairLease.Proofs.Claim.Codec

/-!
# Identifiers that keys preserve

An identifier can be read from its key if and only if none of its colons is
followed by a colon or a slash, since only such a colon becomes part of a pair
that is not its own. In the other direction only a slash is lost.
-/

namespace FairLease
namespace ClaimKey

/-!
# Neighbours
-/

theorem hasPair_eq_true_iff {a b : Char} {cs : List Char} :
    hasPair a b cs = true <-> [a, b] <:+: cs := by
  induction cs with
  | nil => simp [hasPair]
  | cons c rest ih =>
      rw [List.infix_cons_iff, ← ih]
      cases rest with
      | nil => simp [hasPair]
      | cons d rest =>
          rw [hasPair, Bool.or_eq_true, Bool.and_eq_true, beq_iff_eq,
            beq_iff_eq, List.cons_prefix_cons, List.cons_prefix_cons,
            eq_comm (a := c), eq_comm (a := d)]
          simp

theorem hasPair_eq_false_iff {a b : Char} {cs : List Char} :
    hasPair a b cs = false <-> ¬ [a, b] <:+: cs := by
  rw [← hasPair_eq_true_iff, Bool.not_eq_true]

theorem hasPair_cons_of_ne {a c : Char} (hc : c ≠ a) (b : Char)
    (rest : List Char) :
    hasPair a b (c :: rest) = hasPair a b rest := by
  cases rest with
  | nil => rfl
  | cons d rest => simp [hasPair, hc]

/-!
# Texts that are read back
-/

/-- The first character of a text that starts with a colon is read back only if
the next one is neither a colon nor a slash. -/
theorem next_of_unescape_escape {rest : List Char}
    (h : unescape (escape (':' :: rest)) = ':' :: rest) :
    hasPair ':' ':' (':' :: rest) = hasPair ':' ':' rest ∧
      hasPair ':' '/' (':' :: rest) = hasPair ':' '/' rest ∧
        unescape (escape rest) = rest := by
  cases rest with
  | nil => exact ⟨rfl, rfl, rfl⟩
  | cons d rest =>
      by_cases hslash : d = '/'
      · simp [hslash, escape, unescape] at h
      · by_cases hcolon : d = ':'
        · simp [hcolon, escape, unescape] at h
        · rw [escape_cons_of_ne (by decide), escape_cons_of_ne hslash,
            unescape] at h
          · refine ⟨by simp [hasPair, hcolon], by simp [hasPair, hslash], ?_⟩
            rw [escape_cons_of_ne hslash]
            exact (List.cons.inj h).right
          · intro more _ hmore
            exact hcolon (List.cons.inj hmore).left

theorem unescape_escape_iff {cs : List Char} :
    unescape (escape cs) = cs <->
      hasPair ':' ':' cs = false ∧ hasPair ':' '/' cs = false := by
  constructor
  · intro h
    induction cs with
    | nil => exact ⟨rfl, rfl⟩
    | cons c rest ih =>
        by_cases hslash : c = '/'
        · subst hslash
          rw [hasPair_cons_of_ne (by decide), hasPair_cons_of_ne (by decide)]
          apply ih
          simpa [escape, unescape] using h
        · by_cases hcolon : c = ':'
          · subst hcolon
            rcases next_of_unescape_escape h with ⟨hcolons, hpair, hrest⟩
            rw [hcolons, hpair]
            exact ih hrest
          · rw [hasPair_cons_of_ne hcolon, hasPair_cons_of_ne hcolon]
            apply ih
            rw [escape_cons_of_ne hslash, unescape] at h
            · exact (List.cons.inj h).right
            · intro more heq
              exact absurd heq hcolon
  · rintro ⟨hcolons, hpair⟩
    exact unescape_escape hcolons hpair

theorem escape_unescape_iff {cs : List Char} :
    escape (unescape cs) = cs <-> '/' ∉ cs := by
  constructor
  · intro h
    rw [← h]
    exact slash_notMem_escape (unescape cs)
  · exact escape_unescape

/-!
# Keys
-/

theorem escape_eq_nil_iff {cs : List Char} : escape cs = [] <-> cs = [] := by
  cases cs with
  | nil => simp [escape]
  | cons c rest =>
      by_cases hc : c = '/'
      · simp [escape, hc]
      · simp [escape, hc]

theorem toCidr_append (root rest : String) :
    toCidr root (root ++ rest) =
      if rest = "" then .error (.corruptedKey (root ++ rest) root)
      else .ok (String.ofList (unescape rest.toList)) := by
  have hdrop : Text.dropLeading? root.toList (root ++ rest).toList =
      some rest.toList := by
    rw [Text.dropLeading?_eq_some_iff, String.toList_append]
  unfold toCidr
  rw [hdrop]
  cases hrest : rest.toList with
  | nil => rw [if_pos (String.toList_eq_nil_iff.mp hrest)]
  | cons c more =>
      have hne : rest ≠ "" := by
        rintro rfl
        cases hrest
      rw [if_neg hne]

theorem toCidr_of_not_under {root key : String}
    (h : ¬ exists rest, key = root ++ rest) :
    toCidr root key = .error (.corruptedKey key root) := by
  unfold toCidr
  cases hdrop : Text.dropLeading? root.toList key.toList with
  | none => rfl
  | some rest =>
      refine absurd ⟨String.ofList rest, ?_⟩ h
      rw [Text.dropLeading?_eq_some_iff] at hdrop
      apply String.toList_injective
      rw [hdrop, String.toList_append, String.toList_ofList]

theorem append_eq_self_iff {root rest : String} :
    root ++ rest = root <-> rest = "" := by
  constructor
  · intro h
    have hlist := congrArg String.toList h
    rw [String.toList_append] at hlist
    exact String.toList_eq_nil_iff.mp (List.append_right_eq_self.mp hlist)
  · rintro rfl
    exact String.append_empty

theorem toCidr_eq_error_iff {root key : String} {e : ClaimError} :
    toCidr root key = .error e <->
      e = .corruptedKey key root ∧
        ((¬ exists rest, key = root ++ rest) ∨ key = root) := by
  by_cases hunder : exists rest, key = root ++ rest
  · rcases hunder with ⟨rest, rfl⟩
    rw [toCidr_append, append_eq_self_iff]
    by_cases hrest : rest = ""
    · simp [hrest, eq_comm]
    · simp [hrest]
  · rw [toCidr_of_not_under hunder]
    simp [hunder, eq_comm]

theorem toCidr_ofCidr_iff {root cidr : String} :
    toCidr root (ofCidr root cidr) = .ok cidr <->
      cidr ≠ "" ∧ unescape (escape cidr.toList) = cidr.toList := by
  rw [ofCidr, toCidr_append, String.toList_ofList]
  by_cases hcidr : cidr = ""
  · simp [hcidr, escape]
  · have hne : String.ofList (escape cidr.toList) ≠ "" := by
      intro heq
      have hnil : escape cidr.toList = [] := by
        rw [← String.toList_ofList (l := escape cidr.toList), heq]
        rfl
      exact hcidr (String.toList_eq_nil_iff.mp (escape_eq_nil_iff.mp hnil))
    rw [if_neg hne]
    constructor
    · intro h
      refine ⟨hcidr, ?_⟩
      rw [← String.toList_ofList (l := unescape _), Except.ok.inj h]
    · rintro ⟨_, h⟩
      rw [h, String.ofList_toList]

theorem ofCidr_toCidr_iff {root rest cidr : String}
    (h : toCidr root (root ++ rest) = .ok cidr) :
    ofCidr root cidr = root ++ rest <-> '/' ∉ rest.toList := by
  rw [toCidr_append] at h
  split at h
  · cases h
  · cases h
    rw [← escape_unescape_iff, ← String.toList_inj, toList_ofCidr,
      String.toList_append, String.toList_ofList, List.append_cancel_left_eq]

theorem validate_eq_ok_iff {cidr : String} :
    validate cidr = .ok () <-> defect? cidr = none := by
  unfold validate
  cases defect? cidr with
  | none => simp
  | some defect => simp

/-!
# The codec as a whole
-/

/-- (1) An identifier is read from its key if and only if it is not empty and
contains neither two colons in a row nor a colon before a slash; (2) so every
valid identifier is, and (3) valid identifiers have different keys. (4) A key
that can be read is made again from what it is read as if and only if there is
no slash in it after the root, and (5) the keys that cannot be read are those
that do not start with the root and the root itself. -/
theorem codec_is_exact (root : String) :
    (forall cidr, toCidr root (ofCidr root cidr) = .ok cidr <->
      cidr ≠ "" ∧ ¬ [':', ':'] <:+: cidr.toList ∧
      ¬ [':', '/'] <:+: cidr.toList) ∧
    (forall cidr, validate cidr = .ok () ->
      toCidr root (ofCidr root cidr) = .ok cidr) ∧
    (forall cidr cidr', validate cidr = .ok () -> validate cidr' = .ok () ->
      ofCidr root cidr = ofCidr root cidr' -> cidr = cidr') ∧
    (forall key cidr, toCidr root key = .ok cidr ->
      exists rest, key = root ++ rest ∧
        (ofCidr root cidr = key <-> '/' ∉ rest.toList)) ∧
    (forall key e, toCidr root key = .error e <->
      e = .corruptedKey key root ∧
        ((¬ exists rest, key = root ++ rest) ∨ key = root)) := by
  refine ⟨?_, ?_, ?_, ?_, ?_⟩
  · intro cidr
    rw [toCidr_ofCidr_iff, unescape_escape_iff, hasPair_eq_false_iff,
      hasPair_eq_false_iff]
  · intro cidr hvalid
    exact toCidr_ofCidr root (validate_eq_ok_iff.mp hvalid)
  · intro cidr cidr' hvalid hvalid' heq
    exact ofCidr_injective (validate_eq_ok_iff.mp hvalid)
      (validate_eq_ok_iff.mp hvalid') heq
  · intro key cidr h
    rcases toCidr_eq_ok h with ⟨rest, hrest, _⟩
    have hkey : key = root ++ String.ofList rest := by
      apply String.toList_injective
      rw [hrest, String.toList_append, String.toList_ofList]
    refine ⟨String.ofList rest, hkey, ?_⟩
    rw [hkey] at h ⊢
    exact ofCidr_toCidr_iff h
  · intro key e
    exact toCidr_eq_error_iff

/-- A slash before a colon is refused, although it would be read back; a slash
in a key is read as the one that two colons stand for. -/
theorem codec_is_exact_slashes :
    toCidr "/ips/" (ofCidr "/ips/" "a/:24") = .ok "a/:24" ∧
    validate "a/:24" ≠ .ok () ∧
      toCidr "/ips/" (ofCidr "/ips/" "a:/24") ≠ .ok "a:/24" ∧
      toCidr "/ips/" (ofCidr "/ips/" "10.0.0.2/24") = .ok "10.0.0.2/24" ∧
      toCidr "/ips/" "/ips/a/b" = .ok "a/b" ∧
        ofCidr "/ips/" "a/b" ≠ "/ips/a/b" := by
  rcases codec_is_exact "/ips/" with ⟨hround, hvalid, _, hagain, _⟩
  refine ⟨(hround "a/:24").mpr ?_, by decide, ?_,
    hvalid "10.0.0.2/24" (by decide), by decide, ?_⟩
  · decide
  · intro h
    exact ((hround "a:/24").mp h).right.right (by decide)
  · rcases hagain "/ips/a/b" "a/b" (by decide) with ⟨rest, hrest, hiff⟩
    intro heq
    have hlist := congrArg String.toList hrest
    rw [String.toList_append] at hlist
    have hsplit : "/ips/".toList ++ "a/b".toList =
        "/ips/".toList ++ rest.toList := hlist
    have hmem : '/' ∈ rest.toList := by
      rw [← List.append_cancel_left hsplit]
      decide
    exact hiff.mp heq hmem

end ClaimKey
end FairLease
