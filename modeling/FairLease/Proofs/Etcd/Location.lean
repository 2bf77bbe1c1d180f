import FairLease.Proofs.Claim.Domain
import FairLease.Proofs.Etcd.Request
import FairLease.Proofs.Url.Segment

/-!
# Where claims are found

The address of a claim is that of the root with one segment behind it, and no
other claim has it. Identifiers that a path reads in its own way are the
exception.
-/

namespace FairLease
namespace Etcd

open Url

/-!
# Roots

The root of the claims is a directory below the keys of an endpoint. The key of
a claim is put behind it as a text.
-/

/-- The root starts and ends with a slash, and a path drops and resolves nothing
of it. -/
structure IsNamespace (root : String) : Prop where
  leading : exists rest, root.toList = '/' :: rest
  trailing : root.toList.getLast? = some '/'
  kept : forall c, c ∈ root.toList -> c ≠ '\\' ∧ isTabOrBreak c = false
  noDots : forall part, part ∈ Text.splitAt '/' root.toList ->
    isDot part = false ∧ isDoubleDot part = false

theorem IsNamespace.isName {root : String} (h : IsNamespace root)
    {part : List Char} (hpart : part ∈ Text.splitAt '/' root.toList) :
    IsName part := by
  refine ⟨?_, ?_, (h.noDots part hpart).left, (h.noDots part hpart).right⟩
  · intro c hc
    have hmem := mem_of_mem_splitAt hpart hc
    have hbackslash := (h.kept c hmem.left).left
    simp [isSlash, hmem.right, hbackslash]
  · intro c hc
    exact (h.kept c (mem_of_mem_splitAt hpart hc).left).right

theorem IsNamespace.exists_names {root : String} (h : IsNamespace root) :
    exists names, (forall n, n ∈ names -> IsName n) ∧
      root.toList = pathChars names ++ ['/'] := by
  rcases h.leading with ⟨rest, hrest⟩
  have hparts : Text.splitAt '/' root.toList = [] :: Text.splitAt '/' rest := by
    rw [hrest, Text.splitAt, if_pos rfl]
  have hroot : root.toList = pathChars (Text.splitAt '/' rest) := by
    rw [pathChars_splitAt, hrest]
  rcases List.eq_nil_or_concat (Text.splitAt '/' rest) with
    hnil | ⟨names, last, hsplit⟩
  · exact absurd hnil (Text.splitAt_ne_nil '/' rest)
  rw [List.concat_eq_append] at hsplit
  rw [hsplit, pathChars_append_singleton] at hroot
  have hmem : forall part, part ∈ names ++ [last] ->
      part ∈ Text.splitAt '/' root.toList := by
    intro part hpart
    rw [hparts, hsplit]
    exact List.mem_cons_of_mem [] hpart
  have hlast : last = [] := by
    rcases List.eq_nil_or_concat last with hnil | ⟨start, c, hc⟩
    · exact hnil
    have htrailing := h.trailing
    rw [List.concat_eq_append] at hc
    rw [hroot, hc, ← List.cons_append, ← List.append_assoc,
      List.getLast?_concat, Option.some_inj] at htrailing
    have hmemLast :=
      hmem last (List.mem_append_right _ (List.mem_singleton_self last))
    have hmemChar : c ∈ last := by
      rw [hc]
      exact List.mem_append_right _ (List.mem_singleton_self c)
    exact absurd htrailing (mem_of_mem_splitAt hmemLast hmemChar).right
  refine ⟨names, fun n hn => h.isName (hmem n (List.mem_append_left _ hn)), ?_⟩
  rw [hroot, hlast]

theorem exists_directory {e : Endpoint} (he : e.IsDirectory) {root : String}
    (hroot : IsNamespace root) :
    exists names, (forall n, n ∈ names -> IsName n) ∧ forall text : String,
      (e.keyUrl (root ++ text)).path = normalizePath
        (pathChars names ++ '/' :: text.toList) := by
  rcases he with ⟨segments, hclean, hpath⟩
  rcases hroot.exists_names with ⟨names, hnames, hchars⟩
  rcases hroot.leading with ⟨rest, hrest⟩
  refine ⟨keysSegments segments ++ names, ?_, ?_⟩
  · intro n hn
    rcases List.mem_append.mp hn with hn | hn
    · exact (isClean_keysSegments hclean n hn).isName
    · exact hnames n hn
  · intro text
    have hkey : (root ++ text).toList = '/' :: (rest ++ text.toList) := by
      rw [String.toList_append, hrest, List.cons_append]
    rw [path_keyUrl_of_leading hpath hkey, String.toList_append, hchars,
      pathChars_append]
    simp only [List.append_assoc, List.singleton_append]

/-!
# Claims

A claim is found by the path of its key. For identifiers such as addresses it is
one segment behind the root, which no other such identifier has.
-/

/-- The two claims are found at different addresses, each one segment behind
that of the root. -/
structure AreApart (e : Endpoint) (root cidr cidr' : String) : Prop where
  distinct : e.keyUrl (ClaimKey.ofCidr root cidr) ≠
    e.keyUrl (ClaimKey.ofCidr root cidr')
  isChild : IsChild (e.keyUrl root).path
    (e.keyUrl (ClaimKey.ofCidr root cidr)).path
  isChild' : IsChild (e.keyUrl root).path
    (e.keyUrl (ClaimKey.ofCidr root cidr')).path

def nameOf (cidr : String) : List Char :=
  ClaimKey.escape cidr.toList

/-- A path keeps every character of the identifier or encodes it. -/
structure IsPlain (cidr : String) : Prop where
  kept : forall c, c ∈ cidr.toList -> c ≠ '%' ∧ c ≠ '\\' ∧
    isTabOrBreak c = false
  notDot : cidr ≠ "."
  notDoubleDot : cidr ≠ ".."

theorem keyUrl_inj_iff {e : Endpoint} {key key' : String} :
    e.keyUrl key = e.keyUrl key' <->
      (e.keyUrl key).path = (e.keyUrl key').path := by
  constructor
  · intro heq
    rw [heq]
  · intro hpath
    show ({ e with path := (e.keyUrl key).path } : Endpoint) = _
    rw [hpath]
    rfl

theorem mem_of_mem_escape {cs : List Char} {c : Char}
    (h : c ∈ ClaimKey.escape cs) :
    c = ':' ∨ c ∈ cs := by
  induction cs with
  | nil => cases h
  | cons d rest ih =>
      rw [ClaimKey.escape] at h
      split at h
      · rcases List.mem_cons.mp h with hc | h
        · exact Or.inl hc
        rcases List.mem_cons.mp h with hc | h
        · exact Or.inl hc
        · exact (ih h).imp_right (List.mem_cons_of_mem d)
      · rcases List.mem_cons.mp h with rfl | h
        · exact Or.inr List.mem_cons_self
        · exact (ih h).imp_right (List.mem_cons_of_mem d)

theorem unescape_nameOf {cidr : String} (h : ClaimKey.validate cidr = .ok ()) :
    ClaimKey.unescape (nameOf cidr) = cidr.toList := by
  rcases ClaimKey.defect?_eq_none_iff.mp (ClaimKey.validate_eq_ok_iff.mp h) with
    ⟨_, hcolons, hslash, _⟩
  exact ClaimKey.unescape_escape hcolons hslash

theorem nameOf_injective {cidr cidr' : String}
    (h : ClaimKey.validate cidr = .ok ())
    (h' : ClaimKey.validate cidr' = .ok ()) (heq : nameOf cidr = nameOf cidr') :
    cidr = cidr' := by
  rw [← String.toList_inj, ← unescape_nameOf h, heq, unescape_nameOf h']

section

variable {cidr : String}

theorem isDirect_nameOf (h : '\\' ∉ cidr.toList) : IsDirect (nameOf cidr) := by
  have hslash : forall c, c ∈ visible (nameOf cidr) -> isSlash c = false := by
    intro c hc
    have hmem := List.mem_of_mem_filter hc
    have hne : c ≠ '/' := by
      rintro rfl
      exact ClaimKey.slash_notMem_escape _ hmem
    have hbackslash : c ≠ '\\' := by
      rintro rfl
      rcases mem_of_mem_escape hmem with hcolon | hc
      · exact absurd hcolon (by decide)
      · exact h hc
    simp [isSlash, hne, hbackslash]
  intro hlength
  rw [splitSlashes_of_noSlash hslash, List.length_singleton] at hlength
  exact absurd hlength (Nat.lt_irrefl 1)

theorem IsPlain.kept_nameOf (hplain : IsPlain cidr) :
    forall c, c ∈ nameOf cidr -> c ≠ '%' ∧ isSlash c = false ∧
      isTabOrBreak c = false := by
  intro c hc
  have hslash : c ≠ '/' := by
    rintro rfl
    exact ClaimKey.slash_notMem_escape _ hc
  rcases mem_of_mem_escape hc with rfl | hmem
  · decide
  · rcases hplain.kept c hmem with ⟨hpercent, hbackslash, hbreak⟩
    exact ⟨hpercent, by simp [isSlash, hslash, hbackslash], hbreak⟩

theorem IsPlain.isSegment (hplain : IsPlain cidr)
    (hvalid : ClaimKey.validate cidr = .ok ()) :
    IsSegment (nameOf cidr) := by
  have hkept := hplain.kept_nameOf
  have hvisible := visible_eq_self fun c hc => (hkept c hc).right.right
  have hpercent : '%' ∉ nameOf cidr := fun hc => (hkept _ hc).left rfl
  have hname : forall other : String, nameOf other = other.toList ->
      ClaimKey.validate other = .ok () -> nameOf cidr = other.toList ->
        cidr = other := by
    intro other hother hok heq
    exact nameOf_injective hvalid hok (heq.trans hother.symm)
  refine ⟨?_, ?_, noBreak_of_mem_visible, ?_, ?_⟩
  · rw [hvisible, nameOf, ne_eq, ClaimKey.escape_eq_nil_iff]
    exact (ClaimKey.defect?_eq_none_iff.mp
      (ClaimKey.validate_eq_ok_iff.mp hvalid)).left
  · rw [hvisible]
    exact fun c hc => (hkept c hc).right.left
  · rw [hvisible, Bool.eq_false_iff]
    intro hdot
    exact hplain.notDot
      (hname "." rfl (by decide) (isDot_of_noPercent hpercent hdot))
  · rw [hvisible, Bool.eq_false_iff]
    intro hdouble
    exact hplain.notDoubleDot
      (hname ".." rfl (by decide) (isDoubleDot_of_noPercent hpercent hdouble))

end

theorem segmentOf_nameOf_ne {cidr cidr' : String} (hplain : IsPlain cidr)
    (hplain' : IsPlain cidr') (h : ClaimKey.validate cidr = .ok ())
    (h' : ClaimKey.validate cidr' = .ok ()) (hne : cidr ≠ cidr') :
    segmentOf (nameOf cidr) ≠ segmentOf (nameOf cidr') := by
  intro heq
  have hkept := hplain.kept_nameOf
  have hkept' := hplain'.kept_nameOf
  exact hne (nameOf_injective h h' (segmentOf_injective
    (fun c hc => ⟨(hkept c hc).left, (hkept c hc).right.right⟩)
    (fun c hc => ⟨(hkept' c hc).left, (hkept' c hc).right.right⟩) heq))

theorem areApart_iff {e : Endpoint} (he : e.IsDirectory) {root : String}
    (hroot : IsNamespace root) (cidr cidr' : String) :
    AreApart e root cidr cidr' ∧ IsDirect (nameOf cidr) ∧
      IsDirect (nameOf cidr') <->
      IsSegment (nameOf cidr) ∧ IsSegment (nameOf cidr') ∧
        segmentOf (nameOf cidr) ≠ segmentOf (nameOf cidr') := by
  rcases exists_directory he hroot with ⟨names, hnames, hpath⟩
  have hdirectory : (e.keyUrl root).path = normalizePath
      (pathChars names ++ ['/']) := by
    have hempty := hpath ""
    rwa [String.append_empty] at hempty
  have hclaim : forall cidr, (e.keyUrl (ClaimKey.ofCidr root cidr)).path =
      normalizePath (pathChars names ++ '/' :: nameOf cidr) := by
    intro cidr
    rw [ClaimKey.ofCidr, hpath, String.toList_ofList]
    rfl
  constructor
  · rintro ⟨hapart, hdirect, hdirect'⟩
    have hchild := hapart.isChild
    have hchild' := hapart.isChild'
    rw [hdirectory, hclaim] at hchild hchild'
    have hsegment := isSegment_of_isChild hnames hdirect hchild
    have hsegment' := isSegment_of_isChild hnames hdirect' hchild'
    refine ⟨hsegment, hsegment', ?_⟩
    intro heq
    apply hapart.distinct
    rw [keyUrl_inj_iff, hclaim, hclaim, normalizePath_segment hnames hsegment,
      normalizePath_segment hnames hsegment', heq]
  · rintro ⟨hsegment, hsegment', hne⟩
    refine ⟨⟨?_, ?_, ?_⟩, hsegment.isDirect, hsegment'.isDirect⟩
    · rw [ne_eq, keyUrl_inj_iff, hclaim, hclaim,
        normalizePath_segment hnames hsegment,
        normalizePath_segment hnames hsegment', List.append_cancel_left_eq]
      exact hne
    · rw [hdirectory, hclaim]
      exact isChild_of_isSegment hnames hsegment
    · rw [hdirectory, hclaim]
      exact isChild_of_isSegment hnames hsegment'

/-- At an accepted endpoint, and below any namespace, (1) the claims on two
valid identifiers are apart, with no detour over dot segments, if and only if
both stand for one segment and the segments differ. (2) Only an identifier with
a backslash makes a detour. (3) The claims are apart whenever both identifiers
are plain: without percent signs, backslashes, tabs and line breaks, and no dots
alone. -/
theorem claims_are_apart_iff {text : String} {e : Endpoint}
    (he : Endpoint.parse text = .ok e) {root : String}
    (hroot : IsNamespace root) {cidr cidr' : String}
    (hvalid : ClaimKey.validate cidr = .ok ())
    (hvalid' : ClaimKey.validate cidr' = .ok ()) (hne : cidr ≠ cidr') :
    (AreApart e root cidr cidr' ∧ IsDirect (nameOf cidr) ∧
      IsDirect (nameOf cidr') <->
      IsSegment (nameOf cidr) ∧ IsSegment (nameOf cidr') ∧
        segmentOf (nameOf cidr) ≠ segmentOf (nameOf cidr')) ∧
    ('\\' ∉ cidr.toList -> IsDirect (nameOf cidr)) ∧
    (IsPlain cidr -> IsPlain cidr' -> AreApart e root cidr cidr') := by
  have hiff := areApart_iff (isDirectory_parse he) hroot cidr cidr'
  refine ⟨hiff, isDirect_nameOf, ?_⟩
  intro hplain hplain'
  exact (hiff.mpr ⟨hplain.isSegment hvalid, hplain'.isSegment hvalid',
    segmentOf_nameOf_ne hplain hplain' hvalid hvalid' hne⟩).left

def localEndpoint : Endpoint :=
  ⟨"http", .ipv4 2130706433, some 2379, ['/'], none⟩

theorem forall_of_all {p : Char -> Prop} [DecidablePred p] {cs : List Char}
    (h : cs.all (fun c => decide (p c)) = true) : forall c, c ∈ cs -> p c :=
  fun c hc => of_decide_eq_true (List.all_eq_true.mp h c hc)

theorem isNamespace_ipclaim : IsNamespace "/ipclaim/" :=
  ⟨⟨_, rfl⟩, rfl, forall_of_all (by decide +kernel), by decide +kernel⟩

theorem claims_are_apart_iff_addresses :
    AreApart localEndpoint "/ipclaim/" "10.0.0.2/24" "10.0.0.3/24" ∧
      (localEndpoint.keyUrl
        (ClaimKey.ofCidr "/ipclaim/" "10.0.0.2/24")).target =
        "/v2/keys/ipclaim/10.0.0.2::24" := by
  have hparse : Endpoint.parse "http://127.0.0.1:2379" = .ok localEndpoint :=
    rfl
  have hvalid : ClaimKey.validate "10.0.0.2/24" = .ok () := rfl
  have hvalid' : ClaimKey.validate "10.0.0.3/24" = .ok () := rfl
  have hkept : IsPlain "10.0.0.2/24" :=
    ⟨forall_of_all (by decide +kernel), by decide, by decide⟩
  have hkept' : IsPlain "10.0.0.3/24" :=
    ⟨forall_of_all (by decide +kernel), by decide, by decide⟩
  rcases claims_are_apart_iff hparse isNamespace_ipclaim hvalid hvalid'
    (by decide) with
    ⟨_, _, hplain⟩
  exact ⟨hplain hkept hkept', by decide +kernel⟩

/-- An identifier with a blank has the address of the one in which the blank is
encoded, a dot has the address of the namespace, and a backslash adds a level to
it. -/
theorem claims_share_an_address :
    Endpoint.parse "http://127.0.0.1:2379" = .ok localEndpoint ∧
    IsNamespace "/ipclaim/" ∧
      ClaimKey.validate "a b" = .ok () ∧ ClaimKey.validate "a%20b" = .ok () ∧
      "a b" ≠ "a%20b" ∧
      ¬ AreApart localEndpoint "/ipclaim/" "a b" "a%20b" ∧
      localEndpoint.keyUrl (ClaimKey.ofCidr "/ipclaim/" "a b") =
        localEndpoint.keyUrl (ClaimKey.ofCidr "/ipclaim/" "a%20b") ∧
      ClaimKey.validate "." = .ok () ∧
        localEndpoint.keyUrl (ClaimKey.ofCidr "/ipclaim/" ".") =
        localEndpoint.keyUrl "/ipclaim/" ∧
      ClaimKey.validate "a\\b" = .ok () ∧
      (localEndpoint.keyUrl (ClaimKey.ofCidr "/ipclaim/" "a\\b")).target =
        "/v2/keys/ipclaim/a/b" := by
  have hshared : localEndpoint.keyUrl (ClaimKey.ofCidr "/ipclaim/" "a b") =
      localEndpoint.keyUrl (ClaimKey.ofCidr "/ipclaim/" "a%20b") := by
        decide +kernel
  exact ⟨rfl, isNamespace_ipclaim, rfl, rfl, by decide,
    fun hapart => hapart.distinct hshared, hshared, rfl, by decide +kernel, rfl,
      by decide +kernel⟩

end Etcd
end FairLease
