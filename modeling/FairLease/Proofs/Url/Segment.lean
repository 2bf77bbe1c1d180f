import FairLease.Proofs.Url.Form
import FairLease.Proofs.Url.Path

/-!
# One segment behind a directory

A text that is put behind a directory is one segment more of the path if it has
no slash and is no dot segment. Its encoding tells it from other texts as long
as there are no percent signs in them.
-/

namespace FairLease.Url

/-!
# Dots

No character but a dot is encoded as one, so that an encoded segment is a dot
segment exactly if it was one before.
-/

theorem percentEncode_cons (c : Char) (cs : List Char) :
    percentEncode inPathSet (c :: cs) =
      (if inPathSet c then percentChar c else [c]) ++
        percentEncode inPathSet cs := rfl

theorem head?_utf8EncodeChar_ne {c : Char} (h : c ≠ '.') {b : UInt8}
    (hb : (String.utf8EncodeChar c).head? = some b) : b.toNat ≠ 46 := by
  have hc : c.val.toNat ≠ 46 := fun hval => h (Char.toNat_inj.mp hval)
  rw [String.utf8EncodeChar] at hb
  -- whatever the number of bytes, the first of them is the character or at
  -- least 192
  repeat' split at hb
  all_goals
    cases hb
    rw [UInt8.toNat_ofNat']
    omega

theorem percentChar_eq_cons {c : Char} (h : c ≠ '.') :
    exists n m rest, percentChar c = '%' :: upperHex n :: upperHex m :: rest ∧
      n < 16 ∧ m < 16 ∧
      16 * n + m ≠ 46 := by
  cases hbytes : String.utf8EncodeChar c with
  | nil => exact absurd hbytes String.utf8EncodeChar_ne_nil
  | cons b bytes =>
      have hbyte : b.toNat < 256 := b.toNat_lt
      have hne := head?_utf8EncodeChar_ne h (b := b) (by rw [hbytes]; rfl)
      refine ⟨b.toNat / 16, b.toNat % 16, bytes.flatMap percentByte, ?_,
        by omega, by omega, by omega⟩
      rw [percentChar, hbytes]
      rfl

theorem dropDot_percent {n m : Nat} (hn : n < 16) (hm : m < 16)
    (h : 16 * n + m ≠ 46) (rest : List Char) :
    dropDot ('%' :: upperHex n :: upperHex m :: rest) = none := by
  have htwo : forall n, n < 16 -> upperHex n = '2' -> n = 2 := by decide
  have hlower : forall m, m < 16 -> upperHex m ≠ 'e' := by decide
  have hupper : forall m, m < 16 -> upperHex m = 'E' -> m = 14 := by decide
  unfold dropDot
  split
  · rename_i heq
    cases heq
  · rename_i heq
    exact absurd (List.cons.inj
      (List.cons.inj (List.cons.inj heq).right).right).left (hlower m hm)
  · rename_i heq
    have hfirst := htwo n hn (List.cons.inj (List.cons.inj heq).right).left
    have hsecond := hupper m hm
      (List.cons.inj (List.cons.inj (List.cons.inj heq).right).right).left
    omega
  · rfl

theorem percentChar_of_inPathSet {c : Char} (h : inPathSet c = true)
    (cs : List Char) :
    exists n m rest, percentEncode inPathSet (c :: cs) =
      '%' :: upperHex n :: upperHex m :: rest ∧
      n < 16 ∧ m < 16 ∧ 16 * n + m ≠ 46 := by
  have hdot : c ≠ '.' := by
    rintro rfl
    exact absurd h (by decide)
  rcases percentChar_eq_cons hdot with ⟨n, m, rest, hchar, hn, hm, hne⟩
  refine ⟨n, m, rest ++ percentEncode inPathSet cs, ?_, hn, hm, hne⟩
  rw [percentEncode_cons, h, if_pos rfl, hchar]
  rfl

theorem eq_cons_of_percentEncode {d : Char} (hd : d ≠ '%') {cs rest : List Char}
    (h : percentEncode inPathSet cs = d :: rest) :
    exists tail, cs = d :: tail ∧ percentEncode inPathSet tail = rest := by
  cases cs with
  | nil => cases h
  | cons c cs =>
      cases hset : inPathSet c with
      | true =>
          rcases percentChar_of_inPathSet hset cs with ⟨n, m, more, hcs, _⟩
          rw [hcs] at h
          exact absurd (List.cons.inj h).left.symm hd
      | false =>
          rw [percentEncode_cons, hset, if_neg Bool.false_ne_true] at h
          cases h
          exact ⟨cs, rfl, rfl⟩

theorem dropDot_percentEncode (cs : List Char) :
    dropDot (percentEncode inPathSet cs) = (dropDot cs).map
      (percentEncode inPathSet) := by
  fun_cases dropDot cs with
  | case1 rest => rfl
  | case2 rest => rfl
  | case3 rest => rfl
  | case4 _ hdot hlower hupper =>
      cases cs with
      | nil => rfl
      | cons c cs =>
          cases hset : inPathSet c with
          | true =>
              rcases percentChar_of_inPathSet hset cs with
                ⟨n, m, rest, hcs, hn, hm, hne⟩
              rw [hcs, dropDot_percent hn hm hne]
              rfl
          | false =>
              -- a dot that could be dropped now could have been dropped before
              rw [percentEncode_cons, hset, if_neg Bool.false_ne_true,
                List.singleton_append]
              unfold dropDot
              split
              · rename_i heq
                exact absurd (congrArg (· :: cs) (List.cons.inj heq).left)
                  (hdot cs)
              · rename_i heq
                rcases eq_cons_of_percentEncode (by decide)
                  (List.cons.inj heq).right with
                  ⟨tail, hcs, htail⟩
                rcases eq_cons_of_percentEncode (by decide) htail with
                  ⟨more, hmore, _⟩
                rw [(List.cons.inj heq).left, hcs, hmore] at hlower
                exact absurd rfl (hlower more)
              · rename_i heq
                rcases eq_cons_of_percentEncode (by decide)
                  (List.cons.inj heq).right with
                  ⟨tail, hcs, htail⟩
                rcases eq_cons_of_percentEncode (by decide) htail with
                  ⟨more, hmore, _⟩
                rw [(List.cons.inj heq).left, hcs, hmore] at hupper
                exact absurd rfl (hupper more)
              · rfl

theorem percentEncode_eq_nil_iff {cs : List Char} :
    percentEncode inPathSet cs = [] <-> cs = [] := by
  constructor
  · intro h
    cases cs with
    | nil => rfl
    | cons c cs =>
        cases hset : inPathSet c with
        | true =>
            rcases percentChar_of_inPathSet hset cs with ⟨n, m, rest, hcs, _⟩
            rw [hcs] at h
            cases h
        | false =>
            rw [percentEncode_cons, hset] at h
            cases h
  · rintro rfl
    rfl

theorem isDot_percentEncode (cs : List Char) :
    isDot (percentEncode inPathSet cs) = isDot cs := by
  rw [isDot, isDot, dropDot_percentEncode, Bool.eq_iff_iff,
    beq_iff_eq, beq_iff_eq]
  cases dropDot cs with
  | none => simp
  | some rest => simp [percentEncode_eq_nil_iff]

theorem isDoubleDot_percentEncode (cs : List Char) :
    isDoubleDot (percentEncode inPathSet cs) = isDoubleDot cs := by
  rw [isDoubleDot, isDoubleDot, dropDot_percentEncode, Bool.eq_iff_iff,
    beq_iff_eq, beq_iff_eq]
  cases dropDot cs with
  | none => simp
  | some rest =>
      show dropDot (percentEncode inPathSet rest) = some [] <->
          dropDot rest = some []
      rw [dropDot_percentEncode]
      cases dropDot rest with
      | none => simp
      | some rest => simp [percentEncode_eq_nil_iff]

/-!
# Names

A name is what a path takes for one segment. Characters of it may be encoded,
but none is dropped or taken for a slash.
-/

structure IsName (name : List Char) : Prop where
  noSlash : forall c, c ∈ name -> isSlash c = false
  noBreak : forall c, c ∈ name -> isTabOrBreak c = false
  notDot : isDot name = false
  notDoubleDot : isDoubleDot name = false

theorem IsClean.isName {segment : List Char} (h : IsClean segment) :
    IsName segment :=
  ⟨fun c hc => (isKept_iff.mp (h.kept c hc)).left,
    fun c hc => (isKept_iff.mp (h.kept c hc)).right.left, h.notDot,
      h.notDoubleDot⟩

theorem isClean_percentEncode {name : List Char}
    (hslash : forall c, c ∈ name -> isSlash c = false)
    (hdot : isDot name = false) (hdouble : isDoubleDot name = false) :
    IsClean (percentEncode inPathSet name) :=
  ⟨fun _ hc => isKept_of_mem_percentEncode hslash hc,
    (isDot_percentEncode name).trans hdot,
    (isDoubleDot_percentEncode name).trans hdouble⟩

theorem IsName.isClean {name : List Char} (h : IsName name) :
    IsClean (percentEncode inPathSet name) :=
  isClean_percentEncode h.noSlash h.notDot h.notDoubleDot

def visible (cs : List Char) : List Char :=
  cs.filter (fun c => !isTabOrBreak c)

theorem visible_eq_self {cs : List Char}
    (h : forall c, c ∈ cs -> isTabOrBreak c = false) :
    visible cs = cs := by
  rw [visible, List.filter_eq_self]
  intro c hc
  rw [h c hc]
  rfl

theorem visible_pathChars {names : List (List Char)}
    (h : forall n, n ∈ names -> IsName n) :
    visible (pathChars names) = pathChars names := by
  apply visible_eq_self
  intro c hc
  rcases mem_pathChars hc with rfl | ⟨n, hn, hcn⟩
  · rfl
  · exact (h n hn).noBreak c hcn

theorem splitSlashes_pathChars_append {name : List Char}
    {names : List (List Char)} (h : forall n, n ∈ name :: names -> IsName n)
    (text : List Char) :
    splitSlashes (name ++ pathChars names ++ '/' :: text) =
      name :: names ++ splitSlashes text := by
  have hname := (h name List.mem_cons_self).noSlash
  induction names generalizing name with
  | nil =>
      show splitSlashes (name ++ [] ++ '/' :: text) = _
      rw [List.append_nil, splitSlashes_append hname]
      rfl
  | cons next names ih =>
      have hnames : forall n, n ∈ next :: names -> IsName n :=
        fun n hn => h n (List.mem_cons_of_mem name hn)
      have htext : name ++ pathChars (next :: names) ++ '/' :: text =
          name ++ '/' :: (next ++ pathChars names ++ '/' :: text) := by
        simp [pathChars]
      rw [htext, splitSlashes_append hname,
        ih hnames (hnames next List.mem_cons_self).noSlash]
      rfl

theorem splitSlashes_behind {names : List (List Char)}
    (h : forall n, n ∈ names -> IsName n) (text : List Char) :
    splitSlashes (dropLeadingSlash (pathChars names ++ '/' :: text)) =
      names ++ splitSlashes text := by
  cases names with
  | nil => rfl
  | cons name names => exact splitSlashes_pathChars_append h text

theorem resolve_append {segments rest : List (List Char)}
    (done : List (List Char)) (h : forall s, s ∈ segments -> IsClean s)
    (hrest : rest ≠ []) :
    resolve done (segments ++ rest) = resolve
      (segments.reverse ++ done) rest := by
  induction segments generalizing done with
  | nil => rfl
  | cons segment segments ih =>
      have hsegment := h segment List.mem_cons_self
      have hmore : segments ++ rest ≠ [] :=
        List.append_ne_nil_of_right_ne_nil segments hrest
      rw [List.cons_append, resolve, hsegment.notDot, hsegment.notDoubleDot,
        if_neg Bool.false_ne_true, if_neg Bool.false_ne_true,
        ih _ fun s hs => h s (List.mem_cons_of_mem segment hs),
          List.reverse_cons,
        List.append_assoc]
      · rfl
      · exact fun hnil => hmore hnil

/-!
# One segment more

A text without slashes is one segment behind its directory, unless it is a dot
segment. With a slash in it, and no dot segments, it is several.
-/

/-- The path is that of the directory with one non-empty segment behind it. -/
def IsChild (directory path : List Char) : Prop :=
  exists segment, segment ≠ [] ∧ '/' ∉ segment ∧ path = directory ++ segment

theorem slash_notMem_of_isClean {segment : List Char} (h : IsClean segment) :
    '/' ∉ segment := by
  intro hslash
  exact absurd (h.kept '/' hslash) (by decide)

structure IsSegment (text : List Char) : Prop where
  notEmpty : visible text ≠ []
  isName : IsName (visible text)

def IsDirect (text : List Char) : Prop :=
  1 < (splitSlashes (visible text)).length ->
  forall part, part ∈ splitSlashes (visible text) ->
    isDot part = false ∧ isDoubleDot part = false

def segmentOf (text : List Char) : List Char :=
  percentEncode inPathSet (visible text)

theorem noBreak_of_mem_visible {text : List Char} :
    forall c, c ∈ visible text -> isTabOrBreak c = false := by
  intro c hc
  have hkept := (List.mem_filter.mp hc).right
  rwa [Bool.not_eq_true'] at hkept

theorem splitSlashes_of_not_lt {cs : List Char}
    (h : ¬ 1 < (splitSlashes cs).length) :
    splitSlashes cs = [cs] := by
  cases hsplit : splitSlashes cs with
  | nil => exact absurd hsplit (splitSlashes_ne_nil cs)
  | cons part rest =>
      rw [hsplit, List.length_cons] at h
      have hrest : rest = [] := List.eq_nil_of_length_eq_zero (by omega)
      rw [hrest] at hsplit ⊢
      rw [eq_of_splitSlashes_eq_singleton hsplit]

/-- A dot segment leaves an empty segment behind. -/
theorem resolve_singleton {done segments : List (List Char)}
    {last segment : List Char} (hne : segment ≠ [])
    (h : resolve done [last] = segments ++ [segment]) :
    isDot last = false ∧ isDoubleDot last = false ∧ last = segment := by
  have hlast : forall done' part, (part :: done').reverse =
      segments ++ [segment] ->
      part = segment := by
    intro done' part heq
    rw [List.reverse_cons] at heq
    exact (List.cons.inj (List.append_inj_right' heq rfl)).left
  rw [resolve] at h
  split at h
  · exact absurd (hlast _ _ h).symm hne
  · split at h
    · exact absurd (hlast _ _ h).symm hne
    · rename_i hdouble hdot
      exact ⟨Bool.eq_false_iff.mpr hdot, Bool.eq_false_iff.mpr hdouble,
        hlast _ _ h⟩

theorem IsSegment.isDirect {text : List Char} (h : IsSegment text) :
    IsDirect text := by
  intro hlength
  rw [splitSlashes_of_noSlash h.isName.noSlash,
    List.length_singleton] at hlength
  exact absurd hlength (Nat.lt_irrefl 1)

section

variable {names : List (List Char)} (hnames : forall n, n ∈ names -> IsName n)

include hnames

theorem isClean_of_mem_map :
    forall s, s ∈ names.map (percentEncode inPathSet) -> IsClean s := by
  intro s hs
  rcases List.mem_map.mp hs with ⟨n, hn, rfl⟩
  exact (hnames n hn).isClean

theorem segmentsOf_behind (text : List Char) :
    segmentsOf (pathChars names ++ '/' :: text) =
    resolve (names.map (percentEncode inPathSet)).reverse
      ((splitSlashes (visible text)).map (percentEncode inPathSet)) := by
  have hvisible : (pathChars names ++ '/' :: text).filter
      (fun c => !isTabOrBreak c) =
      pathChars names ++ '/' :: visible text := by
    rw [List.filter_append]
    show visible (pathChars names) ++ '/' :: visible text = _
    rw [visible_pathChars hnames]
  rw [segmentsOf, hvisible, splitSlashes_behind hnames, List.map_append,
    resolve_append [] (isClean_of_mem_map hnames), List.append_nil]
  rw [ne_eq, List.map_eq_nil_iff]
  exact splitSlashes_ne_nil _

theorem segmentsOf_direct {text : List Char}
    (h : forall part, part ∈ splitSlashes (visible text) ->
      isDot part = false ∧ isDoubleDot part = false) :
    segmentsOf (pathChars names ++ '/' :: text) =
      (names ++ splitSlashes (visible text)).map (percentEncode inPathSet) := by
  rw [segmentsOf_behind hnames, resolve_of_clean, List.reverse_reverse,
    List.map_append]
  intro s hs
  rcases List.mem_map.mp hs with ⟨part, hpart, rfl⟩
  exact isClean_percentEncode (noSlash_of_mem_splitSlashes hpart)
    (h part hpart).left (h part hpart).right

theorem normalizePath_directory : normalizePath (pathChars names ++ ['/']) =
    pathChars (names.map (percentEncode inPathSet)) ++ ['/'] := by
  rw [normalizePath, segmentsOf_direct hnames, List.map_append]
  · exact (by simp [pathChars, visible, splitSlashes, percentEncode])
  · intro part hpart
    rw [List.mem_singleton.mp hpart]
    exact ⟨rfl, rfl⟩

theorem normalizePath_segment {text : List Char} (h : IsSegment text) :
    normalizePath (pathChars names ++ '/' :: text) =
      normalizePath (pathChars names ++ ['/']) ++ segmentOf text := by
  have hsplit := splitSlashes_of_noSlash h.isName.noSlash
  rw [normalizePath_directory hnames, normalizePath, segmentsOf_direct hnames,
    hsplit, List.map_append]
  · exact (by simp [pathChars, segmentOf])
  · intro part hpart
    rw [hsplit, List.mem_singleton] at hpart
    rw [hpart]
    exact ⟨h.isName.notDot, h.isName.notDoubleDot⟩

theorem segmentsOf_of_isChild {text : List Char}
    (h : IsChild (normalizePath (pathChars names ++ ['/']))
      (normalizePath text)) :
    exists segment, segment ≠ [] ∧
      segmentsOf text = names.map (percentEncode inPathSet) ++ [segment] := by
  rcases h with ⟨segment, hne, hslash, hpath⟩
  have hclean := isClean_of_mem_map hnames
  have hsegment : forall c, c ∈ segment -> isSlash c = false := by
    intro c hc
    have hmem : c ∈ pathChars (segmentsOf text) := by
      rw [show pathChars (segmentsOf text) = _ from hpath]
      exact List.mem_append_right _ hc
    rcases mem_pathChars hmem with rfl | ⟨s, hs, hcs⟩
    · exact absurd hc hslash
    · exact (isKept_iff.mp
        ((isClean_of_mem_segmentsOf text s hs).kept c hcs)).left
  have hsplit :=
    splitSlashes_dropLeadingSlash_pathChars (segmentsOf_ne_nil text)
    (isClean_of_mem_segmentsOf text)
  rw [show pathChars (segmentsOf text) = _ from hpath,
    normalizePath_directory hnames, List.append_assoc, List.singleton_append,
    splitSlashes_behind (fun s hs => (hclean s hs).isName),
      splitSlashes_of_noSlash hsegment]
    at hsplit
  exact ⟨segment, hne, hsplit.symm⟩

/-- Several parts would be several segments, and a dot segment would leave an
empty one. -/
theorem isSegment_of_isChild {text : List Char} (hdirect : IsDirect text)
    (h : IsChild (normalizePath (pathChars names ++ ['/']))
      (normalizePath (pathChars names ++ '/' :: text))) : IsSegment text := by
  rcases segmentsOf_of_isChild hnames h with ⟨segment, hne, hsegments⟩
  by_cases hparts : 1 < (splitSlashes (visible text)).length
  · rw [segmentsOf_direct hnames (hdirect hparts), List.map_append,
      List.append_cancel_left_eq] at hsegments
    have hlength := congrArg List.length hsegments
    rw [List.length_map, List.length_singleton] at hlength
    exact absurd hparts (by omega)
  · have hsplit := splitSlashes_of_not_lt hparts
    rw [segmentsOf_behind hnames, hsplit, List.map_singleton] at hsegments
    rcases resolve_singleton hne hsegments with ⟨hdot, hdouble, hsegment⟩
    rw [isDot_percentEncode] at hdot
    rw [isDoubleDot_percentEncode] at hdouble
    refine ⟨?_, ?_, noBreak_of_mem_visible, hdot, hdouble⟩
    · intro hnil
      rw [hnil] at hsegment
      exact hne hsegment.symm
    · apply noSlash_of_mem_splitSlashes
      rw [hsplit]
      exact List.mem_singleton_self _

theorem isChild_of_isSegment {text : List Char} (h : IsSegment text) :
    IsChild (normalizePath (pathChars names ++ ['/']))
      (normalizePath (pathChars names ++ '/' :: text)) := by
  refine ⟨segmentOf text, ?_, slash_notMem_of_isClean h.isName.isClean,
    normalizePath_segment hnames h⟩
  rw [segmentOf, ne_eq, percentEncode_eq_nil_iff]
  exact h.notEmpty

end

/-!
# Telling segments apart

Without a percent sign in it, a text can be decoded from its encoding.
-/

theorem percentDecode_percentEncode {cs : List Char} (h : '%' ∉ cs) :
    percentDecode (percentEncode inPathSet cs) =
      cs.flatMap String.utf8EncodeChar := by
  induction cs with
  | nil => rfl
  | cons c cs ih =>
      rw [List.mem_cons, not_or] at h
      rw [percentEncode_cons, List.flatMap_cons, ← ih h.right]
      cases inPathSet c with
      | true => exact percentDecode_flatMap_percentByte _ _
      | false => exact percentDecode_cons (Ne.symm h.left) _

theorem percentEncode_injective {cs cs' : List Char} (h : '%' ∉ cs)
    (h' : '%' ∉ cs')
    (heq : percentEncode inPathSet cs = percentEncode inPathSet cs') :
    cs = cs' := by
  have hbytes : forall l : List Char,
      (l.flatMap String.utf8EncodeChar).toByteArray =
        (String.ofList l).toByteArray := fun _ => rfl
  have hdecode := congrArg percentDecode heq
  rw [percentDecode_percentEncode h, percentDecode_percentEncode h'] at hdecode
  have hofList : String.ofList cs = String.ofList cs' := by
    rw [← String.toByteArray_inj, ← hbytes, ← hbytes, hdecode]
  exact String.ofList_injective hofList

theorem segmentOf_injective {text text' : List Char}
    (h : forall c, c ∈ text -> c ≠ '%' ∧ isTabOrBreak c = false)
    (h' : forall c, c ∈ text' -> c ≠ '%' ∧ isTabOrBreak c = false)
    (heq : segmentOf text = segmentOf text') : text = text' := by
  rw [segmentOf, segmentOf, visible_eq_self fun c hc => (h c hc).right,
    visible_eq_self fun c hc => (h' c hc).right] at heq
  exact percentEncode_injective (fun hc => (h _ hc).left rfl)
    (fun hc => (h' _ hc).left rfl) heq

theorem isDot_of_noPercent {text : List Char} (h : '%' ∉ text) :
    isDot text = true -> text = ['.'] := by
  rw [isDot, beq_iff_eq]
  fun_cases dropDot text with
  | case1 rest =>
      intro hrest
      rw [Option.some.inj hrest]
  | case2 rest => exact absurd List.mem_cons_self h
  | case3 rest => exact absurd List.mem_cons_self h
  | case4 =>
      intro hnone
      cases hnone

theorem isDoubleDot_of_noPercent {text : List Char} (h : '%' ∉ text) :
    isDoubleDot text = true -> text = ['.', '.'] := by
  rw [isDoubleDot]
  fun_cases dropDot text with
  | case1 rest =>
      intro hrest
      rw [isDot_of_noPercent (fun hc => h (List.mem_cons_of_mem _ hc)) hrest]
  | case2 rest => exact absurd List.mem_cons_self h
  | case3 rest => exact absurd List.mem_cons_self h
  | case4 =>
      intro hnone
      cases hnone

end FairLease.Url
