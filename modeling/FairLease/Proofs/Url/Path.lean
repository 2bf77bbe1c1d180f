import FairLease.Url.Path

/-!
# Paths that are kept

Writing a path yields clean segments, and a path of clean segments is written as
it stands.
-/

namespace FairLease.Url

/-!
# Clean segments

A clean segment has no character that would be dropped, encoded or taken for a
slash, and is no spelling of a dot segment.
-/

def isKept (c : Char) : Bool :=
  !isSlash c && !isTabOrBreak c && !inPathSet c

structure IsClean (segment : List Char) : Prop where
  kept : forall c, c ∈ segment -> isKept c = true
  notDot : isDot segment = false
  notDoubleDot : isDoubleDot segment = false

theorem isKept_iff {c : Char} :
    isKept c = true <-> isSlash c = false ∧ isTabOrBreak c = false ∧
      inPathSet c = false := by
  simp [isKept, and_assoc]

theorem isClean_nil : IsClean [] :=
  ⟨fun _ h => absurd h List.not_mem_nil, rfl, rfl⟩

theorem isKept_upperHex {n : Nat} (h : n < 16) :
    isKept (upperHex n) = true := by
  revert n
  decide

theorem isKept_of_mem_percentEncode {cs : List Char}
    (h : forall c, c ∈ cs -> isSlash c = false) {d : Char}
    (hd : d ∈ percentEncode inPathSet cs) : isKept d = true := by
  rcases List.mem_flatMap.mp hd with ⟨c, hc, hcd⟩
  cases hset : inPathSet c with
  | true =>
      rw [hset, if_pos rfl] at hcd
      rcases List.mem_flatMap.mp hcd with ⟨b, _, hb⟩
      have hbyte : b.toNat < 256 := b.toNat_lt
      simp only [percentByte, List.mem_cons, List.not_mem_nil, or_false] at hb
      rcases hb with rfl | rfl | rfl
      · decide
      · exact isKept_upperHex (by omega)
      · exact isKept_upperHex (Nat.mod_lt _ (by decide))
  | false =>
      rw [hset, if_neg Bool.false_ne_true, List.mem_singleton] at hcd
      rw [hcd, isKept_iff]
      refine ⟨h c hc, ?_, hset⟩
      rw [Bool.eq_false_iff]
      intro hbreak
      simp only [isTabOrBreak, Bool.or_eq_true, beq_iff_eq] at hbreak
      rcases hbreak with (rfl | rfl) | rfl <;> exact absurd hset (by decide)

theorem percentEncode_of_kept {cs : List Char}
    (h : forall c, c ∈ cs -> isKept c = true) :
    percentEncode inPathSet cs = cs := by
  induction cs with
  | nil => rfl
  | cons c cs ih =>
      have hc := (isKept_iff.mp (h c List.mem_cons_self)).right.right
      have hrest := ih fun d hd => h d (List.mem_cons_of_mem c hd)
      rw [percentEncode, List.flatMap_cons, hc]
      show c :: percentEncode inPathSet cs = _
      rw [hrest]

/-!
# Segments of a path

Slashes separate the segments, and dot segments are resolved when the path is
written.
-/

theorem splitSlashes_ne_nil (cs : List Char) : splitSlashes cs ≠ [] := by
  cases cs with
  | nil => exact List.cons_ne_nil _ _
  | cons c rest =>
      unfold splitSlashes
      split
      · exact List.cons_ne_nil _ _
      · split <;> exact List.cons_ne_nil _ _

theorem splitSlashes_append {a : List Char}
    (h : forall c, c ∈ a -> isSlash c = false) (b : List Char) :
    splitSlashes (a ++ '/' :: b) = a :: splitSlashes b := by
  induction a with
  | nil =>
      show splitSlashes ('/' :: b) = [] :: splitSlashes b
      rw [splitSlashes]
      rfl
  | cons c a ih =>
      rw [List.cons_append, splitSlashes, h c List.mem_cons_self,
        if_neg Bool.false_ne_true, ih fun d hd =>
          h d (List.mem_cons_of_mem c hd)]

theorem splitSlashes_of_noSlash {a : List Char}
    (h : forall c, c ∈ a -> isSlash c = false) :
    splitSlashes a = [a] := by
  induction a with
  | nil => rfl
  | cons c a ih =>
      rw [splitSlashes, h c List.mem_cons_self, if_neg Bool.false_ne_true,
        ih fun d hd => h d (List.mem_cons_of_mem c hd)]

theorem noSlash_of_mem_splitSlashes {cs part : List Char}
    (h : part ∈ splitSlashes cs) :
    forall c, c ∈ part -> isSlash c = false := by
  induction cs generalizing part with
  | nil =>
      rw [splitSlashes, List.mem_singleton] at h
      rw [h]
      exact fun _ hc => absurd hc List.not_mem_nil
  | cons c rest ih =>
      unfold splitSlashes at h
      cases hslash : isSlash c with
      | true =>
          rw [hslash, if_pos rfl, List.mem_cons] at h
          rcases h with rfl | h
          · exact fun _ hc => absurd hc List.not_mem_nil
          · exact ih h
      | false =>
          rw [hslash, if_neg Bool.false_ne_true] at h
          cases hrest : splitSlashes rest with
          | nil => exact absurd hrest (splitSlashes_ne_nil rest)
          | cons head parts =>
              rw [hrest] at h ih
              rcases List.mem_cons.mp h with rfl | h
              · intro d hd
                rcases List.mem_cons.mp hd with rfl | hd
                · exact hslash
                · exact ih List.mem_cons_self d hd
              · exact ih (List.mem_cons_of_mem head h)

theorem eq_of_splitSlashes_eq_singleton {cs part : List Char}
    (h : splitSlashes cs = [part]) :
    cs = part := by
  induction cs generalizing part with
  | nil => exact (List.cons.inj h).left
  | cons c rest ih =>
      unfold splitSlashes at h
      split at h
      · exact absurd (List.cons.inj h).right (splitSlashes_ne_nil rest)
      · cases hrest : splitSlashes rest with
        | nil => exact absurd hrest (splitSlashes_ne_nil rest)
        | cons head parts =>
            rw [hrest] at h ih
            cases h
            rw [ih rfl]

theorem splitSlashes_pathChars {segment : List Char} {rest : List (List Char)}
    (h : forall s, s ∈ segment :: rest -> IsClean s) :
    splitSlashes (segment ++ pathChars rest) = segment :: rest := by
  induction rest generalizing segment with
  | nil =>
      rw [pathChars, List.flatMap_nil, List.append_nil, splitSlashes_of_noSlash]
      intro c hc
      exact (isKept_iff.mp ((h segment List.mem_cons_self).kept c hc)).left
  | cons next rest ih =>
      have htext : pathChars (next :: rest) = '/' :: (next ++ pathChars rest) :=
        rfl
      rw [htext, splitSlashes_append,
        ih fun s hs => h s (List.mem_cons_of_mem segment hs)]
      intro c hc
      exact (isKept_iff.mp ((h segment List.mem_cons_self).kept c hc)).left

theorem resolve_of_clean {segments : List (List Char)} (done : List (List Char))
    (h : forall s, s ∈ segments -> IsClean s) :
    resolve done segments = done.reverse ++ segments := by
  induction segments generalizing done with
  | nil => rw [resolve, List.append_nil]
  | cons segment rest ih =>
      have hsegment := h segment List.mem_cons_self
      cases rest with
      | nil =>
          rw [resolve, hsegment.notDot, hsegment.notDoubleDot,
            if_neg Bool.false_ne_true, if_neg Bool.false_ne_true,
            List.reverse_cons]
      | cons next rest =>
          rw [resolve, hsegment.notDot, hsegment.notDoubleDot,
            if_neg Bool.false_ne_true, if_neg Bool.false_ne_true,
            ih _ fun s hs => h s (List.mem_cons_of_mem segment hs),
              List.reverse_cons, List.append_assoc]
          · rfl
          · exact fun hnil => List.cons_ne_nil _ _ hnil

theorem mem_pathChars {segments : List (List Char)} {c : Char}
    (h : c ∈ pathChars segments) :
    c = '/' ∨ exists s, s ∈ segments ∧ c ∈ s := by
  rcases List.mem_flatMap.mp h with ⟨s, hs, hc⟩
  rcases List.mem_cons.mp hc with hslash | hc
  · exact Or.inl hslash
  · exact Or.inr ⟨s, hs, hc⟩

theorem splitSlashes_dropLeadingSlash_pathChars {segments : List (List Char)}
    (hne : segments ≠ []) (h : forall s, s ∈ segments -> IsClean s) :
    splitSlashes (dropLeadingSlash (pathChars segments)) = segments := by
  cases segments with
  | nil => exact absurd rfl hne
  | cons segment rest => exact splitSlashes_pathChars h

/-- A path of clean segments is written as it stands. -/
theorem normalizePath_pathChars {segments : List (List Char)}
    (hne : segments ≠ []) (h : forall s, s ∈ segments -> IsClean s) :
    normalizePath (pathChars segments) = pathChars segments := by
  have hfilter : (pathChars segments).filter (fun c => !isTabOrBreak c) =
      pathChars segments := by
    rw [List.filter_eq_self]
    intro c hc
    rcases mem_pathChars hc with rfl | ⟨s, hs, hcs⟩
    · rfl
    · rw [(isKept_iff.mp ((h s hs).kept c hcs)).right.left]
      rfl
  have hencode : segments.map (percentEncode inPathSet) = segments := by
    conv => rhs; rw [← List.map_id segments]
    exact List.map_congr_left fun s hs => percentEncode_of_kept (h s hs).kept
  rw [normalizePath, segmentsOf, hfilter,
    splitSlashes_dropLeadingSlash_pathChars hne h, hencode,
    resolve_of_clean [] h, List.reverse_nil, List.nil_append]

theorem mem_of_mem_parent {done : List (List Char)} {s : List Char}
    (h : s ∈ parent done) :
    s ∈ done := by
  cases done with
  | nil => exact h
  | cons last rest =>
      rw [parent] at h
      split at h
      · exact h
      · exact List.mem_cons_of_mem last h

theorem isClean_of_mem_resolve {done segments : List (List Char)}
    (hdone : forall s, s ∈ done -> IsClean s)
    (hsegments : forall s, s ∈ segments -> forall c, c ∈ s -> isKept c = true) :
    forall s, s ∈ resolve done segments -> IsClean s := by
  have hpush : forall t done, IsClean t -> (forall s, s ∈ done -> IsClean s) ->
      forall s, s ∈ t :: done -> IsClean s := by
    intro t done ht hdone s hs
    rcases List.mem_cons.mp hs with rfl | hs
    · exact ht
    · exact hdone s hs
  fun_induction resolve done segments with
  | case1 done =>
      intro s hs
      exact hdone s (List.mem_reverse.mp hs)
  | case2 done last _ =>
      intro s hs
      exact hpush [] (parent done) isClean_nil
        (fun t ht => hdone t (mem_of_mem_parent ht)) s (List.mem_reverse.mp hs)
  | case3 done last _ _ =>
      intro s hs
      exact hpush [] done isClean_nil hdone s (List.mem_reverse.mp hs)
  | case4 done last hdouble hdot =>
      intro s hs
      have hlast : IsClean last :=
        ⟨hsegments last List.mem_cons_self, Bool.eq_false_iff.mpr hdot,
          Bool.eq_false_iff.mpr hdouble⟩
      exact hpush last done hlast hdone s (List.mem_reverse.mp hs)
  | case5 done segment rest _ _ ih =>
      exact ih (fun t ht => hdone t (mem_of_mem_parent ht)) fun t ht =>
        hsegments t (List.mem_cons_of_mem segment ht)
  | case6 done segment rest _ _ _ ih =>
      exact ih hdone fun t ht => hsegments t (List.mem_cons_of_mem segment ht)
  | case7 done segment rest _ hdouble hdot ih =>
      have hsegment : IsClean segment := ⟨hsegments segment List.mem_cons_self,
        Bool.eq_false_iff.mpr hdot, Bool.eq_false_iff.mpr hdouble⟩
      exact ih (hpush segment done hsegment hdone) fun t ht =>
        hsegments t (List.mem_cons_of_mem segment ht)

theorem resolve_ne_nil {segments : List (List Char)} (done : List (List Char))
    (h : segments ≠ []) : resolve done segments ≠ [] := by
  fun_induction resolve done segments with
  | case1 => exact absurd rfl h
  | case2 => simp
  | case3 => simp
  | case4 => simp
  | case5 done segment rest hrest _ ih => exact ih fun hnil => hrest hnil
  | case6 done segment rest hrest _ _ ih => exact ih fun hnil => hrest hnil
  | case7 done segment rest hrest _ _ ih => exact ih fun hnil => hrest hnil

theorem segmentsOf_ne_nil (cs : List Char) : segmentsOf cs ≠ [] := by
  apply resolve_ne_nil
  rw [ne_eq, List.map_eq_nil_iff]
  exact splitSlashes_ne_nil _

theorem isClean_of_mem_segmentsOf (cs : List Char) :
    forall s, s ∈ segmentsOf cs -> IsClean s := by
  apply isClean_of_mem_resolve (fun _ h => absurd h List.not_mem_nil)
  intro s hs c hc
  rcases List.mem_map.mp hs with ⟨part, hpart, rfl⟩
  exact isKept_of_mem_percentEncode (noSlash_of_mem_splitSlashes hpart) hc

theorem exists_segments (cs : List Char) :
    exists segments, segments ≠ [] ∧ (forall s, s ∈ segments -> IsClean s) ∧
      normalizePath cs = pathChars segments :=
  ⟨segmentsOf cs, segmentsOf_ne_nil cs, isClean_of_mem_segmentsOf cs, rfl⟩

theorem notMem_normalizePath {d : Char} (hslash : d ≠ '/')
    (hkept : isKept d = false) (cs : List Char) : d ∉ normalizePath cs := by
  rcases exists_segments cs with ⟨segments, _, hclean, heq⟩
  rw [heq]
  intro hd
  rcases mem_pathChars hd with hd | ⟨s, hs, hds⟩
  · exact hslash hd
  · rw [(hclean s hs).kept d hds] at hkept
    cases hkept

/-- A path that was written once is not changed again. -/
theorem normalizePath_normalizePath (cs : List Char) :
    normalizePath (normalizePath cs) = normalizePath cs := by
  rcases exists_segments cs with ⟨segments, hne, hclean, heq⟩
  rw [heq, normalizePath_pathChars hne hclean]

end FairLease.Url
