import FairLease.Proofs.Json.Literal

/-!
# The grammar of JSON texts

A text stands for a value if it is one by the rules of JSON, with blanks between
its tokens. The reader finds the value of every such text and of no other.
-/

namespace FairLease
namespace Json

/-!
# Values

Blanks may stand before every value and every punctuation mark. What stands for
a value is told by its first character.
-/

def IsNext (mark : Char) (cs rest : List Char) : Prop :=
  exists blanks, (forall b, b ∈ blanks -> isBlank b = true) ∧
    cs = blanks ++ mark :: rest

/-- A value, the items of an array after its bracket, or the members of an
object after its brace. -/
inductive Part where
  | value
  | items
  | members

/-- The text begins with a value, or with the items or members of one, and goes
on with the rest. -/
inductive Begins : Part -> List Char -> Json -> List Char -> Prop where
  | blank {c : Char} {cs : List Char} {j : Json} {rest : List Char} :
      isBlank c = true ->
      Begins .value cs j rest -> Begins .value (c :: cs) j rest
  | null (rest : List Char) :
      Begins .value ('n' :: 'u' :: 'l' :: 'l' :: rest) null rest
  | true (rest : List Char) :
      Begins .value ('t' :: 'r' :: 'u' :: 'e' :: rest) (bool true) rest
  | false (rest : List Char) :
      Begins .value ('f' :: 'a' :: 'l' :: 's' :: 'e' :: rest) (bool false) rest
  | number {l : Literal} {text : List Char} (rest : List Char) :
      Spells l text ->
      Begins .value (text ++ rest) l.toJson rest
  | string {cs : List Char} {ps : List Piece} {text : List Char}
      {rest : List Char} :
      BeginsString cs ps rest -> join ps = some text ->
      Begins .value ('"' :: cs) (string (String.ofList text)) rest
  | broken {cs : List Char} {ps : List Piece} {rest : List Char} :
      BeginsString cs ps rest ->
      join ps = none -> Begins .value ('"' :: cs) unreadable rest
  | emptyArray {cs rest : List Char} : IsNext ']' cs rest ->
      Begins .value ('[' :: cs) (array []) rest
  | array {cs : List Char} {j : Json} {rest : List Char} :
      Begins .items cs j rest ->
      Begins .value ('[' :: cs) j rest
  | emptyObject {cs rest : List Char} : IsNext '}' cs rest ->
      Begins .value ('\x7b' :: cs) (object []) rest
  | object {cs : List Char} {j : Json} {rest : List Char} :
      Begins .members cs j rest ->
      Begins .value ('\x7b' :: cs) j rest
  | lastItem {cs : List Char} {item : Json} {after rest : List Char} :
      Begins .value cs item after -> IsNext ']' after rest ->
        Begins .items cs (array [item]) rest
  | item {cs : List Char} {item : Json} {after next : List Char} {items : Json}
      {rest : List Char} :
      Begins .value cs item after -> IsNext ',' after next ->
      Begins .items next items rest ->
      Begins .items cs (consItem item items) rest
  | lastMember {cs name : List Char} {ps : List Piece}
      {colon content : List Char} {value : Json}
      {after rest : List Char} : IsNext '"' cs name ->
      BeginsString name ps colon ->
      IsNext ':' colon content -> Begins .value content value after ->
      IsNext '}' after rest ->
      Begins .members cs
        (consMember ((join ps).map String.ofList) value (object [])) rest
  | member {cs name : List Char} {ps : List Piece} {colon content : List Char}
      {value : Json}
      {after next : List Char} {members : Json} {rest : List Char} :
        IsNext '"' cs name ->
      BeginsString name ps colon -> IsNext ':' colon content ->
      Begins .value content value after ->
      IsNext ',' after next -> Begins .members next members rest ->
      Begins .members cs
        (consMember ((join ps).map String.ofList) value members) rest

def IsDocument (text : String) (j : Json) : Prop :=
  exists rest, Begins .value text.toList j rest ∧
    forall c, c ∈ rest -> isBlank c = true

theorem skipBlank_blank {c : Char} (h : isBlank c = true) (cs : List Char) :
    skipBlank (c :: cs) = skipBlank cs := by
  rw [skipBlank, List.dropWhile_cons, h]
  rfl

theorem skipBlank_cons {c : Char} (h : isBlank c = false) (cs : List Char) :
    skipBlank (c :: cs) = c :: cs := by
  rw [skipBlank, List.dropWhile_cons, h]
  rfl

theorem skipBlank_skipBlank (cs : List Char) :
    skipBlank (skipBlank cs) = skipBlank cs := by
  induction cs with
  | nil => rfl
  | cons c cs ih =>
      cases hblank : isBlank c with
      | true => rw [skipBlank_blank hblank, ih]
      | false => rw [skipBlank_cons hblank, skipBlank_cons hblank]

theorem isNext_of_skipBlank {mark : Char} {cs rest : List Char}
    (h : skipBlank cs = mark :: rest) : IsNext mark cs rest := by
  refine ⟨cs.takeWhile isBlank,
    fun b hb => List.all_eq_true.mp List.all_takeWhile b hb, ?_⟩
  rw [← h]
  exact List.takeWhile_append_dropWhile.symm

theorem skipBlank_of_isNext {mark : Char} (hmark : isBlank mark = false)
    {cs rest : List Char} (h : IsNext mark cs rest) :
    skipBlank cs = mark :: rest := by
  rcases h with ⟨blanks, hblanks, rfl⟩
  rw [skipBlank, List.dropWhile_append_of_pos hblanks]
  exact skipBlank_cons hmark rest

theorem begins_of_skipBlank {cs : List Char} {j : Json} {rest : List Char}
    (h : Begins .value (skipBlank cs) j rest) : Begins .value cs j rest := by
  induction cs with
  | nil => exact h
  | cons c cs ih =>
      cases hblank : isBlank c with
      | true =>
          rw [skipBlank_blank hblank] at h
          exact .blank hblank (ih h)
      | false => rwa [skipBlank_cons hblank] at h

theorem isNext_skipBlank {mark : Char} (hmark : isBlank mark = false)
    {cs rest : List Char} (h : IsNext mark (skipBlank cs) rest) :
    IsNext mark cs rest := by
  have hskip := skipBlank_of_isNext hmark h
  rw [skipBlank_skipBlank] at hskip
  exact isNext_of_skipBlank hskip

theorem begins_items_of_skipBlank {cs : List Char} {j : Json} {rest : List Char}
    (h : Begins .items (skipBlank cs) j rest) : Begins .items cs j rest := by
  cases h with
  | lastItem hitem hnext => exact .lastItem (begins_of_skipBlank hitem) hnext
  | item hitem hnext hitems =>
      exact .item (begins_of_skipBlank hitem) hnext hitems

theorem begins_members_of_skipBlank {cs : List Char} {j : Json}
    {rest : List Char} (h : Begins .members (skipBlank cs) j rest) :
    Begins .members cs j rest := by
  cases h with
  | lastMember hquote hname hcolon hvalue hnext =>
      exact .lastMember (isNext_skipBlank rfl hquote) hname hcolon hvalue hnext
  | member hquote hname hcolon hvalue hnext hmembers =>
      exact .member (isNext_skipBlank rfl hquote)
        hname hcolon hvalue hnext hmembers

/-!
# What is read is there

Each step of the reader is one of the rules, by induction on the fuel.
-/

/-- What the reader finds with so much fuel is there. -/
structure ReadsSoundly (fuel : Nat) : Prop where
  value : forall {cs j rest}, readValue fuel cs = some (j, rest) ->
    Begins .value cs j rest
  items : forall {cs j rest}, readItems fuel cs = some (j, rest) ->
    Begins .items cs j rest
  members : forall {cs j rest}, readMembers fuel cs = some (j, rest) ->
    Begins .members cs j rest

theorem begins_of_readValue {fuel : Nat} (hsound : ReadsSoundly fuel)
    {cs : List Char} {j : Json} {rest : List Char}
    (h : readValue (fuel + 1) cs = some (j, rest)) :
    Begins .value cs j rest := by
  apply begins_of_skipBlank
  rw [readValue] at h
  generalize skipBlank cs = text at h
  split at h
  · cases h
    exact .null rest
  · cases h
    exact .true rest
  · cases h
    exact .false rest
  · split at h
    · cases h
    · rename_i htext
      cases h
      rcases readText_eq_some_iff.mp htext with ⟨ps, hbegins, hnone⟩
      exact .broken hbegins (Option.map_eq_none_iff.mp hnone.symm)
    · rename_i htext
      cases h
      rcases readText_eq_some_iff.mp htext with ⟨ps, hbegins, hsome⟩
      rcases Option.map_eq_some_iff.mp hsome.symm with ⟨chars, hjoin, rfl⟩
      exact .string hbegins hjoin
  · split at h
    · rename_i hclose
      cases h
      exact .emptyArray (isNext_of_skipBlank hclose)
    · exact .array (begins_items_of_skipBlank (hsound.items h))
  · split at h
    · rename_i hclose
      cases h
      exact .emptyObject (isNext_of_skipBlank hclose)
    · exact .object (begins_members_of_skipBlank (hsound.members h))
  · split at h
    · cases h
    · rename_i hliteral
      cases h
      rcases eq_append_of_readLiteral hliteral with ⟨text, hspells, rfl⟩
      exact .number _ hspells

theorem begins_of_readItems {fuel : Nat} (hsound : ReadsSoundly fuel)
    {cs : List Char} {j : Json} {rest : List Char}
    (h : readItems (fuel + 1) cs = some (j, rest)) :
    Begins .items cs j rest := by
  rw [readItems] at h
  split at h
  · cases h
  · rename_i item after hvalue
    have hitem := hsound.value hvalue
    split at h
    · rename_i hclose
      cases h
      exact .lastItem hitem (isNext_of_skipBlank hclose)
    · rename_i next hcomma
      split at h
      · cases h
      · rename_i items rest hitems
        cases h
        exact .item hitem (isNext_of_skipBlank hcomma) (hsound.items hitems)
    · cases h

theorem begins_of_readMembers {fuel : Nat} (hsound : ReadsSoundly fuel)
    {cs : List Char} {j : Json} {rest : List Char}
    (h : readMembers (fuel + 1) cs = some (j, rest)) :
    Begins .members cs j rest := by
  rw [readMembers] at h
  split at h
  · rename_i name hquote
    split at h
    · cases h
    · rename_i text colon htext
      rcases readText_eq_some_iff.mp htext with ⟨ps, hname, rfl⟩
      split at h
      · rename_i content hcolon
        split at h
        · cases h
        · rename_i value after hvalue
          have hcontent := hsound.value hvalue
          have hmark := isNext_of_skipBlank hquote
          have hmarked := isNext_of_skipBlank hcolon
          split at h
          · rename_i hclose
            cases h
            exact .lastMember hmark hname hmarked hcontent
              (isNext_of_skipBlank hclose)
          · rename_i next hcomma
            split at h
            · cases h
            · rename_i members rest hmembers
              cases h
              exact .member hmark hname hmarked hcontent
                (isNext_of_skipBlank hcomma) (hsound.members hmembers)
          · cases h
      · cases h
  · cases h

theorem readsSoundly (fuel : Nat) : ReadsSoundly fuel := by
  induction fuel with
  | zero =>
      constructor
      · intro cs j rest h
        cases h
      · intro cs j rest h
        cases h
      · intro cs j rest h
        cases h
  | succ fuel ih =>
      exact ⟨begins_of_readValue ih, begins_of_readItems ih,
        begins_of_readMembers ih⟩

/-!
# What is there is read

The reader follows the rules, by induction on them. Every rule uses up
characters, so that the fuel lasts.
-/

theorem length_lt_of_isNext {mark : Char} {cs rest : List Char}
    (h : IsNext mark cs rest) :
    rest.length < cs.length := by
  rcases h with ⟨blanks, _, rfl⟩
  rw [List.length_append, List.length_cons]
  omega

theorem length_lt_of_beginsString {cs : List Char} {ps : List Piece}
    {rest : List Char} (h : BeginsString cs ps rest) :
    rest.length < cs.length := by
  induction h with
  | close rest => exact Nat.lt_succ_self _
  | plain _ _ _ _ ih =>
      rw [List.length_cons]
      omega
  | letter _ _ ih =>
      rw [List.length_cons, List.length_cons]
      omega
  | unit _ _ ih =>
      simp only [List.length_cons]
      omega

theorem length_le_of_begins {part : Part} {cs : List Char} {j : Json}
    {rest : List Char} (h : Begins part cs j rest) :
    rest.length ≤ cs.length := by
  induction h with
  | blank _ _ ih => exact Nat.le_succ_of_le ih
  | null rest | true rest | false rest =>
      simp only [List.length_cons]
      omega
  | number rest _ =>
      rw [List.length_append]
      omega
  | string htext _ | broken htext _ =>
      have htext := length_lt_of_beginsString htext
      rw [List.length_cons]
      omega
  | emptyArray hnext | emptyObject hnext =>
      have hnext := length_lt_of_isNext hnext
      rw [List.length_cons]
      omega
  | array _ ih | object _ ih => exact Nat.le_succ_of_le ih
  | lastItem _ hnext ih =>
      have hnext := length_lt_of_isNext hnext
      omega
  | item _ hnext _ ih ihItems =>
      have hnext := length_lt_of_isNext hnext
      omega
  | lastMember hquote hname hcolon _ hnext ih =>
      have hquote := length_lt_of_isNext hquote
      have hname := length_lt_of_beginsString hname
      have hcolon := length_lt_of_isNext hcolon
      have hnext := length_lt_of_isNext hnext
      omega
  | member hquote hname hcolon _ hnext _ ih ihMembers =>
      have hquote := length_lt_of_isNext hquote
      have hname := length_lt_of_beginsString hname
      have hcolon := length_lt_of_isNext hcolon
      have hnext := length_lt_of_isNext hnext
      omega

theorem endsNumber_cons {c : Char} (h : isBlank c = true ∨ c ∈ [',', ']', '}'])
    (rest : List Char) :
    EndsNumber (c :: rest) := by
  intro d hd
  cases hd
  simp only [isBlank, Bool.or_eq_true, beq_iff_eq, List.mem_cons,
    List.not_mem_nil, or_false] at h
  rcases h with ((((rfl | rfl) | rfl) | rfl) | (rfl | rfl | rfl)) <;> decide

theorem endsNumber_of_isNext {mark : Char} (hmark : mark ∈ [',', ']', '}'])
    {cs rest : List Char}
    (h : IsNext mark cs rest) : EndsNumber cs := by
  rcases h with ⟨blanks, hblanks, rfl⟩
  cases blanks with
  | nil => exact endsNumber_cons (Or.inr hmark) rest
  | cons b blanks =>
      exact endsNumber_cons (Or.inl (hblanks b List.mem_cons_self)) _

theorem endsNumber_of_blank {rest : List Char}
    (h : forall c, c ∈ rest -> isBlank c = true) :
    EndsNumber rest := by
  cases rest with
  | nil =>
      intro c hc
      cases hc
  | cons c rest => exact endsNumber_cons (Or.inl (h c List.mem_cons_self)) rest

theorem readValue_skipBlank (fuel : Nat) (cs : List Char) :
    readValue fuel (skipBlank cs) = readValue fuel cs := by
  cases fuel with
  | zero => rfl
  | succ fuel => rw [readValue, readValue, skipBlank_skipBlank]

theorem readItems_skipBlank (fuel : Nat) (cs : List Char) :
    readItems fuel (skipBlank cs) = readItems fuel cs := by
  cases fuel with
  | zero => rfl
  | succ fuel => rw [readItems, readItems, readValue_skipBlank]

theorem readMembers_skipBlank (fuel : Nat) (cs : List Char) :
    readMembers fuel (skipBlank cs) = readMembers fuel cs := by
  cases fuel with
  | zero => rfl
  | succ fuel => rw [readMembers, readMembers, skipBlank_skipBlank]

theorem head?_spells {l : Literal} {text : List Char} (h : Spells l text) :
    exists c cs, text = c :: cs ∧ (c = '-' ∨ c.isDigit = true) := by
  cases h with
  | mk hwhole _ _ _ =>
      cases l.isNegative with
      | true => exact ⟨'-', _, rfl, Or.inl rfl⟩
      | false =>
          rcases hwhole.exists_cons with ⟨d, digits, hdigits, hd⟩
          rw [hdigits]
          exact ⟨d, _, rfl, Or.inr hd⟩

theorem ne_of_startsNumber {c d : Char} (hc : c = '-' ∨ c.isDigit = true)
    (hminus : d ≠ '-') (hdigit : d.isDigit = false) : c ≠ d := by
  rintro rfl
  rcases hc with hc | hc
  · exact hminus hc
  · rw [hdigit] at hc
    cases hc

theorem isBlank_of_startsNumber {c : Char} (hc : c = '-' ∨ c.isDigit = true) :
    isBlank c = false := by
  have hnot : forall d : Char, d ≠ '-' -> d.isDigit = false -> c ≠ d :=
    fun d => ne_of_startsNumber hc
  simp [isBlank, hnot ' ' (by decide) (by decide),
    hnot '\n' (by decide) (by decide), hnot '\t' (by decide) (by decide),
    hnot '\r' (by decide) (by decide)]

theorem readValue_literal {c : Char} (hc : c = '-' ∨ c.isDigit = true)
    (fuel : Nat) (cs : List Char) : readValue (fuel + 1) (c :: cs) =
      (readLiteral (c :: cs)).map (fun p => (p.1.toJson, p.2)) := by
  rw [readValue, skipBlank_cons (isBlank_of_startsNumber hc)]
  split
  case h_7 => cases readLiteral (c :: cs) <;> rfl
  all_goals
    rename_i heq
    exact absurd (List.cons.inj heq).left
      (ne_of_startsNumber hc (by decide) (by decide))

theorem skipBlank_ne_of_begins {cs : List Char} {j : Json} {rest : List Char}
    (h : Begins .value cs j rest) (tail : List Char) :
    skipBlank cs ≠ ']' :: tail := by
  generalize hpart : Part.value = part at h
  induction h with
  | blank hblank _ ih =>
      rw [skipBlank_blank hblank]
      exact ih hpart
  | number rest hspells =>
      rcases head?_spells hspells with ⟨c, text, rfl, hc⟩
      rw [List.cons_append, skipBlank_cons (isBlank_of_startsNumber hc)]
      intro heq
      exact ne_of_startsNumber hc (by decide) (by decide)
        (List.cons.inj heq).left
  | null | true | false | string | broken | emptyArray | array | emptyObject | object =>
      rw [skipBlank_cons rfl]
      intro heq
      exact absurd (List.cons.inj heq).left (by decide)
  | lastItem | item | lastMember | member => cases hpart

theorem skipBlank_ne_of_beginsItems {cs : List Char} {j : Json}
    {rest : List Char} (h : Begins .items cs j rest) (tail : List Char) :
    skipBlank cs ≠ ']' :: tail := by
  cases h with
  | lastItem hitem _ => exact skipBlank_ne_of_begins hitem tail
  | item hitem _ _ => exact skipBlank_ne_of_begins hitem tail

theorem skipBlank_ne_of_beginsMembers {cs : List Char} {j : Json}
    {rest : List Char} (h : Begins .members cs j rest) (tail : List Char) :
    skipBlank cs ≠ '}' :: tail := by
  have hquote : exists name, IsNext '"' cs name := by
    cases h with
    | lastMember hquote => exact ⟨_, hquote⟩
    | member hquote => exact ⟨_, hquote⟩
  rcases hquote with ⟨name, hquote⟩
  rw [skipBlank_of_isNext rfl hquote]
  intro heq
  exact absurd (List.cons.inj heq).left (by decide)

/-- With two units of fuel for each character of the text the part is read. -/
def IsRead : Part -> List Char -> Json -> List Char -> Prop
  | .value, cs, j, rest =>
      EndsNumber rest -> forall fuel, 2 * cs.length ≤ fuel ->
      readValue (fuel + 1) cs = some (j, rest)
  | .items, cs, j, rest => forall fuel, 2 * cs.length + 1 ≤ fuel ->
      readItems (fuel + 1) cs = some (j, rest)
  | .members, cs, j, rest => forall fuel, 2 * cs.length + 1 ≤ fuel ->
      readMembers (fuel + 1) cs = some (j, rest)

theorem isRead_number {l : Literal} {text : List Char} (h : Spells l text)
    (rest : List Char) :
    IsRead .value (text ++ rest) l.toJson rest := by
  intro hrest fuel _
  have hread := readLiteral_append h hrest
  rcases head?_spells h with ⟨c, text, rfl, hc⟩
  rw [List.cons_append] at hread ⊢
  rw [readValue_literal hc, hread]
  rfl

theorem isRead_array {cs : List Char} {j : Json} {rest : List Char}
    (h : Begins .items cs j rest) (ih : IsRead .items cs j rest) :
    IsRead .value ('[' :: cs) j rest := by
  intro _ fuel hfuel
  rw [List.length_cons] at hfuel
  cases fuel with
  | zero => omega
  | succ fuel =>
      have hread := ih fuel (by omega)
      rw [← readItems_skipBlank] at hread
      rw [readValue, skipBlank_cons rfl]
      simp only
      split
      · rename_i heq
        exact absurd heq (skipBlank_ne_of_beginsItems h _)
      · exact hread

theorem isRead_object {cs : List Char} {j : Json} {rest : List Char}
    (h : Begins .members cs j rest) (ih : IsRead .members cs j rest) :
    IsRead .value ('\x7b' :: cs) j rest := by
  intro _ fuel hfuel
  rw [List.length_cons] at hfuel
  cases fuel with
  | zero => omega
  | succ fuel =>
      have hread := ih fuel (by omega)
      rw [← readMembers_skipBlank] at hread
      rw [readValue, skipBlank_cons rfl]
      simp only
      split
      · rename_i heq
        exact absurd heq (skipBlank_ne_of_beginsMembers h _)
      · exact hread

theorem IsRead.before {cs : List Char} {j : Json} {after : List Char}
    (h : IsRead .value cs j after)
    {mark : Char} (hmark : mark ∈ [',', ']', '}']) {next : List Char}
    (hnext : IsNext mark after next) {fuel : Nat}
    (hfuel : 2 * cs.length + 1 ≤ fuel) :
    readValue fuel cs = some (j, after) := by
  cases fuel with
  | zero => omega
  | succ fuel => exact h (endsNumber_of_isNext hmark hnext) fuel (by omega)

theorem isRead_of_begins {part : Part} {cs : List Char} {j : Json}
    {rest : List Char} (h : Begins part cs j rest) : IsRead part cs j rest := by
  induction h with
  | @blank c cs j rest hblank _ ih =>
      intro hrest fuel hfuel
      rw [List.length_cons] at hfuel
      rw [← readValue_skipBlank, skipBlank_blank hblank, readValue_skipBlank]
      exact ih hrest fuel (by omega)
  | null rest | true rest | false rest =>
      intro _ fuel _
      rfl
  | number rest hspells => exact isRead_number hspells rest
  | string htext hjoin =>
      intro _ fuel _
      rw [readValue, skipBlank_cons rfl]
      simp only [readText_eq_some_iff.mpr ⟨_, htext, rfl⟩, hjoin,
        Option.map_some]
  | broken htext hjoin =>
      intro _ fuel _
      rw [readValue, skipBlank_cons rfl]
      simp only [readText_eq_some_iff.mpr ⟨_, htext, rfl⟩, hjoin,
        Option.map_none]
  | emptyArray hnext =>
      intro _ fuel _
      rw [readValue, skipBlank_cons rfl]
      simp only [skipBlank_of_isNext rfl hnext]
  | emptyObject hnext =>
      intro _ fuel _
      rw [readValue, skipBlank_cons rfl]
      simp only [skipBlank_of_isNext rfl hnext]
  | array hitems ih => exact isRead_array hitems ih
  | object hmembers ih => exact isRead_object hmembers ih
  | lastItem _ hnext ih =>
      intro fuel hfuel
      rw [readItems, ih.before (by decide) hnext hfuel]
      simp only [skipBlank_of_isNext rfl hnext]
  | item hitem hnext _ ih ihItems =>
      intro fuel hfuel
      have hafter := length_le_of_begins hitem
      have hlength := length_lt_of_isNext hnext
      cases fuel with
      | zero => omega
      | succ fuel =>
          rw [readItems, ih.before (by decide) hnext hfuel]
          simp only [skipBlank_of_isNext rfl hnext, ihItems fuel (by omega)]
  | @lastMember cs name ps colon content value after rest hquote hname hcolon _ hnext ih =>
      intro fuel hfuel
      have hnameLength := length_lt_of_isNext hquote
      have hcolonLength := length_lt_of_beginsString hname
      have hcontentLength := length_lt_of_isNext hcolon
      have hcontent : 2 * content.length + 1 ≤ fuel := by omega
      rw [readMembers]
      simp only [skipBlank_of_isNext rfl hquote,
        readText_eq_some_iff.mpr ⟨_, hname, rfl⟩,
        skipBlank_of_isNext rfl hcolon, ih.before (by decide) hnext hcontent,
        skipBlank_of_isNext rfl hnext]
  | @member cs name ps colon content value after next members rest hquote hname
      hcolon hvalue hnext _ ih ihMembers =>
      intro fuel hfuel
      have hnameLength := length_lt_of_isNext hquote
      have hcolonLength := length_lt_of_beginsString hname
      have hcontentLength := length_lt_of_isNext hcolon
      have hafterLength := length_le_of_begins hvalue
      have hnextLength := length_lt_of_isNext hnext
      have hcontent : 2 * content.length + 1 ≤ fuel := by omega
      cases fuel with
      | zero => omega
      | succ fuel =>
          rw [readMembers]
          simp only [skipBlank_of_isNext rfl hquote,
            readText_eq_some_iff.mpr ⟨_, hname, rfl⟩,
            skipBlank_of_isNext rfl hcolon,
            ih.before (by decide) hnext hcontent,
            skipBlank_of_isNext rfl hnext, ihMembers fuel (by omega)]

/-!
# Whole texts
-/

theorem readFirst_of_begins {cs : List Char} {j : Json} {rest : List Char}
    (h : Begins .value cs j rest) (hrest : EndsNumber rest) :
    readFirst cs = some (j, rest) :=
  isRead_of_begins h hrest (2 * cs.length + 1) (Nat.le_succ _)

theorem begins_of_readFirst {cs : List Char} {j : Json} {rest : List Char}
    (h : readFirst cs = some (j, rest)) : Begins .value cs j rest :=
  (readsSoundly (fuelFor cs)).value h

theorem skipBlank_isEmpty_iff {cs : List Char} :
    (skipBlank cs).isEmpty = true <-> forall c, c ∈ cs -> isBlank c = true := by
  induction cs with
  | nil => simp [skipBlank]
  | cons c cs ih =>
      rw [List.forall_mem_cons]
      cases hblank : isBlank c with
      | true => simp [skipBlank_blank hblank, ih]
      | false => simp [skipBlank_cons hblank]

/-- The reader finds the value of every text that stands for one, and of no
other. -/
theorem parse?_eq_some_iff {text : String} {j : Json} :
    parse? text = some j <-> IsDocument text j := by
  unfold parse? parseChars
  constructor
  · intro h
    split at h
    · cases h
    · rename_i value rest hread
      split at h
      · rename_i hblank
        cases h
        exact ⟨rest, begins_of_readFirst hread, skipBlank_isEmpty_iff.mp hblank⟩
      · cases h
  · rintro ⟨rest, hbegins, hblank⟩
    rw [readFirst_of_begins hbegins (endsNumber_of_blank hblank)]
    simp only [skipBlank_isEmpty_iff.mpr hblank, if_true]

end Json
end FairLease
