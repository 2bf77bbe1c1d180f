import FairLease.Json.Printer
import FairLease.Proofs.Json.Grammar
import FairLease.Proofs.Text.Digits

/-!
# JSON texts are read back

What the printer writes for a value is a text of that value, whatever follows
it. Only a number needs to be told where it ends.
-/

namespace FairLease
namespace Json

/-!
# Strings

Each character is written as one piece, whether it is escaped or not.
-/

theorem hexUnit_hexDigit {n : Nat} (h : n < 32) :
    hexUnit '0' '0' (hexDigit (n / 16)) (hexDigit (n % 16)) = some n := by
  revert n
  decide

theorem escape_cases (c : Char) :
    (exists e, escape c = ['\\', e] ∧ unescape e = some c) ∨
    (c.toNat < 32 ∧
      escape c = ['\\', 'u', '0', '0', hexDigit (c.toNat / 16),
        hexDigit (c.toNat % 16)]) ∨
    (c ≠ '"' ∧ c ≠ '\\' ∧ ¬ c.toNat < 32 ∧ escape c = [c]) := by
  have hnat : forall n, c.toNat = n -> some (Char.ofNat n) = some c := by
    intro n hn
    rw [← hn, Char.ofNat_toNat]
  unfold escape
  by_cases hquote : c = '"'
  · exact Or.inl ⟨'"', if_pos hquote, congrArg some hquote.symm⟩
  by_cases hslash : c = '\\'
  · exact Or.inl ⟨'\\', by simp [hslash], congrArg some hslash.symm⟩
  rw [if_neg hquote, if_neg hslash]
  by_cases hline : c = '\n'
  · exact Or.inl ⟨'n', if_pos hline, congrArg some hline.symm⟩
  by_cases hreturn : c = '\r'
  · exact Or.inl ⟨'r', by simp [hreturn], congrArg some hreturn.symm⟩
  by_cases htab : c = '\t'
  · exact Or.inl ⟨'t', by simp [htab], congrArg some htab.symm⟩
  rw [if_neg hline, if_neg hreturn, if_neg htab]
  by_cases hback : c.toNat = 8
  · exact Or.inl ⟨'b', if_pos hback, hnat 8 hback⟩
  by_cases hfeed : c.toNat = 12
  · exact Or.inl ⟨'f', by simp [hfeed], hnat 12 hfeed⟩
  rw [if_neg hback, if_neg hfeed]
  by_cases hcontrol : c.toNat < 32
  · exact Or.inr (Or.inl ⟨hcontrol, if_pos hcontrol⟩)
  · exact Or.inr (Or.inr ⟨hquote, hslash, hcontrol, if_neg hcontrol⟩)

theorem beginsString_escape (c : Char) {cs : List Char} {ps : List Piece}
    {rest : List Char} (h : BeginsString cs ps rest) :
    BeginsString (escape c ++ cs) (.char c :: ps) rest := by
  rcases escape_cases c with ⟨e, hescape, hletter⟩ | ⟨hcontrol, hescape⟩ |
    ⟨hquote, hslash, hcontrol, hescape⟩
  · rw [hescape]
    exact .letter hletter h
  · have hunit := BeginsString.unit (hexUnit_hexDigit hcontrol) h
    have hpiece : Piece.ofUnit c.toNat = .char c := by
      rw [Piece.ofUnit, if_neg (by omega), if_neg (by omega), Char.ofNat_toNat]
    rw [hpiece] at hunit
    rw [hescape]
    exact hunit
  · rw [hescape]
    exact .plain hquote hslash hcontrol h

theorem beginsString_flatMap_escape (cs rest : List Char) :
    BeginsString (cs.flatMap escape ++ '"' :: rest) (cs.map .char) rest := by
  induction cs with
  | nil => exact .close rest
  | cons c cs ih =>
      rw [List.flatMap_cons, List.append_assoc]
      exact beginsString_escape c ih

theorem join_map_char (cs : List Char) : join (cs.map .char) = some cs := by
  induction cs with
  | nil => rfl
  | cons c cs ih => rw [List.map_cons, join, ih]; rfl

/-!
# Numbers

The digits of a number are a literal, with or without a minus sign.
-/

theorem spells_natChars (isNegative : Bool) (n : Nat) :
    Spells ⟨isNegative, natChars n, [], none⟩
      (signChars isNegative ++ natChars n) := by
  have hdigits : IsDigits (natChars n) :=
    ⟨Nat.toDigits_ne_nil, Text.all_isDigit_toDigits n⟩
  have hzero : ¬ ((natChars n).head? = some '0' ∧ 1 < (natChars n).length) := by
    intro h
    rcases Nat.eq_zero_or_pos n with rfl | hpos
    · exact absurd h.right (by decide)
    · exact Text.head?_toDigits hpos h.left
  have hspells :=
    Spells.mk (l :=
      ⟨isNegative, natChars n, [], none⟩) hdigits hzero .none .none
  simpa only [List.append_nil] using hspells

theorem naturalOf_natChars (n : Nat) : Literal.naturalOf (natChars n) = n :=
  Text.digitsValue_toDigits n

theorem begins_natural {n : Nat} (h : n < wordSize 64) (rest : List Char) :
    Begins .value (natChars n ++ rest) (.number (.natural n)) rest := by
  have hbegins := Begins.number rest (spells_natChars false n)
  simp only [Literal.toJson, naturalOf_natChars, if_neg Bool.false_ne_true,
    if_pos h] at hbegins
  exact hbegins

theorem begins_negative {n : Nat} (hpos : 0 < n) (h : n ≤ wordSize 63)
    (rest : List Char) :
    Begins .value ('-' :: natChars n ++ rest) (.number (.negative n)) rest := by
  have hbegins := Begins.number rest (spells_natChars true n)
  simp only [Literal.toJson, naturalOf_natChars, if_true,
    if_pos (And.intro hpos h)] at hbegins
  exact hbegins

/-!
# Values

Values that come from a text without decimal fractions and broken strings are
printed so that they are read again.
-/

inductive IsPlain : Json -> Prop where
  | null : IsPlain null
  | bool (b : Bool) : IsPlain (bool b)
  | natural {n : Nat} : n < wordSize 64 -> IsPlain (number (.natural n))
  | negative {n : Nat} : 0 < n -> n ≤ wordSize 63 ->
      IsPlain (number (.negative n))
  | string (s : String) : IsPlain (string s)
  | array {items : List Json} : (forall item, item ∈ items -> IsPlain item) ->
      IsPlain (array items)
  | object {members : List (String × Json)} :
      (forall m, m ∈ members -> IsPlain m.2) -> IsPlain (object members)

theorem isPlain_ofOption {α : Type} {f : α -> Json} {o : Option α}
    (h : forall a, o = some a -> (f a).IsPlain) : (ofOption f o).IsPlain := by
  cases o with
  | none => exact .null
  | some a => exact h a rfl

/-- The value is what its text begins with, whatever follows. -/
def IsWritten (j : Json) : Prop :=
  forall rest, Begins .value (j.chars ++ rest) j rest

theorem isNext_self (mark : Char) (rest : List Char) :
    IsNext mark (mark :: rest) rest :=
  ⟨[], fun _ hb => absurd hb List.not_mem_nil, rfl⟩

theorem begins_items {items : List Json}
    (h : forall item, item ∈ items -> item.IsWritten) {item : Json}
    (hitem : item.IsWritten) (rest : List Char) :
    Begins .items (item.chars ++ itemsChars items ++ rest)
      (.array (item :: items)) rest := by
  induction items generalizing item with
  | nil =>
      rw [itemsChars, List.append_assoc]
      exact .lastItem (hitem _) (isNext_self ']' rest)
  | cons next items ih =>
      have hitems :=
        ih (fun j hj => h j (List.mem_cons_of_mem next hj))
          (h next List.mem_cons_self)
      rw [itemsChars, List.append_assoc]
      exact .item (hitem _) (isNext_self ',' _) hitems

def memberChars (m : String × Json) : List Char :=
  quote m.1.toList ++ ':' :: m.2.chars

theorem memberChars_append (m : String × Json) (rest : List Char) :
    memberChars m ++ rest =
    '"' :: (m.1.toList.flatMap escape ++ '"' :: ':' ::
      (m.2.chars ++ rest)) := by
  simp [memberChars, quote]

theorem membersChars_cons (m : String × Json) (members : List (String × Json)) :
    membersChars (m :: members) =
      ',' :: (memberChars m ++ membersChars members) := by
  simp [membersChars, memberChars]

theorem name_of_pieces (name : String) :
    (join (name.toList.map .char)).map String.ofList = some name := by
  rw [join_map_char, Option.map_some, String.ofList_toList]

theorem begins_members {members : List (String × Json)}
    (h : forall m, m ∈ members -> m.2.IsWritten) {m : String × Json}
    (hm : m.2.IsWritten) (rest : List Char) :
    Begins .members (memberChars m ++ membersChars members ++ rest)
      (.object (m :: members))
      rest := by
  have hname := fun tail => beginsString_flatMap_escape m.1.toList (':' :: tail)
  induction members generalizing m with
  | nil =>
      have hlast :=
        Begins.lastMember (isNext_self '"' _) (hname _) (isNext_self ':' _)
        (hm ('}' :: rest)) (isNext_self '}' rest)
      rw [name_of_pieces] at hlast
      rw [membersChars, List.append_assoc, memberChars_append]
      exact hlast
  | cons next members ih =>
      have hnext := fun tail =>
        beginsString_flatMap_escape next.1.toList (':' :: tail)
      have hmembers := ih (fun j hj => h j (List.mem_cons_of_mem next hj))
        (h next List.mem_cons_self) hnext
      have hmember :=
        Begins.member (isNext_self '"' _) (hname _) (isNext_self ':' _) (hm _)
        (isNext_self ',' _) hmembers
      rw [name_of_pieces] at hmember
      rw [membersChars_cons, List.append_assoc, memberChars_append]
      exact hmember

theorem isWritten_string (s : String) : (string s).IsWritten := by
  intro rest
  have hbegins := Begins.string (beginsString_flatMap_escape s.toList rest)
    (join_map_char s.toList)
  rw [String.ofList_toList] at hbegins
  simpa [chars, quote] using hbegins

theorem isWritten_array {items : List Json}
    (h : forall item, item ∈ items -> item.IsWritten) :
    (array items).IsWritten := by
  intro rest
  cases items with
  | nil => exact .emptyArray (isNext_self ']' rest)
  | cons item items =>
      exact .array (begins_items (fun j hj =>
        h j (List.mem_cons_of_mem item hj)) (h item List.mem_cons_self) rest)

theorem isWritten_object {members : List (String × Json)}
    (h : forall m, m ∈ members -> m.2.IsWritten) :
    (object members).IsWritten := by
  intro rest
  cases members with
  | nil => exact .emptyObject (isNext_self '}' rest)
  | cons m members =>
      have hmembers :=
        begins_members (fun j hj => h j (List.mem_cons_of_mem m hj))
        (h m List.mem_cons_self) rest
      have htext : (object (m :: members)).chars =
          '\x7b' :: (memberChars m ++ membersChars members) := by
        simp [chars, memberChars]
      rw [htext]
      exact .object hmembers

theorem isWritten_of_isPlain {j : Json} (h : j.IsPlain) : j.IsWritten := by
  induction h with
  | null => exact .null
  | bool b =>
      cases b with
      | true => exact .true
      | false => exact .false
  | natural hn => exact begins_natural hn
  | negative hpos hn => exact begins_negative hpos hn
  | string s => exact isWritten_string s
  | array _ ih => exact isWritten_array ih
  | object _ ih => exact isWritten_object ih

theorem isDocument_compact {j : Json} (h : j.IsPlain) :
    IsDocument j.compact j := by
  refine ⟨[], ?_, fun c hc => absurd hc List.not_mem_nil⟩
  have hbegins := isWritten_of_isPlain h []
  rw [List.append_nil] at hbegins
  rwa [compact, String.toList_ofList]

end Json
end FairLease
