import FairLease.Text.Split
import FairLease.Url.Percent

/-!
# Form data read back

A server splits form data at its separators and decodes the parts. It finds the
names and values that were written.
-/

namespace FairLease

/-!
# Splitting

Two texts with a separator between them have the parts of both.
-/

theorem Text.splitAt_ne_nil (separator : Char) (cs : List Char) :
    splitAt separator cs ≠ [] := by
  cases cs with
  | nil => exact List.cons_ne_nil _ _
  | cons c rest =>
      unfold splitAt
      split
      · exact List.cons_ne_nil _ _
      · split <;> exact List.cons_ne_nil _ _

theorem Text.splitAt_append (separator : Char) (a b : List Char) :
    splitAt separator (a ++ separator :: b) =
      splitAt separator a ++ splitAt separator b := by
  induction a with
  | nil =>
      show splitAt separator (separator :: b) = [] :: splitAt separator b
      rw [splitAt, if_pos rfl]
  | cons c a ih =>
      rw [List.cons_append, splitAt, splitAt, ih]
      by_cases hc : c = separator
      · rw [if_pos hc, if_pos hc, List.cons_append]
      · rw [if_neg hc, if_neg hc]
        cases h : splitAt separator a with
        | nil => exact absurd h (splitAt_ne_nil separator a)
        | cons part parts => rfl

theorem Text.splitAt_of_notMem {separator : Char} {cs : List Char}
    (h : separator ∉ cs) :
    splitAt separator cs = [cs] := by
  induction cs with
  | nil => rfl
  | cons c rest ih =>
      rw [List.mem_cons, not_or] at h
      rw [splitAt, if_neg (Ne.symm h.left), ih h.right]

namespace Url

/-!
# Characters

Every byte of an encoded character is read back from its two digits.
-/

def unplus (c : Char) : Char :=
  if c = '+' then ' ' else c

/-- The text that a part of form data stands for, if it is one. -/
def readFormText (cs : List Char) : Option String :=
  String.fromUTF8? (percentDecode (cs.map unplus)).toByteArray

theorem hexDigit?_upperHex {n : Nat} (h : n < 16) :
    Text.hexDigit? (upperHex n) = some n := by
  revert n
  decide

theorem unplus_upperHex {n : Nat} (h : n < 16) :
    unplus (upperHex n) = upperHex n := by
  revert n
  decide

theorem percentDecode_percentByte (b : UInt8) (rest : List Char) :
    percentDecode (percentByte b ++ rest) = b :: percentDecode rest := by
  have hb : b.toNat < 256 := b.toNat_lt
  have hhigh : b.toNat / 16 < 16 := by omega
  have hlow : b.toNat % 16 < 16 := Nat.mod_lt _ (by decide)
  have hvalue : 16 * (b.toNat / 16) + b.toNat % 16 = b.toNat := by omega
  show percentDecode
      ('%' :: upperHex (b.toNat / 16) :: upperHex (b.toNat % 16) :: rest) = _
  rw [percentDecode, hexDigit?_upperHex hhigh, hexDigit?_upperHex hlow]
  show UInt8.ofNat (16 * (b.toNat / 16) + b.toNat % 16) ::
      percentDecode rest = _
  rw [hvalue, UInt8.ofNat_toNat]

theorem percentDecode_flatMap_percentByte (bytes : List UInt8)
    (rest : List Char) :
    percentDecode (bytes.flatMap percentByte ++ rest) =
      bytes ++ percentDecode rest := by
  induction bytes with
  | nil => rfl
  | cons b bytes ih =>
      rw [List.flatMap_cons, List.append_assoc, percentDecode_percentByte, ih,
        List.cons_append]

theorem map_unplus_percentByte (b : UInt8) :
    (percentByte b).map unplus = percentByte b := by
  have hb : b.toNat < 256 := b.toNat_lt
  show ['%', unplus (upperHex (b.toNat / 16)),
      unplus (upperHex (b.toNat % 16))] = _
  rw [unplus_upperHex (by omega), unplus_upperHex (Nat.mod_lt _ (by decide))]
  rfl

theorem map_unplus_percentChar (c : Char) :
    (percentChar c).map unplus = percentChar c := by
  rw [percentChar, List.map_flatMap]
  exact congrArg (fun f => (String.utf8EncodeChar c).flatMap f)
    (funext map_unplus_percentByte)

theorem percentDecode_cons {c : Char} (h : c ≠ '%') (rest : List Char) :
    percentDecode (c :: rest) = String.utf8EncodeChar c ++
      percentDecode rest := by
  rw [percentDecode]
  intro a b tail hc
  exact absurd hc h

theorem percentDecode_formChar (c : Char) (rest : List Char) :
    percentDecode ((formChar c).map unplus ++ rest) =
      String.utf8EncodeChar c ++ percentDecode rest := by
  unfold formChar
  by_cases hspace : c = ' '
  · rw [if_pos hspace, hspace]
    exact percentDecode_cons (by decide) rest
  · rw [if_neg hspace]
    cases hsafe : isFormSafe c with
    | false =>
        rw [if_neg Bool.false_ne_true, map_unplus_percentChar]
        exact percentDecode_flatMap_percentByte _ rest
    | true =>
        have hplus : c ≠ '+' := by
          rintro rfl
          exact absurd hsafe (by decide)
        have hpercent : c ≠ '%' := by
          rintro rfl
          exact absurd hsafe (by decide)
        rw [if_pos rfl]
        show percentDecode (unplus c :: rest) = _
        rw [unplus, if_neg hplus, percentDecode_cons hpercent]

theorem percentDecode_flatMap_formChar (cs : List Char) :
    percentDecode ((cs.flatMap formChar).map unplus) =
      cs.flatMap String.utf8EncodeChar := by
  induction cs with
  | nil => rfl
  | cons c cs ih =>
      rw [List.flatMap_cons, List.map_append, percentDecode_formChar, ih,
        List.flatMap_cons]

theorem fromUTF8?_toByteArray (s : String) :
    String.fromUTF8? s.toByteArray = some s := by
  rw [String.fromUTF8?, dif_pos s.isValidUTF8]
  rfl

theorem readFormText_formText (s : String) :
    readFormText (formText s) = some s := by
  have hbytes : (s.toList.flatMap String.utf8EncodeChar).toByteArray =
      s.toByteArray :=
    String.utf8Encode_toList
  rw [readFormText, formText, percentDecode_flatMap_formChar, hbytes,
    fromUTF8?_toByteArray]

/-!
# Separators

No separator occurs in an encoded part, so that the parts are found again.
-/

theorem notMem_formText {d : Char} (hpercent : d ≠ '%') (hplus : d ≠ '+')
    (hsafe : isFormSafe d = false) (hdigit : forall n, n < 16 -> upperHex n ≠ d)
    (s : String) :
    d ∉ formText s := by
  intro hd
  rcases List.mem_flatMap.mp hd with ⟨c, _, hc⟩
  unfold formChar at hc
  split at hc
  · exact hplus (List.mem_singleton.mp hc)
  · split at hc
    · rename_i hcsafe
      rw [← List.mem_singleton.mp hc, hsafe] at hcsafe
      cases hcsafe
    · rcases List.mem_flatMap.mp hc with ⟨b, _, hb⟩
      have hbyte : b.toNat < 256 := b.toNat_lt
      simp only [percentByte, List.mem_cons, List.not_mem_nil, or_false] at hb
      rcases hb with hb | hb | hb
      · exact hpercent hb
      · exact hdigit _ (by omega) hb.symm
      · exact hdigit _ (Nat.mod_lt _ (by decide)) hb.symm

theorem and_notMem_formText (s : String) : '&' ∉ formText s :=
  notMem_formText (by decide) (by decide) (by decide) (by decide) s

theorem equals_notMem_formText (s : String) : '=' ∉ formText s :=
  notMem_formText (by decide) (by decide) (by decide) (by decide) s

def readPair (part : List Char) : Option (String × String) := do
  let name ← readFormText (part.takeWhile (· != '='))
  let value ← readFormText ((part.dropWhile (· != '=')).drop 1)
  return (name, value)

/-- The names and values that form data holds. Empty parts do not count. -/
def readForm (cs : List Char) : List (String × String) :=
  ((Text.splitAt '&' cs).filter (!·.isEmpty)).filterMap readPair

theorem readPair_of_pair (p : String × String) :
    readPair (formText p.1 ++ '=' :: formText p.2) = some p := by
  have hname : forall c, c ∈ formText p.1 -> (c != '=') = true := by
    intro c hc
    rw [bne_iff_ne]
    rintro rfl
    exact equals_notMem_formText p.1 hc
  rw [readPair, List.takeWhile_append_of_pos hname,
    List.dropWhile_append_of_pos hname, List.takeWhile_cons,
    List.dropWhile_cons]
  show (readFormText (formText p.1 ++ [])).bind (fun name =>
    (readFormText (formText p.2)).bind fun value => some (name, value)) = _
  rw [List.append_nil, readFormText_formText, readFormText_formText]
  rfl

theorem readForm_append (a b : List Char) :
    readForm (a ++ '&' :: b) = readForm a ++ readForm b := by
  rw [readForm, Text.splitAt_append, List.filter_append, List.filterMap_append]
  rfl

theorem readForm_pair (p : String × String) :
    readForm (formText p.1 ++ '=' :: formText p.2) = [p] := by
  have hand : '&' ∉ formText p.1 ++ '=' :: formText p.2 := by
    rw [List.mem_append, List.mem_cons]
    rintro (h | h | h)
    · exact and_notMem_formText p.1 h
    · exact absurd h (by decide)
    · exact and_notMem_formText p.2 h
  have hpair := readPair_of_pair p
  rw [readForm, Text.splitAt_of_notMem hand]
  simp [hpair]

/-- Form data is read as what it was written for. -/
theorem readForm_formPairs (pairs : List (String × String)) :
    readForm (formPairs pairs) = pairs := by
  induction pairs with
  | nil => rfl
  | cons p rest ih =>
      cases rest with
      | nil => exact readForm_pair p
      | cons q rest =>
          rw [formPairs]
          · rw [readForm_append, readForm_pair, ih]
            rfl
          · exact List.cons_ne_nil q rest

end Url
end FairLease
