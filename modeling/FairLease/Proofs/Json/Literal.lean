import FairLease.Json.Parser

/-!
# Numbers and strings in JSON texts

The literals of JSON as texts. The reader takes a literal from the front of
every text that begins with one, and of no other.
-/

namespace FairLease
namespace Json

/-!
# Numbers

A literal is a sign, digits without a leading zero, and an optional fraction and
exponent. It ends where the text cannot go on with it.
-/

structure IsDigits (digits : List Char) : Prop where
  notEmpty : digits ≠ []
  all : digits.all Char.isDigit = true

theorem IsDigits.exists_cons {digits : List Char} (h : IsDigits digits) :
    exists d rest, digits = d :: rest ∧ d.isDigit = true := by
  cases digits with
  | nil => exact absurd rfl h.notEmpty
  | cons d rest =>
      exact ⟨d, rest, rfl, List.all_eq_true.mp h.all d List.mem_cons_self⟩

inductive IsExponent : Option (Bool × List Char) -> List Char -> Prop where
  | none : IsExponent none []
  | plain {letter : Char} {digits : List Char} : letter = 'e' ∨ letter = 'E' ->
      IsDigits digits ->
      IsExponent (some (false, digits)) (letter :: digits)
  | plus {letter : Char} {digits : List Char} : letter = 'e' ∨ letter = 'E' ->
      IsDigits digits ->
      IsExponent (some (false, digits)) (letter :: '+' :: digits)
  | minus {letter : Char} {digits : List Char} : letter = 'e' ∨ letter = 'E' ->
      IsDigits digits ->
      IsExponent (some (true, digits)) (letter :: '-' :: digits)

inductive IsFraction : List Char -> List Char -> Prop where
  | none : IsFraction [] []
  | some {digits : List Char} : IsDigits digits ->
      IsFraction digits ('.' :: digits)

def signChars (isNegative : Bool) : List Char :=
  if isNegative then ['-'] else []

inductive Spells : Literal -> List Char -> Prop where
  | mk {l : Literal} {fraction exponent : List Char} : IsDigits l.whole ->
      ¬ (l.whole.head? = some '0' ∧ 1 < l.whole.length) ->
      IsFraction l.fraction fraction ->
      IsExponent l.exponent exponent ->
      Spells l (signChars l.isNegative ++ (l.whole ++ (fraction ++ exponent)))

def EndsNumber (rest : List Char) : Prop :=
  forall c, rest.head? = some c -> c.isDigit = false ∧ c ≠ '.' ∧
    c ≠ 'e' ∧ c ≠ 'E'

def EndsDigits (rest : List Char) : Prop :=
  forall c, rest.head? = some c -> c.isDigit = false

theorem EndsNumber.endsDigits {rest : List Char} (h : EndsNumber rest) :
    EndsDigits rest :=
  fun c hc => (h c hc).left

theorem endsDigits_cons {c : Char} (h : c.isDigit = false) (rest : List Char) :
    EndsDigits (c :: rest) := by
  intro d hd
  cases hd
  exact h

theorem takeDigits_append {digits rest : List Char}
    (hdigits : digits.all Char.isDigit = true) (hrest : EndsDigits rest) :
    takeDigits (digits ++ rest) = (digits, rest) := by
  have hall := List.all_eq_true.mp hdigits
  unfold takeDigits
  rw [List.takeWhile_append_of_pos hall, List.dropWhile_append_of_pos hall]
  cases rest with
  | nil => rw [List.takeWhile_nil, List.append_nil, List.dropWhile_nil]
  | cons c rest =>
      have hc := hrest c rfl
      rw [List.takeWhile_cons, List.dropWhile_cons, hc]
      simp

theorem readDigits_append {digits rest : List Char} (h : IsDigits digits)
    (hrest : EndsDigits rest) :
    readDigits (digits ++ rest) = some (digits, rest) := by
  rw [readDigits, takeDigits_append h.all hrest,
    List.isEmpty_eq_false_iff.mpr h.notEmpty]
  rfl

theorem eq_append_of_readDigits {cs digits rest : List Char}
    (h : readDigits cs = some (digits, rest)) :
    IsDigits digits ∧ cs = digits ++ rest := by
  unfold readDigits at h
  split at h
  · cases h
  · rename_i hne
    cases h
    refine ⟨⟨?_, List.all_takeWhile⟩, List.takeWhile_append_dropWhile.symm⟩
    rw [List.isEmpty_iff] at hne
    exact hne

theorem readWhole_eq_some_iff {cs whole rest : List Char} :
    readWhole cs = some (whole, rest) <->
      readDigits cs = some (whole, rest) ∧
        ¬ (whole.head? = some '0' ∧ 1 < whole.length) := by
  unfold readWhole
  cases readDigits cs with
  | none => simp
  | some p =>
      rcases p with ⟨digits, after⟩
      show (if digits.head? = some '0' ∧ 1 < digits.length then none
          else some (digits, after)) =
        some (whole, rest) <-> _
      split
      · rename_i hzero
        constructor
        · intro h
          cases h
        · rintro ⟨h, hnot⟩
          cases h
          exact absurd hzero hnot
      · rename_i hzero
        constructor
        · intro h
          cases h
          exact ⟨rfl, hzero⟩
        · rintro ⟨h, _⟩
          exact h

theorem readFraction_append {fraction text rest : List Char}
    (h : IsFraction fraction text) (hrest : EndsDigits rest)
    (hdot : rest.head? ≠ some '.') :
    readFraction (text ++ rest) = some (fraction, rest) := by
  cases h with
  | none =>
      unfold readFraction
      split
      · rename_i heq
        rw [List.nil_append] at heq
        exact absurd (by rw [heq]; rfl) hdot
      · rfl
  | some hdigits => exact readDigits_append hdigits hrest

theorem eq_append_of_readFraction {cs fraction rest : List Char}
    (h : readFraction cs = some (fraction, rest)) :
    exists text, IsFraction fraction text ∧ cs = text ++ rest := by
  unfold readFraction at h
  split at h
  · rename_i after
    rcases eq_append_of_readDigits h with ⟨hdigits, hafter⟩
    refine ⟨'.' :: fraction, .some hdigits, ?_⟩
    rw [hafter, List.cons_append]
  · cases h
    exact ⟨[], .none, rfl⟩

theorem readSigned_append {digits rest : List Char} (h : IsDigits digits)
    (hrest : EndsDigits rest) :
    readSigned (digits ++ rest) = some ((false, digits), rest) := by
  have hread := readDigits_append h hrest
  rcases h.exists_cons with ⟨d, digits, rfl, hd⟩
  rw [List.cons_append] at hread ⊢
  unfold readSigned
  split
  · rename_i heq
    rw [(List.cons.inj heq).left] at hd
    exact absurd hd (by decide)
  · rename_i heq
    rw [(List.cons.inj heq).left] at hd
    exact absurd hd (by decide)
  · rw [hread]
    rfl

theorem readExponent_append {exponent : Option (Bool × List Char)}
    {text rest : List Char} (h : IsExponent exponent text)
    (hrest : EndsNumber rest) :
    readExponent (text ++ rest) = some (exponent, rest) := by
  cases h with
  | none =>
      cases rest with
      | nil => rfl
      | cons c rest =>
          have hc := (hrest c rfl).right.right
          rw [List.nil_append, readExponent, if_neg (by simp [hc])]
  | plain hletter hdigits =>
      rw [List.cons_append, readExponent, if_pos hletter,
        readSigned_append hdigits hrest.endsDigits]
      rfl
  | plus hletter hdigits =>
      rw [List.cons_append, List.cons_append, readExponent, if_pos hletter,
        readSigned, readDigits_append hdigits hrest.endsDigits]
      rfl
  | minus hletter hdigits =>
      rw [List.cons_append, List.cons_append, readExponent, if_pos hletter,
        readSigned, readDigits_append hdigits hrest.endsDigits]
      rfl

theorem eq_append_of_readSigned {cs : List Char} {exponent : Bool × List Char}
    {rest : List Char} (h : readSigned cs = some (exponent, rest))
    {letter : Char} (hletter : letter = 'e' ∨ letter = 'E') :
    exists text, IsExponent (some exponent) (letter :: text) ∧
      cs = text ++ rest := by
  unfold readSigned at h
  split at h
  · rcases Option.map_eq_some_iff.mp h with ⟨⟨digits, after⟩, hread, heq⟩
    cases heq
    rcases eq_append_of_readDigits hread with ⟨hdigits, rfl⟩
    exact ⟨'+' :: digits, .plus hletter hdigits, rfl⟩
  · rcases Option.map_eq_some_iff.mp h with ⟨⟨digits, after⟩, hread, heq⟩
    cases heq
    rcases eq_append_of_readDigits hread with ⟨hdigits, rfl⟩
    exact ⟨'-' :: digits, .minus hletter hdigits, rfl⟩
  · rcases Option.map_eq_some_iff.mp h with ⟨⟨digits, after⟩, hread, heq⟩
    cases heq
    rcases eq_append_of_readDigits hread with ⟨hdigits, rfl⟩
    exact ⟨digits, .plain hletter hdigits, rfl⟩

theorem eq_append_of_readExponent {cs : List Char}
    {exponent : Option (Bool × List Char)} {rest : List Char}
    (h : readExponent cs = some (exponent, rest)) :
    exists text, IsExponent exponent text ∧ cs = text ++ rest := by
  cases cs with
  | nil =>
      cases h
      exact ⟨[], .none, rfl⟩
  | cons c cs =>
      rw [readExponent] at h
      split at h
      · rename_i hletter
        rcases Option.map_eq_some_iff.mp h with ⟨⟨signed, after⟩, hread, heq⟩
        cases heq
        rcases eq_append_of_readSigned hread hletter with ⟨text, hexponent, rfl⟩
        exact ⟨c :: text, hexponent, rfl⟩
      · cases h
        exact ⟨[], .none, rfl⟩

theorem head?_exponent {exponent : Option (Bool × List Char)} {text : List Char}
    (h : IsExponent exponent text) {rest : List Char}
    (hrest : EndsNumber rest) :
    EndsDigits (text ++ rest) ∧ (text ++ rest).head? ≠ some '.' := by
  have hletter : forall letter tail, letter = 'e' ∨ letter = 'E' ->
      EndsDigits (letter :: tail) ∧ (letter :: tail).head? ≠ some '.' := by
    rintro letter tail
      (rfl | rfl) <;> exact ⟨endsDigits_cons (by decide) tail, by simp⟩
  cases h with
  | none =>
      exact ⟨hrest.endsDigits, fun hdot => (hrest '.' hdot).right.left rfl⟩
  | plain h _ => exact hletter _ _ h
  | plus h _ => exact hletter _ _ h
  | minus h _ => exact hletter _ _ h

theorem endsDigits_fraction {fraction text : List Char}
    (h : IsFraction fraction text)
    {rest : List Char} (hrest : EndsDigits rest) :
    EndsDigits (text ++ rest) := by
  cases h with
  | none => exact hrest
  | some _ => exact endsDigits_cons (by decide) _

theorem readUnsigned_append {l : Literal} {fraction exponent : List Char}
    (hwhole : IsDigits l.whole)
    (hzero : ¬ (l.whole.head? = some '0' ∧ 1 < l.whole.length))
    (hfraction : IsFraction l.fraction fraction)
    (hexponent : IsExponent l.exponent exponent) {rest : List Char}
    (hrest : EndsNumber rest) :
    readUnsigned l.isNegative (l.whole ++ (fraction ++ exponent) ++ rest) =
      some (l, rest) := by
  rcases head?_exponent hexponent hrest with ⟨hdigits, hdot⟩
  have hread : readWhole (l.whole ++ (fraction ++ (exponent ++ rest))) =
      some (l.whole, fraction ++ (exponent ++ rest)) :=
    readWhole_eq_some_iff.mpr
      ⟨readDigits_append hwhole (endsDigits_fraction hfraction hdigits), hzero⟩
  rw [List.append_assoc, List.append_assoc, readUnsigned, hread]
  show (readFraction (fraction ++ (exponent ++ rest))).bind _ = _
  rw [readFraction_append hfraction hdigits hdot]
  show (readExponent (exponent ++ rest)).bind _ = _
  rw [readExponent_append hexponent hrest]
  rfl

/-- The whole literal is read if the number ends where the literal does. -/
theorem readLiteral_append {l : Literal} {text : List Char} (h : Spells l text)
    {rest : List Char} (hrest : EndsNumber rest) :
    readLiteral (text ++ rest) = some (l, rest) := by
  cases h with
  | @mk fraction exponent hwhole hzero hfraction hexponent =>
      have hread := readUnsigned_append hwhole hzero hfraction hexponent hrest
      cases hnegative : l.isNegative with
      | true =>
          rw [hnegative] at hread
          exact hread
      | false =>
          rw [hnegative] at hread
          rw [← hread]
          rcases hwhole.exists_cons with ⟨d, digits, hdigits, hd⟩
          rw [hdigits]
          show readLiteral (d :: _) = readUnsigned false (d :: _)
          unfold readLiteral
          split
          · rename_i heq
            rw [(List.cons.inj heq).left] at hd
            exact absurd hd (by decide)
          · rfl

theorem eq_append_of_readUnsigned {isNegative : Bool} {cs : List Char}
    {l : Literal} {rest : List Char}
    (h : readUnsigned isNegative cs = some (l, rest)) :
    exists text, Spells l (signChars isNegative ++ text) ∧
      cs = text ++ rest := by
  unfold readUnsigned at h
  rcases Option.bind_eq_some_iff.mp h with ⟨⟨whole, afterWhole⟩, hwhole, h⟩
  rcases Option.bind_eq_some_iff.mp h with
    ⟨⟨fraction, afterFraction⟩, hfraction, h⟩
  rcases Option.bind_eq_some_iff.mp h with
    ⟨⟨exponent, afterExponent⟩, hexponent, h⟩
  cases h
  rcases readWhole_eq_some_iff.mp hwhole with ⟨hread, hzero⟩
  rcases eq_append_of_readDigits hread with ⟨hdigits, rfl⟩
  rcases eq_append_of_readFraction hfraction with
    ⟨fractionText, hisFraction, rfl⟩
  rcases eq_append_of_readExponent hexponent with
    ⟨exponentText, hisExponent, rfl⟩
  refine ⟨whole ++ (fractionText ++ exponentText),
    .mk hdigits hzero hisFraction hisExponent, ?_⟩
  simp only [List.append_assoc]

theorem eq_append_of_readLiteral {cs : List Char} {l : Literal}
    {rest : List Char} (h : readLiteral cs = some (l, rest)) :
    exists text, Spells l text ∧ cs = text ++ rest := by
  unfold readLiteral at h
  split at h
  · rcases eq_append_of_readUnsigned h with ⟨text, hspells, rfl⟩
    exact ⟨'-' :: text, hspells, rfl⟩
  · rcases eq_append_of_readUnsigned h with ⟨text, hspells, rfl⟩
    exact ⟨text, hspells, rfl⟩

/-!
# Strings

Between quotes stands one piece after the other: a character, an escape of one
letter, or a code of four digits.
-/

inductive BeginsString : List Char -> List Piece -> List Char -> Prop where
  | close (rest : List Char) : BeginsString ('"' :: rest) [] rest
  | plain {c : Char} {cs : List Char} {ps : List Piece} {rest : List Char} :
      c ≠ '"' -> c ≠ '\\' ->
      ¬ c.toNat < 32 -> BeginsString cs ps rest ->
        BeginsString (c :: cs) (.char c :: ps) rest
  | letter {e c : Char} {cs : List Char} {ps : List Piece} {rest : List Char} :
      unescape e = some c -> BeginsString cs ps rest ->
      BeginsString ('\\' :: e :: cs) (.char c :: ps) rest
  | unit {a b c d : Char} {n : Nat} {cs : List Char} {ps : List Piece}
      {rest : List Char} :
      hexUnit a b c d = some n -> BeginsString cs ps rest ->
      BeginsString ('\\' :: 'u' :: a :: b :: c :: d :: cs)
        (.ofUnit n :: ps) rest

theorem pieces_cons {c : Char} (hquote : c ≠ '"') (hslash : c ≠ '\\')
    (hcontrol : ¬ c.toNat < 32)
    (cs : List Char) :
    pieces (c :: cs) = (pieces cs).map (fun p => (.char c :: p.1, p.2)) := by
  rw [pieces.eq_def]
  split
  · contradiction
  · rename_i heq
    exact absurd (List.cons.inj heq).left hquote
  · rename_i heq
    exact absurd (List.cons.inj heq).left hslash
  · rename_i heq
    exact absurd (List.cons.inj heq).left hslash
  · rename_i heq
    cases heq
    rw [if_neg (by simp [hslash, hcontrol])]
    cases pieces cs <;> rfl

theorem pieces_unit {a b c d : Char} {n : Nat} (h : hexUnit a b c d = some n)
    (cs : List Char) :
    pieces ('\\' :: 'u' :: a :: b :: c :: d :: cs) =
      (pieces cs).map (fun p => (.ofUnit n :: p.1, p.2)) := by
  rw [pieces, h]
  cases pieces cs <;> rfl

theorem pieces_letter {e c : Char} (h : unescape e = some c) (cs : List Char) :
    pieces ('\\' :: e :: cs) = (pieces cs).map
      (fun p => (.char c :: p.1, p.2)) := by
  rw [pieces, h]
  · cases pieces cs <;> rfl
  · rintro a b d f rest rfl
    cases h

theorem beginsString_of_pieces {cs : List Char} {ps : List Piece}
    {rest : List Char} (h : pieces cs = some (ps, rest)) :
    BeginsString cs ps rest := by
  fun_induction pieces cs generalizing ps rest with
  | case1 => cases h
  | case2 rest =>
      cases h
      exact .close rest
  | case3 a b c d cs ih =>
      rcases Option.bind_eq_some_iff.mp h with ⟨n, hunit, h⟩
      rcases Option.bind_eq_some_iff.mp h with ⟨⟨tail, after⟩, htail, h⟩
      cases h
      exact .unit hunit (ih htail)
  | case4 e cs _ ih =>
      rcases Option.bind_eq_some_iff.mp h with ⟨c, hletter, h⟩
      rcases Option.bind_eq_some_iff.mp h with ⟨⟨tail, after⟩, htail, h⟩
      cases h
      exact .letter hletter (ih htail)
  | case5 => cases h
  | case6 c cs hquote _ _ _ hplain =>
      rename_i ih
      rcases Option.bind_eq_some_iff.mp h with ⟨⟨tail, after⟩, htail, h⟩
      cases h
      rw [not_or] at hplain
      exact .plain hquote hplain.left hplain.right (ih htail)

theorem pieces_eq_some_iff {cs : List Char} {ps : List Piece}
    {rest : List Char} :
    pieces cs = some (ps, rest) <-> BeginsString cs ps rest := by
  refine ⟨beginsString_of_pieces, ?_⟩
  intro h
  induction h with
  | close rest => rfl
  | plain hquote hslash hcontrol _ ih =>
      rw [pieces_cons hquote hslash hcontrol, ih]; rfl
  | letter hletter _ ih => rw [pieces_letter hletter, ih]; rfl
  | unit hunit _ ih => rw [pieces_unit hunit, ih]; rfl

theorem readText_eq_some_iff {cs : List Char} {text : Option String}
    {rest : List Char} :
    readText cs = some (text, rest) <->
      exists ps, BeginsString cs ps rest ∧
        text = (join ps).map String.ofList := by
  unfold readText
  constructor
  · intro h
    rcases Option.bind_eq_some_iff.mp h with ⟨⟨ps, after⟩, hpieces, h⟩
    cases h
    exact ⟨ps, pieces_eq_some_iff.mp hpieces, rfl⟩
  · rintro ⟨ps, hbegins, rfl⟩
    rw [pieces_eq_some_iff.mpr hbegins]
    rfl

end Json
end FairLease
