import FairLease.Proofs.Json.Record
import FairLease.Proofs.Json.RoundTrip

/-!
# Values written as texts and read back

A value is written in one form, and other forms of it may be read as well. If
each form is read as the value that it was made from, then so is every text of
it, and whatever is read can be written again.
-/

namespace FairLease
namespace Json

/-!
# What readers return

A reader takes one part of a value after the other, and returns nothing if any
of them is missing.
-/

section

variable {α β : Type} {P : α -> Prop}

def Yields (P : α -> Prop) (o : Option α) : Prop :=
  forall a, o = some a -> P a

theorem Yields.none : Yields P none := by
  intro a ha
  cases ha

theorem Yields.some {a : α} (h : P a) : Yields P (some a) := by
  intro b hb
  cases hb
  exact h

theorem Yields.bind {x : Option β} {f : β -> Option α}
    (h : forall b, x = .some b -> Yields P (f b)) : Yields P (x >>= f) := by
  intro a ha
  rcases Option.bind_eq_some_iff.mp ha with ⟨b, hb, hf⟩
  exact h b hb a hf

end

/-!
# Writers and their readers
-/

section

variable {α : Type}

def encode (write : α -> Json) (a : α) : String :=
  (write a).compact

def decode? (read : Json -> Option α) (text : String) : Option α :=
  (parse? text).bind read

/-- Values that fit are read from all of their forms, one of which is written,
and whatever is read fits. -/
structure IsExact (write : α -> Json) (read : Json -> Option α)
    (fits : α -> Prop) (renders : α -> Json -> Prop) : Prop where
  renders_write (a : α) : renders a (write a)
  isPlain {a : α} {j : Json} : fits a -> renders a j -> j.IsPlain
  read_eq_some {a : α} {j : Json} : fits a -> renders a j -> read j = some a
  yields (j : Json) : Yields fits (read j)

/-- Values that fit are read from the texts of all of their forms, different
values are written as different texts, and the value of any text is written as a
text that is read and written alike. -/
structure RoundTrips (write : α -> Json) (read : Json -> Option α)
    (fits : α -> Prop) (renders : α -> Json -> Prop) : Prop where
  written (a : α) : fits a -> decode? read (encode write a) = some a
  rendered (a : α) (j : Json) : fits a -> renders a j ->
    decode? read j.compact = some a
  spelled (a : α) (j : Json) (text : String) :
    fits a -> renders a j -> IsDocument text j -> decode? read text = some a
  injective (a b : α) : fits a -> fits b ->
    encode write a = encode write b -> a = b
  stable (text : String) (a : α) : decode? read text = some a ->
    fits a ∧ (decode? read (encode write a)).map (encode write) =
      some (encode write a)

variable {write : α -> Json} {read : Json -> Option α} {fits : α -> Prop}
  {renders : α -> Json -> Prop}

theorem decode?_of_document {text : String} {j : Json} (h : IsDocument text j) :
    decode? read text = read j := by
  rw [decode?, parse?_eq_some_iff.mpr h, Option.bind_some]

theorem IsExact.yields_decode? (h : IsExact write read fits renders)
    (text : String) :
    Yields fits (decode? read text) :=
  .bind fun j _ => h.yields j

theorem IsExact.decode?_compact (h : IsExact write read fits renders) {a : α}
    {j : Json} (hfits : fits a) (hj : renders a j) :
    decode? read j.compact = some a := by
  rw [decode?_of_document (isDocument_compact (h.isPlain hfits hj))]
  exact h.read_eq_some hfits hj

theorem IsExact.decode?_encode (h : IsExact write read fits renders) {a : α}
    (hfits : fits a) :
    decode? read (encode write a) = some a :=
  h.decode?_compact hfits (h.renders_write a)

theorem IsExact.roundTrips (h : IsExact write read fits renders) :
    RoundTrips write read fits renders where
  written _ hfits := h.decode?_encode hfits
  rendered _ _ hfits hj := h.decode?_compact hfits hj
  spelled a j text hfits hj htext := by
    rw [decode?_of_document htext]
    exact h.read_eq_some hfits hj
  injective a b ha hb heq := by
    have hread := h.decode?_encode ha
    rw [heq, h.decode?_encode hb] at hread
    exact (Option.some.inj hread).symm
  stable text a ha := by
    have hfits := h.yields_decode? text a ha
    exact ⟨hfits, by rw [h.decode?_encode hfits, Option.map_some]⟩

/-!
# Parts of values

A part is read from its cell. A part that may be absent must not be written as
`null` when it is there.
-/

theorem exists_of_required {a : α} {cell : Option Json}
    (h : required read cell = some a) :
    exists j, read j = some a := by
  cases cell with
  | none => cases h
  | some j => exact ⟨j, h⟩

theorem exists_of_optional {a : α} {cell : Option Json}
    (h : optional read cell = some (some a)) :
    exists j, read j = some a := by
  cases cell with
  | none => cases h
  | some j =>
      by_cases hj : j = .null
      · rw [hj] at h
        cases h
      · rw [optional_some hj, Option.map_eq_some_iff] at h
        rcases h with ⟨b, hb, hsome⟩
        cases hsome
        exact ⟨j, hb⟩

section

variable (h : IsExact write read fits renders)

include h

theorem IsExact.fits_of_required {a : α} {cell : Option Json}
    (hcell : required read cell = some a) : fits a := by
  rcases exists_of_required hcell with ⟨j, hread⟩
  exact h.yields j a hread

theorem IsExact.fits_of_optional {o : Option α} {cell : Option Json}
    (hcell : optional read cell = some o) (a : α) (ha : o = some a) :
    fits a := by
  rcases exists_of_optional (hcell.trans (congrArg some ha)) with ⟨j, hread⟩
  exact h.yields j a hread

theorem IsExact.optional_eq_some (hnull : read .null = none) {o : Option α}
    {j : Json} (hfits : forall a, o = some a -> fits a)
    (hj : ShowsOption renders o j) :
    optional read (some j) = some o := by
  cases o with
  | none =>
      rw [show j = .null from hj]
      rfl
  | some a =>
      have hread : read j = some a := h.read_eq_some (hfits a rfl) hj
      have hne : j ≠ .null := by
        rintro rfl
        rw [hnull] at hread
        cases hread
      rw [optional_some hne, hread, Option.map_some]

theorem IsExact.isPlain_option {o : Option α} {j : Json}
    (hfits : forall a, o = some a -> fits a) (hj : ShowsOption renders o j) :
    j.IsPlain := by
  cases o with
  | none =>
      rw [show j = .null from hj]
      exact .null
  | some a => exact h.isPlain (hfits a rfl) hj

theorem IsExact.showsOption (o : Option α) :
    ShowsOption renders o (ofOption write o) :=
  showsOption_ofOption fun a _ => h.renders_write a

end

/-!
# Lists
-/

inductive RendersList (renders : α -> Json -> Prop) (as : List α) :
    Json -> Prop where
  | mk {items : List Json} : items.length = as.length ->
      (forall p, p ∈ as.zip items -> renders p.1 p.2) ->
        RendersList renders as (.array items)

theorem IsExact.yields_mapM (h : IsExact write read fits renders)
    (items : List Json) :
    Yields (fun as => forall a, a ∈ as -> fits a) (items.mapM read) := by
  induction items with
  | nil => exact .some fun a ha => absurd ha List.not_mem_nil
  | cons item items ih =>
      rw [List.mapM_cons]
      refine .bind fun b hb => .bind fun bs hbs => .some ?_
      exact List.forall_mem_cons.mpr ⟨h.yields item b hb, ih bs hbs⟩

theorem IsExact.list (h : IsExact write read fits renders) :
    IsExact (fun as => array (as.map write)) (listOf read)
      (fun as => forall a, a ∈ as -> fits a)
      (RendersList renders) where
  renders_write as := by
    refine .mk (List.length_map write) fun p hp => ?_
    rw [(mem_zip_map hp).right]
    exact h.renders_write p.1
  isPlain := by
    rintro as _ hfits ⟨hlength, hitems⟩
    refine .array fun item hitem => ?_
    rw [← List.map_snd_zip (Nat.le_of_eq hlength)] at hitem
    rcases List.mem_map.mp hitem with ⟨p, hp, rfl⟩
    exact h.isPlain (hfits p.1 (List.of_mem_zip hp).left) (hitems p hp)
  read_eq_some := by
    rintro as _ hfits ⟨hlength, hitems⟩
    exact mapM_of_zip hlength fun p hp =>
      h.read_eq_some (hfits p.1 (List.of_mem_zip hp).left) (hitems p hp)
  yields j := by
    cases j with
    | array items => exact h.yields_mapM items
    | _ => exact .none

end

/-!
# Numbers
-/

theorem isExact_unsigned (bits : Nat) (hbits : bits ≤ 64) :
    IsExact ofNat (unsigned? bits) (fun n => n < wordSize bits)
      (fun n j => j = ofNat n) where
  renders_write _ := rfl
  isPlain := by
    rintro n _ hn rfl
    exact .natural (Nat.lt_of_lt_of_le hn
      (Nat.pow_le_pow_right (by decide) hbits))
  read_eq_some := by
    rintro n _ hn rfl
    exact unsigned?_ofNat hn
  yields j := by
    unfold unsigned?
    split
    · split
      · rename_i hn
        exact .some hn
      · exact .none
    · exact .none

/-!
# Records

A record is read from an object with its fields, or from an array of their
values in order.
-/

inductive RecordForm (members : List (String × Json)) : Json -> Prop where
  | object : RecordForm members (.object members)
  | array : RecordForm members (.array (members.map (·.2)))

section

variable {fields : List Field} {members : List (String × Json)} {j : Json}

theorem writtenCells_members
    (hnames : members.map (·.1) = fields.map (·.name)) :
    writtenCells fields (members.map (fun m => some m.2)) = members := by
  induction members generalizing fields with
  | nil =>
      cases fields with
      | nil => rfl
      | cons f fields => cases hnames
  | cons m members ih =>
      cases fields with
      | nil => cases hnames
      | cons f fields =>
          rcases List.cons.inj hnames with ⟨(hname : m.1 = f.name), hrest⟩
          rw [List.map_cons, writtenCells, ih hrest, ← hname]

theorem itemCells_members (hlength : members.length = fields.length) :
    itemCells fields (members.map (·.2)) =
      some (members.map (fun m => some m.2)) := by
  induction members generalizing fields with
  | nil =>
      cases fields with
      | nil => rfl
      | cons f fields => cases hlength
  | cons m members ih =>
      cases fields with
      | nil => cases hlength
      | cons f fields =>
          rw [List.map_cons, itemCells, ih (Nat.succ.inj hlength),
            Option.map_some]
          rfl

theorem RecordForm.cells_eq (h : RecordForm members j)
    (hnames : members.map (·.1) = fields.map (·.name))
    (hnodup : (fields.map (·.name)).Nodup) :
    cells fields j = some (members.map (fun m => some m.2)) := by
  have hlength : members.length = fields.length := by
    simpa using congrArg List.length hnames
  cases h with
  | object =>
      refine Shows.cells_eq ⟨?_, [], ?_, ?_⟩ hnodup
      · rw [List.length_map, hlength]
      · exact fun m hm => absurd hm List.not_mem_nil
      · rw [writtenCells_members hnames, List.append_nil]
  | array => exact itemCells_members hlength

theorem RecordForm.isPlain (h : RecordForm members j)
    (hplain : forall m, m ∈ members -> m.2.IsPlain) : j.IsPlain := by
  cases h with
  | object => exact .object hplain
  | array =>
      refine .array fun item hitem => ?_
      rcases List.mem_map.mp hitem with ⟨m, hm, rfl⟩
      exact hplain m hm

end

end Json
end FairLease
