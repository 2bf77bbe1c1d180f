import FairLease.Proofs.Json.Codec
import FairLease.Store.Codec

/-!
# The store types as texts

Requests, results, commands and events are read back from what is written for
them, and from their other forms: arrays instead of objects, and values that may
be left out written in full.
-/

namespace FairLease

open Json

/-!
# Optional parts
-/

namespace Json

@[simp] theorem isPlain_string (s : String) : (string s).IsPlain :=
  .string s

@[simp] theorem isPlain_bool (b : Bool) : (bool b).IsPlain :=
  .bool b

@[simp] theorem isPlain_ofText? (o : Option String) : (ofText? o).IsPlain :=
  isPlain_ofOption fun s _ => .string s

@[simp] theorem optional_ofText? (o : Option String) :
    optional string? (some (ofText? o)) = some o := by
  cases o <;> rfl

section

variable {bits : Nat}

theorem isPlain_ofNat (hbits : bits ≤ 64) {n : Nat} (h : n < wordSize bits) :
    (ofNat n).IsPlain :=
  (isExact_unsigned bits hbits).isPlain h rfl

theorem isPlain_ofNat? (hbits : bits ≤ 64) {o : Option Nat}
    (h : forall n, o = some n -> n < wordSize bits) : (ofNat? o).IsPlain :=
  (isExact_unsigned bits hbits).isPlain_option h
    ((isExact_unsigned bits hbits).showsOption o)

theorem optional_ofNat? (hbits : bits ≤ 64) {o : Option Nat}
    (h : forall n, o = some n -> n < wordSize bits) :
    optional (unsigned? bits) (some (ofNat? o)) = some o :=
  (isExact_unsigned bits hbits).optional_eq_some rfl h
    ((isExact_unsigned bits hbits).showsOption o)

end

end Json

/-!
# Requests for one key

These records have one text and no numbers.
-/

def RendersText (name : String) {α : Type} (text : α -> String) (a : α) :
    Json -> Prop :=
  RecordForm [(name, string (text a))]

theorem isExact_text {α : Type} {name : String} {text : α -> String}
    {read : Json -> Option α}
    (hread : forall a j, cells [field name] j = some [some (string (text a))] ->
      read j = some a) :
    IsExact (fun a => object [(name, string (text a))]) read (fun _ => True)
      (RendersText name text) where
  renders_write _ := .object
  isPlain _ hform := hform.isPlain (by simp)
  read_eq_some _ hform := hread _ _ (hform.cells_eq rfl (by simp))
  yields _ _ _ := trivial

theorem ReadRequest.isExact :
    IsExact toJson ofJson? (fun _ => True) (RendersText "key" key) :=
  isExact_text fun r j h => by
    rw [ofJson?, h]
    rfl

theorem DeleteRequest.isExact :
    IsExact toJson ofJson? (fun _ => True) (RendersText "key" key) :=
  isExact_text fun r j h => by
    rw [ofJson?, h]
    rfl

theorem WatchRequest.isExact :
    IsExact toJson ofJson? (fun _ => True) (RendersText "prefix" lead) :=
  isExact_text fun r j h => by
    rw [ofJson?, h]
    rfl

/-!
# Deletions and listings
-/

def DeleteResult.Renders (r : DeleteResult) : Json -> Prop :=
  RecordForm [("key", string r.key), ("is_deleted", bool r.isDeleted)]

theorem DeleteResult.isExact :
    IsExact toJson ofJson? (fun _ => True) Renders where
  renders_write _ := .object
  isPlain _ hform := hform.isPlain (by simp)
  read_eq_some _ hform := by
    rw [ofJson?, hform.cells_eq rfl (by decide)]
    rfl
  yields _ _ _ := trivial

def ScanRequest.Fits (r : ScanRequest) : Prop :=
  forall n, r.limit = some n -> n < wordSize 32

def ScanRequest.Renders (r : ScanRequest) : Json -> Prop :=
  RecordForm [("prefix", string r.lead), ("limit", ofNat? r.limit),
    ("continuation_token", ofText? r.after)]

theorem ScanRequest.isExact : IsExact toJson ofJson? Fits Renders where
  renders_write _ := .object
  isPlain hfits hform :=
    hform.isPlain (by simp [isPlain_ofNat? (by decide) hfits])
  read_eq_some hfits hform := by
    rw [ofJson?, hform.cells_eq rfl (by decide)]
    simp [required, string?, optional_ofNat? (by decide) hfits]
  yields j := by
    refine .bind fun cs _ => ?_
    split
    · refine .bind fun _ _ => .bind fun limit hlimit =>
        .bind fun _ _ => .some ?_
      exact (isExact_unsigned _ (by decide)).fits_of_optional hlimit
    · exact .none

/-!
# Entries

A remaining lifetime that is absent is left out of the object, and it may be
written as `null` all the same.
-/

structure KeyValue.Fits (kv : KeyValue) : Prop where
  createRevision : kv.createRevision < wordSize 64
  modRevision : kv.modRevision < wordSize 64
  ttlRemainingMs : forall ms, kv.ttlRemainingMs = some ms -> ms < wordSize 64

def KeyValue.members (kv : KeyValue) : List (String × Json) :=
  [("key", string kv.key), ("value", string kv.value),
    ("create_revision", ofNat kv.createRevision),
    ("mod_revision", ofNat kv.modRevision)]

inductive KeyValue.Renders (kv : KeyValue) : Json -> Prop where
  | full {j : Json} :
      RecordForm (kv.members ++
        [("ttl_remaining_ms", ofNat? kv.ttlRemainingMs)]) j -> Renders kv j
  | short : kv.ttlRemainingMs = none -> Renders kv (.object kv.members)

theorem KeyValue.renders_toJson (kv : KeyValue) : kv.Renders kv.toJson := by
  cases hms : kv.ttlRemainingMs with
  | none =>
      have hshort : kv.toJson = .object kv.members := by
        simp [toJson, hms, members]
      rw [hshort]
      exact .short hms
  | some ms =>
      have hfull : kv.toJson =
          .object (kv.members ++
            [("ttl_remaining_ms", ofNat? kv.ttlRemainingMs)]) := by
        simp [toJson, hms, members, ofNat?, ofOption]
      rw [hfull]
      exact .full .object

theorem KeyValue.Fits.isPlain_members {kv : KeyValue} (h : kv.Fits) :
    forall m, m ∈ kv.members -> m.2.IsPlain := by
  simp [members, isPlain_ofNat (by decide) h.createRevision,
    isPlain_ofNat (by decide) h.modRevision]

theorem KeyValue.Renders.cells_eq {kv : KeyValue} {j : Json} (h : kv.Renders j)
    (hfits : kv.Fits) :
    exists ttl, optional (unsigned? 64) ttl = some kv.ttlRemainingMs ∧
      cells [field "key", field "value", field "create_revision",
        field "mod_revision",
          fieldWithDefault "ttl_remaining_ms"] j =
        some [some (string kv.key), some (string kv.value),
          some (ofNat kv.createRevision),
            some (ofNat kv.modRevision), ttl] := by
  cases h with
  | full hform =>
      exact ⟨_, optional_ofNat? (by decide) hfits.ttlRemainingMs,
        hform.cells_eq rfl (by decide)⟩
  | short hms =>
      refine ⟨none, by rw [hms]; rfl,
        Shows.cells_eq ⟨rfl, [], ?_, .refl _⟩ (by decide)⟩
      exact fun m hm => absurd hm List.not_mem_nil

theorem KeyValue.isExact : IsExact toJson ofJson? Fits Renders where
  renders_write := renders_toJson
  isPlain := by
    intro kv j hfits h
    cases h with
    | full hform =>
        refine hform.isPlain
          (List.forall_mem_append.mpr ⟨hfits.isPlain_members, ?_⟩)
        simp [isPlain_ofNat? (by decide) hfits.ttlRemainingMs]
    | short => exact .object hfits.isPlain_members
  read_eq_some := by
    intro kv j hfits h
    rcases h.cells_eq hfits with ⟨ttl, httl, hcells⟩
    rw [ofJson?, hcells]
    simp [required, string?, unsigned?_ofNat hfits.createRevision,
      unsigned?_ofNat hfits.modRevision, httl]
  yields j := by
    refine .bind fun cs _ => ?_
    split
    · refine .bind fun _ _ => .bind fun _ _ => .bind fun _ hcreated =>
        .bind fun _ hmodified =>
        .bind fun _ httl => .some ?_
      have hunsigned := isExact_unsigned 64 (by decide)
      exact ⟨hunsigned.fits_of_required hcreated,
        hunsigned.fits_of_required hmodified, hunsigned.fits_of_optional httl⟩
    · exact .none

def ReadResult.Fits (r : ReadResult) : Prop :=
  forall kv, r.entry = some kv -> kv.Fits

inductive ReadResult.Renders (r : ReadResult) : Json -> Prop where
  | mk {entry j : Json} : ShowsOption KeyValue.Renders r.entry entry ->
      RecordForm [("kv", entry)] j -> Renders r j

theorem ReadResult.isExact : IsExact toJson ofJson? Fits Renders where
  renders_write r := .mk (KeyValue.isExact.showsOption r.entry) .object
  isPlain := by
    rintro r j hfits ⟨hentry, hform⟩
    exact hform.isPlain (by simp [KeyValue.isExact.isPlain_option hfits hentry])
  read_eq_some := by
    rintro r j hfits ⟨hentry, hform⟩
    have hread := KeyValue.isExact.optional_eq_some rfl hfits hentry
    rw [ofJson?, hform.cells_eq rfl (by decide)]
    simp [hread]
  yields j := by
    refine .bind fun cs _ => ?_
    split
    · refine .bind fun entry hentry => .some ?_
      exact KeyValue.isExact.fits_of_optional hentry
    · exact .none

structure ScanResult.Fits (r : ScanResult) : Prop where
  entries : forall kv, kv ∈ r.entries -> kv.Fits
  count : r.count < wordSize 32

inductive ScanResult.Renders (r : ScanResult) : Json -> Prop where
  | mk {entries j : Json} : RendersList KeyValue.Renders r.entries entries ->
      RecordForm [("entries", entries), ("count", ofNat r.count),
        ("is_truncated", bool r.isTruncated),
        ("continuation_token", ofText? r.continuation)] j ->
      Renders r j

theorem ScanResult.isExact : IsExact toJson ofJson? Fits Renders where
  renders_write r := .mk (KeyValue.isExact.list.renders_write r.entries) .object
  isPlain := by
    rintro r j hfits ⟨hentries, hform⟩
    refine hform.isPlain ?_
    simp [KeyValue.isExact.list.isPlain hfits.entries hentries,
      isPlain_ofNat (by decide) hfits.count]
  read_eq_some := by
    rintro r j hfits ⟨hentries, hform⟩
    have hread := KeyValue.isExact.list.read_eq_some hfits.entries hentries
    rw [ofJson?, hform.cells_eq rfl (by decide)]
    simp [required, bool?, hread, unsigned?_ofNat hfits.count]
  yields j := by
    refine .bind fun cs _ => ?_
    split
    · refine .bind fun _ hentries => .bind fun _ hcount => .bind fun _ _ =>
        .bind fun _ _ =>
        .some ?_
      exact ⟨KeyValue.isExact.list.fits_of_required hentries,
        (isExact_unsigned _ (by decide)).fits_of_required hcount⟩
    · exact .none

/-!
# Actions and events

An action may be written as its name, or as an object of its name and `null`.
-/

inductive Action.Renders (a : Action) : Json -> Prop where
  | bare : Renders a (.string a.name)
  | tagged : Renders a (.object [(a.name, .null)])

theorem Action.ofName?_name (a : Action) : ofName? a.name = some a := by
  cases a <;> decide

theorem Action.isExact : IsExact toJson ofJson? (fun _ => True) Renders where
  renders_write _ := .bare
  isPlain := by
    intro a j _ h
    cases h with
    | bare => exact .string _
    | tagged => exact .object (by simp [IsPlain.null])
  read_eq_some := by
    intro a j _ h
    cases h <;> exact a.ofName?_name
  yields _ _ _ := trivial

def Event.Fits (e : Event) : Prop :=
  e.index < wordSize 64

inductive Event.Renders (e : Event) : Json -> Prop where
  | mk {action j : Json} : e.action.Renders action ->
      RecordForm [("action", action), ("key", string e.key),
        ("value", ofText? e.value), ("index", ofNat e.index)] j -> Renders e j

theorem Event.isExact : IsExact toJson ofJson? Fits Renders where
  renders_write e := .mk (Action.isExact.renders_write e.action) .object
  isPlain := by
    rintro e j hfits ⟨haction, hform⟩
    refine hform.isPlain ?_
    simp [Action.isExact.isPlain trivial haction,
      isPlain_ofNat (by decide) hfits]
  read_eq_some := by
    rintro e j hfits ⟨haction, hform⟩
    have hread := Action.isExact.read_eq_some trivial haction
    rw [ofJson?, hform.cells_eq rfl (by decide)]
    simp [required, string?, hread, unsigned?_ofNat hfits]
  yields j := by
    refine .bind fun cs _ => ?_
    split
    · refine .bind fun _ _ => .bind fun _ _ => .bind fun _ _ =>
        .bind fun index hindex => .some ?_
      exact (isExact_unsigned _ (by decide)).fits_of_required hindex
    · exact .none

/-!
# Commands

The fields of a command stand under its tag, as an object or as an array.
-/

def Command.Fits (c : Command) : Prop :=
  forall ms, c.ttlMs? = some ms -> ms < wordSize 64

inductive Command.Renders (c : Command) : Json -> Prop where
  | mk {content : Json} : RecordForm c.fields.2 content ->
      Renders c (.object [(c.fields.1, content)])

theorem Command.Fits.isPlain_fields {c : Command} (h : c.Fits) :
    forall m, m ∈ c.fields.2 -> m.2.IsPlain := by
  cases c with
  | set | compareAndSwap | delete => simp [fields]
  | setWithTtl | createWithTtl | compareAndSwapWithTtl =>
      simp [fields, isPlain_ofNat (by decide) (h _ rfl)]

theorem Command.leasedOfJson?_of_form (make : String -> String ->
    Nat -> Command)
    {key value : String} {ttlMs : Nat} (h : ttlMs < wordSize 64)
    {content : Json}
    (hform : RecordForm [("key", string key), ("value", string value),
      ("ttl_ms", ofNat ttlMs)]
      content) : leasedOfJson? make content = some (make key value ttlMs) := by
  rw [leasedOfJson?, hform.cells_eq rfl (by decide)]
  simp [required, string?, unsigned?_ofNat h]

theorem Command.ofTagged?_fields {c : Command} (h : c.Fits) {content : Json}
    (hform : RecordForm c.fields.2 content) :
    ofTagged? c.fields.1 content = some c := by
  cases c with
  | set key value =>
      show setOfJson? content = _
      rw [setOfJson?, hform.cells_eq rfl (by decide)]
      rfl
  | setWithTtl key value ttlMs =>
      exact leasedOfJson?_of_form setWithTtl (h ttlMs rfl) hform
  | createWithTtl key value ttlMs =>
      exact leasedOfJson?_of_form createWithTtl (h ttlMs rfl) hform
  | compareAndSwap key expected newValue =>
      show swapOfJson? content = _
      rw [swapOfJson?, hform.cells_eq rfl (by decide)]
      simp [required, string?, fields]
  | compareAndSwapWithTtl key expected newValue ttlMs =>
      show leasedSwapOfJson? content = _
      rw [leasedSwapOfJson?, hform.cells_eq rfl (by decide)]
      simp [required, string?, fields, unsigned?_ofNat (h ttlMs rfl)]
  | delete key =>
      show deleteOfJson? content = _
      rw [deleteOfJson?, hform.cells_eq rfl (by decide)]
      rfl

theorem Command.fits_of_ttlMs?_eq_none {c : Command} (h : c.ttlMs? = none) :
    c.Fits := by
  intro ms hms
  rw [h] at hms
  cases hms

theorem Command.yields_leasedOfJson? {make : String -> String -> Nat -> Command}
    (hmake : forall key value ttlMs, (make key value ttlMs).ttlMs? = some ttlMs)
    (content : Json) :
    Yields Fits (leasedOfJson? make content) := by
  refine .bind fun cs _ => ?_
  split
  · refine .bind fun key _ => .bind fun value _ =>
      .bind fun ttlMs httl => .some ?_
    intro ms hms
    rw [hmake] at hms
    cases hms
    exact (isExact_unsigned _ (by decide)).fits_of_required httl
  · exact .none

theorem Command.yields_leasedSwapOfJson? (content : Json) :
    Yields Fits (leasedSwapOfJson? content) := by
  refine .bind fun cs _ => ?_
  split
  · refine .bind fun key _ => .bind fun expected _ => .bind fun newValue _ =>
      .bind fun ttlMs httl => .some ?_
    intro ms hms
    cases hms
    exact (isExact_unsigned _ (by decide)).fits_of_required httl
  · exact .none

theorem Command.yields_setOfJson? (content : Json) :
    Yields Fits (setOfJson? content) := by
  refine .bind fun cs _ => ?_
  split
  · exact .bind fun key _ => .bind fun value _ =>
      .some (fits_of_ttlMs?_eq_none rfl)
  · exact .none

theorem Command.yields_swapOfJson? (content : Json) :
    Yields Fits (swapOfJson? content) := by
  refine .bind fun cs _ => ?_
  split
  · exact .bind fun key _ => .bind fun expected _ => .bind fun newValue _ =>
      .some (fits_of_ttlMs?_eq_none rfl)
  · exact .none

theorem Command.yields_deleteOfJson? (content : Json) :
    Yields Fits (deleteOfJson? content) := by
  refine .bind fun cs _ => ?_
  split
  · exact .bind fun key _ => .some (fits_of_ttlMs?_eq_none rfl)
  · exact .none

theorem Command.yields_ofTagged? (tag : String) (content : Json) :
    Yields Fits (ofTagged? tag content) := by
  unfold ofTagged?
  split
  · exact yields_setOfJson? content
  · exact yields_leasedOfJson? (fun _ _ _ => rfl) content
  · exact yields_leasedOfJson? (fun _ _ _ => rfl) content
  · exact yields_swapOfJson? content
  · exact yields_leasedSwapOfJson? content
  · exact yields_deleteOfJson? content
  · exact .none

theorem Command.isExact : IsExact toJson ofJson? Fits Renders where
  renders_write _ := .mk .object
  isPlain := by
    rintro c _ hfits ⟨hform⟩
    exact .object (by simp [hform.isPlain hfits.isPlain_fields])
  read_eq_some := by
    rintro c _ hfits ⟨hform⟩
    exact ofTagged?_fields hfits hform
  yields j := by
    unfold ofJson?
    split
    · exact yields_ofTagged? _ _
    · exact .none

def WriteRequest.Fits (r : WriteRequest) : Prop :=
  r.command.Fits

inductive WriteRequest.Renders (r : WriteRequest) : Json -> Prop where
  | mk {command j : Json} : r.command.Renders command ->
      RecordForm [("command", command)] j ->
      Renders r j

theorem WriteRequest.isExact : IsExact toJson ofJson? Fits Renders where
  renders_write r := .mk (Command.isExact.renders_write r.command) .object
  isPlain := by
    rintro r j hfits ⟨hcommand, hform⟩
    exact hform.isPlain (by simp [Command.isExact.isPlain hfits hcommand])
  read_eq_some := by
    rintro r j hfits ⟨hcommand, hform⟩
    have hread := Command.isExact.read_eq_some hfits hcommand
    rw [ofJson?, hform.cells_eq rfl (by decide)]
    simp [required, hread]
  yields j := by
    refine .bind fun cs _ => ?_
    split
    · refine .bind fun command hcommand => .some ?_
      exact Command.isExact.fits_of_required hcommand
    · exact .none

structure WriteResult.Fits (r : WriteResult) : Prop where
  command : forall c, r.command = some c -> c.Fits
  revision : forall n, r.revision = some n -> n < wordSize 64

inductive WriteResult.Renders (r : WriteResult) : Json -> Prop where
  | mk {command j : Json} : ShowsOption Command.Renders r.command command ->
      RecordForm [("command", command), ("revision", ofNat? r.revision),
        ("prev_value", ofText? r.prevValue)] j -> Renders r j

theorem WriteResult.isExact : IsExact toJson ofJson? Fits Renders where
  renders_write r := .mk (Command.isExact.showsOption r.command) .object
  isPlain := by
    rintro r j hfits ⟨hcommand, hform⟩
    refine hform.isPlain ?_
    simp [Command.isExact.isPlain_option hfits.command hcommand,
      isPlain_ofNat? (by decide) hfits.revision]
  read_eq_some := by
    rintro r j hfits ⟨hcommand, hform⟩
    have hread := Command.isExact.optional_eq_some rfl hfits.command hcommand
    rw [ofJson?, hform.cells_eq rfl (by decide)]
    simp [hread, optional_ofNat? (by decide) hfits.revision]
  yields j := by
    refine .bind fun cs _ => ?_
    split
    · refine .bind fun command hcommand => .bind fun revision hrevision =>
        .bind fun _ _ => .some ?_
      exact ⟨Command.isExact.fits_of_optional hcommand,
        (isExact_unsigned _ (by decide)).fits_of_optional hrevision⟩
    · exact .none

/-!
# All types
-/

/-- For every store type, all values of it whose numbers fit their fields are
read back from the text that is written for them, and from every text of each of
their other forms: a record from the array of its fields in order, with `null`
for what is absent, and the parts of a record in any form of theirs. Different
values are written as different texts. Whatever is read from any text has
numbers that fit, and its text is read and written alike. -/
theorem store_types_round_trip :
    RoundTrips Command.toJson Command.ofJson? Command.Fits Command.Renders ∧
    RoundTrips WriteRequest.toJson WriteRequest.ofJson? WriteRequest.Fits
      WriteRequest.Renders ∧
    RoundTrips WriteResult.toJson WriteResult.ofJson? WriteResult.Fits
      WriteResult.Renders ∧
    RoundTrips ReadRequest.toJson ReadRequest.ofJson? (fun _ => True)
      (RendersText "key" ReadRequest.key) ∧
    RoundTrips ReadResult.toJson ReadResult.ofJson? ReadResult.Fits
      ReadResult.Renders ∧
    RoundTrips KeyValue.toJson KeyValue.ofJson? KeyValue.Fits KeyValue.Renders ∧
    RoundTrips DeleteRequest.toJson DeleteRequest.ofJson? (fun _ => True)
      (RendersText "key" DeleteRequest.key) ∧
    RoundTrips DeleteResult.toJson DeleteResult.ofJson? (fun _ => True)
      DeleteResult.Renders ∧
    RoundTrips ScanRequest.toJson ScanRequest.ofJson? ScanRequest.Fits
      ScanRequest.Renders ∧
    RoundTrips ScanResult.toJson ScanResult.ofJson? ScanResult.Fits
      ScanResult.Renders ∧
    RoundTrips WatchRequest.toJson WatchRequest.ofJson? (fun _ => True)
      (RendersText "prefix" WatchRequest.lead) ∧
    RoundTrips Action.toJson Action.ofJson? (fun _ => True) Action.Renders ∧
    RoundTrips Event.toJson Event.ofJson? Event.Fits Event.Renders :=
  ⟨Command.isExact.roundTrips, WriteRequest.isExact.roundTrips,
    WriteResult.isExact.roundTrips, ReadRequest.isExact.roundTrips,
    ReadResult.isExact.roundTrips, KeyValue.isExact.roundTrips,
    DeleteRequest.isExact.roundTrips, DeleteResult.isExact.roundTrips,
    ScanRequest.isExact.roundTrips, ScanResult.isExact.roundTrips,
    WatchRequest.isExact.roundTrips,
    Action.isExact.roundTrips, Event.isExact.roundTrips⟩

def arrayResult : Json :=
  array [object [("SetWithTTL", array [string "k", string "\n",
    ofNat (wordSize 64 - 1)])], null, string "é"]

theorem store_types_round_trip_arrayResult :
    decode? WriteResult.ofJson? arrayResult.compact =
      some ⟨some (.setWithTtl "k" "\n" (wordSize 64 - 1)), none, some "é"⟩ := by
  rcases store_types_round_trip with ⟨_, _, hresult, _⟩
  refine hresult.rendered _ _ ⟨?_, fun n hn => by cases hn⟩
    (.mk (show Command.Renders _ _ from .mk .array) .array)
  rintro _ ⟨⟩ _ ⟨⟩
  decide

example : decode? KeyValue.ofJson? "[\"k\", \"\\u0001\", 1, 2, null]" =
    some ⟨"k", String.singleton (Char.ofNat 1), 1, 2, none⟩ := by
  decide +kernel

end FairLease
