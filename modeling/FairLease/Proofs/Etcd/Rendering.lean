import FairLease.Etcd.Reply
import FairLease.Proofs.Json.Grammar
import FairLease.Proofs.Json.Record

/-!
# Renderings of replies

A reply may be written in many ways: its members in any order, defaults written
or left out, absent values as `null` or not at all, unknown members anywhere. It
is decoded from each of them, as long as the whole text has a value.
-/

namespace FairLease
namespace Etcd

/-!
# Nodes

The numbers of a node fit 64 bits, and only its key must be written.
-/

def intJson : Int -> Json
  | .ofNat n => .ofNat n
  | .negSucc n => .number (.negative (n + 1))

theorem signed?_intJson {t : Int} (hhigh : t < (wordSize 63 : Int)) :
    Json.signed? (intJson t) = some t := by
  cases t with
  | ofNat n =>
      have hn : n < wordSize 63 := Int.ofNat_lt.mp hhigh
      simp [intJson, Json.ofNat, Json.signed?, hn]
  | negSucc n => rfl

theorem intJson_ne_null (t : Int) : intJson t ≠ .null := by
  cases t <;> exact Json.noConfusion

namespace Node

/-- The numbers fit their fields and the tree nests at most as deep as given. -/
inductive Fits : Nat -> Node -> Prop where
  | mk {depth : Nat} {key : String} {value : Option String} {isDirectory : Bool}
      {children : List Node} {createdIndex modifiedIndex : Nat}
      {ttlSeconds : Option Int} :
      (forall child, child ∈ children -> Fits depth child) ->
      createdIndex < wordSize 64 -> modifiedIndex < wordSize 64 ->
      (forall t, ttlSeconds = some t -> -(wordSize 63 : Int) ≤ t ∧
        t < (wordSize 63 : Int)) ->
      Fits (depth + 1)
        (.mk key value isDirectory children createdIndex
          modifiedIndex ttlSeconds)

theorem fits_mk_iff {depth : Nat} {key : String} {value : Option String}
    {isDirectory : Bool} {children : List Node}
    {createdIndex modifiedIndex : Nat} {ttlSeconds : Option Int} :
    (mk key value isDirectory children createdIndex modifiedIndex
      ttlSeconds).Fits (depth + 1) <->
      (forall child, child ∈ children -> child.Fits depth) ∧
      createdIndex < wordSize 64 ∧
        modifiedIndex < wordSize 64 ∧
        forall t, ttlSeconds = some t -> -(wordSize 63 : Int) ≤ t ∧
          t < (wordSize 63 : Int) := by
  constructor
  · intro h
    cases h with
    | mk hchildren hcreated hmodified httl =>
        exact ⟨hchildren, hcreated, hmodified, httl⟩
  · intro h
    exact .mk h.left h.right.left h.right.right.left h.right.right.right

theorem Fits.mono {depth limit : Nat} {n : Node} (h : n.Fits depth)
    (hle : depth ≤ limit) :
    n.Fits limit := by
  induction h generalizing limit with
  | mk _ hcreated hmodified httl ih =>
      cases limit with
      | zero => exact absurd hle (Nat.not_succ_le_zero _)
      | succ limit =>
          exact .mk (fun child hchild =>
            ih child hchild (Nat.le_of_succ_le_succ hle)) hcreated
            hmodified httl

inductive Renders : Node -> Json -> Prop where
  | mk {key : String} {value : Option String} {isDirectory : Bool}
      {children : List Node}
      {createdIndex modifiedIndex : Nat} {ttlSeconds : Option Int}
      {valueCell dirCell nodesCell createdCell modifiedCell ttlCell :
        Option Json}
      {items : List Json} {members : List (String × Json)} :
      Json.Omittable (Json.ShowsOption (fun s j => j = .string s) value)
        (value = none) valueCell ->
      Json.Omittable (fun j => j = .bool isDirectory)
        (isDirectory = false) dirCell ->
      Json.Omittable (fun j => j = .array items) (children = []) nodesCell ->
      Json.Omittable (fun j => j = .ofNat createdIndex) (createdIndex = 0)
        createdCell ->
      Json.Omittable (fun j => j = .ofNat modifiedIndex) (modifiedIndex = 0)
        modifiedCell ->
      Json.Omittable (Json.ShowsOption (fun t j => j = intJson t) ttlSeconds)
        (ttlSeconds = none) ttlCell ->
      items.length = children.length ->
      (forall p, p ∈ children.zip items -> Renders p.1 p.2) ->
      Json.Shows fields
        [some (.string key), valueCell, dirCell, nodesCell, createdCell,
          modifiedCell, ttlCell]
        members ->
      Renders (.mk key value isDirectory children createdIndex
        modifiedIndex ttlSeconds) (.object members)

end Node

/-!
# Sound parts

The parts of a value that nests at most so deep nest one level less.
-/

theorem allSound_iff {depth : Nat} {items : List Json} :
    Json.allSound depth items = true <->
      forall item, item ∈ items -> item.isSound depth = true := by
  induction items with
  | nil => simp [Json.allSound]
  | cons item rest ih => simp [Json.allSound, ih]

theorem membersSound_iff {depth : Nat} {members : List (String × Json)} :
    Json.membersSound depth members = true <->
      forall m, m ∈ members -> m.2.isSound depth = true := by
  induction members with
  | nil => simp [Json.membersSound]
  | cons m rest ih =>
      simp only [Json.membersSound, Bool.and_eq_true, ih, List.forall_mem_cons]

theorem isSound_object {depth : Nat} {members : List (String × Json)}
    (h : (Json.object members).isSound depth = true) :
    exists below, depth = below + 1 ∧ forall m, m ∈ members ->
      m.2.isSound below = true := by
  rw [Json.isSound, Bool.and_eq_true, decide_eq_true_iff, membersSound_iff] at h
  exact ⟨depth - 1, by omega, h.right⟩

theorem isSound_items {depth : Nat} {items : List Json}
    (h : (Json.array items).isSound depth = true) :
    forall item, item ∈ items -> item.isSound (depth - 1) = true := by
  rw [Json.isSound, Bool.and_eq_true, allSound_iff] at h
  exact h.right

/-!
# Reading nodes

The reader looks as many levels deep as the value nests, by induction on the
tree.
-/

theorem read_children {limit depth : Nat} {children : List Node}
    {items : List Json}
    (hlength : items.length = children.length)
    (hsound : (Json.array items).isSound depth = true)
    (hread : forall p, p ∈ children.zip items ->
      p.2.isSound (depth - 1) = true ->
      Node.ofJson? limit p.2 = some p.1) :
    Json.listOf (Node.ofJson? limit) (.array items) = some children :=
  Json.mapM_of_zip hlength fun p hp =>
    hread p hp (isSound_items hsound p.2 (List.of_mem_zip hp).right)

theorem Node.ofJson?_of_renders {n : Node} {j : Json} (h : n.Renders j)
    {size depth limit : Nat} (hfits : n.Fits size)
    (hsound : j.isSound depth = true) (hle : depth ≤ limit) :
    ofJson? limit j = some n := by
  induction h generalizing size depth limit with
  | @mk key value isDirectory children createdIndex modifiedIndex ttlSeconds
      valueCell dirCell
      nodesCell createdCell modifiedCell ttlCell items members hvalue hdir
        hnodes hcreated hmodified
      httl hlength _ hshows ih =>
      rcases isSound_object hsound with ⟨below, rfl, hmembers⟩
      cases size with
      | zero => cases hfits
      | succ size =>
      cases limit with
      | zero => exact absurd hle (Nat.not_succ_le_zero _)
      | succ limit =>
      rcases fits_mk_iff.mp hfits with
        ⟨hchildren, hcreatedFits, hmodifiedFits, httlFits⟩
      have hcells := hshows.cells_eq (by decide)
      have hreadValue : Json.optional Json.string? valueCell = some value := by
        refine hvalue.optional ?_ (fun s => Json.noConfusion)
        rintro s j - - rfl
        rfl
      have hreadDir : Json.withDefault false Json.bool? dirCell =
          some isDirectory := by
        refine hdir.withDefault ?_
        rintro j - rfl
        rfl
      have hreadNodes : Json.withDefault []
          (Json.listOf (ofJson? limit)) nodesCell =
          some children := by
        refine hnodes.withDefault ?_
        rintro j rfl rfl
        have hmember : ("nodes", .array items) ∈ members :=
          hshows.mem (f := Json.fieldWithDefault "nodes") (by simp [fields])
        refine read_children hlength (hmembers _ hmember) ?_
        intro p hp hitem
        exact ih p hp (hchildren p.1 (List.of_mem_zip hp).left) hitem (by omega)
      have hreadCreated : Json.withDefault 0 (Json.unsigned? 64) createdCell =
          some createdIndex := by
        refine hcreated.withDefault ?_
        rintro j - rfl
        exact Json.unsigned?_ofNat hcreatedFits
      have hreadModified : Json.withDefault 0 (Json.unsigned? 64) modifiedCell =
          some modifiedIndex := by
        refine hmodified.withDefault ?_
        rintro j - rfl
        exact Json.unsigned?_ofNat hmodifiedFits
      have hreadTtl : Json.optional Json.signed? ttlCell = some ttlSeconds := by
        refine httl.optional ?_ (fun t heq => intJson_ne_null t heq.symm)
        rintro t j ht - rfl
        exact signed?_intJson (httlFits t ht).right
      rw [ofJson?, hcells]
      simp [Json.required, Json.string?, hreadValue, hreadDir, hreadNodes,
        hreadCreated, hreadModified, hreadTtl]

/-!
# Results and errors

A result has an action and a node, an error has a code. Anything else may be
left out, and there may be other members.
-/

theorem Node.Renders.ne_null {n : Node} {j : Json} (h : n.Renders j) :
    j ≠ .null := by
  cases h
  exact Json.noConfusion

structure Response.InRange (r : Response) : Prop where
  node : exists size, r.node.Fits size
  prevNode : forall n, r.prevNode = some n -> exists size, n.Fits size

def Response.fields : List Json.Field :=
  [Json.field "action", Json.field "node", Json.fieldWithDefault "prevNode"]

inductive Response.Renders : Response -> Json -> Prop where
  | mk {action : String} {node : Node} {prevNode : Option Node}
      {nodeJson : Json}
      {prevCell : Option Json} {members : List (String × Json)} :
        node.Renders nodeJson ->
      Json.Omittable (Json.ShowsOption Node.Renders prevNode)
        (prevNode = none) prevCell ->
      Json.Shows fields [some (.string action), some nodeJson,
        prevCell] members ->
      (forall m, m ∈ members -> m.1 ≠ "errorCode") ->
      Renders ⟨action, node, prevNode⟩ (.object members)

structure ErrorBody.InRange (e : ErrorBody) : Prop where
  code : e.code < wordSize 64
  index : forall i, e.index = some i -> i < wordSize 64

def ErrorBody.fields : List Json.Field :=
  [Json.field "errorCode", Json.fieldWithDefault "message",
    Json.fieldWithDefault "cause", Json.fieldWithDefault "index"]

inductive ErrorBody.Renders : ErrorBody -> Json -> Prop where
  | mk {code : Nat} {text : String} {cause : Option String} {index : Option Nat}
      {textCell causeCell indexCell : Option Json}
      {members : List (String × Json)} :
      Json.Omittable (fun j => j = .string text) (text = "") textCell ->
      Json.Omittable (Json.ShowsOption (fun s j => j = .string s) cause)
        (cause = none) causeCell ->
      Json.Omittable (Json.ShowsOption (fun i j => j = .ofNat i) index)
        (index = none) indexCell ->
      Json.Shows fields [some (.ofNat code), textCell, causeCell,
        indexCell] members ->
      Renders ⟨code, text, cause, index⟩ (.object members)

theorem Response.ofJson?_of_renders {r : Response} {j : Json} (h : r.Renders j)
    (hrange : r.InRange) (hsound : j.isSound Json.maxDepth = true) :
    ofJson? j = some r := by
  cases h with
  | @mk action node prevNode nodeJson prevCell members hnode hprev hshows _ =>
      rcases isSound_object hsound with ⟨below, hbelow, hmembers⟩
      have hle : below ≤ Json.maxDepth := by omega
      have hcells := hshows.cells_eq (by decide)
      have hreadNode : Node.ofJson? Json.maxDepth nodeJson = some node := by
        rcases hrange.node with ⟨size, hfits⟩
        have hmember : ("node", nodeJson) ∈ members :=
          hshows.mem (f := Json.field "node") (by simp [fields])
        exact Node.ofJson?_of_renders hnode hfits (hmembers _ hmember) hle
      have hreadPrev : Json.optional (Node.ofJson? Json.maxDepth) prevCell =
          some prevNode := by
        refine hprev.optional ?_ (fun n hnull => hnull.ne_null rfl)
        rintro n j hn rfl hrenders
        rcases hrange.prevNode n hn with ⟨size, hfits⟩
        have hmember : ("prevNode", j) ∈ members :=
          hshows.mem (f := Json.fieldWithDefault "prevNode") (by simp [fields])
        exact Node.ofJson?_of_renders hrenders hfits (hmembers _ hmember) hle
      rw [fields] at hcells
      rw [ofJson?, hcells]
      simp [Json.required, Json.string?, hreadNode, hreadPrev]

theorem ErrorBody.ofJson?_of_renders {e : ErrorBody} {j : Json}
    (h : e.Renders j) (hrange : e.InRange) : ofJson? j = some e := by
  cases h with
  | @mk code text cause index textCell causeCell indexCell members htext hcause hindex hshows =>
      have hcells := hshows.cells_eq (by decide)
      have hreadCode := Json.unsigned?_ofNat hrange.code
      have hreadText : Json.withDefault "" Json.string? textCell =
          some text := by
        refine htext.withDefault ?_
        rintro j - rfl
        rfl
      have hreadCause : Json.optional Json.string? causeCell = some cause := by
        refine hcause.optional ?_ (fun s => Json.noConfusion)
        rintro s j - - rfl
        rfl
      have hreadIndex : Json.optional (Json.unsigned? 64) indexCell =
          some index := by
        refine hindex.optional ?_ (fun i => Json.noConfusion)
        rintro i j hi - rfl
        exact Json.unsigned?_ofNat (hrange.index i hi)
      rw [fields] at hcells
      rw [ofJson?, hcells]
      simp [Json.required, hreadCode, hreadText, hreadCause, hreadIndex]

/-!
# Decoding

What is decoded depends only on the value of the text. A text without a value is
an error, and so is one of which some part has none or that nests too deep.
-/

theorem ErrorBody.ofJson?_of_absent {members : List (String × Json)}
    (h : forall m, m ∈ members -> m.1 ≠ "errorCode") :
    ofJson? (.object members) = none := by
  rw [ofJson?, Json.cells_cons_of_absent h]
  rcases Json.cells _ (.object members) with
    _ | (_ | ⟨a, _ | ⟨b, _ | ⟨c, _ | ⟨d, rest⟩⟩⟩⟩) <;> rfl

theorem Response.ofJson?_of_absent {members : List (String × Json)}
    (h : forall m, m ∈ members -> m.1 ≠ "action") :
    ofJson? (.object members) = none := by
  rw [ofJson?, Json.cells_cons_of_absent h]
  rcases Json.cells _ (.object members) with
    _ | (_ | ⟨a, _ | ⟨b, _ | ⟨c, rest⟩⟩⟩) <;> rfl

namespace Reply

theorem decode_of_document {body : String} {j : Json}
    (h : Json.IsDocument body j) (status : Nat) : decode status body =
      if j.isSound Json.maxDepth then
        match ofJson? j with
        | none => .error (.undecodable status .unexpected)
        | some reply => .ok reply
      else .error (.undecodable status .malformed) := by
  rcases h with ⟨rest, hbegins, hblank⟩
  have hread : Json.readSound body.toList =
      if j.isSound Json.maxDepth then some (j, rest) else none := by
    rw [Json.readSound,
      Json.readFirst_of_begins hbegins (Json.endsNumber_of_blank hblank)]
    exact Option.filter_some
  rw [decode, hread]
  by_cases hsound : j.isSound Json.maxDepth = true
  · rw [if_pos hsound, if_pos hsound]
    cases hreply : ofJson? j with
    | none => simp only [hreply]
    | some reply =>
        simp only [hreply, if_pos (Json.skipBlank_isEmpty_iff.mpr hblank)]
  · rw [if_neg hsound, if_neg hsound]

theorem decode_of_no_document {body : String}
    (h : ¬ exists j, Json.IsDocument body j) (status : Nat) :
    exists defect, decode status body = .error
      (.undecodable status defect) := by
  unfold decode
  split
  · exact ⟨_, rfl⟩
  · rename_i j rest hread
    split
    · exact ⟨_, rfl⟩
    · split
      · rename_i hblank
        have hfirst :=
          Json.begins_of_readFirst (Option.filter_eq_some_iff.mp hread).left
        exact absurd ⟨j, rest, hfirst, Json.skipBlank_isEmpty_iff.mp hblank⟩ h
      · exact ⟨_, rfl⟩

theorem decode_of_renders {r : Response} {j : Json} {body : String}
    (h : r.Renders j) (hrange : r.InRange) (hdocument : Json.IsDocument body j)
    (hsound : j.isSound Json.maxDepth = true) (status : Nat) :
    decode status body = .ok (.success r) := by
  have hresult := Response.ofJson?_of_renders h hrange hsound
  have herror : ErrorBody.ofJson? j = none := by
    cases h with
    | mk _ _ _ hcode => exact ErrorBody.ofJson?_of_absent hcode
  rw [decode_of_document hdocument, if_pos hsound, ofJson?, herror, hresult]
  rfl

/-- Of the two shapes that of an error is looked for first. -/
theorem decode_of_rendersError {e : ErrorBody} {j : Json} {body : String}
    (h : e.Renders j) (hrange : e.InRange) (hdocument : Json.IsDocument body j)
    (hsound : j.isSound Json.maxDepth = true) (status : Nat) :
    decode status body = .ok (.failure e) := by
  rw [decode_of_document hdocument, if_pos hsound, ofJson?,
    ErrorBody.ofJson?_of_renders h hrange]

/-- Whatever the status says, a text (1) that renders a result is decoded to
that result and (2) one that renders an error to that error, if all of it has a
value and nests at most as deep as the reader accepts. It is an error of kind
`Failed` (3) if some part of it has no value or nests too deep, (4) if it is an
object with neither an error code nor an action, and (5) if it stands for no
value at all. -/
theorem renderings_are_decoded :
    (forall r j body, Response.InRange r -> r.Renders j ->
      Json.IsDocument body j ->
      j.isSound Json.maxDepth = true ->
        forall status, decode status body = .ok (.success r)) ∧
    (forall e j body, ErrorBody.InRange e -> e.Renders j ->
      Json.IsDocument body j ->
      j.isSound Json.maxDepth = true ->
        forall status, decode status body = .ok (.failure e)) ∧
    (forall j body, Json.IsDocument body j -> j.isSound Json.maxDepth = false ->
      forall status, exists e, decode status body = .error e ∧
        e.kind = "Failed") ∧
    (forall members body, Json.IsDocument body (.object members) ->
      (forall m, m ∈ members -> m.1 ≠ "errorCode" ∧ m.1 ≠ "action") ->
        forall status,
      exists e, decode status body = .error e ∧ e.kind = "Failed") ∧
    (forall body, (¬ exists j, Json.IsDocument body j) -> forall status,
      exists e, decode status body = .error e ∧ e.kind = "Failed") := by
  refine ⟨?_, ?_, ?_, ?_, ?_⟩
  · intro r j body hrange hrenders hdocument hsound
    exact decode_of_renders hrenders hrange hdocument hsound
  · intro e j body hrange hrenders hdocument hsound
    exact decode_of_rendersError hrenders hrange hdocument hsound
  · intro j body hdocument hsound status
    rw [decode_of_document hdocument, hsound]
    exact ⟨_, rfl, rfl⟩
  · intro members body hdocument habsent status
    have herror := ErrorBody.ofJson?_of_absent fun m hm => (habsent m hm).left
    have hresult := Response.ofJson?_of_absent fun m hm => (habsent m hm).right
    rw [decode_of_document hdocument, ofJson?, herror, hresult]
    split
    · exact ⟨_, rfl, rfl⟩
    · exact ⟨_, rfl, rfl⟩
  · intro body hnone status
    rcases decode_of_no_document hnone status with ⟨defect, hdecode⟩
    exact ⟨_, hdecode, rfl⟩

def setResult : Response :=
  ⟨"set", .mk "a" none false [] 0 0 none, none⟩

theorem inRange_setResult : setResult.InRange where
  node :=
    ⟨1, .mk (fun _ h => absurd h List.not_mem_nil) (by decide)
      (by decide) (by simp)⟩
  prevNode := by
    intro n hn
    cases hn

theorem renders_setResult {z : Json}
    {nodeMembers members : List (String × Json)}
    (hnode : nodeMembers.Perm [("key", .string "a"), ("z", z)])
    (hmembers : members.Perm [("action", .string "set"),
      ("node", .object nodeMembers)]) :
    setResult.Renders (.object members) := by
  have hchildren : forall p, p ∈ ([] : List Node).zip ([] : List Json) ->
      p.1.Renders p.2 :=
    fun p hp => absurd hp List.not_mem_nil
  have hshows : Json.Shows Node.fields [some (.string "a"), none, none, none,
      none, none, none]
      nodeMembers :=
    ⟨rfl, [("z", z)], by simp [Node.fields, Json.field, Json.fieldWithDefault],
      hnode⟩
  have hrenders : Node.Renders (.mk "a" none false [] 0 0 none)
      (.object nodeMembers) :=
    .mk (.omitted rfl) (.omitted rfl) (.omitted rfl) (.omitted rfl)
      (.omitted rfl) (.omitted rfl) rfl hchildren hshows
  refine .mk hrenders (.omitted rfl) ⟨rfl, [], by simp, hmembers⟩ ?_
  intro m hm
  have hmem := hmembers.mem_iff.mp hm
  simp only [List.mem_cons, List.not_mem_nil, or_false] at hmem
  rcases hmem with rfl | rfl <;> simp

/-- The members stand in another order than the fields, and there are blanks. -/
def unorderedText : String :=
  "\x7b \"node\": \x7b\"z\": [null], \"key\": \"a\"\x7d, \"action\": \"set\" \x7d"

theorem isDocument_unorderedText : Json.IsDocument unorderedText
    (.object [("node", .object [("z", .array [.null]), ("key", .string "a")]),
      ("action", .string "set")]) := by
  have hchars : unorderedText.toList =
      ['\x7b', ' ', '"', 'n', 'o', 'd', 'e', '"', ':', ' ', '\x7b', '"', 'z',
        '"', ':', ' ', '[', 'n', 'u', 'l', 'l', ']', ',', ' ', '"', 'k', 'e',
        'y', '"', ':', ' ', '"', 'a', '"', '}', ',', ' ', '"', 'a', 'c', 't',
        'i', 'o', 'n', '"', ':', ' ', '"', 's', 'e', 't', '"', ' ', '}'] := by
    decide +kernel
  rw [← Json.parse?_eq_some_iff, Json.parse?, hchars]
  rfl

theorem renderings_are_decoded_unordered :
    forall status, decode status unorderedText = .ok (.success setResult) := by
  rcases renderings_are_decoded with ⟨hsuccess, _⟩
  exact hsuccess setResult _ _ inRange_setResult
    (renders_setResult (.swap _ _ _) (.swap _ _ _)) isDocument_unorderedText rfl

/-!
# A text that cannot be kept

An unknown member may be a number beyond double precision. The reader keeps the
values of unknown members until it knows the shape of the reply, and this one it
cannot keep.
-/

mutual

/-- How deep arrays and objects nest, whether or not their parts have values. -/
def nesting : Json -> Nat
  | .array items => itemsNesting items + 1
  | .object members => membersNesting members + 1
  | _ => 0

def itemsNesting : List Json -> Nat
  | [] => 0
  | item :: rest => max (nesting item) (itemsNesting rest)

def membersNesting : List (String × Json) -> Nat
  | [] => 0
  | member :: rest => max (nesting member.2) (membersNesting rest)

end

def boundlessText : String :=
  "\x7b\"action\":\"set\",\"node\":\x7b\"key\":\"a\",\"z\":1e999\x7d\x7d"

def boundlessJson : Json :=
  .object [("action", .string "set"),
    ("node", .object [("key", .string "a"), ("z", .unreadable)])]

theorem renders_boundlessJson : setResult.Renders boundlessJson :=
  renders_setResult (.refl _) (.refl _)

theorem isDocument_boundlessText :
    Json.IsDocument boundlessText boundlessJson := by
  have hchars : boundlessText.toList =
      ['\x7b', '"', 'a', 'c', 't', 'i', 'o', 'n', '"', ':', '"', 's', 'e', 't',
        '"', ',', '"', 'n', 'o', 'd', 'e', '"', ':', '\x7b', '"', 'k', 'e', 'y',
        '"', ':', '"', 'a', '"', ',', '"', 'z', '"', ':', '1', 'e', '9', '9',
        '9', '}', '}'] := by
    decide +kernel
  rw [← Json.parse?_eq_some_iff, Json.parse?, hchars]
  rfl

/-- Not every rendering is decoded, even if all numbers of the result fit and
the text nests no deeper than a reader of whole values accepts. -/
theorem rendering_not_decoded :
    setResult.InRange ∧ setResult.Renders boundlessJson ∧
      Json.IsDocument boundlessText boundlessJson ∧
      nesting boundlessJson ≤ Json.maxDepth ∧
      forall status, decode status boundlessText ≠
        .ok (.success setResult) := by
  refine ⟨inRange_setResult, renders_boundlessJson, isDocument_boundlessText,
    by decide, ?_⟩
  intro status hsuccess
  rw [decode_of_document isDocument_boundlessText] at hsuccess
  cases hsuccess

end Reply

end Etcd
end FairLease
