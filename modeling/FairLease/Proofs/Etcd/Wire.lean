import FairLease.Proofs.Etcd.Rendering
import FairLease.Proofs.Json.RoundTrip

/-!
# Replies on the wire

A cluster writes its replies as JSON with every field in place. This is one of
the renderings from which a client decodes what was written.
-/

namespace FairLease
namespace Etcd

/-!
# Writing replies

Absent values are written as `null`. A directory is written with its children,
a leaf with none.
-/

namespace Node

mutual

def toJson : Node -> Json
  | mk key value isDirectory children createdIndex modifiedIndex ttlSeconds =>
      .object [("key", .string key), ("value", .ofOption .string value),
        ("dir", .bool isDirectory), ("nodes", .array (allToJson children)),
        ("createdIndex", .ofNat createdIndex),
          ("modifiedIndex", .ofNat modifiedIndex),
        ("ttl", .ofOption intJson ttlSeconds)]

def allToJson : List Node -> List Json
  | [] => []
  | n :: rest => toJson n :: allToJson rest

end

theorem allToJson_eq_map (children : List Node) :
    allToJson children = children.map toJson := by
  induction children with
  | nil => rfl
  | cons n rest ih => rw [allToJson, ih, List.map_cons]

end Node

/-!
# Plain values

Everything that is written is plain and nests twice as deep as the tree.
-/

theorem isPlain_intJson {t : Int} (hlow : -(wordSize 63 : Int) ≤ t)
    (hhigh : t < (wordSize 63 : Int)) :
    (intJson t).IsPlain := by
  have hwords : wordSize 63 < wordSize 64 := by decide
  cases t with
  | ofNat n => exact .natural (Nat.lt_trans (Int.ofNat_lt.mp hhigh) hwords)
  | negSucc n => exact .negative (by omega) (by omega)

theorem Node.Fits.isPlain {depth : Nat} {n : Node} (h : n.Fits depth) :
    n.toJson.IsPlain := by
  induction h with
  | mk _ hcreated hmodified httl ih =>
      rw [toJson, allToJson_eq_map]
      refine .object fun m hm => ?_
      simp only [List.mem_cons, List.not_mem_nil, or_false] at hm
      rcases hm with rfl | rfl | rfl | rfl | rfl | rfl | rfl
      · exact .string _
      · exact Json.isPlain_ofOption fun s _ => .string s
      · exact .bool _
      · refine .array fun item hitem => ?_
        rcases List.mem_map.mp hitem with ⟨child, hchild, rfl⟩
        exact ih child hchild
      · exact .natural hcreated
      · exact .natural hmodified
      · exact Json.isPlain_ofOption fun t ht =>
          isPlain_intJson (httl t ht).left (httl t ht).right

theorem isSound_ofOption {α : Type} {f : α -> Json} {o : Option α} {depth : Nat}
    (h : forall a, (f a).isSound depth = true) :
    (Json.ofOption f o).isSound depth = true := by
  cases o with
  | none => rfl
  | some a => exact h a

theorem isSound_intJson (t : Int) (depth : Nat) :
    (intJson t).isSound depth = true := by
  cases t <;> rfl

theorem Node.Fits.isSound {depth : Nat} {n : Node} (h : n.Fits depth) :
    n.toJson.isSound (2 * depth) = true := by
  induction h with
  | @mk depth key value isDirectory children createdIndex modifiedIndex ttlSeconds _ _ _ _ ih =>
      have hchildren : Json.allSound (2 * depth)
          (allToJson children) = true := by
        rw [allSound_iff, allToJson_eq_map]
        intro item hitem
        rcases List.mem_map.mp hitem with ⟨child, hchild, rfl⟩
        exact ih child hchild
      have hvalue : (Json.ofOption .string value).isSound
          (2 * depth + 1) = true :=
        isSound_ofOption fun _ => rfl
      have httl : (Json.ofOption intJson ttlSeconds).isSound
          (2 * depth + 1) = true :=
        isSound_ofOption fun t => isSound_intJson t _
      rw [Node.toJson, Nat.mul_add]
      show (decide (0 < 2 * depth + 2) && Json.membersSound (2 * depth + 1) _) =
          true
      simp [Json.membersSound, hvalue, httl, hchildren,
        Json.isSound, Json.ofNat]

/-!
# Renderings

Each field is written under its name, so that what is written is a rendering.
-/

theorem Node.Fits.renders {depth : Nat} {n : Node} (h : n.Fits depth) :
    n.Renders n.toJson := by
  induction h with
  | @mk depth key value isDirectory children createdIndex modifiedIndex ttlSeconds _ _ _ _ ih =>
      have hchildren : forall p, p ∈ children.zip (children.map toJson) ->
          p.1.Renders p.2 := by
        intro p hp
        rcases Json.mem_zip_map hp with ⟨hmem, heq⟩
        rw [heq]
        exact ih p.1 hmem
      rw [toJson, allToJson_eq_map]
      exact .mk (.written (Json.showsOption_ofOption fun _ _ => rfl))
        (.written rfl) (.written rfl)
        (.written rfl) (.written rfl)
        (.written (Json.showsOption_ofOption fun _ _ => rfl))
        (List.length_map _) hchildren ⟨rfl, [],
          fun _ hm => absurd hm List.not_mem_nil, .refl _⟩

/-!
# Whole replies

A text that writes a result or an error is decoded to it, whatever the status.
-/

def Response.toJson (r : Response) : Json :=
  .object [("action", .string r.action), ("node", r.node.toJson),
    ("prevNode", .ofOption Node.toJson r.prevNode)]

structure Response.Fits (r : Response) : Prop where
  node : r.node.Fits 63
  prevNode : forall n, r.prevNode = some n -> n.Fits 63

theorem Response.Fits.inRange {r : Response} (h : r.Fits) : r.InRange :=
  ⟨⟨63, h.node⟩, fun n hn => ⟨63, h.prevNode n hn⟩⟩

theorem Response.Fits.renders {r : Response} (h : r.Fits) :
    r.Renders r.toJson := by
  refine .mk h.node.renders
    (.written (Json.showsOption_ofOption fun n hn => (h.prevNode n hn).renders))
    ⟨rfl, [], fun _ hm => absurd hm List.not_mem_nil, .refl _⟩ ?_
  simp

theorem Response.Fits.isPlain {r : Response} (h : r.Fits) :
    r.toJson.IsPlain := by
  refine .object fun m hm => ?_
  simp only [List.mem_cons, List.not_mem_nil, or_false] at hm
  rcases hm with rfl | rfl | rfl
  · exact .string _
  · exact h.node.isPlain
  · exact Json.isPlain_ofOption fun n hn => (h.prevNode n hn).isPlain

theorem Response.Fits.isSound {r : Response} (h : r.Fits) :
    r.toJson.isSound Json.maxDepth = true := by
  have hprev : (Json.ofOption Node.toJson r.prevNode).isSound 126 = true := by
    cases hn : r.prevNode with
    | none => rfl
    | some n => exact (h.prevNode n hn).isSound
  show (decide (0 < 127) && Json.membersSound 126 _) = true
  simp [Json.membersSound, Json.isSound, hprev,
    show r.node.toJson.isSound 126 = true from
    h.node.isSound]

theorem Reply.decode_response {r : Response} (h : r.Fits) (status : Nat) :
    decode status r.toJson.compact = .ok (.success r) :=
  decode_of_renders h.renders h.inRange (Json.isDocument_compact h.isPlain)
    h.isSound status

def ErrorBody.toJson (e : ErrorBody) : Json :=
  .object [("errorCode", .ofNat e.code), ("message", .string e.text),
    ("cause", .ofOption .string e.cause), ("index", .ofOption .ofNat e.index)]

theorem ErrorBody.renders_toJson (e : ErrorBody) : e.Renders e.toJson :=
  .mk (.written rfl) (.written (Json.showsOption_ofOption fun _ _ => rfl))
    (.written (Json.showsOption_ofOption fun _ _ => rfl))
    ⟨rfl, [], fun _ hm => absurd hm List.not_mem_nil, .refl _⟩

theorem ErrorBody.InRange.isPlain {e : ErrorBody} (h : e.InRange) :
    e.toJson.IsPlain := by
  refine .object fun m hm => ?_
  simp only [List.mem_cons, List.not_mem_nil, or_false] at hm
  rcases hm with rfl | rfl | rfl | rfl
  · exact .natural h.code
  · exact .string _
  · exact Json.isPlain_ofOption fun s _ => .string s
  · exact Json.isPlain_ofOption fun i hi => .natural (h.index i hi)

theorem ErrorBody.isSound_toJson (e : ErrorBody) :
    e.toJson.isSound Json.maxDepth = true := by
  have hcause : (Json.ofOption .string e.cause).isSound 126 = true :=
    isSound_ofOption fun _ => rfl
  have hnumber : (Json.ofOption .ofNat e.index).isSound 126 = true :=
    isSound_ofOption fun _ => rfl
  show (decide (0 < 127) && Json.membersSound 126 _) = true
  simp [Json.membersSound, Json.isSound, Json.ofNat, hcause, hnumber]

theorem Reply.decode_error {e : ErrorBody} (hcode : e.code < wordSize 64)
    (hindex : forall i, e.index = some i -> i < wordSize 64) (status : Nat) :
    decode status e.toJson.compact = .ok (.failure e) :=
  have hrange : e.InRange := ⟨hcode, hindex⟩
  decode_of_rendersError e.renders_toJson hrange
    (Json.isDocument_compact hrange.isPlain) e.isSound_toJson status

end Etcd
end FairLease
