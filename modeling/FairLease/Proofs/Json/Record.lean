import FairLease.Json.Record
import Mathlib.Data.List.Zip

/-!
# Records written as objects

An object shows the cells of a record in any order and among other members. Its
reader finds every cell under the name of its field.
-/

namespace FairLease
namespace Json

/-!
# Items of lists

An array is read item by item, and an object field by field.
-/

theorem mapM_of_zip {α β : Type} {f : α -> Option β} {as : List α} {bs : List β}
    (hlength : as.length = bs.length)
    (h : forall p, p ∈ bs.zip as -> f p.2 = some p.1) :
    as.mapM f = some bs := by
  induction as generalizing bs with
  | nil =>
      rw [List.eq_nil_of_length_eq_zero hlength.symm]
      rfl
  | cons a as ih =>
      cases bs with
      | nil => cases hlength
      | cons b bs =>
          rw [List.zip_cons_cons] at h
          rw [List.mapM_cons, h (b, a) List.mem_cons_self,
            ih (Nat.succ.inj hlength) fun p hp =>
              h p (List.mem_cons_of_mem _ hp)]
          rfl

theorem mem_zip_map {α β : Type} {f : α -> β} {l : List α} {p : α × β}
    (h : p ∈ l.zip (l.map f)) :
    p.1 ∈ l ∧ p.2 = f p.1 := by
  induction l with
  | nil => cases h
  | cons a l ih =>
      rcases List.mem_cons.mp h with rfl | h
      · exact ⟨List.mem_cons_self, rfl⟩
      · exact ⟨List.mem_cons_of_mem a (ih h).left, (ih h).right⟩

/-!
# Members and cells

A cell that is written is a member with the name of the field. Other members
have other names.
-/

def writtenCells : List Field -> List (Option Json) -> List (String × Json)
  | f :: fields, some j :: cells => (f.name, j) :: writtenCells fields cells
  | _ :: fields, none :: cells => writtenCells fields cells
  | [], _ => []
  | _ :: _, [] => []

/-- The members write the cells, in any order and among members that are no
fields. -/
structure Shows (fields : List Field) (cells : List (Option Json))
    (members : List (String × Json)) : Prop where
  length : cells.length = fields.length
  others : exists others, (forall m, m ∈ others -> m.1 ∉ fields.map (·.name)) ∧
    members.Perm (writtenCells fields cells ++ others)

theorem name_of_mem_writtenCells {fields : List Field}
    {cells : List (Option Json)} {m : String × Json}
    (h : m ∈ writtenCells fields cells) : m.1 ∈ fields.map (·.name) := by
  fun_induction writtenCells fields cells with
  | case1 f fields j cells ih =>
      rcases List.mem_cons.mp h with rfl | h
      · exact List.mem_cons_self
      · exact List.mem_cons_of_mem _ (ih h)
  | case2 f fields cells ih => exact List.mem_cons_of_mem _ (ih h)
  | case3 => cases h
  | case4 => cases h

def memberOf (f : Field) : Option Json -> List (String × Json)
  | none => []
  | some j => [(f.name, j)]

theorem mem_writtenCells {fields : List Field} {cells : List (Option Json)}
    {f : Field} {j : Json} (h : (f, some j) ∈ fields.zip cells) :
    (f.name, j) ∈ writtenCells fields cells := by
  fun_induction writtenCells fields cells with
  | case1 g fields i cells ih =>
      rcases List.mem_cons.mp h with heq | h
      · cases heq
        exact List.mem_cons_self
      · exact List.mem_cons_of_mem _ (ih h)
  | case2 g fields cells ih =>
      rcases List.mem_cons.mp h with heq | h
      · cases heq
      · exact ih h
  | case3 => cases h
  | case4 => cases h

theorem filter_eq_nil_of_name {name : String} {members : List (String × Json)}
    (h : forall m, m ∈ members -> m.1 ≠ name) :
    members.filter (fun m => m.1 == name) = [] := by
  rw [List.filter_eq_nil_iff]
  intro m hm heq
  exact h m hm (beq_iff_eq.mp heq)

theorem filter_writtenCells {fields : List Field} {cells : List (Option Json)}
    (hnodup : (fields.map (·.name)).Nodup) {f : Field} {cell : Option Json}
    (h : (f, cell) ∈ fields.zip cells) :
    (writtenCells fields cells).filter (fun m => m.1 == f.name) =
      memberOf f cell := by
  fun_induction writtenCells fields cells with
  | case1 g fields j cells ih =>
      rw [List.map_cons, List.nodup_cons] at hnodup
      rcases List.mem_cons.mp h with heq | h
      · cases heq
        have hothers : (writtenCells fields cells).filter
            (fun m => m.1 == f.name) = [] :=
          filter_eq_nil_of_name fun m hm heq =>
            hnodup.left (heq ▸ name_of_mem_writtenCells hm)
        rw [List.filter_cons_of_pos (by simp), hothers]
        rfl
      · have hne : g.name ≠ f.name := by
          intro heq
          rw [heq] at hnodup
          exact hnodup.left (List.mem_map.mpr ⟨f,
            (List.of_mem_zip h).left, rfl⟩)
        rw [List.filter_cons_of_neg (by simpa using hne)]
        exact ih hnodup.right h
  | case2 g fields cells ih =>
      rw [List.map_cons, List.nodup_cons] at hnodup
      rcases List.mem_cons.mp h with heq | h
      · cases heq
        exact filter_eq_nil_of_name fun m hm heq =>
          hnodup.left (heq ▸ name_of_mem_writtenCells hm)
      · exact ih hnodup.right h
  | case3 => cases h
  | case4 => cases h

section

variable {fields : List Field} {cells : List (Option Json)}
  {members : List (String × Json)}

theorem Shows.memberCell (h : Shows fields cells members)
    (hnodup : (fields.map (·.name)).Nodup) {f : Field} {cell : Option Json}
    (hcell : (f, cell) ∈ fields.zip cells) :
    memberCell members f = some cell := by
  rcases h.others with ⟨others, hothers, hperm⟩
  have hname : f.name ∈ fields.map (·.name) :=
    List.mem_map.mpr ⟨f, (List.of_mem_zip hcell).left, rfl⟩
  have hnone := filter_eq_nil_of_name fun m hm heq => hothers m hm (heq ▸ hname)
  have hfilter := hperm.filter (fun m => m.1 == f.name)
  rw [List.filter_append, filter_writtenCells hnodup hcell, hnone,
    List.append_nil] at hfilter
  rw [Json.memberCell]
  cases cell with
  | none =>
      rw [memberOf, List.perm_nil] at hfilter
      rw [hfilter]
  | some j =>
      rw [memberOf, List.perm_singleton] at hfilter
      rw [hfilter]

/-- The reader finds the cells that an object shows. -/
theorem Shows.cells_eq (h : Shows fields cells members)
    (hnodup : (fields.map (·.name)).Nodup) :
    Json.cells fields (.object members) = some cells := by
  refine mapM_of_zip h.length.symm fun p hp => h.memberCell hnodup ?_
  rw [← List.zip_swap]
  exact List.mem_map.mpr ⟨p, hp, rfl⟩

theorem Shows.mem (h : Shows fields cells members) {f : Field} {j : Json}
    (hcell : (f, some j) ∈ fields.zip cells) : (f.name, j) ∈ members := by
  rcases h.others with ⟨others, _, hperm⟩
  rw [hperm.mem_iff, List.mem_append]
  exact Or.inl (mem_writtenCells hcell)

end

theorem cells_cons_of_absent {f : Field} {fields : List Field}
    {members : List (String × Json)}
    (h : forall m, m ∈ members -> m.1 ≠ f.name) :
    Json.cells (f :: fields) (.object members) =
      (Json.cells fields (.object members)).map (none :: ·) := by
  have habsent : memberCell members f = some none := by
    rw [memberCell, filter_eq_nil_of_name h]
  rw [Json.cells, Json.cells, List.mapM_cons, habsent]
  cases fields.mapM (memberCell members) <;> rfl

/-!
# Cells of fields with defaults

A field with a default may be left out when it has that value. An absent value
may also be written as `null`.
-/

/-- The cell shows a value, or it is left out because the default is meant. -/
inductive Omittable (shows : Json -> Prop) (isDefault : Prop) :
    Option Json -> Prop where
  | written {j : Json} : shows j -> Omittable shows isDefault (some j)
  | omitted : isDefault -> Omittable shows isDefault none

def ShowsOption {α : Type} (shows : α -> Json -> Prop) :
    Option α -> Json -> Prop
  | none, j => j = .null
  | some a, j => shows a j

theorem showsOption_ofOption {α : Type} {shows : α -> Json -> Prop}
    {f : α -> Json} {o : Option α} (h : forall a, o = some a -> shows a (f a)) :
    ShowsOption shows o (ofOption f o) := by
  cases o with
  | none => rfl
  | some a => exact h a rfl

theorem unsigned?_ofNat {bits n : Nat} (h : n < wordSize bits) :
    unsigned? bits (ofNat n) = some n :=
  if_pos h

theorem Omittable.withDefault {α : Type} {read : Json -> Option α}
    {shows : Json -> Prop} {default a : α} {cell : Option Json}
    (h : Omittable shows (a = default) cell)
    (hread : forall j, cell = some j -> shows j -> read j = some a) :
    Json.withDefault default read cell = some a := by
  cases h with
  | written hshows => exact hread _ rfl hshows
  | omitted heq => rw [heq]; rfl

theorem optional_some {α : Type} {read : Json -> Option α} {j : Json}
    (h : j ≠ .null) :
    Json.optional read (some j) = (read j).map some := by
  cases j with
  | null => exact absurd rfl h
  | _ => rfl

theorem Omittable.optional {α : Type} {read : Json -> Option α}
    {shows : α -> Json -> Prop} {o : Option α} {cell : Option Json}
    (h : Omittable (ShowsOption shows o) (o = none) cell)
    (hread : forall a j, o = some a -> cell = some j -> shows a j ->
      read j = some a)
    (hnull : forall a, ¬ shows a .null) : Json.optional read cell = some o := by
  cases h with
  | omitted heq => rw [heq]; rfl
  | @written j hshows =>
      cases o with
      | none =>
          rw [show j = .null from hshows]
          rfl
      | some a =>
          have hne : j ≠ .null := by
            rintro rfl
            exact hnull a hshows
          rw [optional_some hne, hread a j rfl rfl hshows]
          rfl

end Json
end FairLease
