import FairLease.Queue.Consumer

/-!
# What is pending in a work queue

The quick look agrees with the queue, and no item is queued twice. An item stays
pending until it is the oldest one and a consumer takes it.
-/

namespace FairLease
namespace WorkQueue

variable {α : Type} [DecidableEq α] [Hashable α]

structure IsConsistent (q : WorkQueue α) : Prop where
  nodup : q.items.Nodup
  known : forall item, q.pending.contains item = true <-> item ∈ q.items

theorem isConsistent_empty : (empty : WorkQueue α).IsConsistent where
  nodup := List.nodup_nil
  known := by simp [empty]

/-!
# Adding
-/

theorem add_cases (q : WorkQueue α) (item : α) :
    ((q.isShutDown = true ∨ q.pending.contains item = true) ∧
      q.add item = (false, q)) ∨
      (q.isShutDown = false ∧ q.pending.contains item = false ∧
        q.add item = (true, { q with
          items := q.items ++ [item], pending := q.pending.insert item
          wakeups := q.wakeups + 1 })) := by
  unfold add
  cases hshut : q.isShutDown with
  | true => exact Or.inl ⟨Or.inl rfl, rfl⟩
  | false =>
      cases hpending : q.pending.contains item with
      | true => exact Or.inl ⟨Or.inr rfl, rfl⟩
      | false => exact Or.inr ⟨rfl, rfl, rfl⟩

def addAll (q : WorkQueue α) (items : List α) : WorkQueue α :=
  items.foldl (fun q item => (q.add item).2) q

@[simp] theorem addAll_nil (q : WorkQueue α) : q.addAll [] = q := rfl

theorem addAll_append (q : WorkQueue α) (items more : List α) :
    q.addAll (items ++ more) = (q.addAll items).addAll more :=
  List.foldl_append

@[simp] theorem isShutDown_add (q : WorkQueue α) (item : α) :
    (q.add item).2.isShutDown = q.isShutDown := by
  rcases q.add_cases item with ⟨_, hadd⟩ | ⟨_, _, hadd⟩
  · rw [hadd]
  · rw [hadd]

theorem IsConsistent.add {q : WorkQueue α} (h : q.IsConsistent) (item : α) :
    (q.add item).2.IsConsistent := by
  rcases q.add_cases item with ⟨_, hadd⟩ | ⟨_, hpending, hadd⟩
  · rw [hadd]
    exact h
  · have hnew : item ∉ q.items := by
      rw [← h.known item, hpending]
      exact Bool.false_ne_true
    rw [hadd]
    constructor
    · exact List.nodup_append.mpr ⟨h.nodup, by simp, by
        rintro x hx y hy rfl
        rw [List.mem_singleton.mp hy] at hx
        exact hnew hx⟩
    · intro x
      rw [Std.HashSet.contains_insert, Bool.or_eq_true, h.known x,
        List.mem_append, List.mem_singleton, beq_iff_eq]
      constructor
      · rintro (hx | hx)
        · exact Or.inr hx.symm
        · exact Or.inl hx
      · rintro (hx | hx)
        · exact Or.inr hx
        · exact Or.inl hx.symm

theorem mem_add_of_mem {q : WorkQueue α} {x : α} (h : x ∈ q.items) (item : α) :
    x ∈ (q.add item).2.items := by
  rcases q.add_cases item with ⟨_, hadd⟩ | ⟨_, _, hadd⟩
  · rw [hadd]
    exact h
  · rw [hadd]
    exact List.mem_append_left _ h

/-- An item that is added to an open queue is pending, whether it was before or
not. -/
theorem IsConsistent.mem_add_self {q : WorkQueue α} (h : q.IsConsistent)
    (hopen : q.isShutDown = false) (item : α) :
    item ∈ (q.add item).2.items := by
  rcases q.add_cases item with ⟨hwhy, hadd⟩ | ⟨_, _, hadd⟩
  · rw [hadd]
    rcases hwhy with hshut | hpending
    · rw [hopen] at hshut
      cases hshut
    · exact (h.known item).mp hpending
  · rw [hadd]
    exact List.mem_append_right _ (List.mem_singleton_self item)

/-!
# Taking
-/

theorem tryGet_cases (q : WorkQueue α) :
    (q.items = [] ∧ q.tryGet = (none, q)) ∨
      exists item rest, q.items = item :: rest ∧
        q.tryGet = (some item, { q with items := rest, pending := q.pending.erase item }) := by
  unfold tryGet
  cases hitems : q.items with
  | nil => exact Or.inl ⟨rfl, rfl⟩
  | cons item rest => exact Or.inr ⟨item, rest, rfl, rfl⟩

theorem isConsistent_erase {q : WorkQueue α} (h : q.IsConsistent) {item : α}
    {rest : List α} (hitems : q.items = item :: rest) :
    IsConsistent { q with items := rest, pending := q.pending.erase item } := by
  have hnodup := h.nodup
  rw [hitems, List.nodup_cons] at hnodup
  constructor
  · exact hnodup.right
  · intro x
    rw [Std.HashSet.contains_erase, Bool.and_eq_true, h.known x, hitems,
      List.mem_cons]
    constructor
    · rintro ⟨hne, rfl | hx⟩
      · simp at hne
      · exact hx
    · intro hx
      refine ⟨?_, Or.inr hx⟩
      rw [Bool.not_eq_true', beq_eq_false_iff_ne]
      rintro rfl
      exact hnodup.left hx

end WorkQueue

/-!
# Consumers

A consumer leaves the queue alone or takes its oldest item, which is its answer.
-/

namespace Consumer

variable {α : Type} [DecidableEq α] [Hashable α]

theorem step_cases (isCancelled : Bool) (c : Consumer α) (q : WorkQueue α) :
    (c.step isCancelled q).2 = q ∨
      exists item rest, q.items = item :: rest ∧
        c.step isCancelled q =
          (.returned (some item), { q with items := rest, pending := q.pending.erase item }) := by
  cases c with
  | registering | checking | returned => exact Or.inl rfl
  | taking heard =>
      rcases q.tryGet_cases with ⟨_, hget⟩ | ⟨item, rest, hitems, hget⟩
      · exact Or.inl (by simp [step, hget])
      · exact Or.inr ⟨item, rest, hitems, by simp [step, hget]⟩
  | waiting heard =>
      refine Or.inl ?_
      cases isCancelled with
      | true => rfl
      | false => by_cases hheard : heard < q.wakeups <;> simp [step, hheard]

end Consumer
end FairLease
