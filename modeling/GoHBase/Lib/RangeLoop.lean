import Mathlib

/-! Loops over Go maps. A map is an association list, and each execution of a
`range` statement visits its entries in an order of its own. -/

namespace RangeLoop

/-- The order in which one execution of a loop visits the entries of a map. -/
structure Order (α : Type) where
  visit : List α → List α
  perm : ∀ entries, (visit entries).Perm entries

def Order.stored (α : Type) : Order α := ⟨id, fun _ => .refl _⟩

def Order.reversed (α : Type) : Order α := ⟨List.reverse, List.reverse_perm⟩

@[simp]
theorem Order.visit_nil {α : Type} (order : Order α) : order.visit [] = [] :=
  List.perm_nil.mp (order.perm [])

@[simp]
theorem Order.visit_singleton {α : Type} (order : Order α) (entry : α) :
    order.visit [entry] = [entry] :=
  List.perm_singleton.mp (order.perm [entry])

theorem Order.mem_visit {α : Type} (order : Order α) (entries : List α) (entry : α) :
    entry ∈ order.visit entries ↔ entry ∈ entries :=
  (order.perm entries).mem_iff

@[simp]
theorem Order.length_visit {α : Type} (order : Order α) (entries : List α) :
    (order.visit entries).length = entries.length :=
  (order.perm entries).length_eq

theorem Order.flatMap_perm {α β : Type} (first second : Order α) (entries : List α)
    (left right : α → List β) (bodies : ∀ entry ∈ entries, (left entry).Perm (right entry)) :
    ((first.visit entries).flatMap left).Perm ((second.visit entries).flatMap right) := by
  have same := (first.perm entries).trans (second.perm entries).symm
  refine same.flatMap fun entry member => bodies entry ?_
  exact (first.mem_visit entries entry).mp member

theorem Order.map_perm {α β : Type} (first second : Order α) (entries : List α)
    (body : α → β) : ((first.visit entries).map body).Perm ((second.visit entries).map body) :=
  ((first.perm entries).trans (second.perm entries).symm).map body

theorem foldl_add_eq_sum {α : Type} (entries : List α) (size : α → Nat) (start : Nat) :
    entries.foldl (fun total entry => total + size entry) start =
      start + (entries.map size).sum := by
  induction entries generalizing start with
  | nil => simp
  | cons entry entries ih =>
      rw [List.foldl_cons, ih, List.map_cons, List.sum_cons]
      omega

end RangeLoop
