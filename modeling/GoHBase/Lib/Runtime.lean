import Mathlib

/-!
The ways a Go routine can end: it returns a value, or it panics, exits or waits for ever.
Errors that a routine returns are ordinary values and live in its result type.
-/

namespace Runtime

inductive Abort
  | panic (message : String)
  | fatal (message : String)
  | blocked
  deriving DecidableEq, Repr

abbrev Go (α : Type) := Except Abort α

/-- `*pointer` of a pointer that may be nil. -/
def deref {α : Type} : Option α → Go α
  | none => .error (.panic "invalid memory address or nil pointer dereference")
  | some value => .ok value

theorem bind_ok_iff {ε α β : Type} (first : Except ε α) (next : α → Except ε β) (result : β) :
    (first >>= next) = .ok result ↔ ∃ value, first = .ok value ∧ next value = .ok result := by
  cases first with
  | error abort => simp [bind, Except.bind]
  | ok value => simp [bind, Except.bind]

@[simp] theorem ok_bind {α β : Type} (value : α) (next : α → Go β) :
    ((.ok value : Go α) >>= next) = next value := rfl

theorem map_ok_iff {α β : Type} (first : Go α) (change : α → β) (result : β) :
    first.map change = .ok result ↔ ∃ value, first = .ok value ∧ change value = result := by
  cases first with
  | error abort => simp [Except.map]
  | ok value => simp [Except.map]

theorem mapM_ok_iff {α β : Type} (step : α → Go β) (items : List α) (results : List β) :
    items.mapM step = .ok results ↔
      List.Forall₂ (fun item result => step item = .ok result) items results := by
  induction items generalizing results with
  | nil =>
      rw [List.mapM_nil, List.forall₂_nil_left_iff]
      exact ⟨fun ran => (Except.ok.inj ran).symm, fun ended => ended ▸ rfl⟩
  | cons item items ih =>
      rw [List.mapM_cons, List.forall₂_cons_left_iff]
      constructor
      · intro ran
        obtain ⟨result, first, rest⟩ := (bind_ok_iff _ _ _).mp ran
        obtain ⟨later, tail, finished⟩ := (bind_ok_iff _ _ _).mp rest
        cases finished
        exact ⟨result, later, first, (ih later).mp tail, rfl⟩
      · rintro ⟨result, later, first, rest, rfl⟩
        rw [first, ok_bind, (ih later).mpr rest]
        rfl

theorem mapM_total {α β : Type} (step : α → Go β) (items : List α)
    (total : ∀ item ∈ items, ∃ result, step item = .ok result) :
    ∃ results, items.mapM step = .ok results := by
  induction items with
  | nil => exact ⟨[], rfl⟩
  | cons item items ih =>
      obtain ⟨result, first⟩ := total item List.mem_cons_self
      obtain ⟨later, rest⟩ := ih fun item member => total item (List.mem_cons_of_mem _ member)
      rw [List.mapM_cons, first, ok_bind, rest]
      exact ⟨_, rfl⟩

/-- A loop whose steps are a partial function collects its values. -/
theorem mapM_ok_iff_filterMap {α β : Type} {step : α → Go β} {value : α → Option β}
    (steps : ∀ item result, step item = .ok result ↔ value item = some result) (items : List α)
    (results : List β) :
    items.mapM step = .ok results ↔
      (∀ item ∈ items, value item ≠ none) ∧ results = items.filterMap value := by
  rw [mapM_ok_iff]
  induction items generalizing results with
  | nil => simp
  | cons item items ih =>
      rw [List.forall₂_cons_left_iff, List.forall_mem_cons]
      constructor
      · rintro ⟨result, later, first, rest, rfl⟩
        obtain ⟨each, rfl⟩ := (ih later).mp rest
        have here := (steps item result).mp first
        exact ⟨⟨by simp [here], each⟩, by rw [List.filterMap_cons_some here]⟩
      · rintro ⟨⟨here, each⟩, rfl⟩
        obtain ⟨result, here⟩ := Option.ne_none_iff_exists'.mp here
        exact ⟨result, _, (steps item result).mpr here, (ih _).mpr ⟨each, rfl⟩,
          List.filterMap_cons_some here⟩

end Runtime
