import GoHBase.Lib.Buffer

/-! Total correctness of a routine: it returns, and its result meets a
postcondition. The rules are equivalences, so that rewriting with them turns a
routine into the bounds it relies on. -/

namespace Runtime

def Returns {α : Type} (run : Go α) (post : α → Prop) : Prop :=
  ∃ result, run = .ok result ∧ post result

section Rules

variable {α β : Type} {post : β → Prop}

theorem returns_ok (value : β) : Returns (.ok value) post ↔ post value := by
  constructor
  · rintro ⟨_, ran, met⟩
    cases ran
    exact met
  · exact fun met => ⟨value, rfl, met⟩

theorem returns_pure (value : β) : Returns (pure value) post ↔ post value := returns_ok value

theorem returns_error (abort : Abort) : Returns (.error abort) post ↔ False := by
  constructor
  · rintro ⟨_, ran, _⟩
    cases ran
  · exact False.elim

theorem returns_bind (first : Go α) (next : α → Go β) :
    Returns (first >>= next) post ↔ Returns first fun value => Returns (next value) post := by
  constructor
  · rintro ⟨result, ran, met⟩
    obtain ⟨value, started, rest⟩ := (bind_ok_iff _ _ _).mp ran
    exact ⟨value, started, result, rest, met⟩
  · rintro ⟨value, started, result, rest, met⟩
    exact ⟨result, (bind_ok_iff _ _ _).mpr ⟨value, started, rest⟩, met⟩

theorem returns_deref (pointer : Option β) :
    Returns (deref pointer) post ↔ ∃ value, pointer = some value ∧ post value := by
  cases pointer with
  | none => simp [deref, returns_error]
  | some value => simp [deref, returns_ok]

theorem returns_ite (condition : Prop) [Decidable condition] (yes no : Go β) :
    Returns (if condition then yes else no) post ↔
      (condition → Returns yes post) ∧ (¬condition → Returns no post) := by
  by_cases holds : condition
  · simp [holds]
  · simp [holds]

theorem Returns.mono {weaker : β → Prop} {run : Go β} (ran : Returns run post)
    (weaken : ∀ result, post result → weaker result) : Returns run weaker := by
  obtain ⟨result, returned, met⟩ := ran
  exact ⟨result, returned, weaken result met⟩

end Rules

def PanicsUnless {α : Type} (fine : Bool) (run : Go α) (post : α → Prop) : Prop :=
  if fine then Returns run post else ∃ message, run = .error (.panic message)

namespace PanicsUnless

variable {α β γ : Type} {fine : Bool}

theorem returns {run : Go α} {post : α → Prop} (met : Returns run post) :
    PanicsUnless true run post := met

theorem bind {later : Bool} {first : Go α} {next : α → Go β} {mid : α → Prop} {post : β → Prop}
    (started : PanicsUnless fine first mid)
    (goes : ∀ value, mid value → PanicsUnless later (next value) post) :
    PanicsUnless (fine && later) (first >>= next) post := by
  cases fine with
  | false =>
      obtain ⟨message, panicked⟩ := started
      exact ⟨message, by rw [panicked]; rfl⟩
  | true =>
      obtain ⟨value, returned, met⟩ := started
      rw [returned, ok_bind, Bool.true_and]
      exact goes value met

theorem map {run : Go α} {change : α → β} {mid : α → Prop} {post : β → Prop}
    (ran : PanicsUnless fine run mid) (keeps : ∀ value, mid value → post (change value)) :
    PanicsUnless fine (run >>= fun value => pure (change value)) post := by
  rw [← Bool.and_true fine]
  exact ran.bind fun value met => (returns_pure _).mpr (keeps value met)

theorem mapM {origin : γ → α → Prop} {related : γ → β → Prop} {each : γ → Bool} {step : α → Go β}
    {sources : List γ} {items : List α} (comes : List.Forall₂ origin sources items)
    (steps : ∀ source item, origin source item →
      PanicsUnless (each source) (step item) (related source)) :
    PanicsUnless (sources.all each) (items.mapM step) (List.Forall₂ related sources) := by
  induction comes with
  | nil => exact (returns_pure _).mpr .nil
  | cons here _ ih =>
      rw [List.all_cons, List.mapM_cons]
      refine (steps _ _ here).bind fun result made => ?_
      exact ih.map fun results rest => .cons made rest

end PanicsUnless

end Runtime

namespace Buffer

open ByteString Runtime

section Slices

variable {α : Type} {post : List α → Prop} (buffer : List α)

theorem returns_sliceFrom (low : Nat) :
    Returns (sliceFrom buffer low) post ↔ low ≤ buffer.length ∧ post (buffer.drop low) := by
  unfold sliceFrom
  by_cases inside : low ≤ buffer.length
  · simp [inside, returns_ok]
  · simp [inside, returns_error]

theorem returns_sliceTo (high : Nat) :
    Returns (sliceTo buffer high) post ↔ high ≤ buffer.length ∧ post (buffer.take high) := by
  unfold sliceTo
  by_cases inside : high ≤ buffer.length
  · simp [inside, returns_ok]
  · simp [inside, returns_error]

theorem returns_slice (low high : Nat) :
    Returns (slice buffer low high) post ↔
      (low ≤ high ∧ high ≤ buffer.length) ∧ post ((buffer.take high).drop low) := by
  unfold slice
  by_cases inside : low ≤ high ∧ high ≤ buffer.length
  · rw [if_pos inside, returns_ok]
    simp [inside]
  · rw [if_neg inside, returns_error]
    simp [inside]

theorem returns_index {met : α → Prop} (position : Nat) :
    Returns (index buffer position) met ↔ ∃ item, buffer[position]? = some item ∧ met item := by
  unfold index
  cases buffer[position]? with
  | none => simp [returns_error]
  | some item => simp [returns_ok]

end Slices

section Joins

variable {α : Type} {buffer front back : List α}

theorem slices_join {middle : Nat} (before : sliceTo buffer middle = .ok front)
    (after : sliceFrom buffer middle = .ok back) :
    buffer = front ++ back ∧ front.length = middle := by
  unfold sliceTo at before
  unfold sliceFrom at after
  split at before
  · rename_i inside
    rw [if_pos inside] at after
    cases before
    cases after
    exact ⟨(List.take_append_drop _ _).symm, List.length_take_of_le inside⟩
  · cases before

theorem sliceTo_front {high : Nat} (taken : sliceTo buffer high = .ok front) :
    ∃ rest, buffer = front ++ rest ∧ front.length = high := by
  unfold sliceTo at taken
  split at taken
  · rename_i inside
    cases taken
    exact ⟨_, (List.take_append_drop _ _).symm, List.length_take_of_le inside⟩
  · cases taken

theorem index_sliceFrom_join {item : α} (first : index buffer 0 = .ok item)
    (after : sliceFrom buffer 1 = .ok back) : buffer = [item] ++ back := by
  cases buffer with
  | nil => cases first
  | cons head tail =>
      cases first
      cases after
      rfl

theorem slice_length {low high : Nat} (cut : slice buffer low high = .ok front) :
    front.length = high - low := by
  unfold slice at cut
  split at cut
  · rename_i inside
    cases cut
    rw [List.length_drop, List.length_take_of_le inside.2]
  · cases cut

theorem slice_append {low middle high : Nat} (left : slice buffer low middle = .ok front)
    (right : slice buffer middle high = .ok back) :
    slice buffer low high = .ok (front ++ back) := by
  unfold slice at *
  split at left
  · rename_i before
    split at right
    · rename_i after
      cases left
      cases right
      rw [if_pos ⟨by omega, by omega⟩]
      congr 1
      apply List.ext_getElem?
      intro position
      simp only [List.getElem?_append, List.getElem?_drop, List.getElem?_take, List.length_drop,
        List.length_take]
      grind
    · cases right
  · cases left

theorem slice_zero (high : Nat) : slice buffer 0 high = sliceTo buffer high := by
  simp [slice, sliceTo]

end Joins

end Buffer
