import Mathlib

/-! Grouping the items of a list by key in an association list. Each item
extends the group that is stored under its key. -/

namespace Grouping

variable {Item Key Group : Type} [DecidableEq Key] (key : Item → Key) (start : Group)
  (extend : Group → Item → Group)

def accumulate (groups : AList fun _ : Key => Group) (item : Item) : AList fun _ : Key => Group :=
  groups.insert (key item) (extend ((groups.lookup (key item)).getD start) item)

def members (items : List Item) (k : Key) : List Item :=
  items.filter fun item => decide (key item = k)

theorem lookup_foldl (items : List Item) (groups : AList fun _ : Key => Group) (k : Key) :
    (items.foldl (accumulate key start extend) groups).lookup k =
      if members key items k = [] then groups.lookup k
      else some ((members key items k).foldl extend ((groups.lookup k).getD start)) := by
  induction items generalizing groups with
  | nil => rfl
  | cons item items ih =>
      rw [List.foldl_cons, ih]
      by_cases same : key item = k
      · subst same
        have here : members key (item :: items) (key item) =
            item :: members key items (key item) := by
          simp [members]
        rw [here, accumulate, AList.lookup_insert]
        by_cases empty : members key items (key item) = []
        · simp [empty]
        · simp [empty]
      · have elsewhere : members key (item :: items) k = members key items k := by
          simp [members, same]
        rw [elsewhere, accumulate, AList.lookup_insert_ne (Ne.symm same)]

theorem mem_entries_foldl (items : List Item) (entry : Σ _ : Key, Group) :
    entry ∈ (items.foldl (accumulate key start extend) ∅).entries ↔
      members key items entry.1 ≠ [] ∧
        entry.2 = (members key items entry.1).foldl extend start := by
  obtain ⟨k, group⟩ := entry
  rw [← AList.mem_lookup_iff, lookup_foldl]
  by_cases empty : members key items k = []
  · simp [empty]
  · simp [empty, eq_comm]

theorem mem_keys_foldl (items : List Item) (k : Key) :
    k ∈ (items.foldl (accumulate key start extend) ∅).keys ↔ ∃ item ∈ items, key item = k := by
  rw [← AList.mem_keys, ← AList.lookup_isSome, lookup_foldl]
  by_cases empty : members key items k = []
  · simp only [empty, ↓reduceIte, AList.lookup_empty, Option.isSome_none, Bool.false_eq_true,
      false_iff, not_exists, not_and]
    intro item member same
    have absent : item ∈ members key items k := by simp [members, member, same]
    rw [empty] at absent
    exact List.not_mem_nil absent
  · obtain ⟨item, member⟩ := List.exists_mem_of_ne_nil _ empty
    simp only [members, List.mem_filter, decide_eq_true_eq] at member
    simp only [empty, ↓reduceIte, Option.isSome_some, true_iff]
    exact ⟨item, member⟩

theorem flatMap_members_perm (keys : List Key) (distinct : keys.Nodup) (items : List Item)
    (covered : ∀ item ∈ items, key item ∈ keys) :
    (keys.flatMap (members key items)).Perm items := by
  induction keys generalizing items with
  | nil =>
      have empty : items = [] := by
        rw [List.eq_nil_iff_forall_not_mem]
        intro item member
        exact List.not_mem_nil (covered item member)
      rw [empty]
      exact .refl _
  | cons k keys ih =>
      obtain ⟨fresh, distinct⟩ := List.nodup_cons.mp distinct
      have later : keys.flatMap (members key items) =
          keys.flatMap (members key (items.filter fun item => !decide (key item = k))) := by
        refine List.flatMap_congr fun other member => ?_
        rw [members, members, List.filter_filter]
        refine List.filter_congr fun item _ => ?_
        by_cases same : key item = other
        · have differs : key item ≠ k := by
            intro clash
            rw [← clash, same] at fresh
            exact fresh member
          simp [same, same ▸ differs]
        · simp [same]
      rw [List.flatMap_cons, later]
      refine List.Perm.trans (.append_left _ (ih distinct _ ?_))
        (List.filter_append_perm (fun item => decide (key item = k)) items)
      intro item member
      simp only [List.mem_filter, Bool.not_eq_true', decide_eq_false_iff_not] at member
      have either := List.mem_cons.mp (covered item member.1)
      exact either.resolve_left member.2

end Grouping
