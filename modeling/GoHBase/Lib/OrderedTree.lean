import GoHBase.Lib.Runtime

/-!
An ordered map with enumerators, as a B-tree library documents it. `Cursor` says
what an enumerator does on a list of items; `Tree` is any implementation whose
operations agree with that description, and `reference` is the simplest one.
-/

namespace OrderedTree

open Runtime

def Decides {α : Type*} [LinearOrder α] (verdict : Int) (left right : α) : Prop :=
  (verdict < 0 ↔ left < right) ∧ (verdict = 0 ↔ left = right)

section Verdicts

variable {α : Type*} [LinearOrder α] {verdict : Int} {left right : α}

theorem Decides.of_lt (negative : verdict < 0) (less : left < right) :
    Decides verdict left right :=
  ⟨by simp [negative, less], by simp [negative.ne, less.ne]⟩

theorem Decides.of_gt (positive : 0 < verdict) (greater : right < left) :
    Decides verdict left right :=
  ⟨iff_of_false positive.not_gt greater.not_gt, by simp [positive.ne', greater.ne']⟩

theorem Decides.of_eq (zero : verdict = 0) (same : left = right) :
    Decides verdict left right := by
  simp [Decides, zero, same]

theorem Decides.pos_iff (decided : Decides verdict left right) :
    0 < verdict ↔ right < left := by
  rcases lt_trichotomy left right with less | same | greater
  · exact iff_of_false (decided.1.mpr less).not_gt less.not_gt
  · simp [decided.2.mpr same, same]
  · have notNegative : ¬verdict < 0 := fun negative => (decided.1.mp negative).not_gt greater
    have notZero : verdict ≠ 0 := fun zero => greater.ne' (decided.2.mp zero)
    simp only [greater, iff_true]
    omega

theorem Decides.le_iff (decided : Decides verdict left right) : verdict ≤ 0 ↔ left ≤ right := by
  rw [← not_lt, ← not_lt]
  exact not_congr decided.pos_iff

theorem Decides.lexLeft {β : Type*} [LinearOrder β] (decided : Decides verdict left right)
    (different : left ≠ right) (leftTail rightTail : β) :
    Decides verdict (toLex (left, leftTail)) (toLex (right, rightTail)) := by
  rcases lt_or_gt_of_ne different with less | greater
  · exact Decides.of_lt (decided.1.mpr less) (Prod.Lex.toLex_lt_toLex.mpr (.inl less))
  · exact Decides.of_gt (decided.pos_iff.mpr greater) (Prod.Lex.toLex_lt_toLex.mpr (.inl greater))

theorem Decides.lexRight {β : Type*} [LinearOrder β] (head : β)
    (decided : Decides verdict left right) :
    Decides verdict (toLex (head, left)) (toLex (head, right)) := by
  constructor
  · simpa [Prod.Lex.toLex_lt_toLex] using decided.1
  · simpa using decided.2

end Verdicts

/-- An enumerator stands between the items behind it, nearest first, and those
from the current one on. `hit` is unset only by a seek that found no exact match. -/
structure Cursor (K V : Type) where
  behind : List (K × V)
  ahead : List (K × V)
  hit : Bool
  eof : Bool

variable {K V : Type}

def Cursor.back (cursor : Cursor K V) : Cursor K V :=
  match cursor.behind with
  | [] => { cursor with eof := true }
  | item :: behind => { cursor with behind := behind, ahead := item :: cursor.ahead }

/-- Returns the current item and moves to the following one. EOF is sticky. -/
def Cursor.next (cursor : Cursor K V) : Option (K × V) × Cursor K V :=
  if cursor.eof then (none, cursor)
  else
    match cursor.ahead with
    | [] => (none, { cursor with eof := true })
    | item :: ahead =>
        (some item, {
          behind := item :: cursor.behind
          ahead := ahead
          hit := true
          eof := ahead.isEmpty
        })

/-- Returns the current item and moves to the preceding one. A seek without a
hit has overshot, so the first call steps back before it looks. -/
def Cursor.prev (cursor : Cursor K V) : Option (K × V) × Cursor K V :=
  if cursor.eof then (none, cursor)
  else
    let landed := if cursor.hit then cursor else cursor.back
    if landed.eof then (none, landed)
    else
      match landed.ahead with
      | [] => (none, { landed with eof := true })
      | item :: _ => (some item, { landed.back with hit := true })

/-- Splits the items at a key: those below it, the others, and whether the key
itself is there. Any stored key may be compared, so any comparison may abort. -/
def locate (cmp : K → K → Go Int) (key : K) :
    List (K × V) → Go (List (K × V) × List (K × V) × Bool)
  | [] => pure ([], [], false)
  | item :: rest => do
      let verdict ← cmp key item.1
      let (below, others, hit) ← locate cmp key rest
      if 0 < verdict then pure (item :: below, others, hit)
      else pure ([], item :: rest, verdict == 0)

def seekItems (cmp : K → K → Go Int) (key : K) (items : List (K × V)) :
    Go (Cursor K V × Bool) := do
  let (below, others, hit) ← locate cmp key items
  pure ({ behind := below.reverse, ahead := others, hit := hit, eof := false }, hit)

def seekFirstItems (items : List (K × V)) : Option (Cursor K V) :=
  if items.isEmpty then none
  else some { behind := [], ahead := items, hit := true, eof := false }

/-- The updater sees the old value, if any, and may decline to write. -/
def putItems {σ : Type} (cmp : K → K → Go Int) (key : K)
    (update : Option V → Go (Option V × σ)) (items : List (K × V)) :
    Go (List (K × V) × σ) := do
  let (below, others, hit) ← locate cmp key items
  match hit, others with
  | true, (stored, old) :: rest =>
      let (written, output) ← update (some old)
      match written with
      | none => pure (items, output)
      | some value => pure (below ++ (stored, value) :: rest, output)
  | _, _ =>
      let (written, output) ← update none
      match written with
      | none => pure (items, output)
      | some value => pure (below ++ (key, value) :: others, output)

def deleteItems (cmp : K → K → Go Int) (key : K) (items : List (K × V)) :
    Go (List (K × V) × Bool) := do
  let (below, others, hit) ← locate cmp key items
  if hit then pure (below ++ others.tail, true) else pure (items, false)

structure Tree (K V : Type) (cmp : K → K → Go Int) where
  Carrier : Type
  Enumerator : Type
  new : Carrier
  len : Carrier → Nat
  seek : Carrier → K → Go (Enumerator × Bool)
  seekFirst : Carrier → Option Enumerator
  next : Enumerator → Option (K × V) × Enumerator
  prev : Enumerator → Option (K × V) × Enumerator
  put : {σ : Type} → Carrier → K → (Option V → Go (Option V × σ)) → Go (Carrier × σ)
  delete : Carrier → K → Go (Carrier × Bool)
  items : Carrier → List (K × V)
  cursor : Enumerator → Cursor K V
  items_new : items new = []
  len_items : ∀ tree, len tree = (items tree).length
  seek_items : ∀ tree key,
    (seek tree key).map (fun found => (cursor found.1, found.2)) = seekItems cmp key (items tree)
  seekFirst_items : ∀ tree, (seekFirst tree).map cursor = seekFirstItems (items tree)
  next_cursor : ∀ enumerator,
    ((next enumerator).1, cursor (next enumerator).2) = (cursor enumerator).next
  prev_cursor : ∀ enumerator,
    ((prev enumerator).1, cursor (prev enumerator).2) = (cursor enumerator).prev
  put_items : ∀ {σ : Type} tree key (update : Option V → Go (Option V × σ)),
    (put tree key update).map (fun stored => (items stored.1, stored.2)) =
      putItems cmp key update (items tree)
  delete_items : ∀ tree key,
    (delete tree key).map (fun left => (items left.1, left.2)) = deleteItems cmp key (items tree)

def reference (K V : Type) (cmp : K → K → Go Int) : Tree K V cmp where
  Carrier := List (K × V)
  Enumerator := Cursor K V
  new := []
  len := List.length
  seek items key := seekItems cmp key items
  seekFirst := seekFirstItems
  next := Cursor.next
  prev := Cursor.prev
  put items key update := putItems cmp key update items
  delete items key := deleteItems cmp key items
  items := id
  cursor := id
  items_new := rfl
  len_items _ := rfl
  seek_items tree key := by cases found : seekItems cmp key tree <;> simp [Except.map, found]
  seekFirst_items tree := by simp
  next_cursor _ := rfl
  prev_cursor _ := rfl
  put_items tree key update := by
    cases found : putItems cmp key update tree <;> simp [Except.map, found]
  delete_items tree key := by cases found : deleteItems cmp key tree <;> simp [Except.map, found]

/-- A comparator that is a linear order, by `rank`, on the keys that satisfy `valid`. -/
structure LawfulOn {L : Type*} [LinearOrder L] (cmp : K → K → Go Int) (valid : K → Prop)
    (rank : K → L) : Prop where
  decides : ∀ a b, valid a → valid b →
    ∃ verdict, cmp a b = .ok verdict ∧ Decides verdict (rank a) (rank b)
  rank_inj : ∀ a b, valid a → valid b → rank a = rank b → a = b

theorem putItems_cases {σ : Type} {cmp : K → K → Go Int} {key : K}
    {update : Option V → Go (Option V × σ)} {items items' : List (K × V)} {output : σ}
    (stored : putItems cmp key update items = .ok (items', output)) :
    ∃ below others hit, locate cmp key items = .ok (below, others, hit) ∧
      ((∃ value found rest written, hit = true ∧ others = (found, value) :: rest ∧
          update (some value) = .ok (written, output) ∧
          items' = written.elim items fun value => below ++ (found, value) :: rest) ∨
        ∃ written, (hit = true → others = []) ∧ update none = .ok (written, output) ∧
          items' = written.elim items fun value => below ++ (key, value) :: others) := by
  simp only [putItems, bind_ok_iff] at stored
  obtain ⟨⟨below, others, hit⟩, located, stored⟩ := stored
  refine ⟨below, others, hit, located, ?_⟩
  dsimp only at stored
  split at stored
  · rename_i found value rest
    obtain ⟨⟨written, result⟩, updated, stored⟩ := (bind_ok_iff _ _ _).mp stored
    cases written with
    | none =>
        cases stored
        exact .inl ⟨value, found, rest, none, rfl, rfl, updated, rfl⟩
    | some new =>
        cases stored
        exact .inl ⟨value, found, rest, some new, rfl, rfl, updated, rfl⟩
  · rename_i other
    have empty : hit = true → others = [] := by
      rintro rfl
      cases others with
      | nil => rfl
      | cons item rest => exact (other item.1 item.2 rest rfl rfl).elim
    obtain ⟨⟨written, result⟩, updated, stored⟩ := (bind_ok_iff _ _ _).mp stored
    cases written with
    | none =>
        cases stored
        exact .inr ⟨none, empty, updated, rfl⟩
    | some new =>
        cases stored
        exact .inr ⟨some new, empty, updated, rfl⟩

section Lawful

variable {L : Type*} [LinearOrder L] {cmp : K → K → Go Int} {valid : K → Prop} {rank : K → L}

def Sorted (rank : K → L) (items : List (K × V)) : Prop :=
  items.Pairwise fun first second => rank first.1 < rank second.1

def Faithful (cmp : K → K → Go Int) (rank : K → L) (a b : K) : Prop :=
  ∀ verdict, cmp a b = .ok verdict → Decides verdict (rank a) (rank b) ∧ (verdict = 0 → a = b)

theorem LawfulOn.faithful (lawful : LawfulOn cmp valid rank) {a b : K} (validA : valid a)
    (validB : valid b) : Faithful cmp rank a b := by
  intro verdict compared
  obtain ⟨expected, computed, decided⟩ := lawful.decides a b validA validB
  obtain rfl : expected = verdict := Except.ok.inj (computed.symm.trans compared)
  exact ⟨decided, fun zero => lawful.rank_inj a b validA validB (decided.2.mp zero)⟩

theorem locate_total {key : K} {items : List (K × V)}
    (total : ∀ item ∈ items, ∃ verdict, cmp key item.1 = .ok verdict) :
    ∃ below others hit, locate cmp key items = .ok (below, others, hit) := by
  induction items with
  | nil => exact ⟨_, _, _, rfl⟩
  | cons item rest ih =>
      obtain ⟨verdict, compared⟩ := total item (by simp)
      obtain ⟨below, others, hit, computed⟩ :=
        ih fun item member => total item (List.mem_cons_of_mem _ member)
      simp only [locate, compared, computed, ok_bind]
      split
      · exact ⟨_, _, _, rfl⟩
      · exact ⟨_, _, _, rfl⟩

theorem locate_ok {key : K} {items below others : List (K × V)} {hit : Bool}
    (faithful : ∀ item ∈ items, Faithful cmp rank key item.1) (sorted : Sorted rank items)
    (located : locate cmp key items = .ok (below, others, hit)) :
    items = below ++ others ∧
      (∀ item ∈ below, rank item.1 < rank key) ∧
      (hit = true → ∃ value rest, others = (key, value) :: rest ∧
        ∀ item ∈ rest, rank key < rank item.1) ∧
      (hit = false → ∀ item ∈ others, rank key < rank item.1) := by
  induction items generalizing below others hit with
  | nil =>
      cases located
      exact ⟨rfl, by simp, by simp, by simp⟩
  | cons item rest ih =>
      have parts := List.pairwise_cons.mp sorted
      simp only [locate, bind_ok_iff] at located
      obtain ⟨verdict, compared, ⟨below', others', hit'⟩, computed, located⟩ := located
      obtain ⟨split, belowLess, hitSpec, missSpec⟩ :=
        ih (fun item member => faithful item (List.mem_cons_of_mem _ member)) parts.2 computed
      obtain ⟨decided, zero⟩ := faithful item List.mem_cons_self verdict compared
      by_cases greater : 0 < verdict
      · have less : rank item.1 < rank key := decided.pos_iff.mp greater
        simp only [greater, ↓reduceIte] at located
        cases located
        refine ⟨by simp [split], ?_, hitSpec, missSpec⟩
        intro other member
        rcases List.mem_cons.mp member with same | later
        · rw [same]
          exact less
        · exact belowLess other later
      · simp only [greater, ↓reduceIte] at located
        cases located
        refine ⟨rfl, by simp, ?_, ?_⟩
        · intro exactHit
          have same : key = item.1 := zero (by simpa using exactHit)
          refine ⟨item.2, rest, by simp [same], ?_⟩
          intro other member
          rw [same]
          exact parts.1 other member
        · intro miss
          have nonzero : verdict ≠ 0 := by simpa using miss
          have less : rank key < rank item.1 := decided.1.mp (by omega)
          intro other member
          rcases List.mem_cons.mp member with same | later
          · rw [same]
            exact less
          · exact less.trans (parts.1 other later)

theorem locate_spec (lawful : LawfulOn cmp valid rank) {key : K} (keyValid : valid key)
    {items : List (K × V)} (itemsValid : ∀ item ∈ items, valid item.1)
    (sorted : Sorted rank items) :
    ∃ below others hit, locate cmp key items = .ok (below, others, hit) ∧
      items = below ++ others ∧
      (∀ item ∈ below, rank item.1 < rank key) ∧
      (hit = true → ∃ value rest, others = (key, value) :: rest ∧
        ∀ item ∈ rest, rank key < rank item.1) ∧
      (hit = false → ∀ item ∈ others, rank key < rank item.1) := by
  have total : ∀ item ∈ items, ∃ verdict, cmp key item.1 = .ok verdict := by
    intro item member
    obtain ⟨verdict, compared, _⟩ := lawful.decides _ _ keyValid (itemsValid item member)
    exact ⟨verdict, compared⟩
  obtain ⟨below, others, hit, located⟩ := locate_total total
  refine ⟨below, others, hit, located, locate_ok ?_ sorted located⟩
  exact fun item member => lawful.faithful keyValid (itemsValid item member)

theorem Sorted.ne_of_append {below others : List (K × V)} (sorted : Sorted rank (below ++ others))
    {first second : K × V} (inBelow : first ∈ below) (inOthers : second ∈ others) :
    rank first.1 < rank second.1 :=
  (List.pairwise_append.mp sorted).2.2 first inBelow second inOthers

theorem Sorted.insert {below others : List (K × V)} (sorted : Sorted rank (below ++ others))
    {key : K} (value : V) (belowLess : ∀ item ∈ below, rank item.1 < rank key)
    (othersGreater : ∀ item ∈ others, rank key < rank item.1) :
    Sorted rank (below ++ (key, value) :: others) := by
  obtain ⟨sortedBelow, sortedOthers, between⟩ := List.pairwise_append.mp sorted
  refine List.pairwise_append.mpr ⟨sortedBelow, List.pairwise_cons.mpr ⟨?_, sortedOthers⟩, ?_⟩
  · intro item member
    exact othersGreater item member
  · intro first inBelow second member
    rcases List.mem_cons.mp member with same | later
    · rw [same]
      exact belowLess first inBelow
    · exact between first inBelow second later

theorem Sorted.key_unique {items : List (K × V)} (sorted : Sorted rank items)
    {first second : K × V} (firstMem : first ∈ items) (secondMem : second ∈ items)
    (same : first.1 = second.1) : first = second := by
  by_contra different
  have apart := List.Pairwise.forall_of_forall_of_flip (l := items)
    (R := fun a b => a ≠ b → rank a.1 ≠ rank b.1) (by simp)
    (sorted.imp fun less _ => less.ne) (sorted.imp fun less _ => less.ne')
  exact apart firstMem secondMem different (by rw [same])

theorem deleteItems_ok [DecidableEq K] {key : K} {items left : List (K × V)} {hit : Bool}
    (faithful : ∀ item ∈ items, Faithful cmp rank key item.1) (sorted : Sorted rank items)
    (deleted : deleteItems cmp key items = .ok (left, hit)) :
    left = items.filter (·.1 ≠ key) := by
  simp only [deleteItems, bind_ok_iff] at deleted
  obtain ⟨⟨below, others, found⟩, located, deleted⟩ := deleted
  obtain ⟨split, belowLess, hitSpec, missSpec⟩ := locate_ok faithful sorted located
  have keepBelow : below.filter (·.1 ≠ key) = below := by
    apply List.filter_eq_self.mpr
    intro item member
    have less := belowLess item member
    simpa using fun same : item.1 = key => less.ne (by rw [same])
  have keepGreater : ∀ rest : List (K × V), (∀ item ∈ rest, rank key < rank item.1) →
      rest.filter (·.1 ≠ key) = rest := by
    intro rest greater
    apply List.filter_eq_self.mpr
    intro item member
    have less := greater item member
    simpa using fun same : item.1 = key => less.ne' (by rw [same])
  cases found with
  | true =>
      obtain ⟨value, rest, shape, greater⟩ := hitSpec rfl
      cases deleted
      rw [split, List.filter_append, keepBelow, shape, List.filter_cons_of_neg (by simp),
        keepGreater rest greater, List.tail_cons]
  | false =>
      cases deleted
      rw [split, List.filter_append, keepBelow, keepGreater others (missSpec rfl)]

theorem deleteItems_spec [DecidableEq K] (lawful : LawfulOn cmp valid rank) {key : K}
    (keyValid : valid key) {items : List (K × V)} (itemsValid : ∀ item ∈ items, valid item.1)
    (sorted : Sorted rank items) :
    ∃ hit, deleteItems cmp key items = .ok (items.filter (·.1 ≠ key), hit) := by
  obtain ⟨below, others, hit, located, _⟩ := locate_spec lawful keyValid itemsValid sorted
  have faithful : ∀ item ∈ items, Faithful cmp rank key item.1 :=
    fun item member => lawful.faithful keyValid (itemsValid item member)
  obtain ⟨left, deleted⟩ : ∃ left, deleteItems cmp key items = .ok (left, hit) := by
    simp only [deleteItems, located, ok_bind]
    cases hit with
    | true => exact ⟨_, rfl⟩
    | false => exact ⟨_, rfl⟩
  exact ⟨hit, deleteItems_ok faithful sorted deleted ▸ deleted⟩

/-- What a `put` that returned has done: the key was there and the updater saw its value, or it
was absent and the updater decided whether the pair is inserted in its place. -/
theorem putItems_ok {σ : Type} {key : K} {items items' : List (K × V)}
    {update : Option V → Go (Option V × σ)} {output : σ}
    (faithful : ∀ item ∈ items, Faithful cmp rank key item.1) (sorted : Sorted rank items)
    (stored : putItems cmp key update items = .ok (items', output)) :
    (∃ value written, (key, value) ∈ items ∧ update (some value) = .ok (written, output) ∧
      (written = none → items' = items)) ∨
    (∃ written below others, update none = .ok (written, output) ∧ items = below ++ others ∧
      (∀ item ∈ below, rank item.1 < rank key) ∧ (∀ item ∈ others, rank key < rank item.1) ∧
      items' = match written with
        | none => items
        | some value => below ++ (key, value) :: others) := by
  obtain ⟨below, others, hit, located, outcome⟩ := putItems_cases stored
  obtain ⟨split, belowLess, hitSpec, missSpec⟩ := locate_ok faithful sorted located
  rcases outcome with ⟨value, found, rest, written, rfl, shape, updated, result⟩ |
    ⟨written, empty, updated, result⟩
  · obtain ⟨value', rest', shape', _⟩ := hitSpec rfl
    obtain ⟨⟨rfl, rfl⟩, rfl⟩ : (found = key ∧ value = value') ∧ rest = rest' := by
      simpa using shape.symm.trans shape'
    refine .inl ⟨value, written, by simp [split, shape], updated, ?_⟩
    rintro rfl
    exact result
  · have missed : hit = false := by
      cases hit with
      | false => rfl
      | true =>
          obtain ⟨_, _, shape, _⟩ := hitSpec rfl
          rw [empty rfl] at shape
          cases shape
    refine .inr ⟨written, below, others, updated, split, belowLess, missSpec missed, ?_⟩
    cases written with
    | none => exact result
    | some value => exact result

theorem putItems_absent {σ : Type} (lawful : LawfulOn cmp valid rank) {key : K}
    (keyValid : valid key) {items : List (K × V)} (itemsValid : ∀ item ∈ items, valid item.1)
    (sorted : Sorted rank items) (absent : ∀ item ∈ items, item.1 ≠ key)
    (update : Option V → Go (Option V × σ)) {written : Option V} {output : σ}
    (updated : update none = .ok (written, output)) :
    ∃ below others, items = below ++ others ∧
      (∀ item ∈ below, rank item.1 < rank key) ∧ (∀ item ∈ others, rank key < rank item.1) ∧
      putItems cmp key update items = .ok (match written with
        | none => items
        | some value => below ++ (key, value) :: others, output) := by
  obtain ⟨below, others, hit, computed, split, belowLess, hitSpec, missSpec⟩ :=
    locate_spec lawful keyValid itemsValid sorted
  cases hit with
  | true =>
      obtain ⟨value, rest, shape, _⟩ := hitSpec rfl
      exact absurd rfl (absent (key, value) (by simp [split, shape]))
  | false =>
      refine ⟨below, others, split, belowLess, missSpec rfl, ?_⟩
      simp only [putItems, computed, ok_bind, updated]
      cases written <;> rfl

theorem putItems_present {σ : Type} (lawful : LawfulOn cmp valid rank) {key : K}
    (keyValid : valid key) {items : List (K × V)} (itemsValid : ∀ item ∈ items, valid item.1)
    (sorted : Sorted rank items) {value : V} (present : (key, value) ∈ items)
    (update : Option V → Go (Option V × σ)) {output : σ}
    (declined : update (some value) = .ok (none, output)) :
    putItems cmp key update items = .ok (items, output) := by
  obtain ⟨below, others, hit, computed, split, belowLess, hitSpec, missSpec⟩ :=
    locate_spec lawful keyValid itemsValid sorted
  cases hit with
  | true =>
      obtain ⟨stored, rest, shape, _⟩ := hitSpec rfl
      have storedMem : (key, stored) ∈ items := by simp [split, shape]
      have same : stored = value :=
        congrArg Prod.snd (sorted.key_unique storedMem present rfl)
      subst stored
      simp only [putItems, computed, ok_bind, shape, declined]
      rfl
  | false =>
      rw [split] at present
      rcases List.mem_append.mp present with inBelow | inOthers
      · exact absurd (belowLess _ inBelow) (lt_irrefl _)
      · exact absurd (missSpec rfl _ inOthers) (lt_irrefl _)

end Lawful

/-! A seek that missed leaves the enumerator between the items below and above the key. -/

def missed (below others : List (K × V)) : Cursor K V :=
  { behind := below.reverse, ahead := others, hit := false, eof := false }

theorem prev_missed (below others : List (K × V)) :
    (missed below others).prev.1 = below.getLast? := by
  rcases List.eq_nil_or_concat below with empty | ⟨rest, last, shape⟩
  · simp [missed, Cursor.prev, Cursor.back, empty]
  · simp [missed, Cursor.prev, Cursor.back, shape]

theorem rewind_short (below others : List (K × V)) (short : below.length ≤ 1) :
    (missed below others).prev.2.next.1 = none := by
  cases below with
  | nil => simp [missed, Cursor.prev, Cursor.back, Cursor.next]
  | cons item rest =>
      have empty : rest = [] := by simpa using short
      simp [missed, Cursor.prev, Cursor.back, Cursor.next, empty]

theorem rewind_long (below others : List (K × V)) (second last : K × V) :
    (missed (below ++ [second, last]) others).prev.2.next =
      (some second, {
        behind := second :: below.reverse
        ahead := last :: others
        hit := true
        eof := false
      }) := by
  simp [missed, Cursor.prev, Cursor.back, Cursor.next]

def Cursor.Remaining (cursor : Cursor K V) (items : List (K × V)) : Prop :=
  cursor.ahead = items ∧ (cursor.eof = true → items = [])

theorem Cursor.Remaining.next_fst {cursor : Cursor K V} {items : List (K × V)}
    (remaining : cursor.Remaining items) : cursor.next.1 = items.head? := by
  obtain ⟨ahead, ended⟩ := remaining
  unfold Cursor.next
  by_cases eof : cursor.eof = true
  · simp [eof, ended eof]
  · cases items <;> simp [eof, ahead]

theorem Cursor.Remaining.next_snd {cursor : Cursor K V} {items : List (K × V)}
    (remaining : cursor.Remaining items) : cursor.next.2.Remaining items.tail := by
  obtain ⟨ahead, ended⟩ := remaining
  unfold Cursor.next
  by_cases eof : cursor.eof = true
  · have empty := ended eof
    subst empty
    simpa [eof, Cursor.Remaining] using ahead
  · cases items with
    | nil => simp [eof, ahead, Cursor.Remaining]
    | cons item rest => simp [eof, ahead, Cursor.Remaining]

def Cursor.Within (cursor : Cursor K V) (items : List (K × V)) : Prop :=
  cursor.behind ++ cursor.ahead ⊆ items

theorem Cursor.Within.back {cursor : Cursor K V} {items : List (K × V)}
    (within : cursor.Within items) : cursor.back.Within items := by
  unfold Cursor.back
  unfold Cursor.Within at within ⊢
  split
  · exact within
  · rename_i item behind shape
    rw [shape] at within
    intro other member
    apply within
    simpa [or_left_comm] using member

theorem Cursor.Within.next {cursor : Cursor K V} {items : List (K × V)}
    (within : cursor.Within items) :
    cursor.next.2.Within items ∧ ∀ item, cursor.next.1 = some item → item ∈ items := by
  unfold Cursor.next
  split
  · exact ⟨within, nofun⟩
  · split
    · exact ⟨within, nofun⟩
    · rename_i item ahead shape
      unfold Cursor.Within at within ⊢
      rw [shape] at within
      refine ⟨?_, ?_⟩
      · intro other member
        apply within
        simpa [or_left_comm] using member
      · intro other same
        cases same
        exact within (by simp)

theorem Cursor.Within.prev {cursor : Cursor K V} {items : List (K × V)}
    (within : cursor.Within items) : cursor.prev.2.Within items := by
  have inside : (if cursor.hit then cursor else cursor.back).Within items := by
    split
    · exact within
    · exact within.back
  unfold Cursor.prev
  split
  · exact within
  · generalize (if cursor.hit then cursor else cursor.back) = landed at inside
    dsimp only
    split
    · exact inside
    · split
      · exact inside
      · exact inside.back

theorem locate_append {cmp : K → K → Go Int} {key : K} {items below others : List (K × V)}
    {hit : Bool} (located : locate cmp key items = .ok (below, others, hit)) :
    below ++ others = items := by
  induction items generalizing below others hit with
  | nil =>
      cases located
      rfl
  | cons item rest ih =>
      simp only [locate, bind_ok_iff] at located
      rcases located with ⟨verdict, _, ⟨later, more, found⟩, inner, result⟩
      split at result
      · cases result
        rw [List.cons_append, ih inner]
      · cases result
        rfl

theorem seekItems_within {cmp : K → K → Go Int} {key : K} {items : List (K × V)}
    {cursor : Cursor K V} {hit : Bool} (sought : seekItems cmp key items = .ok (cursor, hit)) :
    cursor.Within items := by
  simp only [seekItems, bind_ok_iff] at sought
  rcases sought with ⟨⟨below, others, found⟩, located, result⟩
  cases result
  rw [← locate_append located]
  intro item member
  simpa using member

theorem putItems_output {σ : Type} {cmp : K → K → Go Int} {key : K}
    {update : Option V → Go (Option V × σ)} {items items' : List (K × V)} {output : σ}
    (stored : putItems cmp key update items = .ok (items', output)) :
    ∃ old written, update old = .ok (written, output) := by
  obtain ⟨_, _, _, _, ⟨value, _, _, written, _, _, updated, _⟩ | ⟨written, _, updated, _⟩⟩ :=
    putItems_cases stored
  · exact ⟨some value, written, updated⟩
  · exact ⟨none, written, updated⟩

section Implementation

variable {cmp : K → K → Go Int} (T : Tree K V cmp)

theorem Tree.seek_within {tree : T.Carrier} {key : K} {enumerator : T.Enumerator} {hit : Bool}
    (sought : T.seek tree key = .ok (enumerator, hit)) :
    (T.cursor enumerator).Within (T.items tree) := by
  have same := T.seek_items tree key
  rw [sought] at same
  exact seekItems_within same.symm

theorem Tree.put_items_ok {σ : Type} {tree next : T.Carrier} {key : K}
    {update : Option V → Go (Option V × σ)} {output : σ}
    (put : T.put tree key update = .ok (next, output)) :
    putItems cmp key update (T.items tree) = .ok (T.items next, output) := by
  have same := T.put_items tree key update
  rw [put] at same
  exact same.symm

theorem Tree.delete_items_ok {tree next : T.Carrier} {key : K} {hit : Bool}
    (deleted : T.delete tree key = .ok (next, hit)) :
    deleteItems cmp key (T.items tree) = .ok (T.items next, hit) := by
  have same := T.delete_items tree key
  rw [deleted] at same
  exact same.symm

theorem Tree.put_output {σ : Type} {tree next : T.Carrier} {key : K}
    {update : Option V → Go (Option V × σ)} {output : σ}
    (put : T.put tree key update = .ok (next, output)) :
    ∃ old written, update old = .ok (written, output) :=
  putItems_output (T.put_items_ok put)

theorem Tree.seekFirst_within {tree : T.Carrier} {enumerator : T.Enumerator}
    (sought : T.seekFirst tree = some enumerator) :
    (T.cursor enumerator).Within (T.items tree) := by
  have same := T.seekFirst_items tree
  rw [sought, seekFirstItems] at same
  split at same
  · cases same
  · rw [Option.some.inj same]
    exact List.Subset.refl _

theorem Tree.seek_ok {tree : T.Carrier} {key : K} {cursor : Cursor K V} {hit : Bool}
    (found : seekItems cmp key (T.items tree) = .ok (cursor, hit)) :
    ∃ enumerator, T.seek tree key = .ok (enumerator, hit) ∧ T.cursor enumerator = cursor := by
  rw [← T.seek_items, map_ok_iff] at found
  obtain ⟨⟨enumerator, ok⟩, sought, same⟩ := found
  simp only [Prod.mk.injEq] at same
  exact ⟨enumerator, by rw [sought, same.2], same.1⟩

theorem Tree.put_ok {σ : Type} {tree : T.Carrier} {key : K}
    {update : Option V → Go (Option V × σ)} {items : List (K × V)} {output : σ}
    (stored : putItems cmp key update (T.items tree) = .ok (items, output)) :
    ∃ next, T.put tree key update = .ok (next, output) ∧ T.items next = items := by
  rw [← T.put_items, map_ok_iff] at stored
  obtain ⟨⟨next, result⟩, put, same⟩ := stored
  simp only [Prod.mk.injEq] at same
  exact ⟨next, by rw [put, same.2], same.1⟩

theorem Tree.delete_ok {tree : T.Carrier} {key : K} {items : List (K × V)} {hit : Bool}
    (deleted : deleteItems cmp key (T.items tree) = .ok (items, hit)) :
    ∃ next, T.delete tree key = .ok (next, hit) ∧ T.items next = items := by
  rw [← T.delete_items, map_ok_iff] at deleted
  obtain ⟨⟨next, result⟩, removed, same⟩ := deleted
  simp only [Prod.mk.injEq] at same
  exact ⟨next, by rw [removed, same.2], same.1⟩

theorem Tree.next_fst (enumerator : T.Enumerator) :
    (T.next enumerator).1 = (T.cursor enumerator).next.1 :=
  congrArg Prod.fst (T.next_cursor enumerator)

theorem Tree.next_snd (enumerator : T.Enumerator) :
    T.cursor (T.next enumerator).2 = (T.cursor enumerator).next.2 :=
  congrArg Prod.snd (T.next_cursor enumerator)

theorem Tree.prev_fst (enumerator : T.Enumerator) :
    (T.prev enumerator).1 = (T.cursor enumerator).prev.1 :=
  congrArg Prod.fst (T.prev_cursor enumerator)

theorem Tree.prev_snd (enumerator : T.Enumerator) :
    T.cursor (T.prev enumerator).2 = (T.cursor enumerator).prev.2 :=
  congrArg Prod.snd (T.prev_cursor enumerator)

end Implementation

end OrderedTree
