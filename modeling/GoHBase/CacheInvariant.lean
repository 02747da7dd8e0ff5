import GoHBase.CacheCore
import GoHBase.RegionNameOrder

/-!
The regions of the cache never overlap. The overlap search looks at one
predecessor and a contiguous run, which is complete because of that invariant,
and `put` removes what the search reports, which preserves it.
-/

namespace GoHBase

open ByteString Runtime OrderedTree

variable {T : Tree Bytes RegionInfo compare}

theorem fullyQualifiedTable_eq_iff {a b : RegionInfo} (wellFormedA : a.WellFormed)
    (wellFormedB : b.WellFormed) :
    fullyQualifiedTable a = fullyQualifiedTable b ↔
      a.nspace.getD [] = b.nspace.getD [] ∧ a.table = b.table := by
  obtain ⟨_, namedA⟩ := wellFormedA
  obtain ⟨_, namedB⟩ := wellFormedB
  have mixed : ∀ nspace table other : Bytes, colon ∉ other → other ≠ nspace ++ colon :: table := by
    intro nspace table other plain same
    exact plain (by simp [same])
  unfold fullyQualifiedTable
  cases spaceA : a.nspace with
  | none =>
      cases spaceB : b.nspace with
      | none => simp
      | some nspaceB =>
          have nonempty : nspaceB ≠ [] := fun empty => namedB.nspaceNonempty (by rw [spaceB, empty])
          simp [mixed nspaceB b.table a.table namedA.tablePlain.2, Ne.symm nonempty]
  | some nspaceA =>
      have nonemptyA : nspaceA ≠ [] := fun empty => namedA.nspaceNonempty (by rw [spaceA, empty])
      cases spaceB : b.nspace with
      | none => simp [Ne.symm (mixed nspaceA a.table b.table namedB.tablePlain.2), nonemptyA]
      | some nspaceB =>
          have plainA := (namedA.nspacePlain nspaceA spaceA).2
          simp [List.append_cons_inj_of_notMem plainA namedA.tablePlain.2]

theorem contains_startKey {reg : RegionInfo} (wellFormed : reg.WellFormed) :
    reg.Contains (fullyQualifiedTable reg) reg.startKey := by
  obtain ⟨_, named⟩ := wellFormed
  exact ⟨rfl, le_rfl, named.rangeNonempty.symm⟩

/-- The overlap test is exact for the ranges of well-formed regions. -/
theorem isRegionOverlap_iff {a b : RegionInfo} (wellFormedA : a.WellFormed)
    (wellFormedB : b.WellFormed) :
    isRegionOverlap a b = true ↔ ∃ table key, a.Contains table key ∧ b.Contains table key := by
  have sameTable := fullyQualifiedTable_eq_iff wellFormedA wellFormedB
  obtain ⟨_, _, rangeA⟩ := contains_startKey wellFormedA
  obtain ⟨_, _, rangeB⟩ := contains_startKey wellFormedB
  simp only [isRegionOverlap, Bool.and_eq_true, beq_iff_eq, Bool.or_eq_true,
    List.length_eq_zero_iff, decide_eq_true_eq, bytesCompare_neg, bytesCompare_pos]
  rw [← sameTable]
  constructor
  · rintro ⟨⟨tables, startA⟩, startB⟩
    refine ⟨fullyQualifiedTable a, max a.startKey b.startKey, ?_, ?_⟩
    · refine ⟨rfl, le_max_left _ _, ?_⟩
      rcases startB with empty | below
      · exact .inl empty
      · exact rangeA.imp_right fun inside => max_lt inside below
    · refine ⟨tables.symm, le_max_right _ _, ?_⟩
      rcases startA with empty | below
      · exact .inl empty
      · exact rangeB.imp_right fun inside => max_lt below inside
  · rintro ⟨table, key, ⟨tableA, lowA, highA⟩, tableB, lowB, highB⟩
    refine ⟨⟨tableA.trans tableB.symm, ?_⟩, ?_⟩
    · exact highB.imp_right fun below => lowA.trans_lt below
    · exact highA.imp_right fun below => lowB.trans_lt below

def Apart (a b : RegionInfo) : Prop :=
  ∀ table key, ¬(a.Contains table key ∧ b.Contains table key)

theorem Apart.symm {a b : RegionInfo} (apart : Apart a b) : Apart b a :=
  fun table key both => apart table key both.symm

structure CacheInv (items : List (Bytes × RegionInfo)) : Prop where
  stored : ∀ item ∈ items, item.1 = item.2.name
  wellFormed : ∀ item ∈ items, item.2.WellFormed
  sorted : Sorted nameRank items
  apart : items.Pairwise fun first second => Apart first.2 second.2

theorem CacheInv.valid {items : List (Bytes × RegionInfo)} (inv : CacheInv items) :
    ∀ item ∈ items, ValidName item.1 := by
  intro item member
  obtain ⟨_, named⟩ := inv.wellFormed item member
  rw [inv.stored item member]
  exact named.validName

theorem CacheInv.sublist {items kept : List (Bytes × RegionInfo)} (inv : CacheInv items)
    (sub : kept.Sublist items) : CacheInv kept where
  stored item member := inv.stored item (sub.subset member)
  wellFormed item member := inv.wellFormed item (sub.subset member)
  sorted := inv.sorted.sublist sub
  apart := inv.apart.sublist sub

theorem rank_lt_tables {a b : RegionInfo} (wellFormedA : a.WellFormed)
    (wellFormedB : b.WellFormed) (less : nameRank a.name < nameRank b.name) :
    fullyQualifiedTable a < fullyQualifiedTable b ∨
      fullyQualifiedTable a = fullyQualifiedTable b ∧ a.startKey ≤ b.startKey := by
  obtain ⟨_, namedA⟩ := wellFormedA
  obtain ⟨_, namedB⟩ := wellFormedB
  rw [namedA.nameRank, namedB.nameRank, sortKey_lt] at less
  rcases less with tables | ⟨tables, keys | ⟨keys, _⟩⟩
  · exact .inl tables
  · exact .inr ⟨tables, keys.le⟩
  · exact .inr ⟨tables, keys.le⟩

def searchName (reg : RegionInfo) : Bytes :=
  joinName (fullyQualifiedTable reg) reg.startKey [colon]

theorem createRegionSearchKey_region {reg : RegionInfo} (wellFormed : reg.WellFormed) :
    createRegionSearchKey (fullyQualifiedTable reg) reg.startKey = .ok (searchName reg) := by
  obtain ⟨_, named⟩ := wellFormed
  have fits := named.startKey_fits
  rw [createRegionSearchKey_eq _ _ (by omega),
    List.take_of_length_le (by unfold searchRoom; omega)]
  rfl

theorem rank_lt_searchName {a reg : RegionInfo} (wellFormedA : a.WellFormed)
    (wellFormed : reg.WellFormed) :
    nameRank a.name < nameRank (searchName reg) ↔
      fullyQualifiedTable a < fullyQualifiedTable reg ∨
        fullyQualifiedTable a = fullyQualifiedTable reg ∧ a.startKey ≤ reg.startKey := by
  obtain ⟨_, namedA⟩ := wellFormedA
  obtain ⟨_, named⟩ := wellFormed
  have fits := named.startKey_fits
  rw [← rank_lt_searchKey namedA _ _ (fullyQualifiedTable_plain named),
    List.take_of_length_le (by unfold searchRoom; omega)]
  rfl

theorem below_not_overlap {u x reg : RegionInfo} (wellFormedU : u.WellFormed)
    (wellFormedX : x.WellFormed) (wellFormed : reg.WellFormed)
    (order : nameRank u.name < nameRank x.name)
    (belowKey : nameRank x.name < nameRank (searchName reg)) (apart : Apart u x) :
    isRegionOverlap u reg = false := by
  rw [← Bool.not_eq_true, isRegionOverlap_iff wellFormedU wellFormed]
  rintro ⟨table, key, ⟨tableU, lowU, highU⟩, tableReg, lowReg, _⟩
  have sameTable : fullyQualifiedTable u = fullyQualifiedTable reg := tableU.trans tableReg.symm
  have xPlace := (rank_lt_searchName wellFormedX wellFormed).mp belowKey
  have uPlace := rank_lt_tables wellFormedU wellFormedX order
  rw [sameTable] at uPlace
  have tableX : fullyQualifiedTable x = fullyQualifiedTable reg := by
    rcases xPlace with less | ⟨same, _⟩
    · rcases uPlace with greater | ⟨same, _⟩
      · exact absurd less greater.not_gt
      · exact same.symm
    · exact same
  have startX : x.startKey ≤ reg.startKey := by
    rcases xPlace with less | ⟨_, start⟩
    · exact absurd tableX less.ne
    · exact start
  have startU : u.startKey ≤ x.startKey := by
    rcases uPlace with less | ⟨_, start⟩
    · exact absurd tableX less.ne'
    · exact start
  refine apart (fullyQualifiedTable x) x.startKey ⟨⟨?_, startU, ?_⟩, contains_startKey wellFormedX⟩
  · rw [sameTable, tableX]
  · exact highU.imp_right fun below => (startX.trans lowReg).trans_lt below

theorem above_overlap_closed {u w reg : RegionInfo} (wellFormedU : u.WellFormed)
    (wellFormedW : w.WellFormed) (wellFormed : reg.WellFormed)
    (order : nameRank u.name < nameRank w.name)
    (aboveKey : nameRank (searchName reg) < nameRank u.name)
    (overlap : isRegionOverlap w reg = true) : isRegionOverlap u reg = true := by
  rw [isRegionOverlap_iff wellFormedW wellFormed] at overlap
  obtain ⟨table, key, ⟨tableW, lowW, _⟩, tableReg, lowReg, highReg⟩ := overlap
  have sameTable : fullyQualifiedTable w = fullyQualifiedTable reg := tableW.trans tableReg.symm
  have uPlace := rank_lt_tables wellFormedU wellFormedW order
  rw [sameTable] at uPlace
  have notBelow := aboveKey.not_gt
  rw [rank_lt_searchName wellFormedU wellFormed, not_or, not_and, not_lt, not_le] at notBelow
  have tableU : fullyQualifiedTable u = fullyQualifiedTable reg := by
    rcases uPlace with less | ⟨same, _⟩
    · exact absurd less notBelow.1.not_gt
    · exact same
  have startU : u.startKey ≤ w.startKey := by
    rcases uPlace with less | ⟨_, start⟩
    · exact absurd tableU less.ne
    · exact start
  rw [isRegionOverlap_iff wellFormedU wellFormed]
  refine ⟨fullyQualifiedTable u, u.startKey, contains_startKey wellFormedU, tableU.symm,
    (notBelow.2 tableU).le, ?_⟩
  exact highReg.imp_right fun below => (startU.trans lowW).trans_lt below

theorem takeWhile_eq_filter {α : Type} (accept : α → Bool) (values : List α)
    (closed : values.Pairwise fun first second => accept second = true → accept first = true) :
    values.takeWhile accept = values.filter accept := by
  induction values with
  | nil => rfl
  | cons first rest ih =>
      obtain ⟨fromFirst, tail⟩ := List.pairwise_cons.mp closed
      by_cases accepted : accept first = true
      · simp [accepted, ih tail]
      · have others : rest.filter accept = [] := by
          apply List.filter_eq_nil_iff.mpr
          intro later member laterAccepted
          exact accepted (fromFirst later member laterAccepted)
        simp [accepted, others]

namespace KeyRegionCache

theorem overlapRun_eq (reg : RegionInfo) (items : List (Bytes × RegionInfo)) (fuel : Nat)
    (enough : items.length ≤ fuel) (enum : T.Enumerator)
    (remaining : (T.cursor enum).Remaining items.tail) :
    overlapRun reg fuel items.head? enum =
      (items.map Prod.snd).takeWhile (isRegionOverlap · reg) := by
  induction items generalizing fuel enum with
  | nil => cases fuel <;> simp [overlapRun]
  | cons item rest ih =>
      cases fuel with
      | zero => simp at enough
      | succ fuel =>
          have tail := ih fuel (by simpa using enough) (T.next enum).2 (by
            rw [T.next_snd]
            exact remaining.next_snd)
          have head : (T.next enum).1 = rest.head? := by
            rw [T.next_fst]
            exact remaining.next_fst
          simp only [List.head?_cons, overlapRun, head, tail, List.map_cons, List.takeWhile_cons]

theorem seek_missed {items : List (Bytes × RegionInfo)} (inv : CacheInv items)
    {name : Bytes} (valid : ValidName name)
    (differs : ∀ item ∈ items, nameRank item.1 ≠ nameRank name) :
    ∃ below others, items = below ++ others ∧
      (∀ item ∈ below, nameRank item.1 < nameRank name) ∧
      (∀ item ∈ others, nameRank name < nameRank item.1) ∧
      seekItems compare name items = .ok (missed below others, false) := by
  obtain ⟨below, others, hit, computed, split, belowLess, hitSpec, missSpec⟩ :=
    locate_spec compare_lawful valid inv.valid inv.sorted
  cases hit with
  | true =>
      obtain ⟨value, rest, shape, _⟩ := hitSpec rfl
      exact absurd rfl (differs (name, value) (by simp [split, shape]))
  | false =>
      refine ⟨below, others, split, belowLess, missSpec rfl, ?_⟩
      simp [seekItems, computed, missed, pure, Except.pure]

theorem searchName_valid {reg : RegionInfo} (wellFormed : reg.WellFormed) :
    ValidName (searchName reg) := by
  obtain ⟨_, named⟩ := wellFormed
  exact ⟨_, _, _, rfl, fullyQualifiedTable_plain named, by decide⟩

theorem rank_ne_searchName {items : List (Bytes × RegionInfo)} (inv : CacheInv items)
    {reg : RegionInfo} (wellFormed : reg.WellFormed) :
    ∀ item ∈ items, nameRank item.1 ≠ nameRank (searchName reg) := by
  intro item member
  obtain ⟨_, namedItem⟩ := inv.wellFormed item member
  obtain ⟨_, named⟩ := wellFormed
  rw [inv.stored item member]
  exact rank_ne_searchKey namedItem _ _ (fullyQualifiedTable_plain named)

/-- All three landing cases put the enumerator on the predecessor of the search
key, or on the first region when there is none. -/
theorem rewind_ok (cache : KeyRegionCache T) {below others : List (Bytes × RegionInfo)}
    (split : T.items cache.regions = below ++ others) (nonempty : T.items cache.regions ≠ [])
    (enum : T.Enumerator) (landed : T.cursor enum = missed below others) :
    ∃ found, cache.rewind enum = .ok found ∧
      (T.cursor found).Remaining (below.getLast?.toList ++ others) := by
  have steppedFst : (T.next (T.prev enum).2).1 = (missed below others).prev.2.next.1 := by
    rw [T.next_fst, T.prev_snd, landed]
  have steppedSnd : T.cursor (T.next (T.prev enum).2).2 = (missed below others).prev.2.next.2 := by
    rw [T.next_snd, T.prev_snd, landed]
  by_cases short : below.length ≤ 1
  · have first := T.seekFirst_items cache.regions
    rw [seekFirstItems, if_neg (by simpa using nonempty), Option.map_eq_some_iff] at first
    obtain ⟨found, sought, cursor⟩ := first
    refine ⟨found, ?_, ?_⟩
    · simp only [rewind, steppedFst, rewind_short below others short, sought]
      rfl
    · have whole : below.getLast?.toList ++ others = below ++ others := by
        cases below with
        | nil => simp
        | cons item rest =>
            have empty : rest = [] := by simpa using short
            simp [empty]
      rw [whole, ← split, cursor]
      exact ⟨rfl, by simp⟩
  · obtain ⟨init, last, shape⟩ : ∃ init last, below = init ++ [last] := by
      rcases List.eq_nil_or_concat below with empty | ⟨init, last, shape⟩
      · simp [empty] at short
      · exact ⟨init, last, by simpa using shape⟩
    obtain ⟨rest, second, initShape⟩ : ∃ rest second, init = rest ++ [second] := by
      rcases List.eq_nil_or_concat init with empty | ⟨rest, second, initShape⟩
      · simp [shape, empty] at short
      · exact ⟨rest, second, by simpa using initShape⟩
    have belowShape : below = rest ++ [second, last] := by simp [shape, initShape]
    rw [belowShape, rewind_long] at steppedFst steppedSnd
    refine ⟨(T.next (T.prev enum).2).2, ?_, ?_⟩
    · simp only [rewind, steppedFst]
      rfl
    · rw [steppedSnd, belowShape]
      simp [Cursor.Remaining]

theorem below_init_not_overlap {init others : List (Bytes × RegionInfo)}
    {last : Bytes × RegionInfo} (inv : CacheInv (init ++ last :: others))
    {reg : RegionInfo} (wellFormed : reg.WellFormed)
    (lastLess : nameRank last.1 < nameRank (searchName reg)) :
    (init.map Prod.snd).filter (isRegionOverlap · reg) = [] := by
  apply List.filter_eq_nil_iff.mpr
  intro region member
  obtain ⟨item, itemMem, rfl⟩ := List.mem_map.mp member
  have inItems : item ∈ init ++ last :: others := List.mem_append_left _ itemMem
  have lastMem : last ∈ init ++ last :: others := by simp
  have order := inv.sorted.ne_of_append itemMem (List.mem_cons_self (a := last))
  have apart := (List.pairwise_append.mp inv.apart).2.2 item itemMem last List.mem_cons_self
  rw [inv.stored item inItems, inv.stored last lastMem] at order
  rw [inv.stored last lastMem] at lastLess
  simp [below_not_overlap (inv.wellFormed item inItems) (inv.wellFormed last lastMem) wellFormed
    order lastLess apart]

theorem above_takeWhile {others : List (Bytes × RegionInfo)} (inv : CacheInv others)
    {reg : RegionInfo} (wellFormed : reg.WellFormed)
    (greater : ∀ item ∈ others, nameRank (searchName reg) < nameRank item.1) :
    (others.map Prod.snd).takeWhile (isRegionOverlap · reg) =
      (others.map Prod.snd).filter (isRegionOverlap · reg) := by
  apply takeWhile_eq_filter
  rw [List.pairwise_map]
  refine inv.sorted.imp_of_mem ?_
  intro first second firstMem secondMem order overlap
  have aboveKey := greater first firstMem
  rw [inv.stored first firstMem] at aboveKey order
  rw [inv.stored second secondMem] at order
  exact above_overlap_closed (inv.wellFormed first firstMem) (inv.wellFormed second secondMem)
    wellFormed order aboveKey overlap

theorem search_complete {below others rest : List (Bytes × RegionInfo)}
    {first : Bytes × RegionInfo} (inv : CacheInv (below ++ others)) {reg : RegionInfo}
    (wellFormed : reg.WellFormed)
    (belowLess : ∀ item ∈ below, nameRank item.1 < nameRank (searchName reg))
    (othersGreater : ∀ item ∈ others, nameRank (searchName reg) < nameRank item.1)
    (listed : below.getLast?.toList ++ others = first :: rest) :
    (if isRegionOverlap first.2 reg then
      first.2 :: (rest.map Prod.snd).takeWhile (isRegionOverlap · reg)
    else (rest.map Prod.snd).takeWhile (isRegionOverlap · reg)) =
      ((below ++ others).map Prod.snd).filter (isRegionOverlap · reg) := by
  obtain ⟨init, shape, quiet, restOthers⟩ : ∃ init, below ++ others = init ++ first :: rest ∧
      (init.map Prod.snd).filter (isRegionOverlap · reg) = [] ∧ rest.Sublist others := by
    rcases List.eq_nil_or_concat below with empty | ⟨init, last, belowShape⟩
    · subst empty
      have othersShape : others = first :: rest := by simpa using listed
      exact ⟨[], by simp [othersShape], rfl, by simp [othersShape]⟩
    · have parts : last = first ∧ others = rest := by simpa [belowShape] using listed
      obtain ⟨rfl, rfl⟩ := parts
      have whole : below ++ others = init ++ last :: others := by simp [belowShape]
      refine ⟨init, whole, ?_, List.Sublist.refl _⟩
      exact below_init_not_overlap (whole ▸ inv) wellFormed (belowLess last (by simp [belowShape]))
  have restInv : CacheInv rest :=
    inv.sublist (restOthers.trans (List.sublist_append_right below others))
  rw [above_takeWhile restInv wellFormed fun item member =>
    othersGreater item (restOthers.subset member)]
  rw [shape, List.map_append, List.filter_append, quiet, List.map_cons, List.filter_cons,
    List.nil_append]

/-- The overlap search returns exactly the cached regions that overlap, in name order. -/
theorem getOverlaps_eq (cache : KeyRegionCache T) (inv : CacheInv (T.items cache.regions))
    {reg : RegionInfo} (wellFormed : reg.WellFormed) :
    cache.getOverlaps reg =
      .ok (((T.items cache.regions).map Prod.snd).filter (isRegionOverlap · reg)) := by
  by_cases empty : T.items cache.regions = []
  · simp [getOverlaps, T.len_items, empty, pure, Except.pure]
  · obtain ⟨below, others, split, belowLess, othersGreater, sought⟩ :=
      seek_missed inv (searchName_valid wellFormed) (rank_ne_searchName inv wellFormed)
    obtain ⟨enum, seekEq, landed⟩ := T.seek_ok sought
    obtain ⟨found, foundEq, remaining⟩ := cache.rewind_ok split empty enum landed
    obtain ⟨first, rest, listed⟩ : ∃ first rest,
        below.getLast?.toList ++ others = first :: rest := by
      cases shape : below.getLast?.toList ++ others with
      | nil =>
          have parts := List.append_eq_nil_iff.mp shape
          simp only [Option.toList_eq_nil_iff, List.getLast?_eq_none_iff] at parts
          exact absurd (by simp [split, parts.1, parts.2]) empty
      | cons first rest => exact ⟨first, rest, rfl⟩
    rw [listed] at remaining
    have nextFst : (T.next found).1 = some first := by
      rw [T.next_fst, remaining.next_fst]
      rfl
    have afterFirst : (T.cursor (T.next found).2).Remaining rest := by
      rw [T.next_snd]
      exact remaining.next_snd
    have secondFst : (T.next (T.next found).2).1 = rest.head? := by
      rw [T.next_fst, afterFirst.next_fst]
    have afterSecond : (T.cursor (T.next (T.next found).2).2).Remaining rest.tail := by
      rw [T.next_snd]
      exact afterFirst.next_snd
    have enough : rest.length ≤ T.len cache.regions := by
      have size := congrArg List.length listed
      have last : below.getLast?.toList.length ≤ below.length := by
        cases below with
        | nil => simp
        | cons item tail => simp [List.getLast?_cons]
      rw [T.len_items, split]
      simp only [List.length_append, List.length_cons] at size ⊢
      omega
    have runEq := overlapRun_eq reg rest _ enough _ afterSecond
    have complete := search_complete (split ▸ inv) wellFormed belowLess othersGreater listed
    have lenNonzero : T.len cache.regions ≠ 0 := by
      rw [T.len_items]
      simpa using empty
    rw [getOverlaps, if_neg lenNonzero, createRegionSearchKey_region wellFormed, ok_bind, seekEq,
      ok_bind, split, ← complete]
    simp only [Bool.false_eq_true, ↓reduceIte, foundEq, ok_bind, nextFst, secondFst, runEq]
    rfl

theorem deleteOverlaps_ok (overlaps : List RegionInfo)
    (overlapsValid : ∀ o ∈ overlaps, ValidName o.name) (cache : KeyRegionCache T)
    (valid : ∀ item ∈ T.items cache.regions, ValidName item.1)
    (sorted : Sorted nameRank (T.items cache.regions)) :
    ∃ cleaned, deleteOverlaps overlaps cache = .ok cleaned ∧
      T.items cleaned.regions =
        (T.items cache.regions).filter (·.1 ∉ overlaps.map RegionInfo.name) ∧
      cleaned.dead = cache.dead ++ overlaps := by
  induction overlaps generalizing cache with
  | nil => exact ⟨cache, rfl, by simp, by simp⟩
  | cons o overlaps ih =>
      obtain ⟨hit, deleted⟩ :=
        deleteItems_spec compare_lawful (overlapsValid o (by simp)) valid sorted
      obtain ⟨regions, removed, kept⟩ := T.delete_ok deleted
      have sub : (T.items regions).Sublist (T.items cache.regions) := by
        rw [kept]
        exact List.filter_sublist
      obtain ⟨cleaned, ran, items, dead⟩ := ih
        (fun o member => overlapsValid o (List.mem_cons_of_mem _ member))
        { regions := regions, dead := cache.dead ++ [o] }
        (fun item member => valid item (sub.subset member)) (sorted.sublist sub)
      refine ⟨cleaned, ?_, ?_, ?_⟩
      · simp only [deleteOverlaps, removed, ok_bind]
        exact ran
      · rw [items, kept, List.filter_filter]
        congr 1
        funext item
        rw [Bool.eq_iff_iff]
        simp [and_comm]
      · simp [dead]

theorem put_present (cache : KeyRegionCache T) (inv : CacheInv (T.items cache.regions))
    {reg v : RegionInfo} (wellFormed : reg.WellFormed)
    (present : (reg.name, v) ∈ T.items cache.regions) :
    ∃ next, cache.put reg = .ok (next, [v], false) ∧
      T.items next.regions = T.items cache.regions ∧ next.dead = cache.dead := by
  obtain ⟨_, named⟩ := wellFormed
  have declined : cache.update reg (some v) = .ok (none, [v], false) := rfl
  have stored := putItems_present compare_lawful named.validName inv.valid inv.sorted present
    (cache.update reg) declined
  obtain ⟨regions, put, items⟩ := T.put_ok stored
  refine ⟨{ cache with regions := regions }, ?_, items, rfl⟩
  simp only [KeyRegionCache.put, put, ok_bind]
  rfl

def overlapsOf (cache : KeyRegionCache T) (reg : RegionInfo) : List RegionInfo :=
  ((T.items cache.regions).map Prod.snd).filter (isRegionOverlap · reg)

theorem put_declined (cache : KeyRegionCache T) (inv : CacheInv (T.items cache.regions))
    {reg : RegionInfo} (wellFormed : reg.WellFormed)
    (absent : ∀ item ∈ T.items cache.regions, item.1 ≠ reg.name)
    (younger : (cache.overlapsOf reg).any (fun o => decide (o.id > reg.id)) = true) :
    ∃ next, cache.put reg = .ok (next, cache.overlapsOf reg, false) ∧
      T.items next.regions = T.items cache.regions ∧ next.dead = cache.dead := by
  have updated : cache.update reg none = .ok (none, cache.overlapsOf reg, false) := by
    rw [update, cache.getOverlaps_eq inv wellFormed, ok_bind, ← overlapsOf, if_pos younger]
    rfl
  obtain ⟨_, named⟩ := wellFormed
  obtain ⟨_, _, _, _, _, stored⟩ := putItems_absent compare_lawful named.validName inv.valid
    inv.sorted absent (cache.update reg) updated
  obtain ⟨regions, put, items⟩ := T.put_ok stored
  refine ⟨{ cache with regions := regions }, ?_, items, rfl⟩
  simp only [KeyRegionCache.put, put, ok_bind]
  rfl

theorem overlapsOf_valid (cache : KeyRegionCache T) (inv : CacheInv (T.items cache.regions))
    (reg : RegionInfo) : ∀ o ∈ cache.overlapsOf reg, ValidName o.name := by
  intro o member
  obtain ⟨item, itemMem, rfl⟩ := List.mem_map.mp (List.mem_of_mem_filter member)
  obtain ⟨_, named⟩ := inv.wellFormed item itemMem
  exact named.validName

theorem put_replaced (cache : KeyRegionCache T) (inv : CacheInv (T.items cache.regions))
    {reg : RegionInfo} (wellFormed : reg.WellFormed)
    (absent : ∀ item ∈ T.items cache.regions, item.1 ≠ reg.name)
    (older : (cache.overlapsOf reg).any (fun o => decide (o.id > reg.id)) = false) :
    ∃ next below others, cache.put reg = .ok (next, cache.overlapsOf reg, true) ∧
      T.items cache.regions = below ++ others ∧
      Sorted nameRank (below ++ (reg.name, reg) :: others) ∧
      T.items next.regions = (below ++ (reg.name, reg) :: others).filter
        (·.1 ∉ (cache.overlapsOf reg).map RegionInfo.name) ∧
      next.dead = cache.dead ++ cache.overlapsOf reg := by
  have updated : cache.update reg none = .ok (some reg, cache.overlapsOf reg, true) := by
    rw [update, cache.getOverlaps_eq inv wellFormed, ok_bind, ← overlapsOf, older]
    rfl
  obtain ⟨_, named⟩ := wellFormed
  obtain ⟨below, others, split, belowLess, othersGreater, stored⟩ := putItems_absent compare_lawful
    named.validName inv.valid inv.sorted absent (cache.update reg) updated
  obtain ⟨regions, put, items⟩ := T.put_ok stored
  have sorted : Sorted nameRank (below ++ (reg.name, reg) :: others) :=
    (split ▸ inv.sorted).insert reg belowLess othersGreater
  have valid : ∀ item ∈ below ++ (reg.name, reg) :: others, ValidName item.1 := by
    intro item member
    rcases List.mem_append.mp member with inBelow | inRest
    · exact inv.valid item (by simp [split, inBelow])
    · rcases List.mem_cons.mp inRest with same | inOthers
      · rw [same]
        exact named.validName
      · exact inv.valid item (by simp [split, inOthers])
  obtain ⟨next, ran, nextItems, dead⟩ := deleteOverlaps_ok (cache.overlapsOf reg)
    (cache.overlapsOf_valid inv reg) { cache with regions := regions }
    (by rw [items]; exact valid) (by rw [items]; exact sorted)
  refine ⟨next, below, others, ?_, split, sorted, by rw [nextItems, items], dead⟩
  simp only [KeyRegionCache.put, put, ok_bind, ↓reduceIte, ran]
  rfl

end KeyRegionCache

theorem apart_of_not_overlap {a b : RegionInfo} (wellFormedA : a.WellFormed)
    (wellFormedB : b.WellFormed) (quiet : isRegionOverlap a b = false) : Apart a b := by
  intro table key both
  have overlap := (isRegionOverlap_iff wellFormedA wellFormedB).mpr ⟨table, key, both⟩
  simp [overlap] at quiet

theorem CacheInv.replace {below others : List (Bytes × RegionInfo)}
    (inv : CacheInv (below ++ others)) {reg : RegionInfo} (wellFormed : reg.WellFormed)
    (sorted : Sorted nameRank (below ++ (reg.name, reg) :: others)) (dropped : List Bytes)
    (complete : ∀ item ∈ below ++ others, isRegionOverlap item.2 reg = true → item.1 ∈ dropped) :
    CacheInv ((below ++ (reg.name, reg) :: others).filter (·.1 ∉ dropped)) := by
  have quiet : ∀ item ∈ below ++ others, item.1 ∉ dropped → Apart item.2 reg := by
    intro item member kept
    apply apart_of_not_overlap (inv.wellFormed item member) wellFormed
    rw [← Bool.not_eq_true]
    exact fun overlap => kept (complete item member overlap)
  obtain ⟨belowApart, othersApart, between⟩ := List.pairwise_append.mp inv.apart
  constructor
  · intro item member
    rcases List.mem_append.mp (List.mem_of_mem_filter member) with inBelow | inRest
    · exact inv.stored item (by simp [inBelow])
    · rcases List.mem_cons.mp inRest with same | inOthers
      · rw [same]
      · exact inv.stored item (by simp [inOthers])
  · intro item member
    rcases List.mem_append.mp (List.mem_of_mem_filter member) with inBelow | inRest
    · exact inv.wellFormed item (by simp [inBelow])
    · rcases List.mem_cons.mp inRest with same | inOthers
      · rw [same]
        exact wellFormed
      · exact inv.wellFormed item (by simp [inOthers])
  · exact sorted.sublist List.filter_sublist
  · rw [List.pairwise_filter, List.pairwise_append, List.pairwise_cons]
    refine ⟨belowApart.imp fun apart _ _ => apart, ⟨?_, othersApart.imp fun apart _ _ => apart⟩, ?_⟩
    · intro item member _ kept
      exact (quiet item (by simp [member]) (by simpa using kept)).symm
    · intro first inBelow second inRest firstKept _
      rcases List.mem_cons.mp inRest with same | inOthers
      · rw [same]
        exact quiet first (by simp [inBelow]) (by simpa using firstKept)
      · exact between first inBelow second inOthers

theorem KeyRegionCache.put_inv (cache : KeyRegionCache T) (inv : CacheInv (T.items cache.regions))
    {reg : RegionInfo} (wellFormed : reg.WellFormed) :
    ∃ result, cache.put reg = .ok result ∧ CacheInv (T.items result.1.regions) := by
  by_cases cached : ∃ item ∈ T.items cache.regions, item.1 = reg.name
  · obtain ⟨⟨name, v⟩, member, rfl⟩ := cached
    obtain ⟨next, put, items, _⟩ := cache.put_present inv wellFormed member
    exact ⟨_, put, by rw [items]; exact inv⟩
  · have absent : ∀ item ∈ T.items cache.regions, item.1 ≠ reg.name :=
      fun item member same => cached ⟨item, member, same⟩
    cases younger : (cache.overlapsOf reg).any (fun o => decide (o.id > reg.id)) with
    | true =>
        obtain ⟨next, put, items, _⟩ := cache.put_declined inv wellFormed absent younger
        exact ⟨_, put, by rw [items]; exact inv⟩
    | false =>
        obtain ⟨next, below, others, put, split, sorted, items, _⟩ :=
          cache.put_replaced inv wellFormed absent younger
        refine ⟨_, put, ?_⟩
        rw [items]
        apply CacheInv.replace (split ▸ inv) wellFormed sorted
        intro item member overlap
        rw [← split] at member
        rw [inv.stored item member]
        refine List.mem_map_of_mem (List.mem_filter.mpr ⟨?_, overlap⟩)
        exact List.mem_map_of_mem member

theorem KeyRegionCache.del_ok (cache : KeyRegionCache T) (inv : CacheInv (T.items cache.regions))
    {reg : RegionInfo} (wellFormed : reg.WellFormed) :
    ∃ result, cache.del reg = .ok result ∧
      T.items result.1.regions = (T.items cache.regions).filter (·.1 ≠ reg.name) ∧
      result.1.dead = cache.dead ++ [reg] := by
  obtain ⟨_, named⟩ := wellFormed
  obtain ⟨hit, deleted⟩ :=
    deleteItems_spec compare_lawful named.validName inv.valid inv.sorted
  obtain ⟨regions, removed, kept⟩ := T.delete_ok deleted
  refine ⟨({ regions := regions, dead := cache.dead ++ [reg] }, hit), ?_, kept, rfl⟩
  simp only [KeyRegionCache.del, removed, ok_bind]
  rfl

theorem CacheCall.run_inv (call : CacheCall) (cache : KeyRegionCache T)
    (inv : CacheInv (T.items cache.regions)) (wellFormed : call.region.WellFormed) :
    ∃ next, call.run cache = .ok next ∧ CacheInv (T.items next.regions) := by
  cases call with
  | put reg =>
      have regWellFormed : reg.WellFormed := wellFormed
      obtain ⟨result, put, kept⟩ := cache.put_inv inv regWellFormed
      exact ⟨result.1, by simp only [CacheCall.run, put]; rfl, kept⟩
  | del reg =>
      have regWellFormed : reg.WellFormed := wellFormed
      obtain ⟨result, deleted, items, _⟩ := cache.del_ok inv regWellFormed
      refine ⟨result.1, by simp only [CacheCall.run, deleted]; rfl, ?_⟩
      rw [items]
      exact inv.sublist List.filter_sublist

theorem runCalls_inv (calls : List CacheCall) (cache : KeyRegionCache T)
    (inv : CacheInv (T.items cache.regions))
    (wellFormed : ∀ call ∈ calls, call.region.WellFormed) :
    ∃ final, runCalls cache calls = .ok final ∧ CacheInv (T.items final.regions) := by
  induction calls generalizing cache with
  | nil => exact ⟨cache, rfl, inv⟩
  | cons call calls ih =>
      obtain ⟨next, ran, nextInv⟩ := call.run_inv cache inv (wellFormed call (by simp))
      obtain ⟨final, finished, finalInv⟩ :=
        ih next nextInv fun later member => wellFormed later (List.mem_cons_of_mem _ member)
      exact ⟨final, by simp only [runCalls, ran, ok_bind, finished], finalInv⟩

theorem new_inv : CacheInv (T.items (KeyRegionCache.new T).regions) := by
  rw [KeyRegionCache.new, T.items_new]
  exact ⟨by simp, by simp, List.Pairwise.nil, List.Pairwise.nil⟩

/-- Starting from an empty cache, any sequence of `put` and `del` runs to its
end, stores every region under its name and leaves no row in two regions. -/
theorem cache_never_overlaps (calls : List CacheCall)
    (wellFormed : ∀ call ∈ calls, call.region.WellFormed) :
    ∃ cache, runCalls (KeyRegionCache.new T) calls = .ok cache ∧
      (∀ item ∈ T.items cache.regions, item.1 = item.2.name) ∧
      (T.items cache.regions).Pairwise fun first second =>
        ∀ table key, ¬(first.2.Contains table key ∧ second.2.Contains table key) := by
  obtain ⟨cache, ran, inv⟩ := runCalls_inv calls (KeyRegionCache.new T) new_inv wellFormed
  exact ⟨cache, ran, inv.stored, inv.apart⟩

theorem sampleRegion_wellFormed (ref : Nat) (id : UInt64) (startKey stopKey : Bytes)
    (short : startKey.length ≤ 100) (range : startKey < stopKey ∨ stopKey = []) :
    (sampleRegion ref id startKey stopKey).WellFormed := by
  have tablePlain : comma ∉ ([116] : Bytes) ∧ colon ∉ ([116] : Bytes) := by decide
  refine ⟨[49], rfl, by simp [sampleRegion], by simp [sampleRegion], tablePlain, by decide,
    ⟨49, [], rfl, by decide, by decide⟩, ?_, range⟩
  simp only [sampleRegion, length_joinName, List.length_cons, List.length_nil]
  omega

def splitCalls : List CacheCall :=
  [.put (sampleRegion 0 1 [] []), .put (sampleRegion 1 2 [] [109]),
    .put (sampleRegion 2 2 [109] []), .del (sampleRegion 1 2 [] [109])]

theorem splitCalls_wellFormed : ∀ call ∈ splitCalls, call.region.WellFormed := by
  simp only [splitCalls, List.forall_mem_cons, List.not_mem_nil, false_implies, implies_true,
    and_true, CacheCall.region]
  refine ⟨?_, ?_, ?_, ?_⟩ <;> exact sampleRegion_wellFormed _ _ _ _ (by decide) (by decide)

theorem cache_never_overlaps_split :
    ∃ cache, runCalls (KeyRegionCache.new (reference Bytes RegionInfo compare)) splitCalls =
        .ok cache ∧
      (∀ item ∈ (reference Bytes RegionInfo compare).items cache.regions,
        item.1 = item.2.name) ∧
      ((reference Bytes RegionInfo compare).items cache.regions).Pairwise fun first second =>
        ∀ table key, ¬(first.2.Contains table key ∧ second.2.Contains table key) :=
  cache_never_overlaps splitCalls splitCalls_wellFormed

end GoHBase
