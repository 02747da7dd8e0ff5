import GoHBase.CacheLookup

/-!
What a `put` and a `del` that return have done, whatever the names of the regions: which regions
are cached afterwards, and which are marked dead.
-/

namespace GoHBase

open ByteString Runtime OrderedTree

variable {T : Tree Bytes RegionInfo compare}

structure Filed (items : List (Bytes × RegionInfo)) : Prop where
  stored : ∀ item ∈ items, item.1 = item.2.name
  sorted : Sorted nameRank items

theorem CacheInv.filed {items : List (Bytes × RegionInfo)} (inv : CacheInv items) : Filed items :=
  ⟨inv.stored, inv.sorted⟩

theorem Filed.sublist {items kept : List (Bytes × RegionInfo)} (filed : Filed items)
    (sub : kept.Sublist items) : Filed kept where
  stored item member := filed.stored item (sub.subset member)
  sorted := filed.sorted.sublist sub

theorem Filed.insert {below others : List (Bytes × RegionInfo)} (filed : Filed (below ++ others))
    (reg : RegionInfo) (belowLess : ∀ item ∈ below, nameRank item.1 < nameRank reg.name)
    (othersGreater : ∀ item ∈ others, nameRank reg.name < nameRank item.1) :
    Filed (below ++ (reg.name, reg) :: others) where
  stored item member := by
    simp only [List.mem_append, List.mem_cons] at member
    rcases member with inBelow | rfl | inOthers
    · exact filed.stored item (by simp [inBelow])
    · rfl
    · exact filed.stored item (by simp [inOthers])
  sorted := filed.sorted.insert reg belowLess othersGreater

namespace KeyRegionCache

variable {cache next : KeyRegionCache T} {reg : RegionInfo} {overlaps : List RegionInfo}

theorem Cached.item (filed : Filed (T.items cache.regions)) (cached : cache.Cached reg) :
    (reg.name, reg) ∈ T.items cache.regions := by
  obtain ⟨name, member⟩ := cached
  have same : name = reg.name := filed.stored _ member
  rwa [same] at member

theorem Cached.unique (filed : Filed (T.items cache.regions)) {other : RegionInfo}
    (first : cache.Cached reg) (second : cache.Cached other) (same : reg.name = other.name) :
    reg = other :=
  congrArg Prod.snd (filed.sorted.key_unique (first.item filed) (second.item filed) same)

theorem cached_iff : reg ∈ (T.items cache.regions).map Prod.snd ↔ cache.Cached reg := by
  constructor
  · intro member
    obtain ⟨⟨name, _⟩, inside, rfl⟩ := List.mem_map.mp member
    exact ⟨name, inside⟩
  · rintro ⟨name, member⟩
    exact List.mem_map_of_mem member

theorem delete_filed {regions left : T.Carrier} {name : Bytes} {hit : Bool}
    (filed : Filed (T.items regions)) (deleted : T.delete regions name = .ok (left, hit)) :
    T.items left = (T.items regions).filter (·.1 ≠ name) ∧ Filed (T.items left) := by
  have kept := deleteItems_ok (fun item _ => compare_faithful name item.1) filed.sorted
    (T.delete_items_ok deleted)
  refine ⟨kept, ?_⟩
  rw [kept]
  exact filed.sublist List.filter_sublist

theorem deleteOverlaps_filed (filed : Filed (T.items cache.regions))
    (deleted : deleteOverlaps overlaps cache = .ok next) :
    T.items next.regions =
        (T.items cache.regions).filter (·.1 ∉ overlaps.map RegionInfo.name) ∧
      Filed (T.items next.regions) := by
  induction overlaps generalizing cache with
  | nil =>
      cases deleted
      exact ⟨by simp, filed⟩
  | cons overlap overlaps ih =>
      simp only [deleteOverlaps, bind_ok_iff] at deleted
      obtain ⟨⟨regions, hit⟩, removed, rest⟩ := deleted
      obtain ⟨kept, leftFiled⟩ := delete_filed filed removed
      obtain ⟨items, nextFiled⟩ := ih leftFiled rest
      refine ⟨?_, nextFiled⟩
      rw [items, kept, List.filter_filter]
      congr 1
      funext item
      rw [Bool.eq_iff_iff]
      simp [and_comm]

theorem overlapRun_cached {items : List (Bytes × RegionInfo)} (reg : RegionInfo) (fuel : Nat)
    (item : Option (Bytes × RegionInfo)) (enum : T.Enumerator)
    (within : (T.cursor enum).Within items) (inside : ∀ first, item = some first → first ∈ items) :
    ∀ overlap ∈ overlapRun reg fuel item enum, overlap ∈ items.map Prod.snd := by
  induction fuel generalizing item enum with
  | zero => simp [overlapRun]
  | succ fuel ih =>
      cases item with
      | none => simp [overlapRun]
      | some first =>
          simp only [overlapRun]
          split
          · have next := within.next
            rw [← T.next_snd, ← T.next_fst] at next
            intro overlap member
            rcases List.mem_cons.mp member with rfl | member
            · exact List.mem_map_of_mem (inside first rfl)
            · exact ih _ _ next.1 next.2 overlap member
          · simp

theorem rewind_within {cache : KeyRegionCache T} {enum enum' : T.Enumerator}
    (within : (T.cursor enum).Within (T.items cache.regions))
    (rewound : cache.rewind enum = .ok enum') :
    (T.cursor enum').Within (T.items cache.regions) := by
  have back := within.prev
  rw [← T.prev_snd] at back
  have stepped := back.next
  rw [← T.next_snd] at stepped
  unfold rewind at rewound
  dsimp only at rewound
  split at rewound
  · cases rewound
    exact stepped.1
  · rename_i first sought
    cases rewound
    exact T.seekFirst_within sought
  · cases rewound

theorem getOverlaps_cached {cache : KeyRegionCache T} {reg : RegionInfo}
    {overlaps : List RegionInfo} (found : cache.getOverlaps reg = .ok overlaps) :
    ∀ overlap ∈ overlaps, overlap ∈ (T.items cache.regions).map Prod.snd := by
  unfold getOverlaps at found
  split at found
  · cases found
    simp
  · simp only [bind_ok_iff] at found
    rcases found with ⟨key, _, ⟨enum, hit⟩, sought, found⟩
    have within := T.seek_within sought
    split at found
    · cases found
    · simp only [bind_ok_iff] at found
      rcases found with ⟨first, rewound, found⟩
      have start := rewind_within within rewound
      have second := start.next
      rw [← T.next_snd, ← T.next_fst] at second
      have third := second.1.next
      rw [← T.next_snd, ← T.next_fst] at third
      split at found
      · cases found
      · rename_i name v item
        have rest := overlapRun_cached reg (T.len cache.regions) _ _ third.1 third.2
        cases found
        split
        · intro overlap member
          rcases List.mem_cons.mp member with rfl | member
          · exact List.mem_map_of_mem (second.2 _ item)
          · exact rest overlap member
        · exact rest

theorem deleteOverlaps_dead {overlaps : List RegionInfo} {cache cache' : KeyRegionCache T}
    (deleted : deleteOverlaps overlaps cache = .ok cache') :
    cache'.dead = cache.dead ++ overlaps := by
  induction overlaps generalizing cache with
  | nil =>
      cases deleted
      simp
  | cons overlap overlaps ih =>
      simp only [deleteOverlaps, bind_ok_iff] at deleted
      rcases deleted with ⟨_, _, rest⟩
      rw [ih rest, List.append_assoc, List.singleton_append]

theorem put_ok {cache cache' : KeyRegionCache T} {reg : RegionInfo} {overlaps : List RegionInfo}
    {replaced : Bool} (put : cache.put reg = .ok (cache', overlaps, replaced)) :
    cache'.dead = (if replaced then cache.dead ++ overlaps else cache.dead) ∧
      (replaced = true → ∀ overlap ∈ overlaps, overlap ∈ (T.items cache.regions).map Prod.snd) := by
  simp only [KeyRegionCache.put, bind_ok_iff] at put
  rcases put with ⟨⟨regions, found, flag⟩, stored, put⟩
  rcases T.put_output stored with ⟨old, written, updated⟩
  cases flag with
  | false =>
      cases put
      exact ⟨rfl, fun impossible => absurd impossible Bool.false_ne_true⟩
  | true =>
      simp only [↓reduceIte, bind_ok_iff] at put
      rcases put with ⟨cleaned, deleted, finished⟩
      cases finished
      have dead := deleteOverlaps_dead deleted
      refine ⟨dead, fun _ => ?_⟩
      cases old with
      | some v => cases updated
      | none =>
          simp only [update, bind_ok_iff] at updated
          rcases updated with ⟨seen, overlapping, updated⟩
          split at updated
          · cases updated
          · cases updated
            exact getOverlaps_cached overlapping

theorem put_inserts (filed : Filed (T.items cache.regions))
    (put : cache.put reg = .ok (next, overlaps, true)) :
    ∃ below others, T.items cache.regions = below ++ others ∧
      (∀ item ∈ below, nameRank item.1 < nameRank reg.name) ∧
      (∀ item ∈ others, nameRank reg.name < nameRank item.1) ∧
      T.items next.regions = (below ++ (reg.name, reg) :: others).filter
        (·.1 ∉ overlaps.map RegionInfo.name) ∧
      Filed (T.items next.regions) := by
  simp only [KeyRegionCache.put, bind_ok_iff] at put
  obtain ⟨⟨regions, found, flag⟩, stored, put⟩ := put
  cases flag with
  | false => cases put
  | true =>
      simp only [↓reduceIte, bind_ok_iff] at put
      obtain ⟨cleaned, deleted, finished⟩ := put
      cases finished
      rcases putItems_ok (fun item _ => compare_faithful reg.name item.1) filed.sorted
        (T.put_items_ok stored) with
        ⟨_, _, _, updated, _⟩ | ⟨written, below, others, updated, split, less, greater, kept⟩
      · cases updated
      · obtain rfl : written = some reg := by
          simp only [update, bind_ok_iff] at updated
          obtain ⟨_, _, updated⟩ := updated
          split at updated
          · cases updated
          · cases updated
            rfl
        have inserted : Filed (T.items regions) := by
          rw [kept]
          exact (split ▸ filed).insert reg less greater
        obtain ⟨items, nextFiled⟩ := deleteOverlaps_filed inserted deleted
        refine ⟨below, others, split, less, greater, ?_, nextFiled⟩
        rw [items]
        exact congrArg _ kept

theorem put_stored (filed : Filed (T.items cache.regions))
    (put : cache.put reg = .ok (next, overlaps, true)) :
    Filed (T.items next.regions) ∧ (∀ other, cache.Cached other → other.name ≠ reg.name) ∧
      ∀ other, next.Cached other ↔ cache.Cached other ∧ other ∉ overlaps ∨ other = reg := by
  have reported := (put_ok put).2 rfl
  obtain ⟨below, others, split, less, greater, items, nextFiled⟩ := put_inserts filed put
  have absent : ∀ other, cache.Cached other → other.name ≠ reg.name := by
    intro other cached same
    have member := cached.item filed
    rw [split] at member
    rcases List.mem_append.mp member with inBelow | inOthers
    · exact (less _ inBelow).ne (by rw [same])
    · exact (greater _ inOthers).ne' (by rw [same])
  have evicted : ∀ other, cache.Cached other →
      (other.name ∈ overlaps.map RegionInfo.name ↔ other ∈ overlaps) := by
    intro other cached
    constructor
    · intro named
      obtain ⟨overlap, member, same⟩ := List.mem_map.mp named
      have overlapCached := cached_iff.mp (reported overlap member)
      rwa [← overlapCached.unique filed cached same]
    · exact List.mem_map_of_mem
  have place : ∀ item, item ∈ T.items next.regions ↔
      (item ∈ T.items cache.regions ∨ item = (reg.name, reg)) ∧
        item.1 ∉ overlaps.map RegionInfo.name := by
    intro item
    rw [items, split, List.mem_filter, decide_eq_true_eq]
    simp only [List.mem_append, List.mem_cons]
    tauto
  refine ⟨nextFiled, absent, ?_⟩
  intro other
  constructor
  · rintro ⟨name, member⟩
    obtain ⟨before | new, out⟩ := (place _).mp member
    · have cached : cache.Cached other := ⟨name, before⟩
      rw [filed.stored _ before, evicted other cached] at out
      exact .inl ⟨cached, out⟩
    · cases new
      exact .inr rfl
  · rintro (⟨cached, out⟩ | rfl)
    · refine ⟨other.name, (place _).mpr ⟨.inl (cached.item filed), ?_⟩⟩
      rwa [evicted other cached]
    · refine ⟨other.name, (place _).mpr ⟨.inr rfl, ?_⟩⟩
      intro named
      obtain ⟨overlap, member, same⟩ := List.mem_map.mp named
      exact absent overlap (cached_iff.mp (reported overlap member)) same

theorem put_unstored (filed : Filed (T.items cache.regions))
    (put : cache.put reg = .ok (next, overlaps, false)) :
    T.items next.regions = T.items cache.regions ∧ next.dead = cache.dead := by
  refine ⟨?_, (put_ok put).1⟩
  simp only [KeyRegionCache.put, bind_ok_iff] at put
  obtain ⟨⟨regions, found, flag⟩, stored, put⟩ := put
  cases flag with
  | true =>
      simp only [↓reduceIte, bind_ok_iff] at put
      obtain ⟨_, _, finished⟩ := put
      cases finished
  | false =>
      cases put
      rcases putItems_ok (fun item _ => compare_faithful reg.name item.1) filed.sorted
        (T.put_items_ok stored) with
        ⟨_, _, _, updated, kept⟩ | ⟨written, _, _, updated, _, _, _, kept⟩
      · cases updated
        exact kept rfl
      · obtain rfl : written = none := by
          simp only [update, bind_ok_iff] at updated
          obtain ⟨_, _, updated⟩ := updated
          split at updated
          · cases updated
            rfl
          · cases updated
        exact kept

theorem del_filed {hit : Bool} (filed : Filed (T.items cache.regions))
    (deleted : cache.del reg = .ok (next, hit)) :
    Filed (T.items next.regions) ∧ next.dead = cache.dead ++ [reg] ∧
      ∀ other, next.Cached other ↔ cache.Cached other ∧ other.name ≠ reg.name := by
  simp only [del, bind_ok_iff] at deleted
  obtain ⟨⟨regions, success⟩, removed, finished⟩ := deleted
  cases finished
  obtain ⟨kept, nextFiled⟩ := delete_filed filed removed
  refine ⟨nextFiled, rfl, ?_⟩
  intro other
  constructor
  · rintro ⟨name, member⟩
    simp only [kept, List.mem_filter, decide_eq_true_eq] at member
    have same : name = other.name := filed.stored _ member.1
    exact ⟨⟨name, member.1⟩, by rw [← same]; exact member.2⟩
  · rintro ⟨cached, differs⟩
    refine ⟨other.name, ?_⟩
    simp only [kept, List.mem_filter, decide_eq_true_eq]
    exact ⟨cached.item filed, differs⟩

end KeyRegionCache

end GoHBase
