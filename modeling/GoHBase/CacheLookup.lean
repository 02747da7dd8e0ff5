import GoHBase.CacheInvariant

/-!
Lookup of a row in a reachable cache. The predecessor of the search key is the
only region that can contain the row, so looking at one region is enough.
-/

namespace GoHBase

open ByteString Runtime OrderedTree

variable {T : Tree Bytes RegionInfo compare}

def KeyRegionCache.Cached (cache : KeyRegionCache T) (reg : RegionInfo) : Prop :=
  ∃ name, (name, reg) ∈ T.items cache.regions

theorem searchKey_validName (table key : Bytes) : ValidName (joinName table key [colon]) := by
  obtain ⟨part, row, same, plain, _⟩ := searchKey_valid table key
  exact ⟨part, row, [colon], same, plain, by decide⟩

theorem rank_ne_any_searchKey {reg : RegionInfo} (wellFormed : reg.WellFormed)
    (table key : Bytes) : nameRank reg.name ≠ nameRank (joinName table key [colon]) := by
  obtain ⟨part, row, same, plain, _⟩ := searchKey_valid table key
  obtain ⟨_, named⟩ := wellFormed
  rw [same]
  exact rank_ne_searchKey named part row plain

theorem below_searchKey_iff {reg : RegionInfo} (wellFormed : reg.WellFormed) (key : Bytes) :
    nameRank reg.name < nameRank (joinName (fullyQualifiedTable reg)
      (key.take (searchRoom (fullyQualifiedTable reg))) [colon]) ↔ reg.startKey ≤ key := by
  obtain ⟨_, named⟩ := wellFormed
  rw [rank_lt_searchKey named _ _ (fullyQualifiedTable_plain named)]
  simp

theorem get_predecessor (cache : KeyRegionCache T) (inv : CacheInv (T.items cache.regions))
    (table key : Bytes) :
    ∃ below others enum, T.items cache.regions = below ++ others ∧
      (∀ item ∈ below, nameRank item.1 < nameRank (joinName table key [colon])) ∧
      (∀ item ∈ others, nameRank (joinName table key [colon]) < nameRank item.1) ∧
      T.seek cache.regions (joinName table key [colon]) = .ok (enum, false) ∧
      cache.get (joinName table key [colon]) = .ok below.getLast? := by
  have differs : ∀ item ∈ T.items cache.regions,
      nameRank item.1 ≠ nameRank (joinName table key [colon]) := by
    intro item member
    rw [inv.stored item member]
    exact rank_ne_any_searchKey (inv.wellFormed item member) table key
  obtain ⟨below, others, split, belowLess, othersGreater, sought⟩ :=
    KeyRegionCache.seek_missed inv (searchKey_validName table key) differs
  obtain ⟨enum, seekEq, landed⟩ := T.seek_ok sought
  refine ⟨below, others, enum, split, belowLess, othersGreater, seekEq, ?_⟩
  have previous : (T.prev enum).1 = below.getLast? := by
    rw [T.prev_fst, landed, prev_missed]
  simp only [KeyRegionCache.get, seekEq, ok_bind, Bool.false_eq_true, ↓reduceIte, previous]
  rfl

theorem later_region_wins {earlier later : RegionInfo} (wellFormedEarlier : earlier.WellFormed)
    (wellFormedLater : later.WellFormed) (order : nameRank earlier.name < nameRank later.name)
    (apart : Apart earlier later) (key : Bytes)
    (tableLater : fullyQualifiedTable later ≤ fullyQualifiedTable earlier)
    (startLater : fullyQualifiedTable later = fullyQualifiedTable earlier → later.startKey ≤ key) :
    ¬earlier.Contains (fullyQualifiedTable earlier) key := by
  rintro ⟨_, _, high⟩
  rcases rank_lt_tables wellFormedEarlier wellFormedLater order with less | ⟨same, starts⟩
  · exact absurd less tableLater.not_gt
  · refine apart (fullyQualifiedTable later) later.startKey
      ⟨⟨same, starts, ?_⟩, contains_startKey wellFormedLater⟩
    exact high.imp_right fun below => (startLater same.symm).trans_lt below

theorem container_is_last {below others : List (Bytes × RegionInfo)}
    (inv : CacheInv (below ++ others)) {table key : Bytes}
    (belowLess : ∀ item ∈ below,
      nameRank item.1 < nameRank (joinName table (key.take (searchRoom table)) [colon]))
    (othersGreater : ∀ item ∈ others,
      nameRank (joinName table (key.take (searchRoom table)) [colon]) < nameRank item.1)
    {item : Bytes × RegionInfo} (member : item ∈ below ++ others)
    (contains : item.2.Contains table key) : below.getLast? = some item := by
  have wellFormed := inv.wellFormed item member
  obtain ⟨rfl, start, high⟩ := contains
  have itemBelow : item ∈ below := by
    rcases List.mem_append.mp member with inBelow | inOthers
    · exact inBelow
    · have less := (below_searchKey_iff wellFormed key).mpr start
      rw [← inv.stored item member] at less
      exact absurd less (othersGreater item inOthers).not_gt
  rcases List.eq_nil_or_concat below with empty | ⟨init, last, shape⟩
  · simp [empty] at itemBelow
  · have belowShape : below = init ++ [last] := by simpa using shape
    rw [belowShape] at itemBelow
    rcases List.mem_append.mp itemBelow with inInit | isLast
    · have whole : below ++ others = init ++ last :: others := by simp [belowShape]
      rw [whole] at inv
      have order := inv.sorted.ne_of_append inInit (List.mem_cons_self (a := last))
      have apart := (List.pairwise_append.mp inv.apart).2.2 item inInit last List.mem_cons_self
      have lastMem : last ∈ init ++ last :: others := by simp
      have itemMem : item ∈ init ++ last :: others := by simp [inInit]
      have lastWellFormed := inv.wellFormed last lastMem
      have lastLess := belowLess last (by simp [belowShape])
      rw [inv.stored item itemMem, inv.stored last lastMem] at order
      rw [inv.stored last lastMem] at lastLess
      obtain ⟨_, itemNamed⟩ := id wellFormed
      obtain ⟨_, lastNamed⟩ := id lastWellFormed
      have place := (rank_lt_searchKey lastNamed _ key (fullyQualifiedTable_plain itemNamed)).mp
        lastLess
      refine absurd ⟨rfl, start, high⟩
        (later_region_wins wellFormed lastWellFormed order apart key ?_ ?_)
      · rcases place with less | ⟨same, _⟩
        · exact less.le
        · exact same.le
      · intro same
        rcases place with less | ⟨_, starts⟩
        · exact absurd same less.ne
        · exact starts
    · rw [belowShape, List.mem_singleton.mp isLast]
      simp

theorem acceptRegion_some {table key name : Bytes} {region : RegionInfo} :
    acceptRegion table key (some (name, region)) = some region ↔
      fullyQualifiedTable region = table ∧ (region.stopKey = [] ∨ key < region.stopKey) := by
  unfold acceptRegion
  by_cases sameTable : fullyQualifiedTable region = table
  · by_cases empty : region.stopKey = []
    · simp [sameTable, empty]
    · simp [sameTable, empty]
  · simp [sameTable]

theorem acceptRegion_cases (table key : Bytes) (found : Option (Bytes × RegionInfo)) :
    acceptRegion table key found = none ∨
      ∃ name region, found = some (name, region) ∧ acceptRegion table key found = some region := by
  match found with
  | none => exact .inl rfl
  | some (name, region) =>
      cases accepted : acceptRegion table key (some (name, region)) with
      | none => exact .inl rfl
      | some other =>
          have same : other = region := by
            simp only [acceptRegion] at accepted
            split at accepted
            · simp at accepted
            · split at accepted
              · simp at accepted
              · simpa using accepted.symm
          exact .inr ⟨name, region, rfl, by rw [same]⟩

theorem acceptRegion_exact {below others : List (Bytes × RegionInfo)}
    (inv : CacheInv (below ++ others)) {table key : Bytes}
    (belowLess : ∀ item ∈ below,
      nameRank item.1 < nameRank (joinName table (key.take (searchRoom table)) [colon]))
    (othersGreater : ∀ item ∈ others,
      nameRank (joinName table (key.take (searchRoom table)) [colon]) < nameRank item.1)
    (reg : RegionInfo) :
    acceptRegion table key below.getLast? = some reg ↔
      (∃ name, (name, reg) ∈ below ++ others) ∧ reg.Contains table key := by
  constructor
  · intro accepted
    rcases acceptRegion_cases table key below.getLast? with rejected | ⟨name, region, last, kept⟩
    · simp [rejected] at accepted
    · obtain rfl : region = reg := by simpa [accepted] using kept.symm
      rw [last, acceptRegion_some] at accepted
      obtain ⟨rfl, high⟩ := accepted
      have lastBelow := List.mem_of_getLast? last
      have member : (name, region) ∈ below ++ others := List.mem_append_left _ lastBelow
      have less := belowLess _ lastBelow
      rw [inv.stored _ member] at less
      have start := (below_searchKey_iff (inv.wellFormed _ member) key).mp less
      exact ⟨⟨name, member⟩, rfl, start, high⟩
  · rintro ⟨⟨name, member⟩, contains⟩
    rw [container_is_last inv belowLess othersGreater member contains, acceptRegion_some]
    exact ⟨contains.1, contains.2.2⟩

/-- A lookup in a reachable cache finds a region exactly when it is cached and
contains the row, whatever the length of the row, and compares without abort. -/
theorem getRegionFromCache_exact (calls : List CacheCall)
    (wellFormed : ∀ call ∈ calls, call.region.WellFormed) (client : Client T)
    (reached : runCalls (KeyRegionCache.new T) calls = .ok client.regions)
    (regular : client.clientType = .regionClient) (table key : Bytes)
    (notMeta : table ≠ metaTableName) (fits : table.length ≤ 32764) :
    (∃ found, client.getRegionFromCache table key = .ok found ∧
      (∀ reg, found = some reg ↔ client.regions.Cached reg ∧ reg.Contains table key) ∧
      (found = none ↔ ∀ reg, client.regions.Cached reg → ¬reg.Contains table key)) ∧
    ∃ searchKey enum, createRegionSearchKey table key = .ok searchKey ∧
      T.seek client.regions.regions searchKey = .ok (enum, false) ∧
      ∀ item ∈ T.items client.regions.regions,
        (∃ verdict, compare searchKey item.1 = .ok verdict ∧ verdict ≠ 0) ∧
        ∃ verdict, compare item.1 searchKey = .ok verdict ∧ verdict ≠ 0 := by
  obtain ⟨cache, ran, inv⟩ := runCalls_inv calls (KeyRegionCache.new T) new_inv wellFormed
  obtain rfl : cache = client.regions := by
    rw [reached] at ran
    exact (Except.ok.inj ran).symm
  obtain ⟨below, others, enum, split, belowLess, othersGreater, sought, looked⟩ :=
    get_predecessor client.regions inv table (key.take (searchRoom table))
  have accepts := acceptRegion_exact (split ▸ inv) belowLess othersGreater
  constructor
  · refine ⟨acceptRegion table key below.getLast?, ?_, ?_, ?_⟩
    · simp only [Client.getRegionFromCache, regular, reduceCtorEq, ↓reduceIte, notMeta,
        createRegionSearchKey_eq table key fits, ok_bind, looked]
      rfl
    · intro reg
      rw [accepts reg, ← split]
      rfl
    · rw [Option.eq_none_iff_forall_ne_some]
      refine forall_congr' fun reg => ?_
      rw [ne_eq, accepts reg, ← split, not_and]
      rfl
  · refine ⟨_, enum, createRegionSearchKey_eq table key fits, sought, ?_⟩
    intro item member
    have itemValid := inv.valid item member
    have keyValid := searchKey_validName table (key.take (searchRoom table))
    have differs : nameRank item.1 ≠
        nameRank (joinName table (key.take (searchRoom table)) [colon]) := by
      rw [inv.stored item member]
      exact rank_ne_any_searchKey (inv.wellFormed item member) _ _
    constructor
    · obtain ⟨verdict, computed, decided⟩ := compare_lawful.decides _ _ keyValid itemValid
      exact ⟨verdict, computed, fun zero => differs (decided.2.mp zero).symm⟩
    · obtain ⟨verdict, computed, decided⟩ := compare_lawful.decides _ _ itemValid keyValid
      exact ⟨verdict, computed, fun zero => differs (decided.2.mp zero)⟩

def splitClient : Client (reference Bytes RegionInfo compare) where
  clientType := .regionClient
  adminRegionInfo := none
  metaRegionInfo := none
  regions := {
    regions := [([116, 44, 109, 44, 49], sampleRegion 2 2 [109] [])]
    dead := [sampleRegion 0 1 [] [], sampleRegion 1 2 [] [109]]
  }

theorem getRegionFromCache_exact_split :
    (∃ found, splitClient.getRegionFromCache [116] [122] = .ok found ∧
      (∀ reg, found = some reg ↔ splitClient.regions.Cached reg ∧ reg.Contains [116] [122]) ∧
      (found = none ↔ ∀ reg, splitClient.regions.Cached reg → ¬reg.Contains [116] [122])) ∧
    ∃ searchKey enum, createRegionSearchKey [116] [122] = .ok searchKey ∧
      (reference Bytes RegionInfo compare).seek splitClient.regions.regions searchKey =
        .ok (enum, false) ∧
      ∀ item ∈ (reference Bytes RegionInfo compare).items splitClient.regions.regions,
        (∃ verdict, compare searchKey item.1 = .ok verdict ∧ verdict ≠ 0) ∧
        ∃ verdict, compare item.1 searchKey = .ok verdict ∧ verdict ≠ 0 :=
  getRegionFromCache_exact splitCalls splitCalls_wellFormed splitClient rfl rfl [116] [122]
    (by decide) (by decide)

theorem overlap_iff_intersects {region reg : RegionInfo} (wellFormed : region.WellFormed)
    (other : reg.WellFormed) :
    isRegionOverlap region reg = true ↔
      fullyQualifiedTable region = fullyQualifiedTable reg ∧
        ∃ key, region.Contains (fullyQualifiedTable region) key ∧
          reg.Contains (fullyQualifiedTable reg) key := by
  rw [isRegionOverlap_iff wellFormed other]
  constructor
  · rintro ⟨table, key, inside, otherInside⟩
    obtain rfl := inside.1
    exact ⟨otherInside.1.symm, key, inside, by rw [otherInside.1]; exact otherInside⟩
  · rintro ⟨same, key, inside, otherInside⟩
    exact ⟨_, key, inside, by rw [same]; exact otherInside⟩

/-- The overlap search over any tree of regions that are apart: all regions of the table whose range
meets that of the region, each once and in the order of their names. -/
theorem getOverlaps_exact (cache : KeyRegionCache T) (inv : CacheInv (T.items cache.regions))
    (reg : RegionInfo) (wellFormed : reg.WellFormed) :
    ∃ overlaps, cache.getOverlaps reg = .ok overlaps ∧ overlaps.Nodup ∧
      (overlaps.Pairwise fun first second =>
        ∃ verdict, compare first.name second.name = .ok verdict ∧ verdict < 0) ∧
      ∀ region, region ∈ overlaps ↔ cache.Cached region ∧
        fullyQualifiedTable region = fullyQualifiedTable reg ∧
        ∃ key, region.Contains (fullyQualifiedTable region) key ∧
          reg.Contains (fullyQualifiedTable reg) key := by
  have cachedWellFormed {region : RegionInfo} (cached : cache.Cached region) :
      region.WellFormed := by
    obtain ⟨name, member⟩ := cached
    exact inv.wellFormed _ member
  have ordered : ((T.items cache.regions).map Prod.snd).Pairwise fun first second =>
      ∃ verdict, compare first.name second.name = .ok verdict ∧ verdict < 0 := by
    rw [List.pairwise_map]
    refine inv.sorted.imp_of_mem ?_
    intro first second firstMem secondMem less
    obtain ⟨verdict, computed, decided⟩ :=
      compare_lawful.decides _ _ (inv.valid first firstMem) (inv.valid second secondMem)
    rw [inv.stored first firstMem, inv.stored second secondMem] at computed
    exact ⟨verdict, computed, decided.1.mpr less⟩
  have order := ordered.filter (isRegionOverlap · reg)
  refine ⟨_, cache.getOverlaps_eq inv wellFormed, ?_, order, ?_⟩
  · refine order.imp_of_mem ?_
    rintro first second firstMem - ⟨verdict, computed, negative⟩ rfl
    obtain ⟨item, member, rfl⟩ := List.mem_map.mp (List.mem_of_mem_filter firstMem)
    obtain ⟨_, named⟩ := inv.wellFormed item member
    obtain ⟨zero, same, decided⟩ :=
      compare_lawful.decides _ _ named.validName named.validName
    obtain rfl := Except.ok.inj (computed.symm.trans same)
    exact lt_irrefl _ (decided.1.mp negative)
  · intro region
    rw [List.mem_filter]
    constructor
    · rintro ⟨member, overlap⟩
      obtain ⟨item, itemMem, rfl⟩ := List.mem_map.mp member
      have cached : cache.Cached item.2 := ⟨item.1, itemMem⟩
      exact ⟨cached, (overlap_iff_intersects (cachedWellFormed cached) wellFormed).mp overlap⟩
    · rintro ⟨cached, meets⟩
      have overlap := (overlap_iff_intersects (cachedWellFormed cached) wellFormed).mpr meets
      obtain ⟨name, member⟩ := cached
      exact ⟨List.mem_map.mpr ⟨_, member, rfl⟩, overlap⟩

theorem splitClient_inv : CacheInv ((reference Bytes RegionInfo compare).items
    splitClient.regions.regions) := by
  obtain ⟨cache, ran, inv⟩ := runCalls_inv splitCalls
    (KeyRegionCache.new (reference Bytes RegionInfo compare)) new_inv splitCalls_wellFormed
  obtain rfl : splitClient.regions = cache := Except.ok.inj ran
  exact inv

theorem getOverlaps_exact_split :
    ∃ overlaps, splitClient.regions.getOverlaps (sampleRegion 3 3 [97] [122]) = .ok overlaps ∧
      overlaps.Nodup ∧
      (overlaps.Pairwise fun first second =>
        ∃ verdict, compare first.name second.name = .ok verdict ∧ verdict < 0) ∧
      ∀ region, region ∈ overlaps ↔ splitClient.regions.Cached region ∧
        fullyQualifiedTable region = fullyQualifiedTable (sampleRegion 3 3 [97] [122]) ∧
        ∃ key, region.Contains (fullyQualifiedTable region) key ∧
          (sampleRegion 3 3 [97] [122]).Contains
            (fullyQualifiedTable (sampleRegion 3 3 [97] [122])) key :=
  getOverlaps_exact splitClient.regions splitClient_inv (sampleRegion 3 3 [97] [122])
    (sampleRegion_wellFormed _ _ _ _ (by decide) (by decide))

end GoHBase
