import GoHBase.CachePut

/-!
Histories of the region cache: which of two overlapping regions wins, and which of the regions
that were cached once are dead. A region leaves the cache under its name, but it is marked as the
object that a caller holds.
-/

namespace GoHBase

open ByteString Runtime OrderedTree

variable {T : Tree Bytes RegionInfo compare}

theorem runCalls_append (cache : KeyRegionCache T) (calls later : List CacheCall) :
    runCalls cache (calls ++ later) = runCalls cache calls >>= (runCalls · later) := by
  induction calls generalizing cache with
  | nil => rfl
  | cons call calls ih =>
      simp only [List.cons_append, runCalls]
      cases call.run cache with
      | error abort => rfl
      | ok next => exact ih next

theorem runCalls_snoc {cache final : KeyRegionCache T} {calls : List CacheCall} {call : CacheCall} :
    runCalls cache (calls ++ [call]) = .ok final ↔
      ∃ last, runCalls cache calls = .ok last ∧ call.run last = .ok final := by
  rw [runCalls_append, bind_ok_iff]
  refine exists_congr fun last => and_congr_right fun _ => ?_
  simp only [runCalls, bind_ok_iff]
  constructor
  · rintro ⟨next, ran, finished⟩
    cases finished
    exact ran
  · exact fun ran => ⟨final, ran, rfl⟩

theorem CacheCall.run_put {cache next : KeyRegionCache T} {reg : RegionInfo} :
    (CacheCall.put reg).run cache = .ok next ↔
      ∃ overlaps replaced, cache.put reg = .ok (next, overlaps, replaced) := by
  rw [CacheCall.run]
  constructor
  · intro ran
    obtain ⟨⟨after, overlaps, replaced⟩, put, same⟩ := (map_ok_iff _ _ _).mp ran
    cases same
    exact ⟨overlaps, replaced, put⟩
  · rintro ⟨overlaps, replaced, put⟩
    rw [put]
    rfl

theorem CacheCall.run_del {cache next : KeyRegionCache T} {reg : RegionInfo} :
    (CacheCall.del reg).run cache = .ok next ↔ ∃ hit, cache.del reg = .ok (next, hit) := by
  rw [CacheCall.run]
  constructor
  · intro ran
    obtain ⟨⟨after, hit⟩, deleted, same⟩ := (map_ok_iff _ _ _).mp ran
    cases same
    exact ⟨hit, deleted⟩
  · rintro ⟨hit, deleted⟩
    rw [deleted]
    rfl

/-- A region that is put is a new object; different objects may have the same name. -/
def FreshPuts (calls : List CacheCall) : Prop :=
  calls.Pairwise fun earlier later => ∀ reg, later = .put reg → earlier.region ≠ reg

theorem FreshPuts.left {calls later : List CacheCall} (fresh : FreshPuts (calls ++ later)) :
    FreshPuts calls :=
  (List.pairwise_append.mp fresh).1

theorem FreshPuts.last {calls : List CacheCall} {reg : RegionInfo}
    (fresh : FreshPuts (calls ++ [.put reg])) : ∀ call ∈ calls, call.region ≠ reg :=
  fun call member => (List.pairwise_append.mp fresh).2.2 call member (.put reg) (by simp) reg rfl

structure CallerDiscipline (calls : List CacheCall) : Prop where
  fresh : FreshPuts calls
  known : ∀ before reg after, calls = before ++ .del reg :: after → .put reg ∈ before

theorem CallerDiscipline.left {calls later : List CacheCall}
    (discipline : CallerDiscipline (calls ++ later)) : CallerDiscipline calls where
  fresh := discipline.fresh.left
  known before reg after split := discipline.known before reg (after ++ later) (by simp [split])

def Entered (T : Tree Bytes RegionInfo compare) (calls : List CacheCall) (reg : RegionInfo) :
    Prop :=
  ∃ before after cache next overlaps, calls = before ++ .put reg :: after ∧
    runCalls (KeyRegionCache.new T) before = .ok cache ∧
    cache.put reg = .ok (next, overlaps, true)

/-- Whenever a region is deleted, the region that is cached under its name is that very object. -/
def DeletesOwn (T : Tree Bytes RegionInfo compare) (calls : List CacheCall) : Prop :=
  ∀ before reg after cache, calls = before ++ .del reg :: after →
    runCalls (KeyRegionCache.new T) before = .ok cache →
    ∀ stored, cache.Cached stored → stored.name = reg.name → stored = reg

theorem snoc_split {α : Type} {items before after : List α} {last item : α}
    (split : items ++ [last] = before ++ item :: after) :
    after = [] ∧ item = last ∧ before = items ∨
      ∃ rest, after = rest ++ [last] ∧ items = before ++ item :: rest := by
  rcases List.eq_nil_or_concat after with rfl | ⟨rest, final, rfl⟩
  · have parts := List.append_inj' split rfl
    exact .inl ⟨rfl, by simpa using parts.2.symm, parts.1.symm⟩
  · have whole : items ++ [last] = (before ++ item :: rest) ++ [final] := by simpa using split
    have parts := List.append_inj' whole rfl
    have same : last = final := by simpa using parts.2
    exact .inr ⟨rest, by simp [same], parts.1⟩

theorem Entered.snoc {calls : List CacheCall} {call : CacheCall} {reg : RegionInfo}
    {cache : KeyRegionCache T} (ran : runCalls (KeyRegionCache.new T) calls = .ok cache) :
    Entered T (calls ++ [call]) reg ↔ Entered T calls reg ∨
      call = .put reg ∧ ∃ next overlaps, cache.put reg = .ok (next, overlaps, true) := by
  constructor
  · rintro ⟨before, after, earlier, next, overlaps, split, reached, put⟩
    rcases snoc_split split with ⟨_, same, rfl⟩ | ⟨rest, _, inner⟩
    · rw [ran] at reached
      cases reached
      exact .inr ⟨same.symm, next, overlaps, put⟩
    · exact .inl ⟨before, rest, earlier, next, overlaps, inner, reached, put⟩
  · rintro (entered | ⟨rfl, next, overlaps, put⟩)
    · obtain ⟨before, after, earlier, next, overlaps, rfl, reached, put⟩ := entered
      exact ⟨before, after ++ [call], earlier, next, overlaps, by simp, reached, put⟩
    · exact ⟨calls, [], cache, next, overlaps, rfl, ran, put⟩

theorem DeletesOwn.snoc {calls : List CacheCall} {call : CacheCall} {cache : KeyRegionCache T}
    (ran : runCalls (KeyRegionCache.new T) calls = .ok cache) :
    DeletesOwn T (calls ++ [call]) ↔ DeletesOwn T calls ∧
      ∀ reg, call = .del reg →
        ∀ stored, cache.Cached stored → stored.name = reg.name → stored = reg := by
  constructor
  · intro own
    refine ⟨?_, ?_⟩
    · intro before reg after earlier split reached
      exact own before reg (after ++ [call]) earlier (by simp [split]) reached
    · rintro reg rfl
      exact own calls reg [] cache rfl ran
  · rintro ⟨own, last⟩ before reg after earlier split reached
    rcases snoc_split split with ⟨_, same, rfl⟩ | ⟨rest, _, inner⟩
    · rw [ran] at reached
      cases reached
      exact last reg same.symm
    · exact own before reg rest earlier inner reached

structure Tracked (calls : List CacheCall) (cache : KeyRegionCache T) : Prop where
  filed : Filed (T.items cache.regions)
  entered : ∀ reg, cache.Cached reg → Entered T calls reg
  marked : ∀ reg ∈ cache.dead, ∃ call ∈ calls, call.region = reg
  alive : ∀ reg, cache.Cached reg → reg ∉ cache.dead

theorem Entered.call {calls : List CacheCall} {reg : RegionInfo} (entered : Entered T calls reg) :
    ∃ call ∈ calls, call.region = reg := by
  obtain ⟨before, after, _, _, _, rfl, _⟩ := entered
  exact ⟨.put reg, by simp, rfl⟩

theorem tracked_new : Tracked [] (KeyRegionCache.new T) := by
  refine ⟨new_inv.filed, ?_, by simp [KeyRegionCache.new], by simp [KeyRegionCache.new]⟩
  rintro reg ⟨name, member⟩
  simp [KeyRegionCache.new, T.items_new] at member

theorem Tracked.put {calls : List CacheCall} {cache next : KeyRegionCache T} {reg : RegionInfo}
    {overlaps : List RegionInfo} {replaced : Bool} (tracked : Tracked calls cache)
    (ran : runCalls (KeyRegionCache.new T) calls = .ok cache)
    (fresh : ∀ call ∈ calls, call.region ≠ reg)
    (put : cache.put reg = .ok (next, overlaps, replaced)) :
    Tracked (calls ++ [.put reg]) next := by
  have unseen : ∀ other, (∃ call ∈ calls, call.region = other) → other ≠ reg := by
    rintro other ⟨call, member, rfl⟩
    exact fresh call member
  cases replaced with
  | false =>
      obtain ⟨items, dead⟩ := KeyRegionCache.put_unstored tracked.filed put
      have cached : ∀ other, next.Cached other ↔ cache.Cached other := by
        intro other
        rw [KeyRegionCache.Cached, items]
        rfl
      refine ⟨items ▸ tracked.filed, ?_, ?_, ?_⟩
      · intro other inside
        exact (Entered.snoc ran).mpr (.inl (tracked.entered other ((cached other).mp inside)))
      · intro other member
        obtain ⟨call, earlier, same⟩ := tracked.marked other (dead ▸ member)
        exact ⟨call, by simp [earlier], same⟩
      · intro other inside
        rw [dead]
        exact tracked.alive other ((cached other).mp inside)
  | true =>
      obtain ⟨filed, _, cached⟩ := KeyRegionCache.put_stored tracked.filed put
      obtain ⟨dead, reported⟩ := KeyRegionCache.put_ok put
      rw [if_pos rfl] at dead
      have former : ∀ overlap ∈ overlaps, cache.Cached overlap :=
        fun overlap member => KeyRegionCache.cached_iff.mp (reported rfl overlap member)
      refine ⟨filed, ?_, ?_, ?_⟩
      · intro other inside
        rw [Entered.snoc ran]
        rcases (cached other).mp inside with ⟨before, _⟩ | rfl
        · exact .inl (tracked.entered other before)
        · exact .inr ⟨rfl, next, overlaps, put⟩
      · intro other member
        rw [dead, List.mem_append] at member
        have known : ∃ call ∈ calls, call.region = other := by
          rcases member with old | evicted
          · exact tracked.marked other old
          · exact (tracked.entered other (former other evicted)).call
        obtain ⟨call, earlier, same⟩ := known
        exact ⟨call, by simp [earlier], same⟩
      · intro other inside
        rw [dead, List.mem_append, not_or]
        rcases (cached other).mp inside with ⟨before, kept⟩ | rfl
        · exact ⟨tracked.alive other before, kept⟩
        · refine ⟨?_, ?_⟩
          · intro old
            exact unseen other (tracked.marked other old) rfl
          · intro evicted
            exact unseen other (tracked.entered other (former other evicted)).call rfl

theorem Tracked.del {calls : List CacheCall} {cache next : KeyRegionCache T} {reg : RegionInfo}
    {hit : Bool} (tracked : Tracked calls cache)
    (ran : runCalls (KeyRegionCache.new T) calls = .ok cache)
    (deleted : cache.del reg = .ok (next, hit)) : Tracked (calls ++ [.del reg]) next := by
  obtain ⟨filed, dead, cached⟩ := KeyRegionCache.del_filed tracked.filed deleted
  refine ⟨filed, ?_, ?_, ?_⟩
  · intro other inside
    exact (Entered.snoc ran).mpr (.inl (tracked.entered other ((cached other).mp inside).1))
  · intro other member
    rw [dead, List.mem_append, List.mem_singleton] at member
    rcases member with old | rfl
    · obtain ⟨call, earlier, same⟩ := tracked.marked other old
      exact ⟨call, by simp [earlier], same⟩
    · exact ⟨.del other, by simp, rfl⟩
  · intro other inside
    obtain ⟨before, differs⟩ := (cached other).mp inside
    rw [dead, List.mem_append, List.mem_singleton, not_or]
    exact ⟨tracked.alive other before, fun same => differs (by rw [same])⟩

theorem runCalls_tracked {calls : List CacheCall} {cache : KeyRegionCache T}
    (fresh : FreshPuts calls) (ran : runCalls (KeyRegionCache.new T) calls = .ok cache) :
    Tracked calls cache := by
  induction calls using List.reverseRecOn generalizing cache with
  | nil =>
      cases ran
      exact tracked_new
  | append_singleton calls call ih =>
      obtain ⟨last, before, step⟩ := runCalls_snoc.mp ran
      have tracked := ih fresh.left before
      cases call with
      | put reg =>
          obtain ⟨overlaps, replaced, put⟩ := CacheCall.run_put.mp step
          exact tracked.put before fresh.last put
      | del reg =>
          obtain ⟨hit, deleted⟩ := CacheCall.run_del.mp step
          exact tracked.del before deleted

def Gone (calls : List CacheCall) (cache : KeyRegionCache T) : Prop :=
  ∀ reg, Entered T calls reg → ¬cache.Cached reg → reg ∈ cache.dead

theorem Gone.put {calls : List CacheCall} {cache next : KeyRegionCache T} {reg : RegionInfo}
    {overlaps : List RegionInfo} {replaced : Bool} (gone : Gone calls cache)
    (filed : Filed (T.items cache.regions))
    (ran : runCalls (KeyRegionCache.new T) calls = .ok cache)
    (put : cache.put reg = .ok (next, overlaps, replaced)) : Gone (calls ++ [.put reg]) next := by
  intro other entered left
  rw [Entered.snoc ran] at entered
  cases replaced with
  | false =>
      obtain ⟨items, dead⟩ := KeyRegionCache.put_unstored filed put
      rcases entered with earlier | ⟨same, after, found, stored⟩
      · rw [KeyRegionCache.Cached, items] at left
        rw [dead]
        exact gone other earlier left
      · cases same
        rw [put] at stored
        cases stored
  | true =>
      obtain ⟨_, _, cached⟩ := KeyRegionCache.put_stored filed put
      have dead := (KeyRegionCache.put_ok put).1
      rw [if_pos rfl] at dead
      rw [cached other, not_or] at left
      obtain ⟨kept, differs⟩ := left
      rcases entered with earlier | ⟨same, _⟩
      · rw [dead, List.mem_append]
        by_cases inside : cache.Cached other
        · exact .inr (not_not.mp fun out => kept ⟨inside, out⟩)
        · exact .inl (gone other earlier inside)
      · cases same
        exact absurd rfl differs

theorem Gone.del {calls : List CacheCall} {cache next : KeyRegionCache T} {reg : RegionInfo}
    {hit : Bool} (gone : Gone calls cache) (filed : Filed (T.items cache.regions))
    (ran : runCalls (KeyRegionCache.new T) calls = .ok cache)
    (own : ∀ stored, cache.Cached stored → stored.name = reg.name → stored = reg)
    (deleted : cache.del reg = .ok (next, hit)) : Gone (calls ++ [.del reg]) next := by
  intro other entered left
  obtain ⟨_, dead, cached⟩ := KeyRegionCache.del_filed filed deleted
  rw [dead, List.mem_append, List.mem_singleton]
  rw [Entered.snoc ran] at entered
  rcases entered with earlier | ⟨impossible, _⟩
  · by_cases inside : cache.Cached other
    · refine .inr (own other inside ?_)
      by_contra differs
      exact left ((cached other).mpr ⟨inside, differs⟩)
    · exact .inl (gone other earlier inside)
  · cases impossible

theorem runCalls_gone {calls : List CacheCall} {cache : KeyRegionCache T}
    (discipline : CallerDiscipline calls) (own : DeletesOwn T calls)
    (ran : runCalls (KeyRegionCache.new T) calls = .ok cache) : Gone calls cache := by
  induction calls using List.reverseRecOn generalizing cache with
  | nil =>
      rintro reg ⟨before, after, _, _, _, split, _⟩
      simp at split
  | append_singleton calls call ih =>
      obtain ⟨last, before, step⟩ := runCalls_snoc.mp ran
      obtain ⟨ownBefore, ownLast⟩ := (DeletesOwn.snoc before).mp own
      have gone := ih discipline.left ownBefore before
      have filed := (runCalls_tracked discipline.left.fresh before).filed
      cases call with
      | put reg =>
          obtain ⟨overlaps, replaced, put⟩ := CacheCall.run_put.mp step
          exact gone.put filed before put
      | del reg =>
          obtain ⟨hit, deleted⟩ := CacheCall.run_del.mp step
          exact gone.del filed before (ownLast reg rfl) deleted

/-- Deleting a region that another object has replaced takes that object out of the cache without
a mark. -/
theorem Tracked.orphan {calls : List CacheCall} {cache next : KeyRegionCache T}
    {reg stored : RegionInfo} {hit : Bool} (tracked : Tracked calls cache)
    (deleted : cache.del reg = .ok (next, hit)) (cached : cache.Cached stored)
    (sameName : stored.name = reg.name) (differs : stored ≠ reg) :
    ¬next.Cached stored ∧ stored ∉ next.dead := by
  obtain ⟨_, dead, left⟩ := KeyRegionCache.del_filed tracked.filed deleted
  refine ⟨?_, ?_⟩
  · rw [left stored]
    exact fun inside => inside.2 sameName
  · rw [dead, List.mem_append, List.mem_singleton, not_or]
    exact ⟨tracked.alive stored cached, differs⟩

theorem DeletesOwn.left {calls later : List CacheCall} (own : DeletesOwn T (calls ++ later)) :
    DeletesOwn T calls := by
  intro before reg after cache split
  exact own before reg (after ++ later) cache (by simp [split])

def DeadIffLeft (T : Tree Bytes RegionInfo compare) (calls : List CacheCall) : Prop :=
  ∀ before after cache, calls = before ++ after →
    runCalls (KeyRegionCache.new T) before = .ok cache →
    ∀ reg, Entered T before reg → (reg ∈ cache.dead ↔ ¬cache.Cached reg)

/-- No cached region is ever dead. The regions that have left the cache are dead all along a
history if and only if no deletion names a region that another object has replaced. -/
theorem dead_coherent {calls : List CacheCall} (discipline : CallerDiscipline calls)
    {final : KeyRegionCache T} (ran : runCalls (KeyRegionCache.new T) calls = .ok final) :
    (∀ before after cache, calls = before ++ after →
      runCalls (KeyRegionCache.new T) before = .ok cache →
      ∀ reg, cache.Cached reg → reg ∉ cache.dead) ∧
    (DeadIffLeft T calls ↔ DeletesOwn T calls) := by
  have alive : ∀ before after cache, calls = before ++ after →
      runCalls (KeyRegionCache.new T) before = .ok cache →
      ∀ reg, cache.Cached reg → reg ∉ cache.dead := by
    rintro before after cache rfl reached
    exact (runCalls_tracked discipline.left.fresh reached).alive
  refine ⟨alive, ?_, ?_⟩
  · intro coherent before reg after cache split reached stored cached sameName
    by_contra differs
    have whole : calls = (before ++ [.del reg]) ++ after := by simp [split]
    obtain ⟨next, step⟩ : ∃ next,
        runCalls (KeyRegionCache.new T) (before ++ [.del reg]) = .ok next := by
      rw [whole, runCalls_append, bind_ok_iff] at ran
      obtain ⟨next, step, _⟩ := ran
      exact ⟨next, step⟩
    obtain ⟨last, again, deleted⟩ := runCalls_snoc.mp step
    obtain rfl : last = cache := Except.ok.inj (again.symm.trans reached)
    obtain ⟨hit, deleted⟩ := CacheCall.run_del.mp deleted
    have tracked : Tracked before last := runCalls_tracked (split ▸ discipline).left.fresh reached
    obtain ⟨out, unmarked⟩ := tracked.orphan deleted cached sameName differs
    have entered : Entered T (before ++ [.del reg]) stored :=
      (Entered.snoc reached).mpr (.inl (tracked.entered stored cached))
    exact unmarked ((coherent _ after next whole step stored entered).mpr out)
  · rintro own before after cache rfl reached reg entered
    constructor
    · exact fun dead cached => alive before after cache rfl reached reg cached dead
    · exact runCalls_gone discipline.left own.left reached reg entered

theorem splitCalls_discipline : CallerDiscipline splitCalls where
  fresh := by simp [FreshPuts, splitCalls, CacheCall.region, sampleRegion]
  known := by
    intro before reg after split
    rcases before with _ | ⟨_, _ | ⟨_, _ | ⟨_, _ | ⟨_, before⟩⟩⟩⟩
    all_goals simp [splitCalls] at split
    obtain ⟨_, rfl, _, rfl, _⟩ := split
    simp

theorem dead_coherent_split :
    DeadIffLeft (reference Bytes RegionInfo compare) splitCalls ↔
      DeletesOwn (reference Bytes RegionInfo compare) splitCalls :=
  (dead_coherent splitCalls_discipline (T := reference Bytes RegionInfo compare) rfl).2

def staleCalls : List CacheCall :=
  [.put (sampleRegion 0 1 [] []), .del (sampleRegion 0 1 [] []),
    .put (sampleRegion 1 1 [] []), .del (sampleRegion 0 1 [] [])]

theorem staleCalls_discipline : CallerDiscipline staleCalls where
  fresh := by simp [FreshPuts, staleCalls, CacheCall.region, sampleRegion]
  known := by
    intro before reg after split
    rcases before with _ | ⟨_, _ | ⟨_, _ | ⟨_, _ | ⟨_, before⟩⟩⟩⟩
    all_goals simp [staleCalls] at split
    · obtain ⟨rfl, rfl, _⟩ := split
      simp
    · obtain ⟨rfl, _, _, rfl, _⟩ := split
      simp

theorem del_orphans_replacement :
    CallerDiscipline staleCalls ∧
    ∃ cache, runCalls (KeyRegionCache.new (reference Bytes RegionInfo compare)) staleCalls =
        .ok cache ∧
      Entered (reference Bytes RegionInfo compare) staleCalls (sampleRegion 1 1 [] []) ∧
      ¬cache.Cached (sampleRegion 1 1 [] []) ∧ sampleRegion 1 1 [] [] ∉ cache.dead := by
  refine ⟨staleCalls_discipline,
    ⟨[], [sampleRegion 0 1 [] [], sampleRegion 0 1 [] []]⟩, rfl, ?_, ?_, by decide⟩
  · exact ⟨[.put (sampleRegion 0 1 [] []), .del (sampleRegion 0 1 [] [])],
      [.del (sampleRegion 0 1 [] [])], ⟨[], [sampleRegion 0 1 [] []]⟩, _, [], rfl, rfl, rfl⟩
  · rintro ⟨name, member⟩
    cases member

/-- The lookup of a row, behind the checks on the client and on the table. -/
def KeyRegionCache.lookup (cache : KeyRegionCache T) (table key : Bytes) :
    Go (Option RegionInfo) := do
  let regionName ← createRegionSearchKey table key
  let found ← cache.get regionName
  pure (acceptRegion table key found)

theorem getRegionFromCache_lookup {client : Client T} (regular : client.clientType = .regionClient)
    {table : Bytes} (notMeta : table ≠ metaTableName) (key : Bytes) :
    client.getRegionFromCache table key = client.regions.lookup table key := by
  simp only [Client.getRegionFromCache, regular, reduceCtorEq, ↓reduceIte, notMeta]
  rfl

theorem KeyRegionCache.lookup_container {cache : KeyRegionCache T}
    (inv : CacheInv (T.items cache.regions)) {reg : RegionInfo} (cached : cache.Cached reg)
    {table key : Bytes} (contains : reg.Contains table key) :
    cache.lookup table key = .ok (some reg) := by
  obtain ⟨name, member⟩ := cached
  obtain ⟨suffix, named⟩ := inv.wellFormed _ member
  have fits : table.length ≤ 32764 := by
    have start := named.startKey_fits
    rw [contains.1] at start
    omega
  obtain ⟨below, others, enum, split, belowLess, othersGreater, _, looked⟩ :=
    get_predecessor cache inv table (key.take (searchRoom table))
  have accepted : acceptRegion table key below.getLast? = some reg :=
    (acceptRegion_exact (split ▸ inv) belowLess othersGreater reg).mpr
      ⟨⟨name, split ▸ member⟩, contains⟩
  simp only [KeyRegionCache.lookup, createRegionSearchKey_eq table key fits, ok_bind, looked,
    accepted]
  rfl

theorem KeyRegionCache.mem_overlapsOf {cache : KeyRegionCache T}
    (inv : CacheInv (T.items cache.regions)) {reg : RegionInfo} (wellFormed : reg.WellFormed)
    (other : RegionInfo) :
    other ∈ cache.overlapsOf reg ↔ cache.Cached other ∧
      ∃ table key, other.Contains table key ∧ reg.Contains table key := by
  rw [overlapsOf, List.mem_filter, cached_iff]
  refine and_congr_right ?_
  rintro ⟨name, member⟩
  exact isRegionOverlap_iff (inv.wellFormed _ member) wellFormed

def KeyRegionCache.Unchanged (cache next : KeyRegionCache T) : Prop :=
  T.items next.regions = T.items cache.regions ∧ next.dead = cache.dead

/-- What a `put` may do: a region of the same name stays, a younger region that overlaps stays
with all others, and otherwise all that overlap make place and are dead. -/
theorem put_decides_by_age (calls : List CacheCall)
    (wellFormed : ∀ call ∈ calls, call.region.WellFormed) {cache : KeyRegionCache T}
    (reached : runCalls (KeyRegionCache.new T) calls = .ok cache) {reg : RegionInfo}
    (regWellFormed : reg.WellFormed) :
    ∃ next overlaps replaced, cache.put reg = .ok (next, overlaps, replaced) ∧
      (∀ stored, cache.Cached stored → stored.name = reg.name →
        overlaps = [stored] ∧ replaced = false ∧ cache.Unchanged next) ∧
      ((∀ stored, cache.Cached stored → stored.name ≠ reg.name) →
        (∀ other, other ∈ overlaps ↔ cache.Cached other ∧
          ∃ table key, other.Contains table key ∧ reg.Contains table key) ∧
        (replaced = true ↔ ∀ other ∈ overlaps, other.id ≤ reg.id) ∧
        (replaced = false → cache.Unchanged next) ∧
        (replaced = true →
          (∀ other, next.Cached other ↔ cache.Cached other ∧ other ∉ overlaps ∨ other = reg) ∧
          next.dead = cache.dead ++ overlaps ∧
          (FreshPuts calls → ∀ other ∈ overlaps, other ∉ cache.dead) ∧
          ∀ table key, reg.Contains table key → next.lookup table key = .ok (some reg) ∧
            ∀ client : Client T, client.regions = next → client.clientType = .regionClient →
              table ≠ metaTableName → client.getRegionFromCache table key = .ok (some reg))) ∧
      ∀ other, cache.Cached other → ¬next.Cached other → other.id ≤ reg.id := by
  obtain ⟨_, ran, inv⟩ := runCalls_inv calls (KeyRegionCache.new T) new_inv wellFormed
  obtain rfl := Except.ok.inj (reached.symm.trans ran)
  have kept : ∀ next : KeyRegionCache T, cache.Unchanged next →
      ∀ other, cache.Cached other → ¬next.Cached other → other.id ≤ reg.id := by
    intro next unchanged other cached left
    rw [KeyRegionCache.Cached, unchanged.1] at left
    exact absurd cached left
  by_cases known : ∃ stored, cache.Cached stored ∧ stored.name = reg.name
  · obtain ⟨stored, cached, same⟩ := known
    have present := cached.item inv.filed
    rw [same] at present
    obtain ⟨next, put, unchanged⟩ := cache.put_present inv regWellFormed present
    refine ⟨next, [stored], false, put, ?_, ?_, kept next unchanged⟩
    · intro other otherCached otherSame
      rw [otherCached.unique inv.filed cached (otherSame.trans same.symm)]
      exact ⟨rfl, rfl, unchanged⟩
    · intro absent
      exact absurd same (absent stored cached)
  · have absent : ∀ item ∈ T.items cache.regions, item.1 ≠ reg.name := by
      intro item member same
      rw [inv.stored item member] at same
      exact known ⟨item.2, ⟨item.1, member⟩, same⟩
    have unknown : ∀ stored, cache.Cached stored → stored.name ≠ reg.name :=
      fun stored cached same => known ⟨stored, cached, same⟩
    cases younger : (cache.overlapsOf reg).any (fun o => decide (o.id > reg.id)) with
    | true =>
        obtain ⟨next, put, unchanged⟩ := cache.put_declined inv regWellFormed absent younger
        refine ⟨next, cache.overlapsOf reg, false, put, ?_, ?_, kept next unchanged⟩
        · intro stored cached same
          exact absurd same (unknown stored cached)
        · intro _
          refine ⟨KeyRegionCache.mem_overlapsOf inv regWellFormed, ?_, fun _ => unchanged, nofun⟩
          simpa using younger
    | false =>
        have older : ∀ other ∈ cache.overlapsOf reg, other.id ≤ reg.id := by simpa using younger
        obtain ⟨next, _, _, put, _⟩ := cache.put_replaced inv regWellFormed absent younger
        obtain ⟨_, again, nextInv⟩ := cache.put_inv inv regWellFormed
        rw [put] at again
        cases again
        obtain ⟨_, _, cached⟩ := KeyRegionCache.put_stored inv.filed put
        have dead := (KeyRegionCache.put_ok put).1
        refine ⟨next, cache.overlapsOf reg, true, put, ?_, ?_, ?_⟩
        · intro stored stays same
          exact absurd same (unknown stored stays)
        · intro _
          refine ⟨KeyRegionCache.mem_overlapsOf inv regWellFormed, by simpa using older, nofun, ?_⟩
          intro _
          refine ⟨cached, dead, ?_, ?_⟩
          · intro fresh other member
            have before := ((KeyRegionCache.mem_overlapsOf inv regWellFormed other).mp member).1
            exact (runCalls_tracked fresh reached).alive other before
          · intro table key contains
            have inside : next.Cached reg := (cached reg).mpr (.inr rfl)
            have found := KeyRegionCache.lookup_container nextInv inside contains
            refine ⟨found, ?_⟩
            rintro client rfl regular notMeta
            rw [getRegionFromCache_lookup regular notMeta, found]
        · intro other before left
          rw [cached other, not_or] at left
          exact older other (not_not.mp fun out => left.1 ⟨before, out⟩)

theorem put_decides_by_age_stale :
    ∃ next overlaps replaced,
      splitClient.regions.put (sampleRegion 3 1 [] []) = .ok (next, overlaps, replaced) ∧
      ∀ other, splitClient.regions.Cached other → ¬next.Cached other → other.id ≤ 1 := by
  have wellFormed : (sampleRegion 3 1 [] []).WellFormed :=
    sampleRegion_wellFormed _ _ _ _ (by decide) (by decide)
  have reached : runCalls (KeyRegionCache.new (reference Bytes RegionInfo compare)) splitCalls =
      .ok splitClient.regions := rfl
  obtain ⟨next, overlaps, replaced, put, _, _, kept⟩ :=
    put_decides_by_age splitCalls splitCalls_wellFormed reached wellFormed
  exact ⟨next, overlaps, replaced, put, kept⟩

end GoHBase
