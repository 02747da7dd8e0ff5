import GoHBase.CacheHistory
import GoHBase.RoutingOwnership

/-!
Which region an RPC is given to. The caches are shared by all goroutines, so a region that was
right when it was looked up passes through states that other goroutines have changed.
-/

namespace GoHBase

open ByteString Runtime OrderedTree RangeLoop Interleaving

variable {T : Tree Bytes RegionInfo compare}

theorem createRegionSearchKey_fits {table key searchKey : Bytes}
    (created : createRegionSearchKey table key = .ok searchKey) : table.length ≤ 32764 := by
  by_contra long
  have negative : 32767 - (table.length : Int) - 3 < 0 := by omega
  have short : ¬(key.length : Int) < 32767 - (table.length : Int) - 3 := by omega
  unfold createRegionSearchKey maxInt16 at created
  dsimp only at created
  rw [if_neg short, if_pos negative] at created
  cases created

namespace Routing

def Serves (setup : Setup) (row : Row) (reg : RegionInfo) : Prop :=
  (setup.Ordinary row.table ∧ reg.Contains row.table row.key) ∨
    (¬setup.Ordinary row.table ∧ reg = setup.special)

/-- A region that was parsed from hbase:meta is named as hbase:meta names regions, and contains
the row it was looked up for. -/
def Truthful : Thread → Prop
  | .markFound row _ info _ => info.WellFormed ∧ info.Contains row.table row.key
  | .markNew _ (.parsed info _) => info.WellFormed
  | _ => True

def Thread.chosen : Thread → Option (Row × RegionInfo)
  | .putFound row _ reg _ => some (row, reg)
  | .delFound row _ reg _ => some (row, reg)
  | .availability _ row reg => some (row, reg)
  | .await _ row reg _ => some (row, reg)
  | .checkDead row reg => some (row, reg)
  | .readClient _ row reg => some (row, reg)
  | .markLost row reg => some (row, reg)
  | .start _ (.wait row reg) => some (row, reg)
  | _ => none

def Thread.stores : Thread → Option RegionInfo
  | .putFound _ _ reg _ => some reg
  | .putNew _ reg _ => some reg
  | _ => none

structure Thread.Placed (setup : Setup) (t : Thread) : Prop where
  chosen : ∀ row reg, t.chosen = some (row, reg) → Serves setup row reg
  stores : ∀ reg, t.stores = some reg → reg.WellFormed

theorem Thread.Placed.idle {setup : Setup} {t : Thread} (free : t.chosen = none)
    (quiet : t.stores = none) : t.Placed setup := by
  constructor
  · intro row reg same
    rw [free] at same
    cases same
  · intro reg same
    rw [quiet] at same
    cases same

theorem Thread.Placed.keeping {setup : Setup} {t t' : Thread} (placed : t.Placed setup)
    (same : t'.chosen = t.chosen) (quiet : t'.stores = none) : t'.Placed setup := by
  constructor
  · rw [same]
    exact placed.chosen
  · intro reg stored
    rw [quiet] at stored
    cases stored

variable {setup : Setup} {sh sh' : Shared T} {t t' : Thread} {e : Unit}

theorem placed_after (after : After) : after.thread.Placed setup := by
  cases after with
  | finish => exact .idle rfl rfl
  | retry reg => exact .idle rfl rfl

theorem placed_release (release : Release) : release.thread.Placed setup := by
  cases release with
  | finish => exact .idle rfl rfl
  | original reg => exact .idle rfl rfl
  | connect reg addr => exact .idle rfl rfl

theorem placed_next {reg : RegionInfo} {next : Next}
    (placed : (Thread.start reg next).Placed setup) : next.thread.Placed setup := by
  cases next with
  | finish => exact .idle rfl rfl
  | wait row reg => exact placed.keeping rfl rfl
  | downs others after => exact .idle rfl rfl

theorem placed_waited {again : Bool} {row : Row} {reg : RegionInfo}
    (serves : Serves setup row reg) : (waited again row reg).Placed setup := by
  have chosen : (waited again row reg).chosen = some (row, reg) := by cases again <;> rfl
  have quiet : (waited again row reg).stores = none := by cases again <;> rfl
  constructor
  · intro row' reg' same
    rw [chosen] at same
    cases same
    exact serves
  · intro reg' stored
    rw [quiet] at stored
    cases stored

theorem getRegionFromCache_serves {regions : KeyRegionCache T}
    (inv : CacheInv (T.items regions.regions)) {row : Row} {reg : RegionInfo}
    (hit : (setup.client regions).getRegionFromCache row.table row.key = .ok (some reg)) :
    Serves setup row reg := by
  rcases setup with ⟨clientType, special⟩
  cases clientType with
  | masterClient =>
      cases hit
      refine .inr ⟨?_, rfl⟩
      rintro ⟨impossible, _⟩
      cases impossible
  | regionClient =>
      by_cases isMeta : row.table = metaTableName
      · simp only [Setup.client, Client.getRegionFromCache, reduceCtorEq, ↓reduceIte, isMeta] at hit
        cases hit
        exact .inr ⟨fun ordinary => ordinary.2 isMeta, rfl⟩
      · refine .inl ⟨⟨rfl, isMeta⟩, ?_⟩
        rw [getRegionFromCache_lookup (by rfl) isMeta] at hit
        simp only [KeyRegionCache.lookup, bind_ok_iff] at hit
        obtain ⟨searchKey, created, found, looked, accepted⟩ := hit
        have fits := createRegionSearchKey_fits created
        rw [createRegionSearchKey_eq _ _ fits] at created
        cases created
        obtain ⟨below, others, _, split, belowLess, othersGreater, _, got⟩ :=
          get_predecessor regions inv row.table (row.key.take (searchRoom row.table))
        obtain rfl : found = below.getLast? := Except.ok.inj (looked.symm.trans got)
        exact ((acceptRegion_exact (split ▸ inv) belowLess othersGreater reg).mp
          (Except.ok.inj accepted)).2

theorem getRegionFromCache_total {regions : KeyRegionCache T}
    (inv : CacheInv (T.items regions.regions)) {row : Row} (fits : row.table.length ≤ 32764) :
    ∃ found, (setup.client regions).getRegionFromCache row.table row.key = .ok found := by
  rcases setup with ⟨clientType, special⟩
  cases clientType with
  | masterClient => exact ⟨_, rfl⟩
  | regionClient =>
      by_cases isMeta : row.table = metaTableName
      · simp only [Setup.client, Client.getRegionFromCache, reduceCtorEq, ↓reduceIte, isMeta]
        exact ⟨_, rfl⟩
      · obtain ⟨below, _, _, _, _, _, _, got⟩ :=
          get_predecessor regions inv row.table (row.key.take (searchRoom row.table))
        rw [getRegionFromCache_lookup (by rfl) isMeta, KeyRegionCache.lookup,
          createRegionSearchKey_eq _ _ fits, ok_bind]
        simp only [Setup.client, got, ok_bind]
        exact ⟨_, rfl⟩

theorem Alone.cache_inv (taken : Alone setup sh t e sh' t')
    (inv : CacheInv (T.items sh.routes.regions.regions)) (placed : t.Placed setup) :
    CacheInv (T.items sh'.routes.regions.regions) := by
  have stored {regions : KeyRegionCache T} {reg : RegionInfo} {overlaps : List RegionInfo}
      {replaced : Bool} (put : sh.routes.regions.put reg = .ok (regions, overlaps, replaced))
      (wellFormed : reg.WellFormed) : CacheInv (T.items regions.regions) := by
    obtain ⟨_, again, kept⟩ := sh.routes.regions.put_inv inv wellFormed
    obtain rfl := Except.ok.inj (put.symm.trans again)
    exact kept
  have same {routes : Routes T} (regions : routes.regions = sh.routes.regions) :
      CacheInv (T.items (sh.update routes).routes.regions.regions) := by
    change CacheInv (T.items routes.regions.regions)
    rw [regions]
    exact inv
  have marked {routes : Routes T} {reg : RegionInfo} {first : Bool}
      (marks : sh.routes.markUnavailable reg = (routes, first)) :
      CacheInv (T.items (sh.update routes).routes.regions.regions) :=
    same (Routes.sameLists_markUnavailable marks).regions
  cases taken with
  | putFound_kept put => exact stored put (placed.stores _ rfl)
  | putFound_replaced put => exact stored put (placed.stores _ rfl)
  | putNew_kept put => exact stored put (placed.stores _ rfl)
  | putNew_replaced put => exact stored put (placed.stores _ rfl)
  | delRegion del =>
      simp only [KeyRegionCache.del, bind_ok_iff] at del
      obtain ⟨⟨regions, hit⟩, removed, finished⟩ := del
      cases finished
      change CacheInv (T.items regions)
      rw [(KeyRegionCache.delete_filed inv.filed removed).1]
      exact inv.sublist List.filter_sublist
  | markSpecial marks => exact marked marks
  | markFound _ marks => exact marked marks
  | markLost marks => exact marked marks
  | handle_reestablish _ marks => exact marked marks
  | markDown marks => exact marked marks
  | markNew_special marks => exact marked marks
  | markNew _ marks => exact marked marks
  | closing marks => exact marked marks
  | markAvailable released => exact same (Routes.sameLists_markAvailable released).regions
  | delFound_next => exact same Routes.delClient_frame.1
  | delNew_next => exact same Routes.delClient_frame.1
  | delClient => exact same Routes.delClient_frame.1
  | connect _ _ put => exact same (Routes.putClient_frame put).2.1
  | clientDown _ down =>
      cases down
      exact inv
  | _ => exact inv

theorem Alone.placed (taken : Alone setup sh t e sh' t') (truthful : Truthful t)
    (inv : CacheInv (T.items sh.routes.regions.regions)) (sound : t.Sound setup)
    (placed : t.Placed setup) : t'.Placed setup := by
  cases taken with
  | cache_hit hit =>
      constructor
      · rintro _ _ ⟨⟩
        exact getRegionFromCache_serves inv hit
      · rintro _ ⟨⟩
  | goSpecial => exact sound.elim
  | markNew_special => exact sound.elim
  | @markFound row =>
      constructor
      · rintro _ _ ⟨⟩
        by_cases ordinary : setup.Ordinary row.table
        · exact .inl ⟨ordinary, truthful.2⟩
        · refine .inr ⟨ordinary, sound.resolve_right ?_⟩
          rw [truthful.2.1]
          exact ordinary
      · rintro _ ⟨⟩
        exact truthful.1
  | markNew _ _ =>
      constructor
      · rintro _ _ ⟨⟩
      · rintro _ ⟨⟩
        exact truthful
  | putFound_replaced => exact placed.keeping rfl rfl
  | delFound_next => exact placed.keeping rfl rfl
  | delFound_done => exact placed.keeping rfl rfl
  | availability_nil => exact placed_waited (placed.chosen _ _ rfl)
  | availability_chan => exact placed.keeping rfl rfl
  | await_closed => exact placed_waited (placed.chosen _ _ rfl)
  | checkDead =>
      split
      · exact .idle rfl rfl
      · exact placed.keeping rfl rfl
  | @readClient_nil again =>
      cases again with
      | true => exact .idle rfl rfl
      | false => exact placed.keeping rfl rfl
  | @markLost _ _ _ first =>
      cases first with
      | true => exact placed.keeping rfl rfl
      | false => exact placed.keeping rfl rfl
  | @handle_reestablish _ _ _ _ first =>
      cases first with
      | true => exact .idle rfl rfl
      | false => exact .idle rfl rfl
  | @markDown _ _ _ _ first =>
      cases first with
      | true => exact .idle rfl rfl
      | false => exact .idle rfl rfl
  | start => exact placed_next placed
  | nextDown_done => exact placed_after _
  | @sleep reg addr =>
      cases addr with
      | none => exact .idle rfl rfl
      | some addr => exact .idle rfl rfl
  | looked_special =>
      split
      · exact .idle rfl rfl
      · exact .idle rfl rfl
  | looked_parsed =>
      split
      · exact .idle rfl rfl
      · exact .idle rfl rfl
  | markAvailable => exact placed_release _
  | _ => exact .idle rfl rfl

structure Rowwise (setup : Setup) (c : Config (Shared T) Thread) : Prop where
  owned : Owned setup c
  cache : CacheInv (T.items c.shared.routes.regions.regions)
  threads : ∀ t ∈ c.threads, t.Placed setup
  runnable : ∀ t ∈ c.shared.runnable, t.Placed setup

theorem Alone.runnable (taken : Alone setup sh t e sh' t')
    (runnable : ∀ u ∈ sh.runnable, u.Placed setup) : ∀ u ∈ sh'.runnable, u.Placed setup := by
  have started (u : Thread) (placed : u.Placed setup) :
      ∀ v ∈ (sh.go u).runnable, v.Placed setup := by
    intro v member
    rcases Multiset.mem_cons.mp member with rfl | member
    · exact placed
    · exact runnable v member
  cases taken with
  | goSpecial => exact started _ (.idle rfl rfl)
  | delFound_done => exact started _ (.idle rfl rfl)
  | start => exact started _ (.idle rfl rfl)
  | _ => exact runnable

theorem Spawn.placed (taken : Spawn sh e sh' t) (runnable : ∀ u ∈ sh.runnable, u.Placed setup) :
    t.Placed setup ∧ ∀ u ∈ sh'.runnable, u.Placed setup := by
  cases taken with
  | getRegionAndClientForRPC row => exact ⟨.idle rfl rfl, runnable⟩
  | handleResultError err rc set => exact ⟨.idle rfl rfl, runnable⟩
  | closeAll => exact ⟨.idle rfl rfl, runnable⟩
  | goroutine started =>
      rw [started] at runnable
      exact ⟨runnable t (Multiset.mem_cons_self t _),
        fun u member => runnable u (Multiset.mem_cons_of_mem member)⟩

theorem Outside.placed (taken : Outside sh e sh') (runnable : ∀ u ∈ sh.runnable, u.Placed setup) :
    ∀ u ∈ sh'.runnable, u.Placed setup := by
  cases taken
  exact runnable

variable {c c' : Config (Shared T) Thread}

theorem Rowwise.kept
    (step : ((routing setup T).restrict fun _ t => Truthful t).Step c e c')
    (rowwise : Rowwise setup c) : Rowwise setup c' := by
  refine ⟨rowwise.owned.kept step.of_restrict, ?_, ?_, ?_⟩
  · refine step.kinds ?_ ?_ ?_ ?_
    · exact fun t _ member taken => taken.2.cache_inv rowwise.cache (rowwise.threads t member)
    · exact fun _ _ _ _ taken => taken.elim
    · exact fun _ taken => (Spawn.owned taken rowwise.owned.shared).2.2.1 ▸ rowwise.cache
    · exact fun taken => (Outside.owned taken rowwise.owned.shared).2.1 ▸ rowwise.cache
  · refine step.everywhere ?_ ?_ ?_ rowwise.threads
    · exact fun t _ member taken => taken.2.placed taken.1 rowwise.cache
        (rowwise.owned.threads t member) (rowwise.threads t member)
    · exact fun _ _ _ _ _ _ taken => taken.elim
    · exact fun _ taken => (Spawn.placed taken rowwise.runnable).1
  · refine step.kinds ?_ ?_ ?_ ?_
    · exact fun t _ _ taken => taken.2.runnable rowwise.runnable
    · exact fun _ _ _ _ taken => taken.elim
    · exact fun _ taken => (Spawn.placed taken rowwise.runnable).2
    · exact fun taken => Outside.placed taken rowwise.runnable

theorem Rowwise.started (setup : Setup) : Rowwise setup (started T) :=
  ⟨.started setup, new_inv, fun t member => absurd member (Multiset.notMem_zero t),
    fun t member => absurd member (Multiset.notMem_zero t)⟩

/-- In every interleaving the region that an RPC is about to be given to contains its row, however
many goroutines have changed the caches since it was found. No lookup of a row and no `put` of a
region ends the process. -/
theorem rpc_reaches_its_region (setup : Setup) (c : Config (Shared T) Thread)
    (run : ((routing setup T).restrict fun _ t => Truthful t).Run (fun _ _ => True) (started T) c) :
    (∀ again row reg, Thread.readClient again row reg ∈ c.threads → Serves setup row reg) ∧
      (∀ row : Row, row.table.length ≤ 32764 →
        ∃ found, (setup.client c.shared.routes.regions).getRegionFromCache row.table row.key =
          .ok found ∧ ∀ reg, found = some reg → Serves setup row reg) ∧
      ∀ t ∈ c.threads, ∀ reg, t.stores = some reg →
        ∃ result, c.shared.routes.regions.put reg = .ok result := by
  have rowwise : Rowwise setup c := run.invariant (Rowwise setup) (.started setup)
    fun step _ rowwise => rowwise.kept step
  refine ⟨?_, ?_, ?_⟩
  · intro again row reg member
    exact (rowwise.threads _ member).chosen row reg rfl
  · intro row fits
    obtain ⟨found, looked⟩ := getRegionFromCache_total rowwise.cache fits
    refine ⟨found, looked, ?_⟩
    rintro reg rfl
    exact getRegionFromCache_serves rowwise.cache looked
  · intro t member reg stores
    obtain ⟨result, put, _⟩ :=
      c.shared.routes.regions.put_inv rowwise.cache ((rowwise.threads t member).stores reg stores)
    exact ⟨result, put⟩

theorem truthfully {start : Config (Shared T) Thread} {rest : Multiset Thread}
    (run : ((routing setup T).restrict fun _ t => Truthful t).Run (fun _ _ => True) start
      ⟨sh, t ::ₘ rest⟩)
    (taken : Alone setup sh t () sh' t') (truthful : Truthful t) :
    ((routing setup T).restrict fun _ t => Truthful t).Run (fun _ _ => True) start
      ⟨sh', t' ::ₘ rest⟩ :=
  run.step (.alone rest ⟨truthful, taken⟩) trivial

theorem rpc_reaches_its_region_found :
    ∃ (c : Config (Shared (reference Bytes RegionInfo compare)) Thread) (reg : RegionInfo),
      ((routing sampleSetup _).restrict fun _ t => Truthful t).Run (fun _ _ => True) (started _) c ∧
        Thread.readClient false ⟨[116], [98]⟩ reg ∈ c.threads ∧
        Serves sampleSetup ⟨[116], [98]⟩ reg := by
  have answer : LookupRegion sampleSetup [116] (.parsed (sampleRegion 1 1 [] []) [49]) :=
    .parsed [49] ⟨rfl, by decide⟩ rfl
  have other : ¬sampleSetup.IsAdmin (sampleRegion 1 1 [] []) := fun admin => nomatch admin.1
  have wellFormed : (sampleRegion 1 1 [] []).WellFormed :=
    sampleRegion_wellFormed _ _ _ _ (by decide) (by decide)
  have run : ((routing sampleSetup (reference Bytes RegionInfo compare)).restrict
      fun _ t => Truthful t).Run (fun _ _ => True) (started _) (started _) := .refl
  replace run := run.step (.spawn 0 (.getRegionAndClientForRPC ⟨[116], [98]⟩)) trivial
  replace run := truthfully run (.cache_miss rfl) trivial
  replace run := truthfully run (.findRegion_parsed answer) trivial
  replace run := truthfully run (.markFound ⟨rfl, rfl, rfl, nofun⟩ rfl)
    ⟨wellFormed, rfl, by decide, .inl rfl⟩
  replace run := truthfully run (.putFound_replaced rfl) trivial
  replace run := truthfully run .delFound_done trivial
  replace run := run.step (.spawn _ (@Spawn.goroutine _ _
    (.establish (sampleRegion 1 1 [] []) (some [49]) true) 0 rfl)) trivial
  replace run := truthfully run .sleep trivial
  replace run := truthfully run
    (.connect other rfl (show Routes.putClient _ (.stored _) _ _ = _ from rfl)) trivial
  replace run := truthfully run (.dial other) trivial
  replace run := truthfully run .probe trivial
  replace run := truthfully run .setClient trivial
  replace run := truthfully run (.markAvailable rfl) trivial
  rw [Multiset.cons_swap] at run
  replace run := truthfully run (.availability_nil rfl) trivial
  have member : Thread.readClient false ⟨[116], [98]⟩ (sampleRegion 1 1 [] []) ∈
      waited false ⟨[116], [98]⟩ (sampleRegion 1 1 [] []) ::ₘ Release.finish.thread ::ₘ 0 :=
    Multiset.mem_cons_self _ _
  exact ⟨_, _, run, member, (rpc_reaches_its_region sampleSetup _ run).1 _ _ _ member⟩

end Routing

end GoHBase
