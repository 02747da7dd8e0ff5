import GoHBase.RoutingCaches

/-!
The same goroutines when each is run to completion before the next: establishers, and the calls
that start them, for a client of region servers that is not closed. An establisher goes through
the steps of its goroutine in the interleaved client.
-/

namespace GoHBase.Routing

open ByteString Runtime OrderedTree RangeLoop Interleaving

variable {T : Tree Bytes RegionInfo compare}

/-- Uses of the cache of clients: a region is put under the client for an address, or leaves
because it was replaced or does not exist anymore. -/
inductive Use
  | put (addr : Bytes) (reg : RegionInfo)
  | leave (reg : RegionInfo)

section Sequential

variable (special : RegionInfo) (allowed : Use → Routes T → Prop)

inductive DelClients : Routes T → List RegionInfo → Routes T → Prop
  | nil {s : Routes T} : DelClients s [] s
  | cons {s s' : Routes T} {reg : RegionInfo} {overlaps : List RegionInfo}
      (ok : allowed (.leave reg) s) (rest : DelClients (s.delClient reg) overlaps s') :
      DelClients s (reg :: overlaps) s'

inductive Establish :
    Routes T → RegionInfo → Option Bytes → Routes T → List RegionInfo → Prop
  | missing {s s' : Routes T} {reg : RegionInfo} {regions : KeyRegionCache T} {success : Bool}
      (answer : LookupRegion ⟨.regionClient, special⟩ (fullyQualifiedTable reg) .tableNotFound)
      (del : s.regions.del reg = .ok (regions, success)) (ok : allowed (.leave reg) s)
      (released : (Routes.delClient { s with regions := regions } reg).markAvailable reg = .ok s') :
      Establish s reg none s' []
  | dead {s s' : Routes T} {reg : RegionInfo} (dead : s.isDead reg = true)
      (released : s.markAvailable reg = .ok s') : Establish s reg none s' []
  | special {s s' : Routes T} {reg : RegionInfo} {addr : Bytes} {started : List RegionInfo}
      (answer : LookupRegion ⟨.regionClient, special⟩ (fullyQualifiedTable reg) (.special addr))
      (alive : s.isDead reg = false) (same : special.name = reg.name)
      (rest : Establish s reg (some addr) s' started) : Establish s reg none s' started
  | same {s s' : Routes T} {reg info : RegionInfo} {addr : Bytes} {started : List RegionInfo}
      (answer : LookupRegion ⟨.regionClient, special⟩ (fullyQualifiedTable reg)
        (.parsed info addr))
      (alive : s.isDead reg = false) (same : info.name = reg.name)
      (rest : Establish s reg (some addr) s' started) : Establish s reg none s' started
  | kept {s s₁ s₂ s' : Routes T} {reg info : RegionInfo} {addr : Bytes} {first : Bool}
      {regions : KeyRegionCache T} {overlaps : List RegionInfo}
      (answer : LookupRegion ⟨.regionClient, special⟩ (fullyQualifiedTable reg)
        (.parsed info addr))
      (alive : s.isDead reg = false) (other : info.name ≠ reg.name) (ok : allowed (.leave reg) s)
      (fresh : s.Pristine info) (marked : s.markUnavailable info = (s₁, first))
      (put : s₁.regions.put info = .ok (regions, overlaps, false))
      (released : Routes.markAvailable { s₁ with regions := regions } info = .ok s₂)
      (original : s₂.markAvailable reg = .ok s') : Establish s reg none s' []
  | replaced {s s₁ s₂ s₃ s' : Routes T} {reg info : RegionInfo} {addr : Bytes} {first : Bool}
      {regions : KeyRegionCache T} {overlaps started : List RegionInfo}
      (answer : LookupRegion ⟨.regionClient, special⟩ (fullyQualifiedTable reg)
        (.parsed info addr))
      (alive : s.isDead reg = false) (other : info.name ≠ reg.name) (ok : allowed (.leave reg) s)
      (fresh : s.Pristine info) (marked : s.markUnavailable info = (s₁, first))
      (put : s₁.regions.put info = .ok (regions, overlaps, true))
      (dels : DelClients allowed { s₁ with regions := regions } overlaps s₂)
      (original : s₂.markAvailable reg = .ok s₃)
      (rest : Establish s₃ info (some addr) s' started) : Establish s reg none s' started
  | established {s s₁ s' : Routes T} {reg : RegionInfo} {addr : Bytes} {conn : Conn}
      {order : Order (Σ _ : Conn, Finset RegionInfo)} (ok : allowed (.put addr reg) s)
      (put : s.putClient order addr reg = (s₁, conn))
      (released : (s₁.setClient reg (some conn)).markAvailable reg = .ok s') :
      Establish s reg (some addr) s' []
  | retried {s s₁ s' : Routes T} {reg : RegionInfo} {addr : Bytes} {conn : Conn}
      {order : Order (Σ _ : Conn, Finset RegionInfo)} {started : List RegionInfo}
      (ok : allowed (.put addr reg) s) (put : s.putClient order addr reg = (s₁, conn))
      (rest : Establish s₁ reg none s' started) : Establish s reg (some addr) s' started
  | down {s s₁ s₂ s₃ s' : Routes T} {reg : RegionInfo} {addr : Bytes} {conn : Conn}
      {order : Order (Σ _ : Conn, Finset RegionInfo)} {downregions : Finset RegionInfo}
      {others first later : List RegionInfo} (ok : allowed (.put addr reg) s)
      (put : s.putClient order addr reg = (s₁, conn))
      (down : s₁.clientDown conn = (s₂, downregions))
      (visits : (others : Multiset RegionInfo) = (downregions.erase reg).val)
      (taken : s₂.takeDown (reg :: others) = (s₃, first))
      (rest : Establish s₃ reg none s' later) : Establish s reg (some addr) s' (first ++ later)
  | cancelled {s s₁ s' : Routes T} {reg : RegionInfo} {addr : Bytes} {conn : Conn}
      {order : Order (Σ _ : Conn, Finset RegionInfo)} (ok : allowed (.put addr reg) s)
      (put : s.putClient order addr reg = (s₁, conn)) (dead : s₁.isDead reg = true)
      (released : s₁.markAvailable reg = .ok s') : Establish s reg (some addr) s' []

inductive Reestablish : Routes T → List RegionInfo → Routes T → Prop
  | nil {s : Routes T} : Reestablish s [] s
  | next {s s₁ s' : Routes T} {reg : RegionInfo} {before after more : List RegionInfo}
      (first : Establish special allowed s reg none s₁ more)
      (rest : Reestablish s₁ (before ++ after ++ more) s') :
      Reestablish s (before ++ reg :: after) s'

/-- A call and the goroutines that come of it. `reestablish` is for a NotServingRegionError and
for a region that has no client. -/
inductive Step : Routes T → Routes T → Prop
  | found {s s₁ s₂ s₃ s' : Routes T} {table : Bytes} {info : RegionInfo} {addr : Bytes}
      {first : Bool} {regions : KeyRegionCache T} {overlaps started : List RegionInfo}
      (answer : LookupRegion ⟨.regionClient, special⟩ table (.parsed info addr))
      (fresh : s.Pristine info) (marked : s.markUnavailable info = (s₁, first))
      (put : s₁.regions.put info = .ok (regions, overlaps, true))
      (dels : DelClients allowed { s₁ with regions := regions } overlaps s₂)
      (establish : Establish special allowed s₂ info (some addr) s₃ started)
      (rest : Reestablish special allowed s₃ started s') : Step s s'
  | declined {s s₁ : Routes T} {table : Bytes} {info : RegionInfo} {addr : Bytes} {first : Bool}
      {regions : KeyRegionCache T} {overlaps : List RegionInfo}
      (answer : LookupRegion ⟨.regionClient, special⟩ table (.parsed info addr))
      (fresh : s.Pristine info) (marked : s.markUnavailable info = (s₁, first))
      (put : s₁.regions.put info = .ok (regions, overlaps, false)) :
      Step s { s₁ with regions := regions }
  | reestablish {s s₁ s' : Routes T} {reg : RegionInfo} {first : Bool}
      (marked : s.markUnavailable reg = (s₁, first))
      (rest : Reestablish special allowed s₁ (if first then [reg] else []) s') : Step s s'
  | clientDown {s s₁ s₂ s' : Routes T} {conn : Conn} {reg : RegionInfo}
      {downregions : Finset RegionInfo} {others started : List RegionInfo}
      (down : s.clientDown conn = (s₁, downregions))
      (visits : (others : Multiset RegionInfo) = (downregions.erase reg).val)
      (taken : s₁.takeDown (reg :: others) = (s₂, started))
      (rest : Reestablish special allowed s₂ started s') : Step s s'

def Reaches (s : Routes T) : Prop := Relation.ReflTransGen (Step special allowed) (.new T) s

end Sequential

def Solo (setup : Setup) : Shared T × Thread → Shared T × Thread → Prop :=
  Relation.ReflTransGen fun before after => Alone setup before.1 before.2 () after.1 after.2

def Shared.goAll (sh : Shared T) (regs : List RegionInfo) : Shared T :=
  { sh with runnable := regs.map Thread.reestablish + sh.runnable }

theorem goAll_nil (sh : Shared T) : sh.goAll [] = sh := by
  simp [Shared.goAll]

theorem goAll_append (sh : Shared T) (regs more : List RegionInfo) :
    (sh.goAll regs).goAll more = sh.goAll (regs ++ more) := by
  simp [Shared.goAll, ← Multiset.coe_add, add_left_comm, add_assoc]

section Goroutine

variable {setup : Setup} {sh sh' : Shared T} {t t' : Thread} {final : Shared T × Thread}
variable {s s' : Routes T} {reg : RegionInfo}

theorem Solo.first (taken : Alone setup sh t () sh' t') (rest : Solo setup (sh', t') final) :
    Solo setup (sh, t) final :=
  .head taken rest

theorem DelClients.solo {allowed : Use → Routes T → Prop} {overlaps : List RegionInfo}
    (dels : DelClients allowed s overlaps s') (original reg : RegionInfo) (addr : Bytes)
    (sh : Shared T) (routes : sh.routes = s) (free : sh.locked = false)
    (rest : Solo setup (sh.update s', .delNew original reg addr []) final) :
    Solo setup (sh, .delNew original reg addr overlaps) final := by
  induction dels generalizing sh with
  | nil =>
      subst routes
      exact rest
  | cons _ _ ih =>
      subst routes
      exact .first (.delNew_next free) (ih _ rfl free rest)

theorem markDown_solo {regs started : List RegionInfo} {others : Finset RegionInfo} {after : After}
    (taken : s.takeDown (reg :: regs) = (s', started)) (routes : sh.routes = s)
    (rest : ∀ (sh : Shared T) (s' : Routes T) (started : List RegionInfo),
      sh.routes.takeDown regs = (s', started) →
      Solo setup ((sh.update s').goAll started, after.thread) final →
      Solo setup (sh, .nextDown others after) final)
    (finish : Solo setup ((sh.update s').goAll started, after.thread) final) :
    Solo setup (sh, .markDown reg others after) final := by
  subst routes
  rcases Routes.takeDown_cons taken with ⟨s₁, marked, later⟩ | ⟨s₁, more, marked, later, rfl⟩
  · exact .first (.markDown marked) (rest (sh.update s₁) s' started later finish)
  · refine .first (.markDown marked) (.first .resetClient (.first .start ?_))
    refine rest _ s' more later ?_
    have same : (((sh.setClient reg none).go (.reestablish reg)).update s').goAll more =
        (sh.update s').goAll (reg :: more) := by
      simp [Shared.goAll, Shared.go, Shared.update, Shared.setClient, ← Multiset.cons_coe]
    exact same ▸ finish

theorem nextDown_solo {regs started : List RegionInfo} {others : Finset RegionInfo} {after : After}
    (taken : sh.routes.takeDown regs = (s', started))
    (visits : (regs : Multiset RegionInfo) = others.val)
    (finish : Solo setup ((sh.update s').goAll started, after.thread) final) :
    Solo setup (sh, .nextDown others after) final := by
  induction regs generalizing sh s' started others with
  | nil =>
      cases taken
      rw [goAll_nil] at finish
      cases Finset.val_eq_zero.mp visits.symm
      exact .first .nextDown_done finish
  | cons reg regs ih =>
      have member : reg ∈ others := by
        rw [← Finset.mem_val, ← visits]
        exact List.mem_cons_self
      have left : (regs : Multiset RegionInfo) = (others.erase reg).val := by
        rw [Finset.erase_val, ← visits, ← Multiset.cons_coe, Multiset.erase_cons_head]
      refine .first (.nextDown member) (markDown_solo taken rfl ?_ finish)
      exact fun _ _ _ later => ih later left

theorem looked_special_same {addr : Bytes} (alive : sh.routes.isDead reg = false)
    (same : setup.special.name = reg.name) :
    Alone setup sh (.looked reg (.special addr)) () sh (.connect reg addr) := by
  have looked := @Alone.looked_special _ setup sh reg addr alive
  rw [if_neg (not_not.mpr same)] at looked
  exact looked

theorem looked_parsed_same {info : RegionInfo} {addr : Bytes} (alive : sh.routes.isDead reg = false)
    (same : info.name = reg.name) :
    Alone setup sh (.looked reg (.parsed info addr)) () sh (.connect reg addr) := by
  have looked := @Alone.looked_parsed _ setup sh reg info addr alive
  rw [if_neg (not_not.mpr same)] at looked
  exact looked

theorem looked_parsed_other {info : RegionInfo} {addr : Bytes}
    (alive : sh.routes.isDead reg = false) (different : info.name ≠ reg.name) :
    Alone setup sh (.looked reg (.parsed info addr)) () sh (.markNew reg (.parsed info addr)) := by
  have looked := @Alone.looked_parsed _ setup sh reg info addr alive
  rw [if_pos different] at looked
  exact looked

theorem Establish.solo {special : RegionInfo} {allowed : Use → Routes T → Prop}
    {addr : Option Bytes} {started : List RegionInfo}
    (run : Establish special allowed s reg addr s' started) (sh : Shared T)
    (routes : sh.routes = s) (free : sh.locked = false) :
    Solo ⟨.regionClient, special⟩ (sh, awake reg addr)
      ((sh.update s').goAll started, .finished) := by
  have other (reg : RegionInfo) : ¬Setup.IsAdmin ⟨.regionClient, special⟩ reg :=
    fun admin => nomatch admin.1
  induction run generalizing sh with
  | missing answer del _ released =>
      subst routes
      rw [goAll_nil]
      exact .first (.lookup_missing answer) (.first (.delRegion del) (.first (.delClient free)
        (.first (.markAvailable released) .refl)))
  | dead dead released =>
      subst routes
      rw [goAll_nil]
      exact .first (.lookup .failed nofun) (.first (.looked_dead dead)
        (.first (.markAvailable released) .refl))
  | special answer alive same _ ih =>
      subst routes
      exact .first (.lookup answer nofun) (.first (looked_special_same alive same) (ih sh rfl free))
  | same answer alive same _ ih =>
      subst routes
      exact .first (.lookup answer nofun) (.first (looked_parsed_same alive same) (ih sh rfl free))
  | kept answer alive different _ fresh marked put released original =>
      subst routes
      rw [goAll_nil]
      exact .first (.lookup answer nofun) (.first (looked_parsed_other alive different)
        (.first (.markNew fresh marked) (.first (.putNew_kept put)
          (.first (.markAvailable released) (.first (.markAvailable original) .refl)))))
  | replaced answer alive different _ fresh marked put dels original _ ih =>
      subst routes
      refine .first (.lookup answer nofun) (.first (looked_parsed_other alive different)
        (.first (.markNew fresh marked) (.first (.putNew_replaced put)
          (dels.solo _ _ _ _ rfl free ?_))))
      exact .first .delNew_done (.first (.markAvailable original) (ih _ rfl free))
  | established _ put released =>
      subst routes
      rw [goAll_nil]
      exact .first (.connect (other _) free put) (.first (.dial (other _)) (.first .probe
        (.first .setClient (.first (.markAvailable released) .refl))))
  | retried _ put _ ih =>
      subst routes
      exact .first (.connect (other _) free put) (.first (.dial (other _)) (.first .probe_retry
        (.first .sleep (ih _ rfl free))))
  | down _ put down visits taken _ ih =>
      subst routes
      refine .first (.connect (other _) free put) (.first .dial_failed (.first
        (.clientDown free down) (markDown_solo taken rfl ?_ (.first .sleep ?_))))
      · exact fun _ _ _ later => nextDown_solo later visits
      · rw [← goAll_append]
        exact ih _ rfl free
  | cancelled _ put _ released =>
      subst routes
      rw [goAll_nil]
      exact .first (.connect (other _) free put) (.first .dial_cancelled
        (.first (.markAvailable released) .refl))

end Goroutine

end GoHBase.Routing
