import GoHBase.CacheLookup
import GoHBase.RoutingCaches

/-!
Who may make a region available again: every unavailable region has at most one establisher, or
one goroutine that is about to start it, and nobody else closes its channel.
-/

namespace GoHBase

open ByteString Runtime OrderedTree RangeLoop Interleaving

variable {T : Tree Bytes RegionInfo compare}

def Setup.Genuine (setup : Setup) (reg : RegionInfo) : Prop :=
  reg = setup.special ∨ setup.Ordinary (fullyQualifiedTable reg)

namespace Routing

def After.owns : After → Multiset RegionInfo
  | .finish => 0
  | .retry reg => {reg}

def Next.owns : Next → Multiset RegionInfo
  | .downs _ after => after.owns
  | _ => 0

def Release.owns : Release → Multiset RegionInfo
  | .finish => 0
  | .original reg => {reg}
  | .connect reg _ => {reg}

/-- The regions that a goroutine establishes and has not released. Where a lookup has found
another region, these are both. -/
def Thread.establishes : Thread → Multiset RegionInfo
  | .reestablish reg => {reg}
  | .establish reg _ _ => {reg}
  | .lookup reg => {reg}
  | .delRegion reg => {reg}
  | .delClient reg => {reg}
  | .looked reg _ => {reg}
  | .markNew original _ => {original}
  | .putNew original reg _ => {original} + {reg}
  | .delNew original reg _ _ => {original} + {reg}
  | .connect reg _ => {reg}
  | .dial reg _ => {reg}
  | .probe reg _ => {reg}
  | .setClient reg _ => {reg}
  | .markAvailable reg release => {reg} + release.owns
  | .clientDown _ _ after => after.owns
  | .markDown _ _ after => after.owns
  | .resetClient _ _ after => after.owns
  | .nextDown _ after => after.owns
  | .start _ next => next.owns
  | _ => 0

def Thread.starts : Thread → Multiset RegionInfo
  | .putFound _ _ reg _ => {reg}
  | .delFound _ _ reg _ => {reg}
  | .resetClient reg _ _ => {reg}
  | .start reg _ => {reg}
  | _ => 0

def Thread.owns (t : Thread) : Multiset RegionInfo := t.establishes + t.starts

def Shared.owns (sh : Shared T) : Multiset RegionInfo := sh.runnable.bind Thread.owns

variable {setup : Setup} {sh sh' : Shared T} {t t' : Thread} {e : Unit}

theorem owns_kept (less : t'.owns ≤ t.owns) {routes : Routes T}
    (same : Routes.SameChannels sh.routes routes) :
    sh.owns + t'.owns + sh.routes.unavailable ≤ sh.owns + t.owns + routes.unavailable := by
  rw [same.unavailable]
  gcongr

theorem owns_marked {reg : RegionInfo} {routes : Routes T} {first : Bool}
    (marked : sh.routes.markUnavailable reg = (routes, first))
    (kept : first = false → t'.owns ≤ t.owns) (grown : first = true → t'.owns ≤ reg ::ₘ t.owns) :
    sh.owns + t'.owns + sh.routes.unavailable ≤ sh.owns + t.owns + routes.unavailable := by
  rcases Routes.markUnavailable_cases marked with ⟨again, rfl⟩ | ⟨fresh, _, unavailable⟩
  · exact owns_kept (kept again) (.refl _)
  · have less := grown fresh
    rw [unavailable, Multiset.add_cons, ← Multiset.cons_add, ← Multiset.add_cons]
    gcongr

theorem owns_started {u : Thread} (handed : u.owns + t'.owns ≤ t.owns)
    (unavailable : Multiset RegionInfo) :
    (sh.go u).owns + t'.owns + unavailable ≤ sh.owns + t.owns + unavailable := by
  have runs : (sh.go u).owns = sh.owns + u.owns := by
    rw [Shared.owns, Shared.go, Multiset.cons_bind, add_comm]
    rfl
  rw [runs, add_assoc sh.owns]
  gcongr

theorem owns_released {reg : RegionInfo} {routes : Routes T}
    (released : sh.routes.markAvailable reg = .ok routes) (left : t.owns = reg ::ₘ t'.owns) :
    sh.owns + t'.owns + sh.routes.unavailable ≤ sh.owns + t.owns + routes.unavailable := by
  rw [Routes.markAvailable_unavailable released, left, Multiset.add_cons, Multiset.add_cons,
    Multiset.cons_add]

theorem mem_owns_markAvailable (reg : RegionInfo) (release : Release) :
    reg ∈ (Thread.markAvailable reg release).owns := by
  simp [Thread.owns, Thread.establishes]

@[simp]
theorem owns_after (after : After) : after.thread.owns = after.owns := by
  cases after <;> rfl

@[simp]
theorem owns_next (next : Next) : next.thread.owns = next.owns := by
  cases next <;> simp [Next.thread, Next.owns, Thread.owns, Thread.establishes, Thread.starts]

@[simp]
theorem owns_release (release : Release) : release.thread.owns = release.owns := by
  cases release <;>
    simp [Release.thread, Release.owns, Thread.owns, Thread.establishes, Thread.starts]

@[simp]
theorem owns_awake (reg : RegionInfo) (addr : Option Bytes) : (awake reg addr).owns = {reg} := by
  cases addr <;> rfl

@[simp]
theorem owns_waited (again : Bool) (row : Row) (reg : RegionInfo) :
    (waited again row reg).owns = 0 := by
  cases again <;> rfl

def After.Sound (setup : Setup) : After → Prop
  | .finish => True
  | .retry reg => setup.Genuine reg

def Next.Sound (setup : Setup) : Next → Prop
  | .finish => True
  | .wait _ reg => setup.Genuine reg
  | .downs others after => (∀ other ∈ others, setup.Genuine other) ∧ after.Sound setup

def Release.Sound (setup : Setup) : Release → Prop
  | .finish => True
  | .original _ => True
  | .connect reg _ => setup.Genuine reg

def Answer.Sound (setup : Setup) (reg : RegionInfo) : Answer → Prop
  | .special _ => ¬setup.Ordinary (fullyQualifiedTable reg)
  | .parsed info _ => setup.Genuine info
  | _ => True

/-- All regions are genuine, `findRegion` and a change of the name are not for the special region,
whose mark may be that of others, and nobody has panicked. -/
def Thread.Sound (setup : Setup) : Thread → Prop
  | .findRegion row _ => setup.Ordinary row.table
  | .markSpecial _ _ => False
  | .goSpecial _ _ => False
  | .markFound _ _ info _ => setup.Genuine info
  | .putFound _ _ reg _ => setup.Genuine reg
  | .delFound _ _ reg _ => setup.Genuine reg
  | .availability _ _ reg => setup.Genuine reg
  | .await _ _ reg _ => setup.Genuine reg
  | .checkDead _ reg => setup.Genuine reg
  | .readClient _ _ reg => setup.Genuine reg
  | .markLost _ reg => setup.Genuine reg
  | .handleResultError _ reg _ => setup.Genuine reg
  | .clientDown _ reg after => setup.Genuine reg ∧ after.Sound setup
  | .markDown reg others after =>
      setup.Genuine reg ∧ (∀ other ∈ others, setup.Genuine other) ∧ after.Sound setup
  | .resetClient reg others after =>
      setup.Genuine reg ∧ (∀ other ∈ others, setup.Genuine other) ∧ after.Sound setup
  | .start reg next => setup.Genuine reg ∧ next.Sound setup
  | .nextDown others after => (∀ other ∈ others, setup.Genuine other) ∧ after.Sound setup
  | .reestablish reg => setup.Genuine reg
  | .establish reg _ _ => setup.Genuine reg
  | .lookup reg => setup.Genuine reg
  | .looked reg answer => setup.Genuine reg ∧ answer.Sound setup reg
  | .markNew _ (.parsed info _) => setup.Genuine info
  | .markNew _ _ => False
  | .putNew _ reg _ => setup.Genuine reg
  | .delNew _ reg _ _ => setup.Genuine reg
  | .connect reg _ => setup.Genuine reg
  | .dial reg _ => setup.Genuine reg
  | .probe reg _ => setup.Genuine reg
  | .markAvailable _ release => release.Sound setup
  | .panicked => False
  | _ => True

/-- A step takes over a region only when it has marked it. -/
theorem Alone.owns (taken : Alone setup sh t e sh' t') (sound : t.Sound setup) :
    sh'.owns + t'.owns + sh.routes.unavailable ≤ sh.owns + t.owns + sh'.routes.unavailable := by
  cases taken with
  | markSpecial => exact sound.elim
  | goSpecial => exact sound.elim
  | markNew_special => exact sound.elim
  | markFound fresh marked =>
      exact owns_marked marked
        (fun again => absurd fresh.available (Routes.marked_again marked again)) fun _ => le_refl _
  | @markNew original info addr _ _ fresh marked =>
      refine owns_marked marked
        (fun again => absurd fresh.available (Routes.marked_again marked again)) fun _ => ?_
      exact (Multiset.cons_swap original info 0).le
  | @markLost row reg _ first marked =>
      cases first with
      | true => exact owns_marked marked nofun fun _ => le_refl _
      | false => exact owns_marked marked (fun _ => le_refl _) nofun
  | @handle_reestablish _ reg _ _ first _ marked =>
      cases first with
      | true => exact owns_marked marked nofun fun _ => le_refl _
      | false => exact owns_marked marked (fun _ => le_refl _) nofun
  | @markDown reg others after _ first marked =>
      cases first with
      | true =>
          refine owns_marked marked nofun fun _ => ?_
          change after.owns + {reg} ≤ {reg} + (after.owns + 0)
          rw [add_zero, add_comm]
      | false => exact owns_marked marked (fun _ => le_refl _) nofun
  | closing marked => exact owns_marked marked (fun _ => le_refl _) fun _ => Multiset.zero_le _
  | delFound_done => exact owns_started (le_refl _) _
  | @start reg next =>
      refine owns_started ?_ _
      change {reg} + next.thread.owns ≤ next.owns + {reg}
      rw [owns_next, add_comm]
  | @markAvailable reg release _ released =>
      refine owns_released released ?_
      rw [owns_release]
      exact add_zero _
  | availability_nil => exact owns_kept (le_of_eq (owns_waited _ _ _)) (.refl _)
  | await_closed => exact owns_kept (le_of_eq (owns_waited _ _ _)) (.refl _)
  | checkDead => exact owns_kept (by split <;> exact le_refl _) (.refl _)
  | readClient_nil => exact owns_kept (by split <;> exact le_refl _) (.refl _)
  | looked_special => exact owns_kept (by split <;> exact le_refl _) (.refl _)
  | looked_parsed => exact owns_kept (by split <;> exact le_refl _) (.refl _)
  | sleep => exact owns_kept (le_of_eq (owns_awake _ _)) (.refl _)
  | nextDown_done =>
      refine owns_kept ?_ (.refl _)
      rw [owns_after]
      exact le_self_add
  | delFound_next => exact owns_kept (le_refl _) (Routes.sameChannels_delClient _ _)
  | delNew_next => exact owns_kept (le_refl _) (Routes.sameChannels_delClient _ _)
  | delClient => exact owns_kept (le_refl _) (Routes.sameChannels_delClient _ _)
  | connect _ _ put => exact owns_kept (le_refl _) (Routes.sameChannels_putClient put)
  | clientDown _ down => exact owns_kept (le_refl _) (Routes.sameChannels_clientDown down)
  | @putNew_kept original reg _ _ _ _ =>
      refine owns_kept ?_ (.refl _)
      exact (Multiset.cons_swap reg original 0).le
  | putFound_kept => exact owns_kept (Multiset.zero_le _) (.refl _)
  | reestablish_closed => exact owns_kept (Multiset.zero_le _) (.refl _)
  | looked_closed => exact owns_kept (Multiset.zero_le _) (.refl _)
  | markAvailable_panic => exact owns_kept (Multiset.zero_le _) (.refl _)
  | _ => exact le_refl _

structure Shared.Sound (setup : Setup) (sh : Shared T) : Prop where
  assigned : ∀ reg ∈ sh.assigned, setup.Genuine reg
  lists : ∀ conn reg, sh.routes.Lists conn reg → setup.Genuine reg
  runnable : ∀ t ∈ sh.runnable, t.Sound setup

theorem Shared.Sound.lists_less (shared : sh.Sound setup) {routes : Routes T}
    (less : ∀ conn reg, routes.Lists conn reg → sh.routes.Lists conn reg) :
    (sh.update routes).Sound setup :=
  ⟨shared.assigned, fun conn reg listed => shared.lists conn reg (less conn reg listed),
    shared.runnable⟩

theorem Shared.Sound.clients_same (shared : sh.Sound setup) {routes : Routes T}
    (same : routes.clients = sh.routes.clients) : (sh.update routes).Sound setup := by
  refine shared.lists_less fun conn reg listed => ?_
  unfold Routes.Lists at listed
  rw [same] at listed
  exact listed

theorem Shared.Sound.go (shared : sh.Sound setup) {u : Thread} (sound : u.Sound setup) :
    (sh.go u).Sound setup := by
  refine ⟨shared.assigned, shared.lists, ?_⟩
  intro t member
  rcases Multiset.mem_cons.mp member with rfl | member
  · exact sound
  · exact shared.runnable t member

theorem getRegionFromCache_genuine {regions : KeyRegionCache T} {table key : Bytes}
    {reg : RegionInfo}
    (hit : (setup.client regions).getRegionFromCache table key = .ok (some reg)) :
    setup.Genuine reg := by
  rcases setup with ⟨clientType, special⟩
  cases clientType with
  | masterClient =>
      cases hit
      exact .inl rfl
  | regionClient =>
      simp only [Setup.client, Client.getRegionFromCache, reduceCtorEq, ↓reduceIte] at hit
      split at hit
      · cases hit
        exact .inl rfl
      · rename_i other
        simp only [bind_ok_iff] at hit
        rcases hit with ⟨_, _, found, _, accepted⟩
        rcases acceptRegion_cases table key found with refused | ⟨name, region, rfl, same⟩
        · rw [refused] at accepted
          cases accepted
        · have equal := acceptRegion_some.mp same
          rw [same] at accepted
          cases accepted
          exact .inr ⟨rfl, equal.1 ▸ other⟩

theorem getRegionFromCache_miss {regions : KeyRegionCache T} {table key : Bytes}
    (miss : (setup.client regions).getRegionFromCache table key = .ok none) :
    setup.Ordinary table := by
  rcases setup with ⟨clientType, special⟩
  cases clientType with
  | masterClient => cases miss
  | regionClient =>
      refine ⟨rfl, ?_⟩
      rintro rfl
      cases miss

theorem genuine_special {reg : RegionInfo} (genuine : setup.Genuine reg)
    (other : ¬setup.Ordinary (fullyQualifiedTable reg)) : reg = setup.special :=
  genuine.resolve_right other

theorem Alone.sound_shared (taken : Alone setup sh t e sh' t') (shared : sh.Sound setup)
    (sound : t.Sound setup) : sh'.Sound setup := by
  cases taken with
  | markSpecial => exact sound.elim
  | goSpecial => exact sound.elim
  | markNew_special => exact sound.elim
  | markFound _ marked =>
      exact shared.clients_same (Routes.sameLists_markUnavailable marked).clients
  | markNew _ marked => exact shared.clients_same (Routes.sameLists_markUnavailable marked).clients
  | markLost marked => exact shared.clients_same (Routes.sameLists_markUnavailable marked).clients
  | handle_reestablish _ marked =>
      exact shared.clients_same (Routes.sameLists_markUnavailable marked).clients
  | markDown marked => exact shared.clients_same (Routes.sameLists_markUnavailable marked).clients
  | closing marked => exact shared.clients_same (Routes.sameLists_markUnavailable marked).clients
  | markAvailable released =>
      exact shared.clients_same (Routes.sameLists_markAvailable released).clients
  | delFound_done => exact shared.go sound
  | start => exact shared.go sound.1
  | readClient_found =>
      refine ⟨?_, shared.lists, shared.runnable⟩
      intro reg member
      rcases Finset.mem_insert.mp member with rfl | member
      · exact sound
      · exact shared.assigned reg member
  | delFound_next =>
      exact shared.lists_less fun _ _ lists => (Routes.delClient_lists _ _).mp lists |>.1
  | delNew_next =>
      exact shared.lists_less fun _ _ lists => (Routes.delClient_lists _ _).mp lists |>.1
  | delClient => exact shared.lists_less fun _ _ lists => (Routes.delClient_lists _ _).mp lists |>.1
  | clientDown _ down =>
      exact shared.lists_less fun _ _ lists => ((Routes.clientDown_lists down).1 _ _).mp lists |>.1
  | connect _ _ put =>
      refine ⟨shared.assigned, ?_, shared.runnable⟩
      intro conn reg lists
      rcases (Routes.putClient_lists put _ _).mp lists with before | ⟨_, rfl⟩
      · exact shared.lists conn reg before
      · exact sound
  | _ => exact ⟨shared.assigned, shared.lists, shared.runnable⟩

theorem Alone.sound (taken : Alone setup sh t e sh' t') (shared : sh.Sound setup)
    (sound : t.Sound setup) (channels : sh.routes.Channels)
    (own : ∀ reg ∈ t.owns, reg ∈ sh.routes.unavailable) : t'.Sound setup := by
  cases taken with
  | cache_hit hit => exact getRegionFromCache_genuine hit
  | cache_miss miss => exact getRegionFromCache_miss miss
  | findRegion_special answer =>
      cases answer with
      | special _ other => exact absurd sound other
  | findRegion_parsed answer =>
      cases answer with
      | parsed _ ordinary same => exact .inr (same ▸ ordinary)
  | goSpecial => exact sound.elim
  | markNew_special => exact sound.elim
  | @availability_nil again => cases again <;> exact sound
  | @await_closed again => cases again <;> exact sound
  | checkDead =>
      split
      · trivial
      · exact sound
  | @readClient_nil again =>
      cases again with
      | true => trivial
      | false => exact sound
  | @markLost _ _ _ first =>
      cases first with
      | true => exact ⟨sound, sound⟩
      | false => exact sound
  | @handle_reestablish _ _ _ _ first =>
      cases first with
      | true => exact ⟨sound, trivial⟩
      | false => trivial
  | handle_server => exact ⟨sound, trivial⟩
  | clientDown _ down =>
      refine ⟨sound.1, ?_, sound.2⟩
      intro other member
      have listed := ((Routes.clientDown_lists down).2 other).mp (Finset.mem_of_mem_erase member)
      exact shared.lists _ other listed
  | @markDown _ _ _ _ first =>
      cases first with
      | true => exact sound
      | false => exact sound.2
  | @start reg next =>
      rcases sound with ⟨_, sound⟩
      cases next <;> exact sound
  | @nextDown reg _ _ member =>
      refine ⟨sound.1 reg member, ?_, sound.2⟩
      exact fun other kept => sound.1 other (Finset.mem_of_mem_erase kept)
  | @nextDown_done after =>
      rcases sound with ⟨_, sound⟩
      cases after <;> exact sound
  | @sleep reg addr => cases addr <;> exact sound
  | lookup looked _ =>
      refine ⟨sound, ?_⟩
      cases looked with
      | special _ other => exact other
      | parsed _ ordinary same => exact .inr (same ▸ ordinary)
      | _ => trivial
  | @looked_special reg addr alive =>
      have same := genuine_special sound.1 sound.2
      rw [if_neg (by simp [same])]
      exact sound.1
  | looked_parsed =>
      split
      · exact sound.2
      · exact sound.1
  | dial_failed => exact ⟨sound, sound⟩
  | probe_server => exact ⟨sound, sound⟩
  | @markAvailable _ release => cases release <;> exact sound
  | @markAvailable_panic reg release _ panic =>
      rcases channels.markAvailable_ok (own reg (mem_owns_markAvailable reg release)) with ⟨_, ok⟩
      rw [panic] at ok
      cases ok
  | _ => first | exact sound | trivial

theorem Alone.channels (taken : Alone setup sh t e sh' t') (channels : sh.routes.Channels) :
    sh'.routes.Channels := by
  cases taken with
  | markSpecial marked => exact channels.markUnavailable marked
  | markFound _ marked => exact channels.markUnavailable marked
  | markLost marked => exact channels.markUnavailable marked
  | handle_reestablish _ marked => exact channels.markUnavailable marked
  | markDown marked => exact channels.markUnavailable marked
  | markNew_special marked => exact channels.markUnavailable marked
  | markNew _ marked => exact channels.markUnavailable marked
  | closing marked => exact channels.markUnavailable marked
  | markAvailable released => exact channels.markAvailable released
  | delFound_next => exact channels.same (Routes.sameChannels_delClient _ _)
  | delNew_next => exact channels.same (Routes.sameChannels_delClient _ _)
  | delClient => exact channels.same (Routes.sameChannels_delClient _ _)
  | clientDown _ down => exact channels.same (Routes.sameChannels_clientDown down)
  | connect _ _ put => exact channels.same (Routes.sameChannels_putClient put)
  | _ => exact channels.same ⟨rfl, rfl, rfl⟩

variable {c c' : Config (Shared T) Thread}

structure Owned (setup : Setup) (c : Config (Shared T) Thread) : Prop where
  shared : c.shared.Sound setup
  threads : ∀ t ∈ c.threads, t.Sound setup
  owns : c.shared.owns + c.threads.bind Thread.owns ≤ c.shared.routes.unavailable
  channels : c.shared.routes.Channels

theorem Owned.unavailable (owned : Owned setup c) {t : Thread}
    (member : t ∈ c.threads + c.shared.runnable) {reg : RegionInfo} (own : reg ∈ t.owns) :
    reg ∈ c.shared.routes.unavailable := by
  refine Multiset.mem_of_le owned.owns ?_
  rcases Multiset.mem_add.mp member with thread | runnable
  · exact Multiset.mem_add.mpr (.inr (Multiset.mem_bind.mpr ⟨t, thread, own⟩))
  · exact Multiset.mem_add.mpr (.inl (Multiset.mem_bind.mpr ⟨t, runnable, own⟩))

theorem Spawn.owned (taken : Spawn sh e sh' t) (shared : sh.Sound setup) :
    sh'.Sound setup ∧ t.Sound setup ∧ sh'.routes = sh.routes ∧ sh'.owns + t.owns = sh.owns := by
  cases taken with
  | getRegionAndClientForRPC row => exact ⟨shared, trivial, rfl, add_zero _⟩
  | handleResultError err rc set => exact ⟨shared, shared.assigned _ set, rfl, add_zero _⟩
  | closeAll => exact ⟨shared, trivial, rfl, add_zero _⟩
  | goroutine started =>
      have runnable := shared.runnable
      rw [started] at runnable
      refine ⟨⟨shared.assigned, shared.lists, ?_⟩, runnable t (Multiset.mem_cons_self t _), rfl, ?_⟩
      · exact fun u member => runnable u (Multiset.mem_cons_of_mem member)
      · rw [Shared.owns, Shared.owns, started, Multiset.cons_bind, add_comm]

theorem Outside.owned (taken : Outside sh e sh') (shared : sh.Sound setup) :
    sh'.Sound setup ∧ sh'.routes = sh.routes ∧ sh'.owns = sh.owns := by
  cases taken
  exact ⟨⟨shared.assigned, shared.lists, shared.runnable⟩, rfl, rfl⟩

theorem Owned.kept (step : (routing setup T).Step c e c') (owned : Owned setup c) :
    Owned setup c' := by
  have mine {t : Thread} (member : t ∈ c.threads) :
      ∀ reg ∈ t.owns, reg ∈ c.shared.routes.unavailable :=
    fun _ own => owned.unavailable (Multiset.mem_add.mpr (.inl member)) own
  refine ⟨?_, ?_, ?_, ?_⟩
  · refine step.kinds ?_ ?_ ?_ ?_
    · exact fun t _ member taken => Alone.sound_shared taken owned.shared (owned.threads t member)
    · exact fun _ _ _ _ taken => taken.elim
    · exact fun _ taken => (Spawn.owned taken owned.shared).1
    · exact fun taken => (Outside.owned taken owned.shared).1
  · refine step.everywhere ?_ ?_ ?_ owned.threads
    · exact fun t _ member taken => Alone.sound taken owned.shared (owned.threads t member)
        owned.channels (mine member)
    · exact fun _ _ _ _ _ _ taken => taken.elim
    · exact fun _ taken => (Spawn.owned taken owned.shared).2.1
  · refine step.within Shared.owns Thread.owns (fun sh => sh.routes.unavailable) ?_ ?_ ?_ ?_
      owned.owns
    · exact fun t _ member taken => Alone.owns taken (owned.threads t member)
    · exact fun _ _ _ _ taken => taken.elim
    · intro _ taken
      rcases Spawn.owned taken owned.shared with ⟨_, _, same, owns⟩
      rw [same, owns]
    · intro taken
      rcases Outside.owned taken owned.shared with ⟨_, same, owns⟩
      rw [same, owns]
  · refine step.kinds ?_ ?_ ?_ ?_
    · exact fun _ _ _ taken => Alone.channels taken owned.channels
    · exact fun _ _ _ _ taken => taken.elim
    · exact fun _ taken => (Spawn.owned taken owned.shared).2.2.1 ▸ owned.channels
    · exact fun taken => (Outside.owned taken owned.shared).2.1 ▸ owned.channels

theorem Owned.started (setup : Setup) : Owned setup (started T) := by
  have idle : ∀ t ∈ (0 : Multiset Thread), t.Sound setup :=
    fun t member => absurd member (Multiset.notMem_zero t)
  refine ⟨⟨nofun, ?_, idle⟩, idle, le_refl _, ⟨nofun, nofun, nofun⟩⟩
  rintro conn reg ⟨regions, stored, _⟩
  cases stored

def Thread.marksAvailable : Thread → Option RegionInfo
  | .markAvailable reg _ => some reg
  | _ => none

/-- In every interleaving a region has one establisher at most, is unavailable while it has one,
and `MarkAvailable` finds an open channel. -/
theorem availability_ownership (setup : Setup) (c : Config (Shared T) Thread)
    (run : (routing setup T).Run (fun _ _ => True) (started T) c) :
    (∀ reg, ((c.threads + c.shared.runnable).bind Thread.establishes).count reg ≤ 1) ∧
      (∀ t ∈ c.threads + c.shared.runnable, ∀ reg ∈ t.establishes,
        c.shared.routes.available.lookup reg ≠ none) ∧
      (∀ t ∈ c.threads, ∀ reg, t.marksAvailable = some reg →
        ∃ ch, c.shared.routes.available.lookup reg = some ch ∧ ch ∉ c.shared.routes.closed ∧
          ∃ routes, c.shared.routes.markAvailable reg = .ok routes) ∧
      Thread.panicked ∉ c.threads := by
  have owned : Owned setup c := run.invariant (Owned setup) (.started setup)
    fun step _ owned => owned.kept step
  refine ⟨?_, ?_, ?_, ?_⟩
  · intro reg
    have split : c.shared.owns + c.threads.bind Thread.owns =
        (c.threads + c.shared.runnable).bind Thread.establishes +
          (c.threads + c.shared.runnable).bind Thread.starts := by
      rw [Shared.owns, add_comm, ← Multiset.add_bind, ← Multiset.bind_add]
      rfl
    have less := owned.owns
    rw [split] at less
    have distinct : c.shared.routes.unavailable.Nodup := c.shared.routes.available.keys_nodup
    exact Multiset.nodup_iff_count_le_one.mp
      (Multiset.nodup_of_le (le_self_add.trans less) distinct) reg
  · intro t member reg establishes nil
    have own : reg ∈ t.owns := Multiset.mem_add.mpr (.inl establishes)
    rcases Routes.mem_unavailable.mp (owned.unavailable member own) with ⟨ch, found⟩
    rw [nil] at found
    cases found
  · intro t member reg marks
    cases t with
    | markAvailable own release =>
        cases marks
        have unavailable := owned.unavailable (Multiset.mem_add.mpr (.inl member))
          (mem_owns_markAvailable reg release)
        rcases Routes.mem_unavailable.mp unavailable with ⟨ch, found⟩
        exact ⟨ch, found, (owned.channels.opened reg ch found).2,
          owned.channels.markAvailable_ok unavailable⟩
    | _ => cases marks
  · exact fun member => owned.threads _ member

def sampleSetup : Setup where
  clientType := .regionClient
  special := ⟨0, 0, some [104, 98, 97, 115, 101], [109, 101, 116, 97],
    metaTableName ++ [44, 44, 49], [], []⟩

theorem moves {setup : Setup} {start : Config (Shared T) Thread} {rest : Multiset Thread}
    (run : (routing setup T).Run (fun _ _ => True) start ⟨sh, t ::ₘ rest⟩)
    (taken : Alone setup sh t () sh' t') :
    (routing setup T).Run (fun _ _ => True) start ⟨sh', t' ::ₘ rest⟩ :=
  run.step (.alone rest taken) trivial

theorem availability_ownership_established :
    ∃ (c : Config (Shared (reference Bytes RegionInfo compare)) Thread) (reg : RegionInfo),
      Thread.markAvailable reg .finish ∈ c.threads ∧
        ∃ ch, c.shared.routes.available.lookup reg = some ch ∧ ch ∉ c.shared.routes.closed ∧
          ∃ routes, c.shared.routes.markAvailable reg = .ok routes := by
  have answer : LookupRegion sampleSetup [116] (.parsed (sampleRegion 1 1 [] []) [49]) :=
    .parsed [49] ⟨rfl, by decide⟩ rfl
  have other : ¬sampleSetup.IsAdmin (sampleRegion 1 1 [] []) := fun admin => nomatch admin.1
  have run : (routing sampleSetup (reference Bytes RegionInfo compare)).Run (fun _ _ => True)
      (started _) (started _) := .refl
  replace run := run.step (.spawn 0 (.getRegionAndClientForRPC ⟨[116], []⟩)) trivial
  replace run := moves run (.cache_miss rfl)
  replace run := moves run (.findRegion_parsed answer)
  replace run := moves run (.markFound ⟨rfl, rfl, rfl, nofun⟩ rfl)
  replace run := moves run (.putFound_replaced rfl)
  replace run := moves run .delFound_done
  replace run := run.step (.spawn _ (@Spawn.goroutine _ _
    (.establish (sampleRegion 1 1 [] []) (some [49]) true) 0 rfl)) trivial
  replace run := moves run .sleep
  replace run :=
    moves run (.connect other rfl (show Routes.putClient _ (.stored _) _ _ = _ from rfl))
  replace run := moves run (.dial other)
  replace run := moves run .probe
  replace run := moves run .setClient
  rcases availability_ownership sampleSetup _ run with ⟨_, _, marks, _⟩
  have member := Multiset.mem_cons_self (Thread.markAvailable (sampleRegion 1 1 [] []) .finish)
    {.availability false ⟨[116], []⟩ (sampleRegion 1 1 [] [])}
  exact ⟨_, _, member, marks _ member _ rfl⟩

end Routing

end GoHBase
