import GoHBase.CacheCore
import GoHBase.Lib.Interleaving
import GoHBase.Lib.RangeLoop

/-!
Regions, their region clients and the two caches, as the goroutines of the client share them:
RPCs that look for a region, errors that take regions and clients down, establishers, and `Close`.
-/

namespace GoHBase

open ByteString Runtime OrderedTree RangeLoop Interleaving

variable {T : Tree Bytes RegionInfo compare}

structure Conn where
  ref : Nat
  addr : Bytes
  deriving DecidableEq, Repr

/-- The mutable fields of the regions and the two caches. `available` has the channel of each
region that is unavailable; `closed` are the channels that have been closed. -/
structure Routes (T : Tree Bytes RegionInfo compare) where
  regions : KeyRegionCache T
  available : AList fun _ : RegionInfo => Nat
  closed : List Nat
  channels : Nat
  client : RegionInfo → Option Conn
  clients : AList fun _ : Conn => Finset RegionInfo
  conns : Nat

namespace Routes

def new (T : Tree Bytes RegionInfo compare) : Routes T where
  regions := .new T
  available := ∅
  closed := []
  channels := 0
  client := fun _ => none
  clients := ∅
  conns := 0

def isDead (s : Routes T) (reg : RegionInfo) : Bool := decide (reg ∈ s.regions.dead)

def markUnavailable (s : Routes T) (reg : RegionInfo) : Routes T × Bool :=
  match s.available.lookup reg with
  | some _ => (s, false)
  | none =>
      ({ s with
        available := s.available.insert reg s.channels
        channels := s.channels + 1 }, true)

def markAvailable (s : Routes T) (reg : RegionInfo) : Go (Routes T) :=
  match s.available.lookup reg with
  | none => .error (.panic "close of nil channel")
  | some ch =>
      if ch ∈ s.closed then .error (.panic "close of closed channel")
      else .ok { s with available := s.available.erase reg, closed := ch :: s.closed }

def setClient (s : Routes T) (reg : RegionInfo) (conn : Option Conn) : Routes T :=
  { s with client := Function.update s.client reg conn }

/-- `clientRegionCache.put`; the loop over the clients stops at the first with the address. -/
def putClient (s : Routes T) (order : Order (Σ _ : Conn, Finset RegionInfo)) (addr : Bytes)
    (reg : RegionInfo) : Routes T × Conn :=
  match (order.visit s.clients.entries).find? fun entry => decide (entry.1.addr = addr) with
  | some ⟨conn, regions⟩ =>
      ({ s with clients := s.clients.insert conn (insert reg regions) }, conn)
  | none =>
      ({ s with
        clients := s.clients.insert ⟨s.conns, addr⟩ {reg}
        conns := s.conns + 1 }, ⟨s.conns, addr⟩)

/-- `clientRegionCache.del`; to delete from a nil map does nothing. -/
def delClient (s : Routes T) (reg : RegionInfo) : Routes T :=
  match s.client reg with
  | none => s
  | some conn =>
      match s.clients.lookup conn with
      | none => s.setClient reg none
      | some regions =>
          { s.setClient reg none with clients := s.clients.insert conn (regions.erase reg) }

def clientDown (s : Routes T) (conn : Conn) : Routes T × Finset RegionInfo :=
  ({ s with clients := s.clients.erase conn }, (s.clients.lookup conn).getD ∅)

structure Pristine (s : Routes T) (reg : RegionInfo) : Prop where
  available : s.available.lookup reg = none
  client : s.client reg = none
  alive : s.isDead reg = false
  unseen : ∀ item ∈ T.items s.regions.regions, item.2 ≠ reg

/-- The loop of `clientDown` over regions of the client. It returns those for which it starts a
goroutine. -/
def takeDown (s : Routes T) : List RegionInfo → Routes T × List RegionInfo
  | [] => (s, [])
  | reg :: regions =>
      match s.markUnavailable reg with
      | (marked, true) =>
          let (s', started) := (marked.setClient reg none).takeDown regions
          (s', reg :: started)
      | (marked, false) => marked.takeDown regions

end Routes

/-- What does not change: a client of region servers has the region of hbase:meta, and one of
the master has the region that stands for the master. -/
structure Setup where
  clientType : ClientType
  special : RegionInfo

def Setup.client (setup : Setup) (regions : KeyRegionCache T) : Client T :=
  match setup.clientType with
  | .regionClient => ⟨.regionClient, none, some setup.special, regions⟩
  | .masterClient => ⟨.masterClient, some setup.special, none, regions⟩

def Setup.IsAdmin (setup : Setup) (reg : RegionInfo) : Prop :=
  setup.clientType = .masterClient ∧ reg = setup.special

def Setup.Ordinary (setup : Setup) (table : Bytes) : Prop :=
  setup.clientType = .regionClient ∧ table ≠ metaTableName

namespace Routing

/-- What `lookupRegion` returns. Only a row of hbase:meta is parsed into an object of its own. -/
inductive Answer
  | special (addr : Bytes)
  | parsed (info : RegionInfo) (addr : Bytes)
  | tableNotFound
  | clientClosed
  | failed

inductive LookupRegion (setup : Setup) (table : Bytes) : Answer → Prop
  | special (addr : Bytes) (other : ¬setup.Ordinary table) :
      LookupRegion setup table (.special addr)
  | parsed {info : RegionInfo} (addr : Bytes) (ordinary : setup.Ordinary table)
      (same : fullyQualifiedTable info = table) : LookupRegion setup table (.parsed info addr)
  | tableNotFound (ordinary : setup.Ordinary table) : LookupRegion setup table .tableNotFound
  | clientClosed (ordinary : setup.Ordinary table) : LookupRegion setup table .clientClosed
  | failed : LookupRegion setup table .failed

structure Row where
  table : Bytes
  key : Bytes

inductive ResultError
  | notServingRegion
  | server
  | other
  deriving DecidableEq

inductive After
  | finish
  | retry (reg : RegionInfo)

inductive Next
  | finish
  | wait (row : Row) (reg : RegionInfo)
  | downs (others : Finset RegionInfo) (after : After)

inductive Release
  | finish
  | original (reg : RegionInfo)
  | connect (reg : RegionInfo) (addr : Bytes)

inductive Thread
  | getRegion (row : Row) (tries : Nat)
  | findRegion (row : Row) (tries : Nat)
  | markSpecial (row : Row) (addr : Bytes)
  | goSpecial (row : Row) (addr : Bytes)
  | markFound (row : Row) (tries : Nat) (info : RegionInfo) (addr : Bytes)
  | putFound (row : Row) (tries : Nat) (reg : RegionInfo) (addr : Bytes)
  | delFound (row : Row) (overlaps : List RegionInfo) (reg : RegionInfo) (addr : Bytes)
  | availability (again : Bool) (row : Row) (reg : RegionInfo)
  | await (again : Bool) (row : Row) (reg : RegionInfo) (ch : Nat)
  | checkDead (row : Row) (reg : RegionInfo)
  | readClient (again : Bool) (row : Row) (reg : RegionInfo)
  | markLost (row : Row) (reg : RegionInfo)
  | handleResultError (err : ResultError) (reg : RegionInfo) (rc : Conn)
  | clientDown (conn : Conn) (reg : RegionInfo) (after : After)
  | markDown (reg : RegionInfo) (others : Finset RegionInfo) (after : After)
  | resetClient (reg : RegionInfo) (others : Finset RegionInfo) (after : After)
  | start (reg : RegionInfo) (next : Next)
  | nextDown (others : Finset RegionInfo) (after : After)
  | reestablish (reg : RegionInfo)
  | establish (reg : RegionInfo) (addr : Option Bytes) (first : Bool)
  | lookup (reg : RegionInfo)
  | delRegion (reg : RegionInfo)
  | delClient (reg : RegionInfo)
  | looked (reg : RegionInfo) (answer : Answer)
  | markNew (original : RegionInfo) (answer : Answer)
  | putNew (original reg : RegionInfo) (addr : Bytes)
  | delNew (original reg : RegionInfo) (addr : Bytes) (overlaps : List RegionInfo)
  | connect (reg : RegionInfo) (addr : Bytes)
  | dial (reg : RegionInfo) (conn : Conn)
  | probe (reg : RegionInfo) (conn : Conn)
  | setClient (reg : RegionInfo) (conn : Conn)
  | markAvailable (reg : RegionInfo) (release : Release)
  | closeAll
  | closing (remaining : Multiset RegionInfo)
  | closingReset (reg : RegionInfo) (remaining : Multiset RegionInfo)
  | finished
  | panicked

def After.thread : After → Thread
  | .finish => .finished
  | .retry reg => .establish reg none false

def Next.thread : Next → Thread
  | .finish => .finished
  | .wait row reg => .availability true row reg
  | .downs others after => .nextDown others after

def Release.thread : Release → Thread
  | .finish => .finished
  | .original reg => .markAvailable reg .finish
  | .connect reg addr => .connect reg addr

def awake (reg : RegionInfo) : Option Bytes → Thread
  | some addr => .connect reg addr
  | none => .lookup reg

def waited (again : Bool) (row : Row) (reg : RegionInfo) : Thread :=
  if again then .checkDead row reg else .readClient false row reg

def maxFindRegionTries : Nat := 10

/-- `locked` says that `closeAll` holds the lock of the cache of clients, `assigned` are the
regions that were set on RPCs, and `runnable` are goroutines that were started with `go`. -/
structure Shared (T : Tree Bytes RegionInfo compare) where
  routes : Routes T
  done : Bool
  locked : Bool
  assigned : Finset RegionInfo
  runnable : Multiset Thread

namespace Shared

variable (sh : Shared T)

def go (t : Thread) : Shared T := { sh with runnable := t ::ₘ sh.runnable }

def assign (reg : RegionInfo) : Shared T := { sh with assigned := insert reg sh.assigned }

def update (routes : Routes T) : Shared T := { sh with routes := routes }

def cache (regions : KeyRegionCache T) : Shared T :=
  { sh with routes := { sh.routes with regions := regions } }

def setClient (reg : RegionInfo) (conn : Option Conn) : Shared T :=
  sh.update (sh.routes.setClient reg conn)

def listed : Multiset RegionInfo :=
  (sh.routes.clients.entries : Multiset (Σ _ : Conn, Finset RegionInfo)).bind
    fun entry => entry.2.val

end Shared

variable (setup : Setup)

/-- The steps of one goroutine. Each uses a region or a cache once, under its lock. An unknown
error of a lookup in `establishRegion` ends the process. -/
inductive Alone : Shared T → Thread → Unit → Shared T → Thread → Prop
  | cache_hit {sh : Shared T} {row : Row} {tries : Nat} {reg : RegionInfo}
      (hit : (setup.client sh.routes.regions).getRegionFromCache row.table row.key =
        .ok (some reg)) :
      Alone sh (.getRegion row (tries + 1)) () sh (.availability false row reg)
  | cache_miss {sh : Shared T} {row : Row} {tries : Nat}
      (miss : (setup.client sh.routes.regions).getRegionFromCache row.table row.key = .ok none) :
      Alone sh (.getRegion row (tries + 1)) () sh (.findRegion row tries)
  | tries_over {sh : Shared T} {row : Row} : Alone sh (.getRegion row 0) () sh .finished
  | findRegion_special {sh : Shared T} {row : Row} {tries : Nat} {addr : Bytes}
      (answer : LookupRegion setup row.table (.special addr)) :
      Alone sh (.findRegion row tries) () sh (.markSpecial row addr)
  | findRegion_parsed {sh : Shared T} {row : Row} {tries : Nat} {info : RegionInfo} {addr : Bytes}
      (answer : LookupRegion setup row.table (.parsed info addr)) :
      Alone sh (.findRegion row tries) () sh (.markFound row tries info addr)
  | findRegion_error {sh : Shared T} {row : Row} {tries : Nat} :
      Alone sh (.findRegion row tries) () sh .finished
  | markSpecial {sh : Shared T} {row : Row} {addr : Bytes} {routes : Routes T} {first : Bool}
      (marked : sh.routes.markUnavailable setup.special = (routes, first)) :
      Alone sh (.markSpecial row addr) () (sh.update routes) (.goSpecial row addr)
  | goSpecial {sh : Shared T} {row : Row} {addr : Bytes} :
      Alone sh (.goSpecial row addr) () (sh.go (.establish setup.special (some addr) true))
        (.availability false row setup.special)
  | markFound {sh : Shared T} {row : Row} {tries : Nat} {info : RegionInfo} {addr : Bytes}
      {routes : Routes T} {first : Bool} (fresh : sh.routes.Pristine info)
      (marked : sh.routes.markUnavailable info = (routes, first)) :
      Alone sh (.markFound row tries info addr) () (sh.update routes)
        (.putFound row tries info addr)
  | putFound_kept {sh : Shared T} {row : Row} {tries : Nat} {reg : RegionInfo} {addr : Bytes}
      {regions : KeyRegionCache T} {overlaps : List RegionInfo}
      (put : sh.routes.regions.put reg = .ok (regions, overlaps, false)) :
      Alone sh (.putFound row tries reg addr) () (sh.cache regions) (.getRegion row tries)
  | putFound_replaced {sh : Shared T} {row : Row} {tries : Nat} {reg : RegionInfo} {addr : Bytes}
      {regions : KeyRegionCache T} {overlaps : List RegionInfo}
      (put : sh.routes.regions.put reg = .ok (regions, overlaps, true)) :
      Alone sh (.putFound row tries reg addr) () (sh.cache regions)
        (.delFound row overlaps reg addr)
  | delFound_next {sh : Shared T} {row : Row} {overlap : RegionInfo} {overlaps : List RegionInfo}
      {reg : RegionInfo} {addr : Bytes} (free : sh.locked = false) :
      Alone sh (.delFound row (overlap :: overlaps) reg addr) ()
        (sh.update (sh.routes.delClient overlap)) (.delFound row overlaps reg addr)
  | delFound_done {sh : Shared T} {row : Row} {reg : RegionInfo} {addr : Bytes} :
      Alone sh (.delFound row [] reg addr) () (sh.go (.establish reg (some addr) true))
        (.availability false row reg)
  | availability_nil {sh : Shared T} {again : Bool} {row : Row} {reg : RegionInfo}
      (nil : sh.routes.available.lookup reg = none) :
      Alone sh (.availability again row reg) () sh (waited again row reg)
  | availability_chan {sh : Shared T} {again : Bool} {row : Row} {reg : RegionInfo} {ch : Nat}
      (chan : sh.routes.available.lookup reg = some ch) :
      Alone sh (.availability again row reg) () sh (.await again row reg ch)
  | await_cancelled {sh : Shared T} {again : Bool} {row : Row} {reg : RegionInfo} {ch : Nat} :
      Alone sh (.await again row reg ch) () sh .finished
  | await_done {sh : Shared T} {again : Bool} {row : Row} {reg : RegionInfo} {ch : Nat}
      (closed : sh.done = true) : Alone sh (.await again row reg ch) () sh .finished
  | await_closed {sh : Shared T} {again : Bool} {row : Row} {reg : RegionInfo} {ch : Nat}
      (closed : ch ∈ sh.routes.closed) :
      Alone sh (.await again row reg ch) () sh (waited again row reg)
  | checkDead {sh : Shared T} {row : Row} {reg : RegionInfo} :
      Alone sh (.checkDead row reg) () sh
        (if sh.routes.isDead reg then .getRegion row maxFindRegionTries
        else .readClient true row reg)
  | readClient_found {sh : Shared T} {again : Bool} {row : Row} {reg : RegionInfo} {conn : Conn}
      (found : sh.routes.client reg = some conn) :
      Alone sh (.readClient again row reg) () (sh.assign reg) .finished
  | readClient_nil {sh : Shared T} {again : Bool} {row : Row} {reg : RegionInfo}
      (nil : sh.routes.client reg = none) :
      Alone sh (.readClient again row reg) () sh
        (if again then .getRegion row maxFindRegionTries else .markLost row reg)
  | markLost {sh : Shared T} {row : Row} {reg : RegionInfo} {routes : Routes T} {first : Bool}
      (marked : sh.routes.markUnavailable reg = (routes, first)) :
      Alone sh (.markLost row reg) () (sh.update routes)
        (if first then .start reg (.wait row reg) else .availability true row reg)
  | handle_reestablish {sh : Shared T} {err : ResultError} {reg : RegionInfo} {rc : Conn}
      {routes : Routes T} {first : Bool}
      (kind : err = .notServingRegion ∨ err = .server ∧ setup.IsAdmin reg)
      (marked : sh.routes.markUnavailable reg = (routes, first)) :
      Alone sh (.handleResultError err reg rc) () (sh.update routes)
        (if first then .start reg .finish else .finished)
  | handle_server {sh : Shared T} {reg : RegionInfo} {rc : Conn} (other : ¬setup.IsAdmin reg) :
      Alone sh (.handleResultError .server reg rc) () sh (.clientDown rc reg .finish)
  | handle_other {sh : Shared T} {reg : RegionInfo} {rc : Conn} :
      Alone sh (.handleResultError .other reg rc) () sh .finished
  | clientDown {sh : Shared T} {conn : Conn} {reg : RegionInfo} {after : After}
      {routes : Routes T} {downregions : Finset RegionInfo} (free : sh.locked = false)
      (down : sh.routes.clientDown conn = (routes, downregions)) :
      Alone sh (.clientDown conn reg after) () (sh.update routes)
        (.markDown reg (downregions.erase reg) after)
  | markDown {sh : Shared T} {reg : RegionInfo} {others : Finset RegionInfo} {after : After}
      {routes : Routes T} {first : Bool}
      (marked : sh.routes.markUnavailable reg = (routes, first)) :
      Alone sh (.markDown reg others after) () (sh.update routes)
        (if first then .resetClient reg others after else .nextDown others after)
  | resetClient {sh : Shared T} {reg : RegionInfo} {others : Finset RegionInfo} {after : After} :
      Alone sh (.resetClient reg others after) () (sh.setClient reg none)
        (.start reg (.downs others after))
  | start {sh : Shared T} {reg : RegionInfo} {next : Next} :
      Alone sh (.start reg next) () (sh.go (.reestablish reg)) next.thread
  | nextDown {sh : Shared T} {reg : RegionInfo} {others : Finset RegionInfo} {after : After}
      (member : reg ∈ others) :
      Alone sh (.nextDown others after) () sh (.markDown reg (others.erase reg) after)
  | nextDown_done {sh : Shared T} {after : After} :
      Alone sh (.nextDown ∅ after) () sh after.thread
  | reestablish_closed {sh : Shared T} {reg : RegionInfo} (closed : sh.done = true) :
      Alone sh (.reestablish reg) () sh .finished
  | reestablish {sh : Shared T} {reg : RegionInfo} (opened : sh.done = false) :
      Alone sh (.reestablish reg) () sh (.establish reg none true)
  | sleep {sh : Shared T} {reg : RegionInfo} {addr : Option Bytes} {first : Bool} :
      Alone sh (.establish reg addr first) () sh (awake reg addr)
  | sleep_dead {sh : Shared T} {reg : RegionInfo} {addr : Option Bytes}
      (dead : sh.routes.isDead reg = true) :
      Alone sh (.establish reg addr false) () sh (.markAvailable reg .finish)
  | lookup_missing {sh : Shared T} {reg : RegionInfo}
      (answer : LookupRegion setup (fullyQualifiedTable reg) .tableNotFound) :
      Alone sh (.lookup reg) () sh (.delRegion reg)
  | lookup {sh : Shared T} {reg : RegionInfo} {answer : Answer}
      (looked : LookupRegion setup (fullyQualifiedTable reg) answer)
      (other : answer ≠ .tableNotFound) : Alone sh (.lookup reg) () sh (.looked reg answer)
  | delRegion {sh : Shared T} {reg : RegionInfo} {regions : KeyRegionCache T} {success : Bool}
      (del : sh.routes.regions.del reg = .ok (regions, success)) :
      Alone sh (.delRegion reg) () (sh.cache regions) (.delClient reg)
  | delClient {sh : Shared T} {reg : RegionInfo} (free : sh.locked = false) :
      Alone sh (.delClient reg) () (sh.update (sh.routes.delClient reg))
        (.markAvailable reg .finish)
  | looked_dead {sh : Shared T} {reg : RegionInfo} {answer : Answer}
      (dead : sh.routes.isDead reg = true) :
      Alone sh (.looked reg answer) () sh (.markAvailable reg .finish)
  | looked_closed {sh : Shared T} {reg : RegionInfo} (alive : sh.routes.isDead reg = false) :
      Alone sh (.looked reg .clientClosed) () sh .finished
  | looked_special {sh : Shared T} {reg : RegionInfo} {addr : Bytes}
      (alive : sh.routes.isDead reg = false) :
      Alone sh (.looked reg (.special addr)) () sh
        (if setup.special.name ≠ reg.name then .markNew reg (.special addr)
        else .connect reg addr)
  | looked_parsed {sh : Shared T} {reg info : RegionInfo} {addr : Bytes}
      (alive : sh.routes.isDead reg = false) :
      Alone sh (.looked reg (.parsed info addr)) () sh
        (if info.name ≠ reg.name then .markNew reg (.parsed info addr) else .connect reg addr)
  | markNew_special {sh : Shared T} {original : RegionInfo} {addr : Bytes} {routes : Routes T}
      {first : Bool} (marked : sh.routes.markUnavailable setup.special = (routes, first)) :
      Alone sh (.markNew original (.special addr)) () (sh.update routes)
        (.putNew original setup.special addr)
  | markNew {sh : Shared T} {original info : RegionInfo} {addr : Bytes} {routes : Routes T}
      {first : Bool} (fresh : sh.routes.Pristine info)
      (marked : sh.routes.markUnavailable info = (routes, first)) :
      Alone sh (.markNew original (.parsed info addr)) () (sh.update routes)
        (.putNew original info addr)
  | putNew_kept {sh : Shared T} {original reg : RegionInfo} {addr : Bytes}
      {regions : KeyRegionCache T} {overlaps : List RegionInfo}
      (put : sh.routes.regions.put reg = .ok (regions, overlaps, false)) :
      Alone sh (.putNew original reg addr) () (sh.cache regions)
        (.markAvailable reg (.original original))
  | putNew_replaced {sh : Shared T} {original reg : RegionInfo} {addr : Bytes}
      {regions : KeyRegionCache T} {overlaps : List RegionInfo}
      (put : sh.routes.regions.put reg = .ok (regions, overlaps, true)) :
      Alone sh (.putNew original reg addr) () (sh.cache regions)
        (.delNew original reg addr overlaps)
  | delNew_next {sh : Shared T} {original reg overlap : RegionInfo} {addr : Bytes}
      {overlaps : List RegionInfo} (free : sh.locked = false) :
      Alone sh (.delNew original reg addr (overlap :: overlaps)) ()
        (sh.update (sh.routes.delClient overlap)) (.delNew original reg addr overlaps)
  | delNew_done {sh : Shared T} {original reg : RegionInfo} {addr : Bytes} :
      Alone sh (.delNew original reg addr []) () sh (.markAvailable original (.connect reg addr))
  | connect_admin {sh : Shared T} {reg : RegionInfo} {addr : Bytes} (admin : setup.IsAdmin reg) :
      Alone sh (.connect reg addr) () (sh.update { sh.routes with conns := sh.routes.conns + 1 })
        (.dial reg ⟨sh.routes.conns, addr⟩)
  | connect {sh : Shared T} {reg : RegionInfo} {addr : Bytes} {routes : Routes T} {conn : Conn}
      {order : Order (Σ _ : Conn, Finset RegionInfo)} (other : ¬setup.IsAdmin reg)
      (free : sh.locked = false) (put : sh.routes.putClient order addr reg = (routes, conn)) :
      Alone sh (.connect reg addr) () (sh.update routes) (.dial reg conn)
  | dial_admin {sh : Shared T} {reg : RegionInfo} {conn : Conn} (admin : setup.IsAdmin reg) :
      Alone sh (.dial reg conn) () sh (.setClient reg conn)
  | dial {sh : Shared T} {reg : RegionInfo} {conn : Conn} (other : ¬setup.IsAdmin reg) :
      Alone sh (.dial reg conn) () sh (.probe reg conn)
  | dial_cancelled {sh : Shared T} {reg : RegionInfo} {conn : Conn} :
      Alone sh (.dial reg conn) () sh (.markAvailable reg .finish)
  | dial_failed {sh : Shared T} {reg : RegionInfo} {conn : Conn} :
      Alone sh (.dial reg conn) () sh (.clientDown conn reg (.retry reg))
  | probe {sh : Shared T} {reg : RegionInfo} {conn : Conn} :
      Alone sh (.probe reg conn) () sh (.setClient reg conn)
  | probe_server {sh : Shared T} {reg : RegionInfo} {conn : Conn} :
      Alone sh (.probe reg conn) () sh (.clientDown conn reg (.retry reg))
  | probe_retry {sh : Shared T} {reg : RegionInfo} {conn : Conn} :
      Alone sh (.probe reg conn) () sh (.establish reg none false)
  | setClient {sh : Shared T} {reg : RegionInfo} {conn : Conn} :
      Alone sh (.setClient reg conn) () (sh.setClient reg (some conn)) (.markAvailable reg .finish)
  | markAvailable {sh : Shared T} {reg : RegionInfo} {release : Release} {routes : Routes T}
      (released : sh.routes.markAvailable reg = .ok routes) :
      Alone sh (.markAvailable reg release) () (sh.update routes) release.thread
  | markAvailable_panic {sh : Shared T} {reg : RegionInfo} {release : Release} {abort : Abort}
      (panic : sh.routes.markAvailable reg = .error abort) :
      Alone sh (.markAvailable reg release) () sh .panicked
  | closeAll {sh : Shared T} (free : sh.locked = false) :
      Alone sh .closeAll () { sh with locked := true } (.closing sh.listed)
  | closing {sh : Shared T} {reg : RegionInfo} {remaining : Multiset RegionInfo}
      {routes : Routes T} {first : Bool}
      (marked : sh.routes.markUnavailable reg = (routes, first)) :
      Alone sh (.closing (reg ::ₘ remaining)) () (sh.update routes) (.closingReset reg remaining)
  | closingReset {sh : Shared T} {reg : RegionInfo} {remaining : Multiset RegionInfo} :
      Alone sh (.closingReset reg remaining) () (sh.setClient reg none) (.closing remaining)
  | closing_done {sh : Shared T} :
      Alone sh (.closing 0) () { sh with locked := false } .finished

/-- New RPCs, errors of RPCs whose region was set, and `Close` start at any time, and a goroutine
that was started with `go` runs at some time. -/
inductive Spawn : Shared T → Unit → Shared T → Thread → Prop
  | getRegionAndClientForRPC {sh : Shared T} (row : Row) :
      Spawn sh () sh (.getRegion row maxFindRegionTries)
  | handleResultError {sh : Shared T} (err : ResultError) {reg : RegionInfo} (rc : Conn)
      (set : reg ∈ sh.assigned) : Spawn sh () sh (.handleResultError err reg rc)
  | closeAll {sh : Shared T} : Spawn sh () sh .closeAll
  | goroutine {sh : Shared T} {t : Thread} {others : Multiset Thread}
      (started : sh.runnable = t ::ₘ others) : Spawn sh () { sh with runnable := others } t

inductive Outside : Shared T → Unit → Shared T → Prop
  | close {sh : Shared T} : Outside sh () { sh with done := true }

def routing (T : Tree Bytes RegionInfo compare) : System (Shared T) Thread Unit where
  alone := Alone setup
  meet := fun _ _ _ _ _ _ _ => False
  spawn := Spawn
  outside := Outside

def started (T : Tree Bytes RegionInfo compare) : Config (Shared T) Thread where
  shared := {
    routes := .new T
    done := false
    locked := false
    assigned := ∅
    runnable := 0 }
  threads := 0

end Routing

end GoHBase
