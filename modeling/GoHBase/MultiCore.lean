import GoHBase.MutateCore

/-! Batches of Get and Mutate calls: one MultiRequest groups them by region, and
the actions of its response are handed back to the calls. -/

namespace GoHBase

open ByteString Runtime Buffer RangeLoop

/-- Go's `int`: a caller may pass any number. -/
abbrev ConsistencyType := Int

def defaultConsistency : ConsistencyType := 0

def strongConsistency : ConsistencyType := 1

def timelineConsistency : ConsistencyType := 2

inductive Consistency
  | strong
  | timeline
  deriving DecidableEq, Repr

def ConsistencyType.toProto (c : ConsistencyType) : Go Consistency :=
  if c = timelineConsistency then .ok .timeline
  else if c = strongConsistency then .ok .strong
  else if c = defaultConsistency then .error (.panic "default consistency depends on context")
  else .error (.panic "invalid value for ConsistencyType")

structure PbFilter where
  name : String
  serializedFilter : Bytes
  deriving DecidableEq, Repr

abbrev FamiliesMap := AList fun _ : Bytes => List Bytes

structure Get where
  key : Bytes
  region : Option RegionInfo
  families : FamiliesMap
  filter : Option PbFilter
  fromTimestamp : UInt64
  toTimestamp : UInt64
  maxVersions : UInt32
  storeLimit : UInt32
  storeOffset : UInt32
  cacheBlocks : Bool
  consistency : ConsistencyType
  existsOnly : Bool

structure Column where
  family : Bytes
  qualifier : List Bytes
  deriving DecidableEq, Repr

structure TimeRange where
  lower : Option UInt64
  upper : Option UInt64
  deriving DecidableEq, Repr

structure PbGet where
  row : Bytes
  column : List Column
  filter : Option PbFilter
  timeRange : TimeRange
  maxVersions : Option UInt32
  cacheBlocks : Option Bool
  storeLimit : Option UInt32
  storeOffset : Option UInt32
  existenceOnly : Option Bool
  consistency : Option Consistency
  deriving DecidableEq, Repr

structure GetRequest where
  region : RegionSpecifier
  get : PbGet
  deriving DecidableEq, Repr

def defaultMaxResultsPerColumnFamily : UInt32 := 0x7fffffff

def defaultMaxVersions : UInt32 := 1

def minTimestamp : UInt64 := 0

def defaultCacheBlocks : Bool := true

def familiesToColumn (order : Order (Σ _ : Bytes, List Bytes)) (families : FamiliesMap) :
    List Column :=
  (order.visit families.entries).map fun ⟨family, qualifiers⟩ => ⟨family, qualifiers⟩

def consistencyField (c : ConsistencyType) : Go (Option Consistency) :=
  if c ≠ defaultConsistency then do
    let level ← ConsistencyType.toProto c
    pure (some level)
  else pure none

def Get.toProto (g : Get) (order : Order (Σ _ : Bytes, List Bytes)) : Go GetRequest := do
  let region ← regionSpecifier g.region
  let consistency ← consistencyField g.consistency
  pure {
    region := region
    get := {
      row := g.key
      column := familiesToColumn order g.families
      filter := g.filter
      timeRange := {
        lower := if g.fromTimestamp ≠ minTimestamp then some g.fromTimestamp else none
        upper := if g.toTimestamp ≠ maxTimestamp then some g.toTimestamp else none
      }
      maxVersions := if g.maxVersions ≠ defaultMaxVersions then some g.maxVersions else none
      cacheBlocks := if g.cacheBlocks ≠ defaultCacheBlocks then some g.cacheBlocks else none
      storeLimit :=
        if g.storeLimit ≠ defaultMaxResultsPerColumnFamily then some g.storeLimit else none
      storeOffset := if g.storeOffset ≠ 0 then some g.storeOffset else none
      existenceOnly := if g.existsOnly then some true else none
      consistency := consistency
    }
  }

inductive Rpc
  | get (g : Get)
  | mutate (m : Mutate)

/-- A batched call. `ref` is the identity of the object, and of its result channel. -/
structure Call where
  ref : Nat
  rpc : Rpc

def Call.region (c : Call) : Option RegionInfo :=
  match c.rpc with
  | .get g => g.region
  | .mutate m => m.region

inductive Request
  | get (request : GetRequest)
  | mutate (request : MutateRequest)

structure CallOrders where
  columns : Order (Σ _ : Bytes, List Bytes)
  mutate : MutateOrders

/-- Only mutations can leave their cells out of the message. -/
def Call.serialize (c : Call) (isCellblocks : Bool) (orders : CallOrders)
    (cellblocks : List Bytes) : Go (Request × List Bytes × UInt32) :=
  match c.rpc with
  | .get g => do
      let msg ← g.toProto orders.columns
      pure (.get msg, cellblocks, 0)
  | .mutate m =>
      if isCellblocks then do
        let (msg, cellblocks, sz) ← m.serializeCellBlocks orders.mutate cellblocks
        pure (.mutate msg, cellblocks, sz)
      else do
        let msg ← m.toProtoMessage orders.mutate
        pure (.mutate msg, cellblocks, 0)

structure Action where
  index : Option UInt32
  mutation : Option MutationProto
  get : Option PbGet
  deriving DecidableEq, Repr

def Request.action (index : UInt32) : Request → Action
  | .get r => { index := some index, mutation := none, get := some r.get }
  | .mutate r => { index := some index, mutation := some r.mutation, get := none }

structure Actions where
  pbs : List Action
  cellblocks : List Bytes

structure RegionAction where
  region : RegionSpecifier
  action : List Action
  deriving DecidableEq, Repr

abbrev MultiRequest := List RegionAction

/-- `calls` has nil in the place of a call that expired before it was sent. -/
structure Multi where
  size : Nat
  calls : List (Option Call)
  regions : List (Option RegionInfo)

abbrev ActionsPerReg := AList fun _ : Option RegionInfo => Actions

structure Aggregate where
  calls : List (Option Call)
  actionsPerReg : ActionsPerReg
  size : UInt32

/-- The body of the loop over the calls for a call that is still wanted. -/
def Aggregate.addCall (state : Aggregate) (isCellblocks : Bool) (orders : CallOrders) (i : Nat)
    (c : Call) : Go Aggregate := do
  let as := (state.actionsPerReg.lookup c.region).getD ⟨[], []⟩
  let (msg, cellblocks, sz) ← c.serialize isCellblocks orders as.cellblocks
  let a := msg.action (UInt32.ofNat i + 1)
  pure {
    calls := state.calls ++ [some c]
    actionsPerReg := state.actionsPerReg.insert c.region ⟨as.pbs ++ [a], cellblocks⟩
    size := state.size + sz
  }

def aggregate (isCellblocks : Bool) (expired : Nat → Bool) (orders : Nat → CallOrders) :
    Nat → List (Option Call) → Aggregate → Go Aggregate
  | _, [], state => pure state
  | _, none :: _, _ => .error (.panic "invalid memory address or nil pointer dereference")
  | i, some c :: calls, state =>
      if expired i then
        aggregate isCellblocks expired orders (i + 1) calls
          { state with calls := state.calls ++ [none] }
      else do
        let state ← state.addCall isCellblocks (orders i) i c
        aggregate isCellblocks expired orders (i + 1) calls state

/-- The loop over the regions. The loop before it, which only grows the capacity
of `cbs`, has no effect here. -/
def buildRegionActions :
    List (Σ _ : Option RegionInfo, Actions) → List Bytes → Go (MultiRequest × List Bytes)
  | [], cbs => pure ([], cbs)
  | ⟨r, as⟩ :: entries, cbs => do
      let region ← regionSpecifier r
      let (ra, cbs) ← buildRegionActions entries (cbs ++ as.cellblocks)
      pure (⟨region, as.pbs⟩ :: ra, cbs)

structure MultiRun where
  expired : Nat → Bool
  orders : Nat → CallOrders
  regions : Order (Σ _ : Option RegionInfo, Actions)

def Multi.toProto (m : Multi) (isCellblocks : Bool) (run : MultiRun) (cbs : List Bytes) :
    Go (Multi × MultiRequest × List Bytes × UInt32) := do
  let state ← aggregate isCellblocks run.expired run.orders 0 m.calls ⟨[], ∅, 0⟩
  let entries := run.regions.visit state.actionsPerReg.entries
  let (ra, cbs) ← buildRegionActions entries cbs
  pure ({ m with calls := state.calls, regions := entries.map Sigma.fst }, ra, cbs, state.size)

def Multi.serializeCellBlocks (m : Multi) (run : MultiRun) (cbs : List Bytes) :
    Go (Multi × MultiRequest × List Bytes × UInt32) :=
  m.toProto true run cbs

structure ResultOrException where
  index : Option UInt32
  result : Option PbResult
  exception : Option NameBytesPair
  deriving DecidableEq, Repr

structure RegionActionResult where
  resultOrException : List ResultOrException
  exception : Option NameBytesPair
  deriving DecidableEq, Repr

abbrev MultiResponse := List RegionActionResult

inductive ErrorKind
  | retryable
  | notServingRegion
  | server
  | plain
  deriving DecidableEq, Repr

structure RpcError where
  kind : ErrorKind
  text : String
  stack : Bytes
  deriving DecidableEq, Repr

def javaRetryableExceptions : List (String × String) :=
  [("org.apache.hadoop.hbase.CallQueueTooBigException", ""),
    ("org.apache.hadoop.hbase.exceptions.RegionOpeningException", ""),
    ("org.apache.hadoop.hbase.ipc.ServerNotRunningYetException", ""),
    ("org.apache.hadoop.hbase.quotas.RpcThrottlingException", ""),
    ("org.apache.hadoop.hbase.RetryImmediatelyException", ""),
    ("org.apache.hadoop.hbase.RegionTooBusyException", "")]

def javaRegionExceptions : List (String × String) :=
  [("org.apache.hadoop.hbase.NotServingRegionException", ""),
    ("org.apache.hadoop.hbase.exceptions.RegionMovedException", ""),
    ("java.io.IOException", "Cannot append; log is closed")]

def javaServerExceptions : List (String × String) :=
  [("org.apache.hadoop.hbase.regionserver.RegionServerAbortedException", ""),
    ("org.apache.hadoop.hbase.regionserver.RegionServerStoppedException", "")]

def listed (table : List (String × String)) (cls : String) (stack : Bytes) : Bool :=
  match table.lookup cls with
  | none => false
  | some text => decide (text.toUTF8.toList <:+: stack)

def exceptionToError (cls : String) (stack : Bytes) : RpcError :=
  let text := s!"HBase Java exception {cls}:\n"
  if listed javaRetryableExceptions cls stack then ⟨.retryable, text, stack⟩
  else if listed javaRegionExceptions cls stack then ⟨.notServingRegion, text, stack⟩
  else if listed javaServerExceptions cls stack then ⟨.server, text, stack⟩
  else ⟨.plain, text, stack⟩

inductive Response
  | get (result : Option PbResult)
  | mutate (result : Option PbResult)
  deriving DecidableEq, Repr

inductive RPCResult
  | message (response : Response)
  | error (err : RpcError)
  deriving DecidableEq, Repr

abbrev Delivery := Call × RPCResult

def Call.respond (c : Call) (r : Option PbResult) : Response :=
  match c.rpc with
  | .get _ => .get r
  | .mutate _ => .mutate r

/-- `get`: indices start from 1, and a call that has expired is nil. -/
def Multi.get (m : Multi) (i : UInt32) : Go (Option Call) :=
  if i = 0 then .error (.panic "index cannot be 0") else index m.calls (i - 1).toNat

def Multi.returnAction (m : Multi) (roe : ResultOrException) : Go Delivery := do
  let c ← deref (← m.get (roe.index.getD 0))
  match roe.exception with
  | some e => pure (c, .error (exceptionToError e.name e.value))
  | none => pure (c, .message (c.respond roe.result))

def failCalls (calls : List (Option Call)) (accept : Call → Bool) (err : RpcError) :
    List Delivery :=
  (calls.filterMap id |>.filter accept).map fun c => (c, .error err)

def Multi.returnRegion (m : Multi) (i : Nat) (rar : RegionActionResult) : Go (List Delivery) :=
  match rar.exception with
  | some e => do
      let reg ← index m.regions i
      pure (failCalls m.calls (fun c => decide (c.region = reg)) (exceptionToError e.name e.value))
  | none => rar.resultOrException.mapM m.returnAction

def Multi.returnRegions (m : Multi) : Nat → MultiResponse → Go (List Delivery)
  | _, [] => pure []
  | i, rar :: rest => do
      let first ← m.returnRegion i rar
      let later ← m.returnRegions (i + 1) rest
      pure (first ++ later)

/-- `returnResults`: what is put on the channels of the calls, in order. -/
def Multi.returnResults (m : Multi) (msg : Option MultiResponse) (err : Option RpcError) :
    Go (List Delivery) :=
  match err with
  | some err => pure (failCalls m.calls (fun _ => true) err)
  | none =>
      match msg with
      | none => .error (.panic "interface conversion: interface is nil, not *pb.MultiResponse")
      | some mr => m.returnRegions 0 mr

end GoHBase
