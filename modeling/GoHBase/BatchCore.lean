import GoHBase.Lib.ByteString
import GoHBase.Lib.Grouping
import GoHBase.Lib.RangeLoop

/-! `SendBatch`: the checks, the grouping by region client, and the goroutine that collects
the results group by group while the region clients deliver and the context may be cancelled.
The handling of an error that was read changes no result and is left out here. -/

namespace GoHBase

open ByteString RangeLoop Grouping

inductive BatchError (E : Type)
  | duplicate (index : Nat)
  | multipleTables (first other : Bytes)
  | nonBatchable
  | notExecuted
  | foreign (err : E)

structure BatchResult (M E : Type) where
  msg : Option M
  error : Option (BatchError E)

/-- What `SendBatch` asks of a call. Calls are compared as pointers. -/
structure BatchCalls (C : Type) where
  table : C → Bytes
  batchable : C → Bool

section Checks

variable {C M E : Type} [DecidableEq C] (calls : BatchCalls C)

structure Checked (C M E : Type) where
  res : List (BatchResult M E)
  rpcToRes : AList fun _ : C => Nat
  allOK : Bool

/-- The body of the first loop of `SendBatch` for the call at index `i`. -/
def Checked.add (table : Bytes) (state : Checked C M E) (i : Nat) (rpc : C) : Checked C M E :=
  match state.rpcToRes.lookup rpc with
  | some j => { state with res := state.res ++ [⟨none, some (.duplicate j)⟩], allOK := false }
  | none =>
      let rpcToRes := state.rpcToRes.insert rpc i
      if calls.table rpc ≠ table then
        ⟨state.res ++ [⟨none, some (.multipleTables table (calls.table rpc))⟩], rpcToRes, false⟩
      else if calls.batchable rpc = false then
        ⟨state.res ++ [⟨none, some .nonBatchable⟩], rpcToRes, false⟩
      else ⟨state.res ++ [⟨none, some .notExecuted⟩], rpcToRes, state.allOK⟩

/-- The first loop of `SendBatch` from index `i` on. -/
def checkCalls (table : Bytes) : Nat → List C → Checked C M E → Checked C M E
  | _, [], state => state
  | i, rpc :: rpcs, state => checkCalls table (i + 1) rpcs (state.add calls table i rpc)

end Checks

section Clients

variable {C K M E : Type} [DecidableEq K]

def BatchResult.setError (err : BatchError E) (entry : BatchResult M E) : BatchResult M E :=
  { entry with error := some err }

abbrev RpcByClient (C K : Type) := AList fun _ : K => List C

structure Found (C K M E : Type) where
  res : List (BatchResult M E)
  rpcByClient : RpcByClient C K
  ok : Bool

def Found.add (state : Found C K M E) (i : Nat) (rpc : C) : Except E K → Found C K M E
  | .error err => { state with res := state.res.modify i (.setError (.foreign err)), ok := false }
  | .ok rc =>
      let rpcByClient :=
        accumulate Prod.fst [] (fun rpcs entry => rpcs ++ [entry.2]) state.rpcByClient (rc, rpc)
      { state with rpcByClient := rpcByClient }

/-- The loop of `findClients` from index `i` on; `located` is what `getRegionAndClientForRPC`
returns for each index. -/
def findClients (located : Nat → Except E K) : Nat → List C → Found C K M E → Found C K M E
  | _, [], state => state
  | i, rpc :: rpcs, state => findClients located (i + 1) rpcs (state.add i rpc (located i))

end Clients

section Waiting

variable {C K M E : Type} [DecidableEq C]

/-- The state of `SendBatch` and of what it waits for. `groups` starts with the group that
`waitForCompletion` is at, and `sweeping` says that it is in its second loop. `delivered` and
`taken` are what was put on the channels and read from them so far. -/
structure Collecting (C K M E : Type) where
  channel : C → Option (BatchResult M E)
  delivered : List (C × BatchResult M E)
  taken : List (C × BatchResult M E)
  ctxErr : Option E
  res : List (BatchResult M E)
  groups : List (K × List C)
  sweeping : Bool
  ok : Bool
  fail : Bool

/-- A region client delivers a result, one for each call at most, or the context is cancelled. -/
inductive Environment : Collecting C K M E → Collecting C K M E → Prop
  | deliver {s : Collecting C K M E} (rpc : C) (res : BatchResult M E)
      (first : rpc ∉ s.delivered.map Prod.fst) :
      Environment s { s with
        channel := Function.update s.channel rpc (some res)
        delivered := s.delivered ++ [(rpc, res)] }
  | cancel {s : Collecting C K M E} (err : E) (alive : s.ctxErr = none) :
      Environment s { s with ctxErr := some err }

variable (rpcToRes : AList fun _ : C => Nat)

def resultIndex (rpc : C) : Nat := (rpcToRes.lookup rpc).getD 0

/-- The steps of `waitForCompletion`, one for each select and one for its return. -/
inductive Collect : Collecting C K M E → Collecting C K M E → Prop
  | read {s : Collecting C K M E} {rc : K} {rpc : C} {rpcs : List C} {groups : List (K × List C)}
      {res : BatchResult M E} (current : s.groups = (rc, rpc :: rpcs) :: groups)
      (ready : s.channel rpc = some res) :
      Collect s { s with
        channel := Function.update s.channel rpc none
        taken := s.taken ++ [(rpc, res)]
        res := s.res.set (resultIndex rpcToRes rpc) res
        groups := (rc, rpcs) :: groups
        ok := if s.sweeping then s.ok else s.ok && res.error.isNone }
  | cancelled {s : Collecting C K M E} {rc : K} {rpc : C} {rpcs : List C}
      {groups : List (K × List C)} (current : s.groups = (rc, rpc :: rpcs) :: groups)
      (looping : s.sweeping = false) (done : s.ctxErr ≠ none) :
      Collect s { s with sweeping := true, ok := false }
  | default {s : Collecting C K M E} {rc : K} {rpc : C} {rpcs : List C}
      {groups : List (K × List C)} (current : s.groups = (rc, rpc :: rpcs) :: groups)
      (sweeping : s.sweeping = true) (empty : s.channel rpc = none) :
      Collect s { s with
        res := s.res.modify (resultIndex rpcToRes rpc) fun entry =>
          { entry with error := s.ctxErr.map .foreign }
        groups := (rc, rpcs) :: groups }
  | completed {s : Collecting C K M E} {rc : K} {groups : List (K × List C)}
      (current : s.groups = (rc, []) :: groups) :
      Collect s { s with
        groups := groups
        sweeping := false
        ok := true
        fail := s.fail || !s.ok }

end Waiting

section SendBatch

variable {C K M E : Type} [DecidableEq C] [DecidableEq K] (calls : BatchCalls C)

def checkBatch (batch : List C) : Checked C M E :=
  checkCalls calls (batch.head?.elim [] calls.table) 0 batch ⟨[], ∅, true⟩

def queued (found : Found C K M E) (order : Order (Σ _ : K, List C)) : Collecting C K M E where
  channel := fun _ => none
  delivered := []
  taken := []
  ctxErr := none
  res := found.res
  groups := (order.visit found.rpcByClient.entries).map fun entry => (entry.1, entry.2)
  sweeping := false
  ok := true
  fail := false

/-- The states of a `SendBatch` whose checks and lookups succeed, from the start of its waiting
on. What happened to the channels and the context before is part of it. -/
def Waits (located : Nat → Except E K) (order : Order (Σ _ : K, List C)) (batch : List C)
    (s : Collecting C K M E) : Prop :=
  let checked := checkBatch calls batch
  let found := findClients located 0 batch ⟨checked.res, ∅, true⟩
  batch ≠ [] ∧ checked.allOK = true ∧ found.ok = true ∧
    Relation.ReflTransGen (fun s s' => Environment s s' ∨ Collect checked.rpcToRes s s')
      (queued found order) s

/-- The calls of `QueueBatch` that `SendBatch` makes, in order: none if it returns before. -/
def queueBatches (M : Type) (located : Nat → Except E K) (order : Order (Σ _ : K, List C))
    (batch : List C) : List (K × List C) :=
  let checked : Checked C M E := checkBatch calls batch
  if batch = [] ∨ checked.allOK = false then []
  else
    let found : Found C K M E := findClients located 0 batch ⟨checked.res, ∅, true⟩
    if found.ok = false then [] else (queued found order).groups

inductive SendBatch (located : Nat → Except E K) (order : Order (Σ _ : K, List C))
    (batch : List C) :
    List (BatchResult M E) → Bool → List (C × BatchResult M E) → Option E → Prop
  | empty (nothing : batch = []) : SendBatch located order batch [] true [] .none
  | rejected {checked : Checked C M E} (nonempty : batch ≠ [])
      (checks : checkBatch calls batch = checked) (bad : checked.allOK = false) :
      SendBatch located order batch checked.res false [] .none
  | unresolved {checked : Checked C M E} {found : Found C K M E} (nonempty : batch ≠ [])
      (checks : checkBatch calls batch = checked) (good : checked.allOK = true)
      (lookups : findClients located 0 batch ⟨checked.res, ∅, true⟩ = found)
      (bad : found.ok = false) : SendBatch located order batch found.res false [] .none
  | collected {s : Collecting C K M E} (waits : Waits calls located order batch s)
      (finished : s.groups = []) :
      SendBatch located order batch s.res (!s.fail) s.taken s.ctxErr

end SendBatch

end GoHBase
