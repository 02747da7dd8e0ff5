import GoHBase.Lib.Interleaving

/-!
The region client: goroutines that queue, batch, send, receive and fail RPCs,
over the state they share. A call is a fresh submission each time it is handed
to `QueueRPC` or `QueueBatch`.
-/

namespace GoHBase.RegionClient

open Interleaving

/-- A call that was handed to the client, with its own context and the one it was queued with. -/
structure Submission where
  token : Nat
  ctx : Nat
  queueCtx : Nat
  deriving DecidableEq, Repr

/-- What `trySend` sends. A multi is named by its taking from the pool, and holds the calls
that are not nil. -/
inductive Rpc
  | single (call : Submission)
  | multi (taking : Nat) (calls : List Submission)
  deriving DecidableEq, Repr

def Rpc.calls : Rpc → List Submission
  | .single call => [call]
  | .multi _ calls => calls

def Rpc.taking : Rpc → Option Nat
  | .single _ => none
  | .multi taking _ => some taking

/-- What follows the header of a response; `server` says that the exception closes the client. -/
inductive Body
  | exception (server : Bool)
  | garbled
  | message
  deriving DecidableEq, Repr

structure Frame where
  callID : Option UInt32
  body : Body
  deriving DecidableEq, Repr

inductive Failure
  | clientClosed
  | notSent
  | exception
  | garbled
  deriving DecidableEq, Repr

inductive Outcome
  | error (cause : Failure)
  | response (frame : Frame)
  deriving DecidableEq, Repr

def Frame.outcome (frame : Frame) : Outcome :=
  match frame.body with
  | .exception _ => .error .exception
  | .garbled => .error .garbled
  | .message => .response frame

/-- A run of `returnResult`: the results that are still to be put on their channels, and the
multi that is freed afterwards. -/
structure Job where
  pending : List (Submission × Outcome)
  frees : Option Nat
  deriving DecidableEq, Repr

def Rpc.returnResult (rpc : Rpc) (outcome : Outcome) : Job where
  pending := rpc.calls.map fun call => (call, outcome)
  frees := rpc.taking

inductive Caller
  | queueRPC
  | flush
  deriving DecidableEq, Repr

/-- The variables of `trySend` after `registerRPC`; `number` counts the registrations. -/
structure Sending where
  caller : Caller
  rpc : Rpc
  id : UInt32
  number : Nat
  deriving DecidableEq, Repr

inductive Resume
  | unregister (sending : Sending)
  | stop
  deriving DecidableEq

inductive FailStage
  | call
  | closeConn
  | swapSent
  | failSent (sent : Multiset Rpc)
  deriving DecidableEq

inductive After
  | finish
  | newMulti
  | read
  | fail
  | failSent (sent : Multiset Rpc) (resume : Resume)
  deriving DecidableEq

inductive Select
  | gather
  | wait
  | linger
  deriving DecidableEq, Repr

inductive Thread
  | queueRPC (call : Submission)
  | queueBatch (ctx : Nat) (calls : List Submission)
  | processRPCs (select : Select) (taking : Nat) (calls : List Submission)
  | newMulti
  | marshal (caller : Caller) (rpc : Rpc)
  | register (caller : Caller) (rpc : Rpc)
  | write (sending : Sending)
  | inFlightUp (sending : Sending)
  | unregister (sending : Sending)
  | fail (stage : FailStage) (resume : Resume)
  | returnResult (job : Job) (after : After)
  | receiveRPCs
  | receive
  | received (frame : Frame)
  | inFlightDown (frame : Frame) (rpc : Rpc)
  | answer (frame : Frame) (rpc : Rpc)
  | finished
  deriving DecidableEq

def Caller.next : Caller → Thread
  | .queueRPC => .finished
  | .flush => .newMulti

def Caller.after : Caller → After
  | .queueRPC => .finish
  | .flush => .newMulti

def Resume.next : Resume → Thread
  | .unregister sending => .unregister sending
  | .stop => .finished

def After.next : After → Thread
  | .finish => .finished
  | .newMulti => .newMulti
  | .read => .receiveRPCs
  | .fail => .fail .call .stop
  | .failSent sent resume => .fail (.failSent sent) resume

def Frame.after (frame : Frame) : After :=
  match frame.body with
  | .exception true => .fail
  | _ => .read

structure Entry where
  id : UInt32
  rpc : Rpc
  number : Nat
  deriving DecidableEq, Repr

inductive Reason
  | ownContext
  | queueContext
  | notAnswered
  | lost
  deriving DecidableEq, Repr

inductive Once
  | idle
  | running
  | finished
  deriving DecidableEq, Repr

/-- The fields of the client that its goroutines use, and below them the history of the run. -/
structure Shared where
  expired : List Nat
  done : Bool
  connClosed : Bool
  failOnce : Once
  sent : Multiset Entry
  id : UInt32
  inFlight : UInt32
  started : Nat
  submitted : Multiset Submission
  takings : Nat
  registrations : Nat
  registered : List (UInt32 × Rpc)
  results : Multiset (Submission × Outcome)
  dropped : Multiset (Submission × Reason)
  freed : Multiset Nat
  leaked : Multiset Nat
  swapped : Bool

def submit (first queueCtx : Nat) : List Nat → List Submission
  | [] => []
  | ctx :: ctxs => ⟨first, ctx, queueCtx⟩ :: submit (first + 1) queueCtx ctxs

namespace Shared

def submit (sh : Shared) (queueCtx : Nat) (ctxs : List Nat) : Shared :=
  { sh with
    started := sh.started + ctxs.length
    submitted := sh.submitted + RegionClient.submit sh.started queueCtx ctxs }

def drop (sh : Shared) (calls : List Submission) (reason : Reason) : Shared :=
  { sh with dropped := sh.dropped + calls.map fun call => (call, reason) }

def registerRPC (sh : Shared) (rpc : Rpc) : Shared :=
  { sh with
    id := sh.id + 1
    sent := ⟨sh.id + 1, rpc, sh.registrations + 1⟩ ::ₘ
      sh.sent.filter fun entry => entry.id ≠ sh.id + 1
    registrations := sh.registrations + 1
    registered := (sh.id + 1, rpc) :: sh.registered }

def unregisterRPC (sh : Shared) (id : UInt32) : Shared :=
  { sh with sent := sh.sent.filter fun entry => entry.id ≠ id }

def lose (sh : Shared) (rpc : Rpc) : Shared :=
  { sh.drop rpc.calls .lost with leaked := sh.leaked + rpc.taking.toList }

def free (sh : Shared) (taking : Option Nat) : Shared :=
  { sh with freed := sh.freed + taking.toList }

end Shared

structure Settings where
  rpcQueueSize : Int
  flushInterval : Int

variable (settings : Settings)

/-- `processRPCs` after its first loop. -/
def flushOrWait (taking : Nat) (calls : List Submission) : Thread :=
  if calls.length = 0 then .processRPCs .wait taking calls
  else if settings.rpcQueueSize ≤ calls.length ∨ settings.flushInterval = 0 then
    .marshal .flush (.multi taking calls)
  else .processRPCs .linger taking calls

/-- `processRPCs` after it has added received calls to the multi. -/
def added (select : Select) (taking : Nat) (calls : List Submission) : Thread :=
  match select with
  | .gather =>
      if settings.rpcQueueSize ≤ calls.length then flushOrWait settings taking calls
      else .processRPCs .gather taking calls
  | .wait => .processRPCs .gather taking calls
  | .linger =>
      if settings.rpcQueueSize ≤ calls.length then .marshal .flush (.multi taking calls)
      else .processRPCs .linger taking calls

inductive Event
  | registerRPC
  | deadlineFailed
  | answered (missing : List Submission)
  | other
  deriving DecidableEq, Repr

/-- The steps of one goroutine. A select takes any branch that is ready, and `default` only
where no other branch is ready; a wait for `failOnce` is over when the other call is. -/
inductive Alone : Shared → Thread → Event → Shared → Thread → Prop
  | queueRPC_closed {sh : Shared} {call : Submission} (closed : sh.done = true) :
      Alone sh (.queueRPC call) .other sh
        (.returnResult ((Rpc.single call).returnResult (.error .clientClosed)) .finish)
  | queueRPC_expired {sh : Shared} {call : Submission} (past : call.ctx ∈ sh.expired) :
      Alone sh (.queueRPC call) .other (sh.drop [call] .ownContext) .finished
  | queueRPC_default {sh : Shared} {call : Submission} (alive : sh.done = false)
      (valid : call.ctx ∉ sh.expired) :
      Alone sh (.queueRPC call) .other sh (.marshal .queueRPC (.single call))
  | queueBatch_expired {sh : Shared} {ctx : Nat} {calls : List Submission}
      (past : ctx ∈ sh.expired) :
      Alone sh (.queueBatch ctx calls) .other (sh.drop calls .queueContext) .finished
  | queueBatch_closed {sh : Shared} {ctx : Nat} {calls : List Submission}
      (closed : sh.done = true) :
      Alone sh (.queueBatch ctx calls) .other sh
        (.returnResult ⟨calls.map fun call => (call, .error .clientClosed), none⟩ .finish)
  | processRPCs_closed {sh : Shared} {select : Select} {taking : Nat} {calls : List Submission}
      (closed : sh.done = true) :
      Alone sh (.processRPCs select taking calls) .other sh
        (.returnResult ((Rpc.multi taking calls).returnResult (.error .clientClosed)) .finish)
  | processRPCs_default {sh : Shared} {taking : Nat} {calls : List Submission}
      (alive : sh.done = false) :
      Alone sh (.processRPCs .gather taking calls) .other sh (flushOrWait settings taking calls)
  | processRPCs_timeout {sh : Shared} {taking : Nat} {calls : List Submission} :
      Alone sh (.processRPCs .linger taking calls) .other sh (.marshal .flush (.multi taking calls))
  | newMulti {sh : Shared} :
      Alone sh .newMulti .other { sh with takings := sh.takings + 1 }
        (.processRPCs .gather sh.takings [])
  | marshal_single {sh : Shared} {caller : Caller} {call : Submission} :
      Alone sh (.marshal caller (.single call)) .other sh (.register caller (.single call))
  | marshal_multi {sh : Shared} {caller : Caller} {taking : Nat} {calls : List Submission}
      (nils : Submission → Bool) (past : ∀ call ∈ calls, nils call = true → call.ctx ∈ sh.expired) :
      Alone sh (.marshal caller (.multi taking calls)) .other
        (sh.drop (calls.filter nils) .ownContext)
        (.register caller (.multi taking (calls.filter fun call => !nils call)))
  | registerRPC {sh : Shared} {caller : Caller} {rpc : Rpc} :
      Alone sh (.register caller rpc) .registerRPC (sh.registerRPC rpc)
        (.write ⟨caller, rpc, sh.id + 1, sh.registrations + 1⟩)
  | marshal_failed {sh : Shared} {sending : Sending} :
      Alone sh (.write sending) .other sh (.unregister sending)
  | write_ok {sh : Shared} {sending : Sending} (opened : sh.connClosed = false) :
      Alone sh (.write sending) .other sh (.inFlightUp sending)
  | write_failed {sh : Shared} {sending : Sending} :
      Alone sh (.write sending) .other sh (.fail .call (.unregister sending))
  | inFlightUp_ok {sh : Shared} {sending : Sending} (opened : sh.connClosed = false) :
      Alone sh (.inFlightUp sending) .other { sh with inFlight := sh.inFlight + 1 }
        sending.caller.next
  | inFlightUp_failed {sh : Shared} {sending : Sending} :
      Alone sh (.inFlightUp sending) .other { sh with inFlight := sh.inFlight + 1 }
        (.fail .call (.unregister sending))
  | unregister_found {sh : Shared} {sending : Sending} {entry : Entry} (found : entry ∈ sh.sent)
      (same : entry.id = sending.id) :
      Alone sh (.unregister sending) .other (sh.unregisterRPC sending.id)
        (.returnResult (sending.rpc.returnResult (.error .notSent)) sending.caller.after)
  | unregister_missing {sh : Shared} {sending : Sending}
      (missing : ∀ entry ∈ sh.sent, entry.id ≠ sending.id) :
      Alone sh (.unregister sending) .other sh sending.caller.next
  | fail_first {sh : Shared} {resume : Resume} (idle : sh.failOnce = .idle) :
      Alone sh (.fail .call resume) .other { sh with failOnce := .running, done := true }
        (.fail .closeConn resume)
  | fail_again {sh : Shared} {resume : Resume} (past : sh.failOnce = .finished) :
      Alone sh (.fail .call resume) .other sh resume.next
  | closeConn {sh : Shared} {resume : Resume} :
      Alone sh (.fail .closeConn resume) .other { sh with connClosed := true }
        (.fail .swapSent resume)
  | swapSent {sh : Shared} {resume : Resume} :
      Alone sh (.fail .swapSent resume) .other { sh with sent := 0, swapped := true }
        (.fail (.failSent (sh.sent.map Entry.rpc)) resume)
  | failSent_next {sh : Shared} {rpc : Rpc} {sent : Multiset Rpc} {resume : Resume} :
      Alone sh (.fail (.failSent (rpc ::ₘ sent)) resume) .other sh
        (.returnResult (rpc.returnResult (.error .clientClosed)) (.failSent sent resume))
  | failSent_done {sh : Shared} {resume : Resume} :
      Alone sh (.fail (.failSent 0) resume) .other { sh with failOnce := .finished } resume.next
  | deliver {sh : Shared} {result : Submission × Outcome} {pending : List (Submission × Outcome)}
      {frees : Option Nat} {after : After} :
      Alone sh (.returnResult ⟨result :: pending, frees⟩ after) .other
        { sh with results := result ::ₘ sh.results } (.returnResult ⟨pending, frees⟩ after)
  | returned {sh : Shared} {frees : Option Nat} {after : After} :
      Alone sh (.returnResult ⟨[], frees⟩ after) .other (sh.free frees) after.next
  | receiveRPCs_closed {sh : Shared} (closed : sh.done = true) :
      Alone sh .receiveRPCs .other sh .finished
  | receiveRPCs_default {sh : Shared} (alive : sh.done = false) :
      Alone sh .receiveRPCs .other sh .receive
  | receive_failed {sh : Shared} : Alone sh .receive .other sh (.fail .call .stop)
  | receive_frame {sh : Shared} (frame : Frame) :
      Alone sh .receive .other sh (.received frame)
  | received_anonymous {sh : Shared} {frame : Frame} (anonymous : frame.callID = none) :
      Alone sh (.received frame) .other sh (.fail .call .stop)
  | received_found {sh : Shared} {frame : Frame} {entry : Entry} (found : entry ∈ sh.sent)
      (same : frame.callID = some entry.id) :
      Alone sh (.received frame) .other (sh.unregisterRPC entry.id) (.inFlightDown frame entry.rpc)
  | received_unexpected {sh : Shared} {frame : Frame} {id : UInt32}
      (callID : frame.callID = some id) (missing : ∀ entry ∈ sh.sent, entry.id ≠ id) :
      Alone sh (.received frame) .other sh (.fail .call .stop)
  | inFlightDown_ok {sh : Shared} {frame : Frame} {rpc : Rpc}
      (kept : sh.inFlight - 1 = 0 → sh.connClosed = false) :
      Alone sh (.inFlightDown frame rpc) .other { sh with inFlight := sh.inFlight - 1 }
        (.answer frame rpc)
  | inFlightDown_failed {sh : Shared} {frame : Frame} {rpc : Rpc} (last : sh.inFlight - 1 = 0) :
      Alone sh (.inFlightDown frame rpc) .deadlineFailed
        ({ sh with inFlight := sh.inFlight - 1 }.lose rpc) (.fail .call .stop)
  | answer_expired {sh : Shared} {frame : Frame} {call : Submission}
      (past : call.ctx ∈ sh.expired) :
      Alone sh (.answer frame (.single call)) .other (sh.drop [call] .ownContext) .receiveRPCs
  | answer_single {sh : Shared} {frame : Frame} {call : Submission}
      (valid : call.ctx ∉ sh.expired) :
      Alone sh (.answer frame (.single call)) .other sh
        (.returnResult ((Rpc.single call).returnResult frame.outcome) frame.after)
  | answer_failed {sh : Shared} {frame : Frame} {taking : Nat} {calls : List Submission}
      (failed : frame.body ≠ .message) :
      Alone sh (.answer frame (.multi taking calls)) .other sh
        (.returnResult ((Rpc.multi taking calls).returnResult frame.outcome) frame.after)
  | answer_multi {sh : Shared} {frame : Frame} {taking : Nat} {calls : List Submission}
      (message : frame.body = .message) (answers : List (Submission × Bool))
      (missing : List Submission) (once : (answers.map Prod.fst ++ missing).Perm calls) :
      Alone sh (.answer frame (.multi taking calls)) (.answered missing)
        (sh.drop missing .notAnswered)
        (.returnResult ⟨answers.map fun answer => (answer.1,
          if answer.2 then .response frame else .error .exception), some taking⟩ .read)

/-- `c.rpcs <- rpcs` in `QueueBatch` and its receipt by `processRPCs`. -/
inductive Meet : Shared → Thread → Thread → Event → Shared → Thread → Thread → Prop
  | handOver {sh : Shared} {ctx : Nat} {calls pending : List Submission} {select : Select}
      {taking : Nat} :
      Meet sh (.queueBatch ctx calls) (.processRPCs select taking pending) .other sh .finished
        (added settings select taking (pending ++ calls))

inductive Spawn : Shared → Event → Shared → Thread → Prop
  | queueRPC {sh : Shared} (ctx : Nat) (batchable : Bool) :
      Spawn sh .other (sh.submit ctx [ctx])
        (if batchable = true ∧ 1 < settings.rpcQueueSize then
          .queueBatch ctx [⟨sh.started, ctx, ctx⟩]
        else .queueRPC ⟨sh.started, ctx, ctx⟩)
  | queueBatch {sh : Shared} (ctx : Nat) (ctxs : List Nat) :
      Spawn sh .other (sh.submit ctx ctxs) (.queueBatch ctx (submit sh.started ctx ctxs))
  | close {sh : Shared} : Spawn sh .other sh (.fail .call .stop)

inductive Outside : Shared → Event → Shared → Prop
  | expire {sh : Shared} (ctx : Nat) :
      Outside sh .other { sh with expired := ctx :: sh.expired }

def client : System Shared Thread Event where
  alone := Alone settings
  meet := Meet settings
  spawn := Spawn settings
  outside := Outside

/-- A client after `Dial`. Only a client of region servers has a batching goroutine. -/
def dialed (batches : Bool) : Config Shared Thread where
  shared := {
    expired := []
    done := false
    connClosed := false
    failOnce := .idle
    sent := 0
    id := 0
    inFlight := 0
    started := 0
    submitted := 0
    takings := 0
    registrations := 0
    registered := []
    results := 0
    dropped := 0
    freed := 0
    leaked := 0
    swapped := false }
  threads := if batches then {.newMulti, .receiveRPCs} else {.receiveRPCs}

end GoHBase.RegionClient
