import GoHBase.Lib.Retry
import GoHBase.ResponseCore
import GoHBase.RoutingCore

/-!
`SendRPC`: an RPC is sent again after errors that a region client calls transient, with a pause
that grows after those that ask for one. Durations are in milliseconds.
-/

namespace GoHBase

open ByteString Runtime Retry

def backoffStart : Nat := 16

def increaseBackoff (backoff : Nat) : Nat :=
  if backoff = 0 then backoffStart
  else if backoff < 5000 then backoff * 2
  else if backoff < 30000 then backoff + 5000
  else backoff

/-- `sleepAndIncreaseBackoff`, without the increase. A backoff of zero looks at no context. -/
def sleepBackoff {σ ε : Type} (sleep : Nat → σ → σ × Option ε) (backoff : Nat) (s : σ) :
    σ × Option ε :=
  if backoff = 0 then (s, none) else sleep backoff s

/-- The backoff after a number of sleeps: it doubles up to 8.192 s, goes on in steps of five
seconds, and stays at 33.192 s. -/
theorem backoff_after (count : Nat) :
    increaseBackoff^[count] backoffStart =
      if count ≤ 9 then 16 * 2 ^ count
      else if count ≤ 14 then 8192 + 5000 * (count - 9)
      else 33192 := by
  induction count with
  | zero => rfl
  | succ count ih =>
      rw [Function.iterate_succ_apply', ih]
      by_cases early : count < 14
      · interval_cases count <;> rfl
      · have settled : increaseBackoff 33192 = 33192 := rfl
        have last : 8192 + 5000 * (14 - 9) = 33192 := rfl
        rw [if_neg (by omega : ¬count ≤ 9), if_neg (by omega : ¬count + 1 ≤ 9),
          if_neg (by omega : ¬count + 1 ≤ 14)]
        by_cases here : count = 14
        · subst here
          rw [if_pos le_rfl, last, settled]
        · rw [if_neg (by omega), settled]

def plainError (text : String) : RpcError := ⟨.plain, text, []⟩

/-- What `SendRPC` relies on. Lookups and contexts have errors without a type of their own. -/
structure SendWorld (σ M : Type) where
  getRegionAndClientForRPC : σ → σ × Except String (RegionInfo × Conn)
  sendBlocking : Conn → σ → σ × Except String (Reply M)
  handleResultError : RpcError → RegionInfo → Conn → σ → σ
  sleep : Nat → σ → σ × Option String

/-- One time that the RPC was queued. A reply is missing when the context was done first. -/
structure Queued (M : Type) where
  reg : RegionInfo
  rc : Conn
  reply : Option (Reply M)

structure Sending (σ M : Type) where
  world : σ
  queued : List (Queued M)
  handled : List (RpcError × RegionInfo × Conn)

section Sends

variable {σ M : Type} (w : SendWorld σ M)

def sendRPCToRegionClient (reg : RegionInfo) (rc : Conn) (s : Sending σ M) :
    Sending σ M × Option M × Option RpcError :=
  match w.sendBlocking rc s.world with
  | (world, .error err) =>
      ({ s with world := world, queued := s.queued ++ [⟨reg, rc, none⟩] }, none,
        some (plainError err))
  | (world, .ok res) =>
      let queued := s.queued ++ [⟨reg, rc, some res⟩]
      match res.err with
      | none => ({ s with world := world, queued := queued }, res.response, none)
      | some err =>
          ({ world := w.handleResultError err reg rc world
             queued := queued
             handled := s.handled ++ [(err, reg, rc)] }, res.response, some err)

/-- The body of the loop of `SendRPC`. -/
def sendAttempt (s : Sending σ M) :
    Sending σ M × Judgement (Option M × Option RpcError) String :=
  match w.getRegionAndClientForRPC s.world with
  | (world, .error err) => ({ s with world := world }, .final (none, some (plainError err)))
  | (world, .ok (reg, rc)) =>
      let (s, msg, err) := sendRPCToRegionClient w reg rc { s with world := world }
      match err.map RpcError.kind with
      | some .retryable => (s, .pause fun cause => (msg, some (plainError cause)))
      | some .server => (s, .again)
      | some .notServingRegion => (s, .again)
      | _ => (s, .final (msg, err))

def sendLoop : Loop (Sending σ M) (Option M × Option RpcError) String where
  attempt s := pure (some (sendAttempt w s))
  sleep backoff s :=
    let (world, cut) := sleepBackoff w.sleep backoff s.world
    ({ s with world := world }, cut)
  next := increaseBackoff

def sendRPC (fuel : Nat) (world : σ) :
    Go (Option (Sending σ M × (Option M × Option RpcError) × List Nat)) :=
  (sendLoop w).run fuel backoffStart ⟨world, [], []⟩

end Sends

namespace Queued

variable {M : Type} (q : Queued M)

def err : Option RpcError := q.reply.bind Reply.err

def kind : Option ErrorKind := q.err.map RpcError.kind

def msg : Option M := q.reply.bind Reply.response

def complaint : List (RpcError × RegionInfo × Conn) :=
  (q.err.map fun err => (err, q.reg, q.rc)).toList

/-- The reply has one of the three types of errors after which an RPC is sent again. -/
def Transient : Prop :=
  q.kind = some .retryable ∨ q.kind = some .server ∨ q.kind = some .notServingRegion

def retryable : Bool := decide (q.kind = some .retryable)

end Queued

/-- How `SendRPC` ends, given every time that it queued the RPC: no client was found, a pause was
cut short, the context was done before the reply, or the reply settles the RPC. -/
inductive SendEnded {M : Type} : List (Queued M) → Option M × Option RpcError → Prop
  | unlocated {queued : List (Queued M)} {cause : String} (failed : ∀ q ∈ queued, q.Transient) :
      SendEnded queued (none, some (plainError cause))
  | interrupted {queued : List (Queued M)} {q : Queued M} {cause : String}
      (failed : ∀ q ∈ queued, q.Transient) (kind : q.kind = some .retryable) :
      SendEnded (queued ++ [q]) (q.msg, some (plainError cause))
  | cancelled {queued : List (Queued M)} {q : Queued M} {cause : String}
      (failed : ∀ q ∈ queued, q.Transient) (missing : q.reply = none) :
      SendEnded (queued ++ [q]) (none, some (plainError cause))
  | settled {queued : List (Queued M)} {q : Queued M} {res : Reply M}
      (failed : ∀ q ∈ queued, q.Transient) (answer : q.reply = some res)
      (settled : ¬q.Transient) : SendEnded (queued ++ [q]) (res.response, res.err)

theorem SendEnded.plain {M : Type} {queued : List (Queued M)} {msg : Option M} {err : RpcError}
    (ended : SendEnded queued (msg, some err)) : err.kind = .plain := by
  generalize same : (msg, some err) = outcome at ended
  cases ended with
  | unlocated => cases same; rfl
  | interrupted => cases same; rfl
  | cancelled => cases same; rfl
  | @settled _ q res failed answer settled =>
      have own : res.err = some err := (congrArg Prod.snd same).symm
      have kind : q.kind = some err.kind := by
        rw [Queued.kind, Queued.err, answer, Option.bind_some, own, Option.map_some]
      rw [Queued.Transient, kind] at settled
      cases sort : err.kind with
      | plain => rfl
      | retryable => exact absurd (.inl (by rw [sort])) settled
      | server => exact absurd (.inr (.inl (by rw [sort]))) settled
      | notServingRegion => exact absurd (.inr (.inr (by rw [sort]))) settled

section Rounds

variable {σ M : Type} {w : SendWorld σ M} {s s' : Sending σ M}

inductive Judged (q : Queued M) : Judgement (Option M × Option RpcError) String → Prop
  | retryable (kind : q.kind = some .retryable) :
      Judged q (.pause fun cause => (q.msg, some (plainError cause)))
  | again (kind : q.kind = some .server ∨ q.kind = some .notServingRegion) : Judged q .again
  | cancelled {cause : String} (missing : q.reply = none) :
      Judged q (.final (none, some (plainError cause)))
  | settled (res : Reply M) (answer : q.reply = some res) (settled : ¬q.Transient) :
      Judged q (.final (res.response, res.err))

theorem sendAttempt_cases {verdict : Judgement (Option M × Option RpcError) String}
    (tried : sendAttempt w s = (s', verdict)) :
    (∃ cause, s'.queued = s.queued ∧ s'.handled = s.handled ∧
      verdict = .final (none, some (plainError cause))) ∨
    ∃ q, s'.queued = s.queued ++ [q] ∧ s'.handled = s.handled ++ q.complaint ∧
      Judged q verdict := by
  unfold sendAttempt at tried
  cases located : w.getRegionAndClientForRPC s.world with
  | mk world found =>
      rw [located] at tried
      match found, tried with
      | .error cause, tried =>
          cases tried
          exact .inl ⟨cause, rfl, rfl, rfl⟩
      | .ok (reg, rc), tried =>
          right
          simp only [sendRPCToRegionClient] at tried
          cases sent : w.sendBlocking rc world with
          | mk later answer =>
              rw [sent] at tried
              match answer, tried with
              | .error cause, tried =>
                  cases tried
                  exact ⟨⟨reg, rc, none⟩, rfl, (List.append_nil _).symm, .cancelled rfl⟩
              | .ok ⟨response, none⟩, tried =>
                  cases tried
                  refine ⟨⟨reg, rc, some ⟨response, none⟩⟩, rfl, (List.append_nil _).symm, ?_⟩
                  refine .settled ⟨response, none⟩ rfl ?_
                  rintro (kind | kind | kind) <;> cases kind
              | .ok ⟨response, some ⟨.retryable, text, stack⟩⟩, tried =>
                  cases tried
                  exact ⟨⟨reg, rc, some ⟨response, some ⟨.retryable, text, stack⟩⟩⟩, rfl, rfl,
                    .retryable rfl⟩
              | .ok ⟨response, some ⟨.server, text, stack⟩⟩, tried =>
                  cases tried
                  exact ⟨⟨reg, rc, some ⟨response, some ⟨.server, text, stack⟩⟩⟩, rfl, rfl,
                    .again (.inl rfl)⟩
              | .ok ⟨response, some ⟨.notServingRegion, text, stack⟩⟩, tried =>
                  cases tried
                  exact ⟨⟨reg, rc, some ⟨response, some ⟨.notServingRegion, text, stack⟩⟩⟩, rfl,
                    rfl, .again (.inr rfl)⟩
              | .ok ⟨response, some ⟨.plain, text, stack⟩⟩, tried =>
                  cases tried
                  refine ⟨⟨reg, rc, some ⟨response, some ⟨.plain, text, stack⟩⟩⟩, rfl, rfl, ?_⟩
                  refine .settled ⟨response, some ⟨.plain, text, stack⟩⟩ rfl ?_
                  rintro (kind | kind | kind) <;> cases kind

/-- Before a round: the RPC failed each time it was queued, and the pauses are counted. -/
structure Retrying (count : Nat) (s : Sending σ M) : Prop where
  failed : ∀ q ∈ s.queued, q.Transient
  handled : s.handled = s.queued.flatMap Queued.complaint
  paused : s.queued.countP Queued.retryable = count

structure SendFinished (count : Nat) (s : Sending σ M) (outcome : Option M × Option RpcError) :
    Prop where
  ended : SendEnded s.queued outcome
  handled : s.handled = s.queued.flatMap Queued.complaint
  paused : s.queued.countP Queued.retryable = count

theorem failed_append {queued : List (Queued M)} {last : Queued M}
    (failed : ∀ q ∈ queued, q.Transient) (lastFailed : last.Transient) :
    ∀ q ∈ queued ++ [last], q.Transient := by
  intro q member
  rcases List.mem_append.mp member with before | here
  · exact failed q before
  · rw [List.mem_singleton.mp here]
    exact lastFailed

theorem flatMap_complaint {queued : List (Queued M)} {q : Queued M}
    {handled : List (RpcError × RegionInfo × Conn)}
    (before : handled = queued.flatMap Queued.complaint) :
    handled ++ q.complaint = (queued ++ [q]).flatMap Queued.complaint := by
  rw [List.flatMap_append, List.flatMap_singleton, before]

theorem countP_append {queued : List (Queued M)} {q : Queued M} :
    (queued ++ [q]).countP Queued.retryable =
      queued.countP Queued.retryable + if q.kind = some .retryable then 1 else 0 := by
  rw [List.countP_append, List.countP_singleton]
  simp only [Queued.retryable, decide_eq_true_eq]

theorem Retrying.final {count : Nat} {outcome : Option M × Option RpcError}
    (before : Retrying count s) (tried : sendAttempt w s = (s', .final outcome)) :
    SendFinished count s' outcome := by
  obtain ⟨cause, queued, handled, same⟩ | ⟨q, queued, handled, judged⟩ := sendAttempt_cases tried
  · cases same
    refine ⟨?_, ?_, ?_⟩
    · rw [queued]
      exact .unlocated before.failed
    · rw [queued, handled, before.handled]
    · rw [queued, before.paused]
  · have calm : q.kind ≠ some .retryable := by
      cases judged with
      | cancelled missing =>
          rw [Queued.kind, Queued.err, missing]
          exact nofun
      | settled res answer settled => exact fun kind => settled (.inl kind)
    refine ⟨?_, ?_, ?_⟩
    · rw [queued]
      cases judged with
      | cancelled missing => exact .cancelled before.failed missing
      | settled res answer settled => exact .settled before.failed answer settled
    · rw [queued, handled]
      exact flatMap_complaint before.handled
    · rw [queued, countP_append, if_neg calm, Nat.add_zero, before.paused]

theorem Retrying.again {count : Nat} (before : Retrying count s)
    (tried : sendAttempt w s = (s', .again)) : Retrying count s' := by
  obtain ⟨cause, _, _, same⟩ | ⟨q, queued, handled, judged⟩ := sendAttempt_cases tried
  · cases same
  · cases judged with
    | again kind =>
        have calm : q.kind ≠ some .retryable := by
          rcases kind with kind | kind <;> rw [kind] <;> decide
        refine ⟨?_, ?_, ?_⟩
        · rw [queued]
          exact failed_append before.failed (.inr kind)
        · rw [queued, handled]
          exact flatMap_complaint before.handled
        · rw [queued, countP_append, if_neg calm, Nat.add_zero, before.paused]

theorem Retrying.pause {count : Nat} {interrupted : String → Option M × Option RpcError}
    (before : Retrying count s) (tried : sendAttempt w s = (s', .pause interrupted)) :
    Retrying (count + 1) s' ∧
      ∀ cause, SendFinished (count + 1) s' (interrupted cause) := by
  obtain ⟨cause, _, _, same⟩ | ⟨q, queued, handled, judged⟩ := sendAttempt_cases tried
  · cases same
  · cases judged with
    | retryable kind =>
        have all : s'.handled = s'.queued.flatMap Queued.complaint := by
          rw [queued, handled]
          exact flatMap_complaint before.handled
        have counted : s'.queued.countP Queued.retryable = count + 1 := by
          rw [queued, countP_append, if_pos kind, before.paused]
        refine ⟨⟨?_, all, counted⟩, fun cause => ⟨?_, all, counted⟩⟩
        · rw [queued]
          exact failed_append before.failed (.inl kind)
        · rw [queued]
          exact .interrupted before.failed kind

/-- Whatever lookups, servers and contexts do, `SendRPC` sends an RPC again exactly after the three
types of transient errors, and returns none of them. Every error of a reply is handled once, with
the region and the client of that reply. It pauses once for each retryable error and for nothing
else, for the times of the schedule. It returns when no more than finitely many rounds fail. -/
theorem send_rpc_retries (w : SendWorld σ M) (world : σ) :
    (∀ fuel s' msg err pauses, sendRPC w fuel world = .ok (some (s', (msg, err), pauses)) →
      SendEnded s'.queued (msg, err) ∧ (∀ e, err = some e → e.kind = .plain) ∧
      s'.handled = s'.queued.flatMap Queued.complaint ∧
      pauses = (List.range (s'.queued.countP Queued.retryable)).map fun count =>
        if count ≤ 9 then 16 * 2 ^ count
        else if count ≤ 14 then 8192 + 5000 * (count - 9) else 33192) ∧
    (¬Endless (sendLoop w) (backoffStart, ⟨world, [], []⟩) →
      ∃ fuel s' outcome pauses, sendRPC w fuel world = .ok (some (s', outcome, pauses))) := by
  constructor
  · intro fuel s' msg err pauses returned
    have ends := Retry.Ends.of_run returned
    have finished : SendFinished (0 + pauses.length) s' (msg, err) := by
      refine ends.rule Retrying SendFinished 0 ?_ ?_ ?_ ?_ ?_
      · exact ⟨fun _ none => absurd none List.not_mem_nil, rfl, rfl⟩
      · intro count s s' outcome before tried
        exact before.final (Option.some.inj (Except.ok.inj tried))
      · intro count s s' before tried
        exact before.again (Option.some.inj (Except.ok.inj tried))
      · intro count s tired s' delay interrupted before tried slept
        obtain ⟨after, _⟩ := before.pause (Option.some.inj (Except.ok.inj tried))
        obtain rfl := congrArg Prod.fst slept
        exact ⟨after.failed, after.handled, after.paused⟩
      · intro count s tired s' delay interrupted err before tried slept
        obtain ⟨_, after⟩ := before.pause (Option.some.inj (Except.ok.inj tried))
        obtain rfl := congrArg Prod.fst slept
        exact ⟨(after err).ended, (after err).handled, (after err).paused⟩
    refine ⟨finished.ended, ?_, finished.handled, ?_⟩
    · rintro e rfl
      exact finished.ended.plain
    · have scheduled := ends.schedule
      rw [finished.paused, Nat.zero_add]
      refine scheduled.trans (List.map_congr_left fun count _ => ?_)
      exact backoff_after count
  · intro finite
    have responsive : Responsive (sendLoop w) (backoffStart, ⟨world, [], []⟩) :=
      fun p _ => ⟨_, rfl⟩
    exact run_of_not_endless responsive finite

end Rounds

def scriptedWorld : SendWorld (List (Reply Nat)) Nat where
  getRegionAndClientForRPC replies := (replies, .ok (sampleRegion 0 1 [] [], ⟨0, []⟩))
  sendBlocking _
    | [] => ([], .error "context canceled")
    | reply :: replies => (replies, .ok reply)
  handleResultError _ _ _ replies := replies
  sleep _ replies := (replies, none)

theorem scripted_round {p p' : Nat × Sending (List (Reply Nat)) Nat}
    (round : Round (sendLoop scriptedWorld) p p') :
    p'.2.world.length < p.2.world.length := by
  have taken {s s' : Sending (List (Reply Nat)) Nat}
      {verdict : Judgement (Option Nat × Option RpcError) String}
      (tried : sendAttempt scriptedWorld s = (s', verdict)) :
      (∃ outcome, verdict = .final outcome) ∨ s'.world.length < s.world.length := by
    obtain ⟨replies, queued, handled⟩ := s
    cases replies with
    | nil =>
        cases tried
        exact .inl ⟨_, rfl⟩
    | cons reply replies =>
        right
        obtain ⟨response, err⟩ := reply
        cases err with
        | none =>
            cases tried
            exact Nat.lt_succ_self _
        | some err =>
            obtain ⟨kind, text, stack⟩ := err
            cases kind <;> cases tried <;> exact Nat.lt_succ_self _
  cases round with
  | again tried =>
      obtain ⟨outcome, final⟩ | less := taken (Option.some.inj (Except.ok.inj tried))
      · cases final
      · exact less
  | paused tried slept =>
      obtain ⟨outcome, final⟩ | less := taken (Option.some.inj (Except.ok.inj tried))
      · cases final
      · obtain rfl := congrArg Prod.fst slept
        refine lt_of_eq_of_lt ?_ less
        simp only [sendLoop, sleepBackoff]
        split <;> rfl

theorem send_rpc_retries_scripted :
    (∃ s', sendRPC scriptedWorld 3 [⟨none, some (retryableError "busy")⟩,
        ⟨none, some (serverError "gone")⟩, ⟨some 7, none⟩] =
          .ok (some (s', (some 7, none), [16])) ∧
      SendEnded s'.queued (some 7, none) ∧ s'.handled.length = 2) ∧
    ∃ fuel s' outcome pauses, sendRPC scriptedWorld fuel
      (List.replicate 1000 ⟨none, some (retryableError "busy")⟩) =
        .ok (some (s', outcome, pauses)) := by
  obtain ⟨s', ran, two⟩ : ∃ s', sendRPC scriptedWorld 3 [⟨none, some (retryableError "busy")⟩,
      ⟨none, some (serverError "gone")⟩, ⟨some 7, none⟩] =
        .ok (some (s', (some 7, none), [16])) ∧ s'.handled.length = 2 := ⟨_, rfl, rfl⟩
  refine ⟨⟨s', ran, ((send_rpc_retries scriptedWorld _).1 3 s' _ _ _ ran).1, two⟩, ?_⟩
  exact (send_rpc_retries scriptedWorld _).2
    (not_endless_of_rank (fun s => s.world.length) fun _ _ => scripted_round)

end GoHBase
