import GoHBase.ClientDelivery

/-!
What becomes of the RPCs when the client fails: `fail` answers what is in the map,
and what is registered afterwards is taken out again by its sender.
-/

namespace GoHBase.RegionClient

open Interleaving

variable {settings : Settings} {sh sh' : Shared} {t t' : Thread} {e : Event}
  {c c' : Config Shared Thread}

def AnswersAll (e : Event) : Prop := ∀ missing, e = .answered missing → missing = []

/-- Steps after which no RPC is lost: the reader's update of the deadline does not fail, and
no ID is handed out that is still in use. -/
def Careful (c : Config Shared Thread) (e : Event) : Prop :=
  FreshID c e ∧ e ≠ .deadlineFailed

theorem Serial.answersAll (serial : Serial c e) : AnswersAll e := by
  obtain rfl | ⟨rfl, _, _⟩ := serial
  · exact nofun
  · exact nofun

theorem Serial.careful (serial : Serial c e) : Careful c e := by
  constructor
  · intro registers
    obtain ⟨empty, idle⟩ := serial.idle registers
    refine ⟨by simp [empty], ?_⟩
    intro t member sending holds
    simp [idle t member] at holds
  · obtain rfl | ⟨rfl, _, _⟩ := serial
    · exact nofun
    · exact nofun

def Excused (sh : Shared) (call : Submission) : Prop :=
  call.ctx ∈ sh.expired ∨ call.queueCtx ∈ sh.expired

structure Halting (sh : Shared) : Prop where
  begun : sh.done = true → sh.failOnce ≠ .idle
  finished : sh.failOnce = .finished → sh.swapped = true
  closed : sh.swapped = true → sh.connClosed = true
  excused : ∀ drop ∈ sh.dropped, Excused sh drop.1

def FailStage.Proper (sh : Shared) : FailStage → Prop
  | .swapSent => sh.connClosed = true
  | .failSent _ => sh.swapped = true ∧ sh.connClosed = true
  | _ => True

def After.Proper (sh : Shared) : After → Prop
  | .failSent _ _ => sh.swapped = true ∧ sh.connClosed = true
  | _ => True

def Thread.Proper (sh : Shared) : Thread → Prop
  | .queueBatch ctx calls => ∀ call ∈ calls, call.queueCtx = ctx
  | .fail stage _ => stage.Proper sh
  | .returnResult _ after => after.Proper sh
  | _ => True

structure Latched (sh sh' : Shared) : Prop where
  expired : ∀ ctx ∈ sh.expired, ctx ∈ sh'.expired
  connClosed : sh.connClosed = true → sh'.connClosed = true
  swapped : sh.swapped = true → sh'.swapped = true

theorem Latched.refl (sh : Shared) : Latched sh sh :=
  ⟨fun _ member => member, id, id⟩

theorem Alone.latched (taken : Alone settings sh t e sh' t') : Latched sh sh' := by
  cases taken with
  | closeConn => exact ⟨fun _ member => member, fun _ => rfl, id⟩
  | swapSent => exact ⟨fun _ member => member, id, fun _ => rfl⟩
  | _ => exact ⟨fun _ member => member, id, id⟩

theorem Excused.stable {call : Submission} (latched : Latched sh sh') (excused : Excused sh call) :
    Excused sh' call :=
  excused.imp (latched.expired _) (latched.expired _)

theorem Thread.Proper.stable (latched : Latched sh sh') (proper : t.Proper sh) : t.Proper sh' := by
  cases t with
  | queueBatch ctx calls => exact proper
  | fail stage resume =>
      cases stage with
      | swapSent => exact latched.connClosed proper
      | failSent sent => exact ⟨latched.swapped proper.1, latched.connClosed proper.2⟩
      | _ => trivial
  | returnResult job after =>
      cases after with
      | failSent sent resume => exact ⟨latched.swapped proper.1, latched.connClosed proper.2⟩
      | _ => trivial
  | _ => trivial

theorem Alone.proper (taken : Alone settings sh t e sh' t') (proper : t.Proper sh) :
    t'.Proper sh' := by
  cases taken with
  | @processRPCs_default taking calls _ =>
      obtain ⟨select, same⟩ | same := flushOrWait_cases settings taking calls
      · exact same ▸ trivial
      · exact same ▸ trivial
  | @inFlightUp_ok sending _ => cases sending.caller <;> trivial
  | @unregister_found sending _ _ _ =>
      change After.Proper _ sending.caller.after
      cases sending.caller <;> trivial
  | @unregister_missing sending _ => cases sending.caller <;> trivial
  | @fail_again resume _ => cases resume <;> trivial
  | closeConn => exact rfl
  | swapSent => exact ⟨rfl, proper⟩
  | failSent_next => exact proper
  | @failSent_done resume => cases resume <;> trivial
  | @deliver _ _ _ after =>
      cases after with
      | failSent sent resume => exact proper
      | _ => trivial
  | @returned frees after =>
      cases after with
      | failSent sent resume => exact proper
      | _ => trivial
  | @answer_single frame _ _ =>
      change After.Proper _ frame.after
      unfold Frame.after
      split <;> trivial
  | @answer_failed frame _ _ _ =>
      change After.Proper _ frame.after
      unfold Frame.after
      split <;> trivial
  | _ => trivial

theorem excused_drop {calls : List Submission} {reason : Reason} (halting : Halting sh)
    (excused : ∀ call ∈ calls, Excused sh call) :
    ∀ drop ∈ (sh.drop calls reason).dropped, Excused sh drop.1 := by
  intro drop member
  obtain old | new := Multiset.mem_add.mp member
  · exact halting.excused drop old
  · obtain ⟨call, called, rfl⟩ := List.mem_map.mp (Multiset.mem_coe.mp new)
    exact excused call called

theorem Halting.drop (halting : Halting sh) {calls : List Submission} {reason : Reason}
    (excused : ∀ call ∈ calls, Excused sh call) : Halting (sh.drop calls reason) :=
  ⟨halting.begun, halting.finished, halting.closed, excused_drop halting excused⟩

theorem Alone.halting (taken : Alone settings sh t e sh' t') (all : AnswersAll e)
    (kept : e ≠ .deadlineFailed) (proper : t.Proper sh) (halting : Halting sh) : Halting sh' := by
  cases taken with
  | @queueRPC_expired call past =>
      refine halting.drop fun other member => ?_
      obtain rfl := List.mem_singleton.mp member
      exact .inl past
  | queueBatch_expired past =>
      refine halting.drop fun call member => .inr ?_
      rw [proper call member]
      exact past
  | marshal_multi nils past =>
      refine halting.drop fun call member => .inl ?_
      obtain ⟨called, isNil⟩ := List.mem_filter.mp member
      exact past call called isNil
  | answer_expired past =>
      refine halting.drop fun other member => ?_
      obtain rfl := List.mem_singleton.mp member
      exact .inl past
  | answer_multi _ answers missing _ =>
      refine halting.drop fun call member => ?_
      rw [all missing rfl] at member
      cases member
  | inFlightDown_failed _ => exact absurd rfl kept
  | fail_first _ =>
      refine ⟨fun _ => ?_, fun past => ?_, halting.closed, halting.excused⟩
      · simp
      · cases past
  | closeConn => exact ⟨halting.begun, halting.finished, fun _ => rfl, halting.excused⟩
  | swapSent => exact ⟨halting.begun, fun _ => rfl, fun _ => proper, halting.excused⟩
  | failSent_done =>
      refine ⟨fun _ => ?_, fun _ => proper.1, halting.closed, halting.excused⟩
      simp
  | _ => exact ⟨halting.begun, halting.finished, halting.closed, halting.excused⟩

def FailStage.runs : FailStage → Bool
  | .call => false
  | _ => true

def After.runs : After → Bool
  | .failSent _ _ => true
  | _ => false

def Thread.runs : Thread → Bool
  | .fail stage _ => stage.runs
  | .returnResult _ after => after.runs
  | _ => false

theorem runs_after_next (after : After) : after.next.runs = after.runs := by
  cases after <;> rfl

theorem Alone.running (taken : Alone settings sh t e sh' t') (running : sh'.failOnce = .running) :
    t'.runs = true ∨ sh.failOnce = .running ∧ ¬t.runs = true := by
  cases taken with
  | fail_first _ => exact .inl rfl
  | closeConn => exact .inl rfl
  | swapSent => exact .inl rfl
  | failSent_next => exact .inl rfl
  | failSent_done => cases running
  | @deliver _ _ _ after =>
      cases mine : after.runs with
      | true => exact .inl mine
      | false => exact .inr ⟨running, by simp [Thread.runs, mine]⟩
  | @returned frees after =>
      cases mine : after.runs with
      | true => exact .inl ((runs_after_next after).trans mine)
      | false => exact .inr ⟨running, by simp [Thread.runs, mine]⟩
  | _ => exact .inr ⟨running, by simp [Thread.runs, FailStage.runs]⟩

theorem Alone.leaves (taken : Alone settings sh t e sh' t') :
    t'.sending = t.sending ∨ t.sending = none ∨ sh.connClosed = false ∨
      ∃ sending, t.sending = some sending ∧ ∀ entry ∈ sh'.sent, entry.id ≠ sending.id := by
  cases taken with
  | inFlightUp_ok opened => exact .inr (.inr (.inl opened))
  | @unregister_found sending _ _ _ =>
      exact .inr (.inr (.inr ⟨sending, rfl, fun entry member => (Multiset.mem_filter.mp member).2⟩))
  | @unregister_missing sending missing => exact .inr (.inr (.inr ⟨sending, rfl, missing⟩))
  | fail_again _ => exact .inl (sending_resume_next _)
  | failSent_done => exact .inl (sending_resume_next _)
  | returned => exact .inl (sending_after_next _)
  | marshal_failed => exact .inl rfl
  | write_ok _ => exact .inl rfl
  | write_failed => exact .inl rfl
  | inFlightUp_failed => exact .inl rfl
  | fail_first _ => exact .inl rfl
  | closeConn => exact .inl rfl
  | swapSent => exact .inl rfl
  | failSent_next => exact .inl rfl
  | deliver => exact .inl rfl
  | _ => exact .inr (.inl rfl)

def Thread.Owns (t : Thread) (entry : Entry) : Prop :=
  ∃ sending, t.sending = some sending ∧ sending.id = entry.id

theorem Alone.entered (taken : Alone settings sh t e sh' t') {entry : Entry}
    (swapped : sh'.swapped = true) (member : entry ∈ sh'.sent) :
    t'.Owns entry ∨ sh.swapped = true ∧ entry ∈ sh.sent := by
  cases taken with
  | registerRPC =>
      obtain rfl | member := Multiset.mem_cons.mp member
      · exact .inl ⟨_, rfl, rfl⟩
      · exact .inr ⟨swapped, Multiset.mem_of_mem_filter member⟩
  | unregister_found _ _ => exact .inr ⟨swapped, Multiset.mem_of_mem_filter member⟩
  | received_found _ _ => exact .inr ⟨swapped, Multiset.mem_of_mem_filter member⟩
  | swapSent => exact absurd member (Multiset.notMem_zero entry)
  | _ => exact .inr ⟨swapped, member⟩

theorem Alone.owned (taken : Alone settings sh t e sh' t') (halting : Halting sh) {entry : Entry}
    (swapped : sh'.swapped = true) (member : entry ∈ sh'.sent) :
    t'.Owns entry ∨ (sh.swapped = true ∧ entry ∈ sh.sent) ∧ ¬t.Owns entry := by
  obtain owns | before := taken.entered swapped member
  · exact .inl owns
  · obtain same | idle | opened | ⟨sending, holds, gone⟩ := taken.leaves
    · by_cases mine : t.Owns entry
      · obtain ⟨sending, holds, id⟩ := mine
        exact .inl ⟨sending, same.trans holds, id⟩
      · exact .inr ⟨before, mine⟩
    · refine .inr ⟨before, ?_⟩
      rintro ⟨sending, holds, _⟩
      rw [idle] at holds
      cases holds
    · have closed := halting.closed before.1
      rw [opened] at closed
      cases closed
    · refine .inr ⟨before, ?_⟩
      rintro ⟨other, held, id⟩
      rw [holds] at held
      cases held
      exact gone entry member id.symm

theorem Meet.proper {u u' : Thread} (taken : Meet settings sh t u e sh' t' u') :
    (t'.Proper sh' ∧ u'.Proper sh') ∧ (t.runs = false ∧ u.runs = false) ∧
      t.sending = none ∧ u.sending = none := by
  cases taken with
  | @handOver _ calls pending select taking =>
      refine ⟨⟨trivial, ?_⟩, ⟨rfl, rfl⟩, rfl, rfl⟩
      obtain ⟨select', same⟩ | same := added_cases settings select taking (pending ++ calls)
      · exact same ▸ trivial
      · exact same ▸ trivial

theorem submit_queueCtx (first queueCtx : Nat) (ctxs : List Nat) :
    ∀ call ∈ submit first queueCtx ctxs, call.queueCtx = queueCtx := by
  induction ctxs generalizing first with
  | nil => simp [submit]
  | cons ctx ctxs ih =>
      intro call member
      obtain rfl | member := List.mem_cons.mp member
      · rfl
      · exact ih (first + 1) call member

theorem Spawn.proper (taken : Spawn settings sh e sh' t) : t.Proper sh' := by
  cases taken with
  | queueRPC ctx batchable =>
      split
      · exact submit_queueCtx sh.started ctx [ctx]
      · trivial
  | queueBatch ctx ctxs => exact submit_queueCtx sh.started ctx ctxs
  | close => trivial

theorem Spawn.halting (taken : Spawn settings sh e sh' t) (halting : Halting sh) :
    Halting sh' := by
  cases taken <;> exact ⟨halting.begun, halting.finished, halting.closed, halting.excused⟩

theorem Spawn.unchanged (taken : Spawn settings sh e sh' t) : Latched sh sh' ∧
    sh'.failOnce = sh.failOnce ∧ sh'.swapped = sh.swapped ∧ sh'.sent = sh.sent := by
  cases taken <;> exact ⟨⟨fun _ member => member, id, id⟩, rfl, rfl, rfl⟩

theorem Outside.unchanged (taken : Outside sh e sh') : Latched sh sh' ∧
    sh'.failOnce = sh.failOnce ∧ sh'.swapped = sh.swapped ∧ sh'.sent = sh.sent := by
  cases taken
  exact ⟨⟨fun _ member => List.mem_cons_of_mem _ member, id, id⟩, rfl, rfl, rfl⟩

theorem Outside.halting (taken : Outside sh e sh') (halting : Halting sh) : Halting sh' := by
  have latched := (Outside.unchanged taken).1
  cases taken
  exact ⟨halting.begun, halting.finished, halting.closed,
    fun drop member => (halting.excused drop member).stable latched⟩

theorem step_latched (step : (client settings).Step c e c') : Latched c.shared c'.shared := by
  refine step.kinds ?_ ?_ ?_ ?_
  · exact fun _ _ _ taken => Alone.latched taken
  · intro _ _ _ _ taken
    rw [Meet.unchanged taken]
    exact .refl _
  · exact fun _ taken => (Spawn.unchanged taken).1
  · exact fun taken => (Outside.unchanged taken).1

/-- What holds while the client fails: the body of `failOnce` is run by somebody until it is
finished, and an RPC that is registered after the swap has a sender that takes it out. -/
structure FailInv (c : Config Shared Thread) : Prop where
  halting : Halting c.shared
  proper : ∀ t ∈ c.threads, t.Proper c.shared
  running : c.shared.failOnce = .running → ∃ t ∈ c.threads, t.runs = true
  owned : c.shared.swapped = true → ∀ entry ∈ c.shared.sent,
    ∃ t ∈ c.threads, t.Owns entry

theorem FailInv.kept (step : (client settings).Step c e c') (all : AnswersAll e)
    (kept : e ≠ .deadlineFailed) (inv : FailInv c) : FailInv c' := by
  have latched := step_latched step
  refine ⟨?_, ?_, ?_, ?_⟩
  · refine step.kinds ?_ ?_ ?_ ?_
    · exact fun t _ member taken =>
        Alone.halting taken all kept (inv.proper t member) inv.halting
    · intro _ _ _ _ taken
      rw [Meet.unchanged taken]
      exact inv.halting
    · exact fun _ taken => Spawn.halting taken inv.halting
    · exact fun taken => Outside.halting taken inv.halting
  · refine step.everywhere ?_ ?_ ?_ ?_
    · exact fun t _ member taken => Alone.proper taken (inv.proper t member)
    · exact fun _ _ _ _ _ _ taken => (Meet.proper taken).1
    · exact fun _ taken => Spawn.proper taken
    · exact fun t member => (inv.proper t member).stable latched
  · have covers := step.covered (fun sh (_ : Unit) => sh.failOnce = .running)
      (fun t _ => t.runs = true) ?_ ?_ ?_ ?_ fun _ => inv.running
    · exact covers ()
    · exact fun _ _ _ taken _ => Alone.running taken
    · intro _ _ _ _ taken _ running
      obtain ⟨_, ⟨first, second⟩, _⟩ := Meet.proper taken
      rw [Meet.unchanged taken] at running
      simp [running, first, second]
    · intro _ taken _ running
      rwa [(Spawn.unchanged taken).2.1] at running
    · intro taken _ running
      rwa [(Outside.unchanged taken).2.1] at running
  · have covers := step.covered (fun sh entry => sh.swapped = true ∧ entry ∈ sh.sent) Thread.Owns
      ?_ ?_ ?_ ?_ fun entry needed => inv.owned needed.1 entry needed.2
    · exact fun swapped entry member => covers entry ⟨swapped, member⟩
    · exact fun t t' _ taken entry needed => Alone.owned taken inv.halting needed.1 needed.2
    · intro _ _ _ _ taken entry needed
      obtain ⟨_, _, first, second⟩ := Meet.proper taken
      rw [Meet.unchanged taken] at needed
      simp [needed, Thread.Owns, first, second]
    · intro _ taken entry needed
      obtain ⟨_, _, swapped, sent⟩ := Spawn.unchanged taken
      rwa [swapped, sent] at needed
    · intro taken entry needed
      obtain ⟨_, _, swapped, sent⟩ := Outside.unchanged taken
      rwa [swapped, sent] at needed

theorem FailInv.dialed (batches : Bool) : FailInv (dialed batches) := by
  refine ⟨⟨?_, ?_, ?_, ?_⟩, ?_, ?_, ?_⟩
  · exact fun begun => by cases begun
  · exact fun past => by cases past
  · exact fun swapped => by cases swapped
  · exact fun drop member => absurd member (Multiset.notMem_zero drop)
  · intro t member
    obtain rfl | rfl := dialed_threads member
    · trivial
    · trivial
  · exact fun running => by cases running
  · exact fun swapped => by cases swapped

theorem failInv_of_run (batches : Bool)
    (run : (client settings).Run (fun c e => AnswersAll e ∧ Careful c e) (dialed batches) c) :
    Inv c ∧ FailInv c := by
  refine run.invariant (fun c => Inv c ∧ FailInv c) ⟨.dialed batches, .dialed batches⟩ ?_
  rintro c e c' step ⟨all, fresh, kept⟩ ⟨inv, failInv⟩
  exact ⟨inv.kept step fresh, failInv.kept step all kept⟩

structure Quiet (c : Config Shared Thread) : Prop where
  failed : c.shared.done = true
  ended : ∀ t ∈ c.threads, t = .finished

theorem Quiet.sent_empty (quiet : Quiet c) (inv : FailInv c) : c.shared.sent = 0 := by
  have finished : c.shared.failOnce = .finished := by
    cases once : c.shared.failOnce with
    | idle => exact absurd once (inv.halting.begun quiet.failed)
    | running =>
        obtain ⟨t, member, runs⟩ := inv.running once
        rw [quiet.ended t member] at runs
        cases runs
    | finished => rfl
  rw [Multiset.eq_zero_iff_forall_notMem]
  intro entry member
  obtain ⟨t, threadMember, sending, holds, _⟩ :=
    inv.owned (inv.halting.finished finished) entry member
  rw [quiet.ended t threadMember] at holds
  cases holds

theorem Quiet.accounted (quiet : Quiet c) (inv : Inv c) (empty : c.shared.sent = 0)
    {call : Submission} (submitted : call ∈ c.shared.submitted) :
    (∃ outcome, (call, outcome) ∈ c.shared.results) ∨
      ∃ reason, (call, reason) ∈ c.shared.dropped := by
  have item : Item.call call ∈ c.shared.items + c.threads.bind Thread.items := by
    rw [inv.balanced]
    exact Multiset.mem_add.mpr (.inl (Multiset.mem_map_of_mem _ submitted))
  have idle : Item.call call ∉ c.threads.bind Thread.items := by
    intro held
    obtain ⟨t, member, held⟩ := Multiset.mem_bind.mp held
    rw [quiet.ended t member] at held
    exact Multiset.notMem_zero _ held
  have here := (Multiset.mem_add.mp item).resolve_right idle
  simp only [Shared.items, empty, Multiset.zero_bind, Multiset.mem_add, Multiset.mem_map,
    Multiset.notMem_zero, false_or, reduceCtorEq, and_false, exists_false, or_false] at here
  obtain ⟨⟨_, outcome⟩, member, same⟩ | ⟨⟨_, reason⟩, member, same⟩ := here
  · cases same
    exact .inl ⟨outcome, member⟩
  · cases same
    exact .inr ⟨reason, member⟩

/-- In every careful run, once the client has failed and everything has come to its end, the
map is empty and every call has a result, unless one of its contexts has expired. -/
theorem no_rpc_lost (settings : Settings) (batches : Bool) (c : Config Shared Thread)
    (run : (client settings).Run (fun c e => AnswersAll e ∧ Careful c e) (dialed batches) c)
    (quiet : Quiet c) :
    c.shared.sent = 0 ∧ ∀ call ∈ c.shared.submitted,
      (∃ outcome, (call, outcome) ∈ c.shared.results) ∨
        call.ctx ∈ c.shared.expired ∨ call.queueCtx ∈ c.shared.expired := by
  obtain ⟨inv, failInv⟩ := failInv_of_run batches run
  have empty := quiet.sent_empty failInv
  refine ⟨empty, fun call submitted => ?_⟩
  obtain result | ⟨reason, dropped⟩ := quiet.accounted inv empty submitted
  · exact .inl result
  · exact .inr (failInv.halting.excused _ dropped)

theorem no_rpc_lost_answered : Quiet answered ∧ answered.shared.sent = 0 ∧
    ∀ call ∈ answered.shared.submitted,
      (∃ outcome, (call, outcome) ∈ answered.shared.results) ∨
        call.ctx ∈ answered.shared.expired ∨ call.queueCtx ∈ answered.shared.expired := by
  have quiet : Quiet answered := ⟨rfl, by decide⟩
  exact ⟨quiet, no_rpc_lost ⟨1, 0⟩ true answered
    (answered_run.mono fun _ _ serial => ⟨serial.answersAll, serial.careful⟩) quiet⟩

-- The client has been closed, and the reader has given up the RPC whose response it has read.
def lost : Config Shared Thread where
  shared := { matched.shared with
    done := true
    connClosed := true
    failOnce := .finished
    inFlight := 0
    dropped := {(sampleCall, .lost)}
    freed := {0}
    swapped := true }
  threads := .finished ::ₘ .finished ::ₘ .finished ::ₘ .finished ::ₘ 0

theorem lost_run :
    (client ⟨1, 0⟩).Run (fun c e => AnswersAll e ∧ FreshID c e) (dialed true) lost := by
  have free : ∀ c, AnswersAll .other ∧ FreshID c .other := fun c => ⟨nofun, nofun⟩
  have failing : ∀ c, AnswersAll .deadlineFailed ∧ FreshID c .deadlineFailed :=
    fun c => ⟨nofun, nofun⟩
  have run : (client ⟨1, 0⟩).Run (fun c e => AnswersAll e ∧ FreshID c e) (dialed true)
      ⟨matched.shared, ([.finished, .processRPCs .gather 0 [],
        .inFlightDown sampleFrame (.single sampleCall)] : List Thread)⟩ :=
    matched_run.mono fun _ _ serial => ⟨serial.answersAll, serial.careful.1⟩
  replace run := run.starts .close (free _)
  replace run := run.moves 0 rfl (.fail_first rfl) (free _)
  replace run := run.moves 0 rfl .closeConn (free _)
  -- The connection is closed, so the reader's update of the deadline fails.
  replace run := run.moves 3 rfl (.inFlightDown_failed rfl) (failing _)
  replace run := run.moves 0 rfl .swapSent (free _)
  replace run := run.moves 0 rfl .failSent_done (free _)
  replace run := run.moves 2 rfl (.processRPCs_closed rfl) (free _)
  replace run := run.moves 2 rfl .returned (free _)
  exact run.moves 3 rfl (.fail_again rfl) (free _)

/-- The call of a response that was read while the client was closed gets no result. -/
theorem rpc_lost : ∃ settings batches c,
    (client settings).Run (fun c e => AnswersAll e ∧ FreshID c e) (dialed batches) c ∧ Quiet c ∧
      ∃ call ∈ c.shared.submitted, (∀ outcome, (call, outcome) ∉ c.shared.results) ∧
        call.ctx ∉ c.shared.expired ∧ call.queueCtx ∉ c.shared.expired := by
  refine ⟨⟨1, 0⟩, true, lost, lost_run, ⟨rfl, by decide⟩, sampleCall, ?_, ?_, ?_, ?_⟩
  · exact Multiset.mem_singleton_self _
  · exact fun outcome => Multiset.notMem_zero _
  · exact List.not_mem_nil
  · exact List.not_mem_nil

end GoHBase.RegionClient
