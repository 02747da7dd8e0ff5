import GoHBase.ClientFailure

/-!
The calls of a batch: whoever queued them waits for their results under the context of the
batch, while each call has a context of its own.
-/

namespace GoHBase.RegionClient

open Interleaving

variable {settings : Settings} {sh sh' : Shared} {t t' : Thread} {e : Event}
  {c c' : Config Shared Thread}

/-- When a multi is marshalled, a call whose own context has expired was queued with a context
that has expired too. -/
def Considerate (sh : Shared) (t : Thread) : Prop :=
  ∀ caller taking calls, t = .marshal caller (.multi taking calls) →
    ∀ call ∈ calls, call.ctx ∈ sh.expired → call.queueCtx ∈ sh.expired

def Rpc.OneContext : Rpc → Prop
  | .single call => call.ctx = call.queueCtx
  | .multi _ _ => True

def Thread.OneContext : Thread → Prop
  | .queueRPC call => call.ctx = call.queueCtx
  | .queueBatch ctx calls => ∀ call ∈ calls, call.queueCtx = ctx
  | .marshal _ rpc => rpc.OneContext
  | .register _ rpc => rpc.OneContext
  | .inFlightDown _ rpc => rpc.OneContext
  | .answer _ rpc => rpc.OneContext
  | _ => True

theorem oneContext_flushOrWait (taking : Nat) (calls : List Submission) :
    (flushOrWait settings taking calls).OneContext := by
  rcases flushOrWait_cases settings taking calls with ⟨select, same⟩ | same
  · exact same ▸ trivial
  · exact same ▸ trivial

theorem oneContext_added (select : Select) (taking : Nat) (calls : List Submission) :
    (added settings select taking calls).OneContext := by
  rcases added_cases settings select taking calls with ⟨select, same⟩ | same
  · exact same ▸ trivial
  · exact same ▸ trivial

theorem Alone.oneContext (taken : Alone settings sh t e sh' t') (mine : t.OneContext)
    (sent : ∀ entry ∈ sh.sent, entry.rpc.OneContext) :
    t'.OneContext ∧ ∀ entry ∈ sh'.sent, entry.rpc.OneContext := by
  cases taken with
  | queueRPC_default => exact ⟨mine, sent⟩
  | processRPCs_default => exact ⟨oneContext_flushOrWait _ _, sent⟩
  | marshal_single => exact ⟨mine, sent⟩
  | registerRPC =>
      refine ⟨trivial, ?_⟩
      intro entry member
      rcases Multiset.mem_cons.mp member with rfl | member
      · exact mine
      · exact sent entry (Multiset.mem_of_mem_filter member)
  | @inFlightUp_ok sending _ =>
      refine ⟨?_, sent⟩
      cases sending.caller <;> trivial
  | unregister_found =>
      exact ⟨trivial, fun entry member => sent entry (Multiset.mem_of_mem_filter member)⟩
  | @unregister_missing sending _ =>
      refine ⟨?_, sent⟩
      cases sending.caller <;> trivial
  | @fail_again resume _ =>
      refine ⟨?_, sent⟩
      cases resume <;> trivial
  | swapSent => exact ⟨trivial, fun entry member => absurd member (Multiset.notMem_zero entry)⟩
  | @failSent_done resume =>
      refine ⟨?_, sent⟩
      cases resume <;> trivial
  | @returned _ after =>
      refine ⟨?_, sent⟩
      cases after <;> trivial
  | received_found found _ =>
      exact ⟨sent _ found, fun entry member => sent entry (Multiset.mem_of_mem_filter member)⟩
  | inFlightDown_ok => exact ⟨mine, sent⟩
  | _ => exact ⟨trivial, sent⟩

/-- Why a call may be left without a result: its multi was lost or not answered in full, or
the context it was queued with has expired. -/
def Excusable (sh : Shared) (drop : Submission × Reason) : Prop :=
  drop.2 = .lost ∨ drop.2 = .notAnswered ∨ drop.1.queueCtx ∈ sh.expired

theorem excusable_drop {calls : List Submission} {reason : Reason}
    (old : ∀ drop ∈ sh.dropped, Excusable sh drop)
    (new : ∀ call ∈ calls, Excusable sh (call, reason)) :
    ∀ drop ∈ (sh.drop calls reason).dropped, Excusable sh drop := by
  intro drop member
  rcases Multiset.mem_add.mp member with before | now
  · exact old drop before
  · rcases List.mem_map.mp (Multiset.mem_coe.mp now) with ⟨call, called, rfl⟩
    exact new call called

theorem Alone.excusable (taken : Alone settings sh t e sh' t') (considerate : Considerate sh t)
    (mine : t.OneContext) (old : ∀ drop ∈ sh.dropped, Excusable sh drop) :
    ∀ drop ∈ sh'.dropped, Excusable sh' drop := by
  cases taken with
  | @queueRPC_expired call past =>
      refine excusable_drop old fun other member => .inr (.inr ?_)
      rw [List.mem_singleton.mp member, ← mine]
      exact past
  | queueBatch_expired past =>
      refine excusable_drop old fun call member => .inr (.inr ?_)
      rw [mine call member]
      exact past
  | marshal_multi nils past =>
      refine excusable_drop old fun call member => .inr (.inr ?_)
      rcases List.mem_filter.mp member with ⟨called, isNil⟩
      exact considerate _ _ _ rfl call called (past call called isNil)
  | answer_expired past =>
      refine excusable_drop old fun other member => .inr (.inr ?_)
      rw [List.mem_singleton.mp member, ← mine]
      exact past
  | answer_multi _ answers missing _ => exact excusable_drop old fun call _ => .inr (.inl rfl)
  | inFlightDown_failed _ => exact excusable_drop old fun call _ => .inl rfl
  | _ => exact old

theorem Meet.oneContext {u u' : Thread} (taken : Meet settings sh t u e sh' t' u') :
    t'.OneContext ∧ u'.OneContext := by
  cases taken
  exact ⟨trivial, oneContext_added _ _ _⟩

theorem Spawn.oneContext (taken : Spawn settings sh e sh' t) :
    t.OneContext ∧ sh'.dropped = sh.dropped ∧ sh'.expired = sh.expired := by
  cases taken with
  | queueRPC ctx batchable =>
      refine ⟨?_, rfl, rfl⟩
      split
      · exact submit_queueCtx _ ctx [ctx]
      · exact rfl
  | queueBatch ctx ctxs => exact ⟨submit_queueCtx _ ctx ctxs, rfl, rfl⟩
  | close => exact ⟨trivial, rfl, rfl⟩

theorem Outside.dropped (taken : Outside sh e sh') : sh'.dropped = sh.dropped := by
  cases taken
  rfl

theorem Outside.excusable (taken : Outside sh e sh')
    (old : ∀ drop ∈ sh.dropped, Excusable sh drop) : ∀ drop ∈ sh'.dropped, Excusable sh' drop := by
  have latched := (Outside.unchanged taken).1
  intro drop member
  rw [Outside.dropped taken] at member
  rcases old drop member with lost | missing | past
  · exact .inl lost
  · exact .inr (.inl missing)
  · exact .inr (.inr (latched.expired _ past))

structure BatchInv (c : Config Shared Thread) : Prop where
  inv : Inv c
  threads : ∀ t ∈ c.threads, t.OneContext
  sent : ∀ entry ∈ c.shared.sent, entry.rpc.OneContext
  dropped : ∀ drop ∈ c.shared.dropped, Excusable c.shared drop

theorem BatchInv.kept (step : ((client settings).restrict Considerate).Step c e c')
    (fresh : FreshID c e) (inv : BatchInv c) : BatchInv c' := by
  refine ⟨inv.inv.kept step.of_restrict fresh, ?_, ?_, ?_⟩
  · refine step.everywhere ?_ ?_ ?_ inv.threads
    · exact fun t _ member taken => (taken.2.oneContext (inv.threads t member) inv.sent).1
    · exact fun _ _ _ _ _ _ taken => Meet.oneContext taken
    · exact fun _ taken => (Spawn.oneContext taken).1
  · refine step.kinds ?_ ?_ ?_ ?_
    · exact fun t _ member taken => (taken.2.oneContext (inv.threads t member) inv.sent).2
    · intro _ _ _ _ taken
      rw [Meet.unchanged taken]
      exact inv.sent
    · intro _ taken
      rw [(Spawn.unchanged taken).2.2.2]
      exact inv.sent
    · intro taken
      rw [(Outside.unchanged taken).2.2.2]
      exact inv.sent
  · refine step.kinds ?_ ?_ ?_ ?_
    · exact fun t _ member taken => taken.2.excusable taken.1 (inv.threads t member) inv.dropped
    · intro _ _ _ _ taken
      rw [Meet.unchanged taken]
      exact inv.dropped
    · intro _ taken
      rcases Spawn.oneContext taken with ⟨_, dropped, expired⟩
      rw [dropped]
      simp only [Excusable, expired]
      exact inv.dropped
    · exact fun taken => Outside.excusable taken inv.dropped

theorem BatchInv.dialed (batches : Bool) : BatchInv (dialed batches) := by
  refine ⟨.dialed batches, ?_, ?_, ?_⟩
  · intro t member
    rcases dialed_threads member with rfl | rfl
    · trivial
    · trivial
  · exact fun entry member => absurd member (Multiset.notMem_zero entry)
  · exact fun drop member => absurd member (Multiset.notMem_zero drop)

/-- The client is done with a call: no goroutine has it and it is not in the map, and its multi
was not given up by the reader and was answered in full if it was answered. -/
structure Processed (c : Config Shared Thread) (call : Submission) : Prop where
  released : ∀ t ∈ c.threads, Item.call call ∉ t.items
  answered : ∀ entry ∈ c.shared.sent, Item.call call ∉ entry.rpc.items
  found : (call, Reason.lost) ∉ c.shared.dropped
  complete : (call, Reason.notAnswered) ∉ c.shared.dropped

theorem Processed.accounted {call : Submission} (processed : Processed c call) (inv : Inv c)
    (submitted : call ∈ c.shared.submitted) :
    call ∈ c.shared.results.map Prod.fst ∨ call ∈ c.shared.dropped.map Prod.fst := by
  have item : Item.call call ∈ c.shared.items + c.threads.bind Thread.items := by
    rw [inv.balanced]
    exact Multiset.mem_add.mpr (.inl (Multiset.mem_map_of_mem _ submitted))
  rcases Multiset.mem_add.mp item with here | held
  · simp only [Shared.items, Multiset.mem_add, Multiset.mem_map, Multiset.mem_bind] at here
    rcases here with (((⟨entry, member, inside⟩ | ⟨result, member, same⟩) |
      ⟨drop, member, same⟩) | ⟨taking, _, same⟩) | ⟨taking, _, same⟩
    · exact absurd inside (processed.answered entry member)
    · cases same
      exact .inl (Multiset.mem_map_of_mem _ member)
    · cases same
      exact .inr (Multiset.mem_map_of_mem _ member)
    · cases same
    · cases same
  · rcases Multiset.mem_bind.mp held with ⟨t, member, inside⟩
    exact absurd inside (processed.released t member)

theorem results_calls_nodup (inv : Inv c) : (c.shared.results.map Prod.fst).Nodup := by
  have tokens := results_nodup inv
  refine Multiset.Nodup.of_map Submission.token ?_
  rw [Multiset.map_map]
  exact tokens

/-- In every run in which calls expire only together with the batch they are marshalled in, a
call that the client is done with has one result, or the context it was queued with is done. -/
theorem no_batch_call_lost (settings : Settings) (batches : Bool) (c : Config Shared Thread)
    (run : ((client settings).restrict Considerate).Run FreshID (dialed batches) c)
    (call : Submission) (submitted : call ∈ c.shared.submitted) (processed : Processed c call) :
    (c.shared.results.map Prod.fst).count call = 1 ∨ call.queueCtx ∈ c.shared.expired := by
  have kept := run.invariant BatchInv (.dialed batches) fun step fresh inv => inv.kept step fresh
  rcases processed.accounted kept.inv submitted with result | dropped
  · exact .inl (Multiset.count_eq_one_of_mem (results_calls_nodup kept.inv) result)
  · rcases Multiset.mem_map.mp dropped with ⟨⟨same, reason⟩, member, rfl⟩
    rcases kept.dropped _ member with lost | missing | past
    · cases lost
      exact absurd member processed.found
    · cases missing
      exact absurd member processed.complete
    · exact .inr past

theorem considerate_run {allowed : Config Shared Thread → Event → Prop}
    {start : Config Shared Thread} (run : (client settings).Run allowed start c)
    (calm : c.shared.expired = []) :
    ((client settings).restrict Considerate).Run allowed start c := by
  induction run with
  | refl => exact .refl
  | @step c c' e run taken ok ih =>
      have before : c.shared.expired = [] := by
        apply List.eq_nil_iff_forall_not_mem.mpr
        intro ctx member
        have later := (step_latched taken).expired ctx member
        rw [calm] at later
        exact List.not_mem_nil later
      refine .step (ih before) ?_ ok
      cases taken with
      | alone rest moved =>
          refine .alone rest ⟨?_, moved⟩
          intro _ _ _ _ call _ past
          change call.ctx ∈ _ at past
          rw [before] at past
          exact absurd past List.not_mem_nil
      | meet rest moved => exact .meet rest moved
      | spawn rest moved => exact .spawn rest moved
      | outside rest moved => exact .outside rest moved

def Orderly (c : Config Shared Thread) (e : Event) : Prop :=
  FreshID c e ∧ AnswersAll e ∧ e ≠ .deadlineFailed

theorem orderly_other (c : Config Shared Thread) : Orderly c .other := ⟨nofun, nofun, nofun⟩

theorem orderly_answered (c : Config Shared Thread) : Orderly c (.answered []) := by
  refine ⟨nofun, ?_, nofun⟩
  intro missing same
  cases same
  rfl

theorem orderly_registerRPC (idle : c.shared.sent = 0) (quiet : ∀ t ∈ c.threads, t.sending = none) :
    Orderly c .registerRPC := by
  refine ⟨fun _ => ⟨?_, ?_⟩, nofun, nofun⟩
  · intro entry member
    rw [idle] at member
    exact absurd member (Multiset.notMem_zero entry)
  · intro t member sending holds
    rw [quiet t member] at holds
    cases holds

def batchCall : Submission := ⟨0, 7, 5⟩

def handed (past : List Nat) : Config Shared Thread where
  shared := { (dialed true).shared with
    expired := past
    started := 1
    submitted := {batchCall}
    takings := 1 }
  threads := .finished ::ₘ .marshal .flush (.multi 0 [batchCall]) ::ₘ .receiveRPCs ::ₘ 0

theorem queued_run : (client ⟨1, 0⟩).Run Orderly (dialed true)
    ⟨{ (dialed true).shared with started := 1, submitted := {batchCall}, takings := 1 },
      .queueBatch 5 [batchCall] ::ₘ .processRPCs .gather 0 [] ::ₘ .receiveRPCs ::ₘ 0⟩ := by
  have run : (client ⟨1, 0⟩).Run Orderly (dialed true)
      ⟨(dialed true).shared, .newMulti ::ₘ .receiveRPCs ::ₘ 0⟩ := .refl
  replace run := run.moves 0 rfl .newMulti (orderly_other _)
  exact run.starts (.queueBatch 5 [7]) (orderly_other _)

theorem handed_run : (client ⟨1, 0⟩).Run Orderly (dialed true) (handed []) :=
  queued_run.step (.meet _ .handOver) (orderly_other _)

theorem handed_late_run : (client ⟨1, 0⟩).Run Orderly (dialed true) (handed [7]) := by
  have run := queued_run.step (.outside _ (.expire 7)) (orderly_other _)
  exact run.step (.meet _ .handOver) (orderly_other _)

def multiSent (past : List Nat) (calls : List Submission)
    (dropped : Multiset (Submission × Reason)) : Config Shared Thread where
  shared := { (handed past).shared with
    sent := {⟨1, .multi 0 calls, 1⟩}
    id := 1
    inFlight := 1
    registrations := 1
    registered := [(1, .multi 0 calls)]
    dropped := dropped }
  threads := .finished ::ₘ .newMulti ::ₘ .receiveRPCs ::ₘ 0

theorem multiSent_run {past : List Nat} {calls : List Submission}
    {dropped : Multiset (Submission × Reason)}
    (run : (client ⟨1, 0⟩).Run Orderly (dialed true)
      ⟨{ (handed past).shared with dropped := dropped },
        .finished ::ₘ .register .flush (.multi 0 calls) ::ₘ .receiveRPCs ::ₘ 0⟩) :
    (client ⟨1, 0⟩).Run Orderly (dialed true) (multiSent past calls dropped) := by
  replace run := run.moves 1 rfl .registerRPC
    (orderly_registerRPC rfl (by simp [Thread.sending]))
  replace run := run.moves 1 rfl (.write_ok rfl) (orderly_other _)
  exact run.moves 1 rfl (.inFlightUp_ok rfl) (orderly_other _)

def multiAnswered (past : List Nat) (calls : List Submission)
    (dropped : Multiset (Submission × Reason)) : Config Shared Thread where
  shared := { (multiSent past calls dropped).shared with
    sent := 0
    inFlight := (multiSent past calls dropped).shared.inFlight - 1 }
  threads := .finished ::ₘ .newMulti ::ₘ .answer sampleFrame (.multi 0 calls) ::ₘ 0

theorem multiAnswered_run {past : List Nat} {calls : List Submission}
    {dropped : Multiset (Submission × Reason)}
    (run : (client ⟨1, 0⟩).Run Orderly (dialed true) (multiSent past calls dropped)) :
    (client ⟨1, 0⟩).Run Orderly (dialed true) (multiAnswered past calls dropped) := by
  have found : (⟨1, .multi 0 calls, 1⟩ : Entry) ∈ (multiSent past calls dropped).shared.sent :=
    Multiset.mem_singleton_self _
  replace run := run.moves 2 rfl (.receiveRPCs_default rfl) (orderly_other _)
  replace run := run.moves 2 rfl (.receive_frame sampleFrame) (orderly_other _)
  replace run := run.moves 2 rfl (.received_found found rfl) (orderly_other _)
  have emptied : (multiSent past calls dropped).shared.unregisterRPC 1 =
      { (multiSent past calls dropped).shared with sent := 0 } := by
    simp [Shared.unregisterRPC, multiSent]
  change (client ⟨1, 0⟩).Run Orderly (dialed true)
    ⟨(multiSent past calls dropped).shared.unregisterRPC 1, _⟩ at run
  rw [emptied] at run
  exact run.moves 2 rfl (.inFlightDown_ok fun _ => rfl) (orderly_other _)

def batchAnswered : Config Shared Thread where
  shared := { (multiAnswered [] [batchCall] 0).shared with
    results := {(batchCall, .response sampleFrame)}
    freed := {0} }
  threads := .finished ::ₘ .newMulti ::ₘ .receiveRPCs ::ₘ 0

theorem batchAnswered_run : (client ⟨1, 0⟩).Run Orderly (dialed true) batchAnswered := by
  have run := handed_run.moves 1 rfl
    (.marshal_multi (fun _ => false) fun _ _ never => by cases never) (orderly_other _)
  replace run := multiAnswered_run (multiSent_run run)
  have once : ([(batchCall, true)].map Prod.fst ++ []).Perm [batchCall] := .refl _
  replace run :=
    run.moves 2 rfl (.answer_multi rfl [(batchCall, true)] [] once) (orderly_answered _)
  replace run := run.moves 2 rfl .deliver (orderly_other _)
  exact run.moves 2 rfl .returned (orderly_other _)

theorem no_batch_call_lost_answered :
    Processed batchAnswered batchCall ∧
      ((batchAnswered.shared.results.map Prod.fst).count batchCall = 1 ∨
        batchCall.queueCtx ∈ batchAnswered.shared.expired) := by
  have processed : Processed batchAnswered batchCall := ⟨by decide, by decide, by decide, by decide⟩
  have run : (client ⟨1, 0⟩).Run FreshID (dialed true) batchAnswered :=
    batchAnswered_run.mono fun _ _ orderly => orderly.1
  exact ⟨processed, no_batch_call_lost ⟨1, 0⟩ true batchAnswered (considerate_run run rfl) batchCall
    (Multiset.mem_singleton_self _) processed⟩

-- The call had expired, and the multi that was sent and answered had no calls.
def batchForgotten : Config Shared Thread where
  shared := { (multiAnswered [7] [] {(batchCall, .ownContext)}).shared with freed := {0} }
  threads := .finished ::ₘ .newMulti ::ₘ .receiveRPCs ::ₘ 0

theorem batchForgotten_run : (client ⟨1, 0⟩).Run Orderly (dialed true) batchForgotten := by
  have run := handed_late_run.moves 1 rfl
    (.marshal_multi (fun _ => true) fun call member _ => by
      obtain rfl := List.mem_singleton.mp member
      exact List.mem_singleton_self _) (orderly_other _)
  replace run := multiAnswered_run (multiSent_run run)
  have once : (([] : List (Submission × Bool)).map Prod.fst ++ []).Perm [] := .refl _
  replace run := run.moves 2 rfl (.answer_multi rfl [] [] once) (orderly_answered _)
  exact run.moves 2 rfl .returned (orderly_other _)

theorem Alone.dropped (taken : Alone settings sh t e sh' t') {drop : Submission × Reason}
    (member : drop ∈ sh.dropped) : drop ∈ sh'.dropped := by
  cases taken with
  | queueRPC_expired => exact Multiset.mem_add.mpr (.inl member)
  | queueBatch_expired => exact Multiset.mem_add.mpr (.inl member)
  | marshal_multi => exact Multiset.mem_add.mpr (.inl member)
  | answer_expired => exact Multiset.mem_add.mpr (.inl member)
  | answer_multi => exact Multiset.mem_add.mpr (.inl member)
  | inFlightDown_failed => exact Multiset.mem_add.mpr (.inl member)
  | _ => exact member

theorem step_dropped (step : (client settings).Step c e c') {drop : Submission × Reason}
    (member : drop ∈ c.shared.dropped) : drop ∈ c'.shared.dropped := by
  refine step.kinds ?_ ?_ ?_ ?_
  · exact fun _ _ _ taken => Alone.dropped taken member
  · intro _ _ _ _ taken
    rw [Meet.unchanged taken]
    exact member
  · intro _ taken
    rw [(Spawn.oneContext taken).2.1]
    exact member
  · intro taken
    rw [Outside.dropped taken]
    exact member

theorem dropped_no_result {start : Config Shared Thread} (inv : Inv start)
    {drop : Submission × Reason} (member : drop ∈ start.shared.dropped)
    (run : (client settings).Run FreshID start c) (outcome : Outcome) :
    (drop.1, outcome) ∉ c.shared.results := by
  have kept := run.invariant (fun c => Inv c ∧ drop ∈ c.shared.dropped) ⟨inv, member⟩
    fun step fresh before => ⟨before.1.kept step fresh, step_dropped step before.2⟩
  have places := (Multiset.nodup_add.mp kept.1.places).1
  simp only [Shared.items, Multiset.nodup_add] at places
  intro result
  refine Multiset.disjoint_left.mp places.1.1.2.2 ?_ (Multiset.mem_map_of_mem _ kept.2)
  exact Multiset.mem_add.mpr (.inr (Multiset.mem_map.mpr ⟨_, result, rfl⟩))

/-- A call expires before its batch is marshalled. The client answers everything that was sent,
and whoever waits for the batch waits for ever. -/
theorem batch_call_lost : ∃ settings batches c call,
    (client settings).Run Orderly (dialed batches) c ∧ call ∈ c.shared.submitted ∧
      Processed c call ∧ call.queueCtx ∉ c.shared.expired ∧
      ∀ c', (client settings).Run FreshID c c' →
        ∀ outcome, (call, outcome) ∉ c'.shared.results := by
  refine ⟨⟨1, 0⟩, true, batchForgotten, batchCall, batchForgotten_run,
    Multiset.mem_singleton_self _, ⟨by decide, by decide, by decide, by decide⟩, by decide, ?_⟩
  intro c' run
  have inv : Inv batchForgotten := batchForgotten_run.invariant Inv (.dialed true)
    fun step orderly inv => inv.kept step orderly.1
  exact dropped_no_result inv (Multiset.mem_singleton_self (batchCall, Reason.ownContext)) run

end GoHBase.RegionClient
