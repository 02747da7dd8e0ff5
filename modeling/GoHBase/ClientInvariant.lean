import GoHBase.ClientCore

/-!
What every run of the region client keeps: each call and each multi is in one
place, and results are traced to the frames they were computed from.
-/

namespace GoHBase.RegionClient

open Interleaving

variable {settings : Settings} {sh sh' : Shared} {t t' : Thread} {e : Event}

inductive Item
  | call (call : Submission)
  | multi (taking : Nat)
  deriving DecidableEq

def callItems (calls : List Submission) : Multiset Item := calls.map Item.call

@[simp]
theorem callItems_nil : callItems [] = 0 := rfl

@[simp]
theorem callItems_cons (call : Submission) (calls : List Submission) :
    callItems (call :: calls) = {.call call} + callItems calls := rfl

@[simp]
theorem callItems_append (first second : List Submission) :
    callItems (first ++ second) = callItems first + callItems second := by
  simp [callItems]

theorem callItems_perm {first second : List Submission} (same : first.Perm second) :
    callItems first = callItems second := by
  unfold callItems
  exact Multiset.coe_eq_coe.mpr (same.map _)

theorem callItems_filter (accept : Submission → Bool) (calls : List Submission) :
    callItems (calls.filter accept) + callItems (calls.filter fun call => !accept call) =
      callItems calls := by
  rw [← callItems_append]
  exact callItems_perm (List.filter_append_perm accept calls)

def multiItems (taking : Option Nat) : Multiset Item := taking.toList.map Item.multi

def Rpc.items (rpc : Rpc) : Multiset Item := callItems rpc.calls + multiItems rpc.taking

def Job.items (job : Job) : Multiset Item :=
  callItems (job.pending.map Prod.fst) + multiItems job.frees

@[simp]
theorem items_returnResult (rpc : Rpc) (outcome : Outcome) :
    (rpc.returnResult outcome).items = rpc.items := by
  simp [Rpc.returnResult, Job.items, Rpc.items, Function.comp_def]

def FailStage.items : FailStage → Multiset Item
  | .failSent sent => sent.bind Rpc.items
  | _ => 0

def After.items : After → Multiset Item
  | .failSent sent _ => sent.bind Rpc.items
  | _ => 0

/-- What a goroutine has in hand. An RPC that is in the map is not in the hands of its sender. -/
def Thread.items : Thread → Multiset Item
  | .queueRPC call => callItems [call]
  | .queueBatch _ calls => callItems calls
  | .processRPCs _ taking calls => callItems calls + multiItems (some taking)
  | .marshal _ rpc => rpc.items
  | .register _ rpc => rpc.items
  | .fail stage _ => stage.items
  | .returnResult job after => job.items + after.items
  | .inFlightDown _ rpc => rpc.items
  | .answer _ rpc => rpc.items
  | _ => 0

def Shared.items (sh : Shared) : Multiset Item :=
  (sh.sent.bind fun entry => entry.rpc.items) +
    sh.results.map (fun result => .call result.1) + sh.dropped.map (fun drop => .call drop.1) +
    sh.freed.map .multi + sh.leaked.map .multi

def Shared.issued (sh : Shared) : Multiset Item :=
  sh.submitted.map .call + (Multiset.range sh.takings).map .multi

theorem items_drop (sh : Shared) (calls : List Submission) (reason : Reason) :
    (sh.drop calls reason).items = sh.items + callItems calls := by
  simp only [Shared.items, Shared.drop, Multiset.map_add, Multiset.map_coe, List.map_map, callItems,
    Function.comp_def]
  abel

theorem items_free (sh : Shared) (frees : Option Nat) :
    (sh.free frees).items = sh.items + multiItems frees := by
  simp only [Shared.items, Shared.free, multiItems, Multiset.map_add, Multiset.map_coe]
  abel

theorem items_lose (sh : Shared) (rpc : Rpc) : (sh.lose rpc).items = sh.items + rpc.items := by
  simp only [Shared.items, Shared.lose, Shared.drop, Rpc.items, multiItems, callItems,
    Multiset.map_add, Multiset.map_coe, List.map_map, Function.comp_def]
  abel

theorem items_registerRPC (sh : Shared) (rpc : Rpc)
    (unused : ∀ entry ∈ sh.sent, entry.id ≠ sh.id + 1) :
    (sh.registerRPC rpc).items = sh.items + rpc.items := by
  have kept : (sh.sent.filter fun entry => entry.id ≠ sh.id + 1) = sh.sent :=
    Multiset.filter_eq_self.mpr unused
  simp only [Shared.items, Shared.registerRPC, kept, Multiset.cons_bind]
  abel

theorem sent_split {sent : Multiset Entry} (unique : (sent.map Entry.id).Nodup) {entry : Entry}
    (found : entry ∈ sent) : sent = entry ::ₘ sent.filter fun other => other.id ≠ entry.id := by
  obtain ⟨rest, rfl⟩ := Multiset.exists_cons_of_mem found
  rw [Multiset.map_cons, Multiset.nodup_cons] at unique
  rw [Multiset.filter_cons_of_neg _ (by simp)]
  have others : (rest.filter fun other => other.id ≠ entry.id) = rest := by
    rw [Multiset.filter_eq_self]
    intro other member same
    exact unique.1 (Multiset.mem_map.mpr ⟨other, member, same⟩)
  rw [others]

theorem items_unregisterRPC (sh : Shared) (unique : (sh.sent.map Entry.id).Nodup) {entry : Entry}
    (found : entry ∈ sh.sent) :
    (sh.unregisterRPC entry.id).items + entry.rpc.items = sh.items := by
  have whole : (sh.sent.bind fun entry => entry.rpc.items) =
      entry.rpc.items + (sh.unregisterRPC entry.id).sent.bind fun entry => entry.rpc.items := by
    conv_lhs => rw [sent_split unique found, Multiset.cons_bind]
    rfl
  simp only [Shared.items, whole]
  simp only [Shared.unregisterRPC]
  abel

@[simp]
theorem items_caller_next (caller : Caller) : caller.next.items = 0 := by
  cases caller <;> rfl

@[simp]
theorem items_caller_after (caller : Caller) : caller.after.items = 0 := by
  cases caller <;> rfl

@[simp]
theorem items_resume_next (resume : Resume) : resume.next.items = 0 := by
  cases resume <;> rfl

@[simp]
theorem items_after_next (after : After) : after.next.items = after.items := by
  cases after <;> rfl

@[simp]
theorem items_frame_after (frame : Frame) : frame.after.items = 0 := by
  unfold Frame.after
  split <;> rfl

theorem flushOrWait_cases (settings : Settings) (taking : Nat) (calls : List Submission) :
    (∃ select, flushOrWait settings taking calls = .processRPCs select taking calls) ∨
      flushOrWait settings taking calls = .marshal .flush (.multi taking calls) := by
  unfold flushOrWait
  split
  · exact .inl ⟨.wait, rfl⟩
  · split
    · exact .inr rfl
    · exact .inl ⟨.linger, rfl⟩

theorem added_cases (settings : Settings) (select : Select) (taking : Nat)
    (calls : List Submission) :
    (∃ select', added settings select taking calls = .processRPCs select' taking calls) ∨
      added settings select taking calls = .marshal .flush (.multi taking calls) := by
  unfold added
  cases select with
  | gather =>
      dsimp only
      split
      · exact flushOrWait_cases settings taking calls
      · exact .inl ⟨.gather, rfl⟩
  | wait => exact .inl ⟨.gather, rfl⟩
  | linger =>
      dsimp only
      split
      · exact .inr rfl
      · exact .inl ⟨.linger, rfl⟩

def Resume.sending : Resume → Option Sending
  | .unregister sending => some sending
  | .stop => none

def After.sending : After → Option Sending
  | .failSent _ resume => resume.sending
  | _ => none

def Thread.sending : Thread → Option Sending
  | .write sending => some sending
  | .inFlightUp sending => some sending
  | .unregister sending => some sending
  | .fail _ resume => resume.sending
  | .returnResult _ after => after.sending
  | _ => none

def Agrees (sh : Shared) (t : Thread) : Prop :=
  ∀ sending, t.sending = some sending → ∀ entry ∈ sh.sent, entry.id = sending.id →
    entry.rpc = sending.rpc

theorem issued_newMulti (sh : Shared) : Shared.issued { sh with takings := sh.takings + 1 } =
    sh.issued + multiItems (some sh.takings) := by
  simp only [Shared.issued, multiItems, Multiset.range_succ, Option.toList_some, List.map_cons,
    List.map_nil, Multiset.coe_singleton, ← Multiset.singleton_add, Multiset.map_add,
    Multiset.map_singleton]
  abel

/-- The step lemma of the conservation law. -/
theorem Alone.balance (taken : Alone settings sh t e sh' t')
    (unique : (sh.sent.map Entry.id).Nodup) (agrees : Agrees sh t)
    (unused : e = .registerRPC → ∀ entry ∈ sh.sent, entry.id ≠ sh.id + 1) :
    sh'.items + t'.items + sh.issued = sh.items + t.items + sh'.issued := by
  have moved {part part' : Multiset Item} (same : part' = part) :
      part' + sh.issued = part + sh.issued := by rw [same]
  cases taken with
  | newMulti =>
      rw [issued_newMulti]
      simp only [Thread.items, callItems_nil]
      change sh.items + _ + _ = _
      abel
  | queueRPC_expired _ =>
      refine moved ?_
      rw [items_drop]
      simp only [Thread.items, add_zero]
  | queueBatch_expired _ =>
      refine moved ?_
      rw [items_drop]
      simp only [Thread.items, add_zero]
  | answer_expired _ =>
      refine moved ?_
      rw [items_drop]
      simp [Thread.items, Rpc.items, Rpc.calls, Rpc.taking, multiItems]
  | @marshal_multi _ taking calls nils _ =>
      refine moved ?_
      have split := callItems_filter nils calls
      rw [items_drop]
      simp only [Thread.items, Rpc.items, Rpc.calls, Rpc.taking, ← split]
      abel
  | registerRPC =>
      refine moved ?_
      rw [items_registerRPC _ _ (unused rfl)]
      simp only [Thread.items, add_zero]
  | @unregister_found sending entry found same =>
      refine moved ?_
      have whole := items_unregisterRPC sh unique found
      rw [same, agrees sending rfl entry found same] at whole
      simp only [Thread.items, items_returnResult, items_caller_after, add_zero, whole]
  | @received_found _ entry found _ =>
      refine moved ?_
      simp only [Thread.items, items_unregisterRPC sh unique found, add_zero]
  | inFlightDown_failed _ =>
      refine moved ?_
      rw [items_lose]
      simp only [Thread.items, FailStage.items, add_zero]
      rfl
  | @answer_multi _ taking calls message answers missing once =>
      refine moved ?_
      rw [items_drop]
      have all := callItems_perm once
      rw [callItems_append] at all
      simp only [Thread.items, Job.items, After.items, Rpc.items, Rpc.calls, Rpc.taking, ← all,
        List.map_map, Function.comp_def]
      abel
  | @deliver result pending frees after =>
      refine moved ?_
      simp only [Thread.items, Job.items, List.map_cons, callItems_cons, Shared.items,
        ← Multiset.singleton_add, Multiset.map_add, Multiset.map_singleton]
      abel
  | returned =>
      refine moved ?_
      rw [items_free, items_after_next]
      simp only [Thread.items, Job.items, List.map_nil, callItems_nil, zero_add, add_assoc]
  | swapSent =>
      refine moved ?_
      simp only [Thread.items, FailStage.items, Shared.items, Multiset.bind_map, Multiset.zero_bind]
      abel
  | failSent_next =>
      refine moved ?_
      simp only [Thread.items, FailStage.items, After.items, items_returnResult, Multiset.cons_bind]
  | queueBatch_closed _ =>
      refine moved ?_
      simp [Thread.items, Job.items, After.items, multiItems, Function.comp_def]
  | @processRPCs_default taking calls _ =>
      refine moved ?_
      obtain ⟨select, same⟩ | same := flushOrWait_cases settings taking calls
      · rw [same]
        rfl
      · rw [same]
        rfl
  | inFlightUp_ok _ =>
      refine moved ?_
      rw [items_caller_next]
      rfl
  | unregister_missing _ =>
      refine moved ?_
      rw [items_caller_next]
      rfl
  | fail_again _ =>
      refine moved ?_
      rw [items_resume_next]
      rfl
  | failSent_done =>
      refine moved ?_
      rw [items_resume_next]
      rfl
  | queueRPC_closed _ =>
      refine moved ?_
      simp [Thread.items, After.items, Rpc.items, Rpc.calls, Rpc.taking, multiItems]
  | processRPCs_closed _ =>
      refine moved ?_
      simp only [Thread.items, items_returnResult, After.items, add_zero]
      rfl
  | answer_single _ =>
      refine moved ?_
      simp only [Thread.items, items_returnResult, items_frame_after, add_zero]
  | answer_failed _ =>
      refine moved ?_
      simp only [Thread.items, items_returnResult, items_frame_after, add_zero]
  | _ => exact moved rfl

theorem issued_submit (sh : Shared) (queueCtx : Nat) (ctxs : List Nat) :
    (sh.submit queueCtx ctxs).issued = sh.issued + callItems (submit sh.started queueCtx ctxs) := by
  simp only [Shared.issued, Shared.submit, callItems, Multiset.map_add, Multiset.map_coe]
  abel

theorem Spawn.balance (taken : Spawn settings sh e sh' t) :
    sh'.items + t.items + sh.issued = sh.items + sh'.issued := by
  cases taken with
  | queueRPC ctx batchable =>
      have same : Thread.items (if batchable = true ∧ 1 < settings.rpcQueueSize then
          .queueBatch ctx [⟨sh.started, ctx, ctx⟩] else .queueRPC ⟨sh.started, ctx, ctx⟩) =
          callItems (submit sh.started ctx [ctx]) := by
        split <;> rfl
      rw [same, issued_submit]
      change sh.items + _ + _ = sh.items + _
      abel
  | queueBatch ctx ctxs =>
      rw [issued_submit]
      change sh.items + callItems _ + _ = sh.items + _
      abel
  | close => simp [Thread.items, FailStage.items]

theorem Outside.balance (taken : Outside sh e sh') :
    sh'.items + sh.issued = sh.items + sh'.issued := by
  cases taken
  rfl

def Registered (sh : Shared) (frame : Frame) (rpc : Rpc) : Prop :=
  ∃ id, frame.callID = some id ∧ (id, rpc) ∈ sh.registered

def Traced (sh : Shared) (result : Submission × Outcome) : Prop :=
  ∀ frame, result.2 = .response frame → ∃ rpc, Registered sh frame rpc ∧ result.1 ∈ rpc.calls

def Thread.Traced (sh : Shared) : Thread → Prop
  | .inFlightDown frame rpc => Registered sh frame rpc
  | .answer frame rpc => Registered sh frame rpc
  | .returnResult job _ => ∀ result ∈ job.pending, RegionClient.Traced sh result
  | _ => True

structure Fine (sh : Shared) : Prop where
  tokens : sh.submitted.map Submission.token = Multiset.range sh.started
  unique : (sh.sent.map Entry.id).Nodup
  recorded : ∀ entry ∈ sh.sent, (entry.id, entry.rpc) ∈ sh.registered
  traced : ∀ result ∈ sh.results, Traced sh result

structure Good (sh : Shared) (t : Thread) : Prop where
  agrees : Agrees sh t
  traced : t.Traced sh

structure Grows (sh : Shared) (e : Event) (sh' : Shared) : Prop where
  sent : ∀ entry ∈ sh'.sent, entry ∈ sh.sent ∨
    e = .registerRPC ∧ entry.id = sh.id + 1 ∧ entry.number = sh.registrations + 1 ∧
      sh'.registrations = sh.registrations + 1
  registered : ∀ record ∈ sh.registered, record ∈ sh'.registered
  counted : sh'.id = sh.id ∧ sh'.registrations = sh.registrations ∨
    e = .registerRPC ∧ sh'.id = sh.id + 1 ∧ sh'.registrations = sh.registrations + 1

theorem Grows.of_same (sent : sh'.sent = sh.sent) (registered : sh'.registered = sh.registered)
    (id : sh'.id = sh.id) (registrations : sh'.registrations = sh.registrations) :
    Grows sh e sh' :=
  ⟨fun _ member => .inl (sent ▸ member), fun _ member => registered ▸ member,
    .inl ⟨id, registrations⟩⟩

theorem Alone.grows (taken : Alone settings sh t e sh' t') : Grows sh e sh' := by
  cases taken with
  | registerRPC =>
      refine ⟨fun entry member => ?_, fun record member => List.mem_cons_of_mem _ member,
        .inr ⟨rfl, rfl, rfl⟩⟩
      obtain rfl | member := Multiset.mem_cons.mp member
      · exact .inr ⟨rfl, rfl, rfl, rfl⟩
      · exact .inl (Multiset.mem_of_mem_filter member)
  | unregister_found _ _ =>
      exact ⟨fun entry member => .inl (Multiset.mem_of_mem_filter member), fun _ member => member,
        .inl ⟨rfl, rfl⟩⟩
  | received_found _ _ =>
      exact ⟨fun entry member => .inl (Multiset.mem_of_mem_filter member), fun _ member => member,
        .inl ⟨rfl, rfl⟩⟩
  | swapSent =>
      exact ⟨fun entry member => absurd member (Multiset.notMem_zero entry), fun _ member => member,
        .inl ⟨rfl, rfl⟩⟩
  | _ => exact .of_same rfl rfl rfl rfl

section Stable

variable (more : ∀ record ∈ sh.registered, record ∈ sh'.registered)

include more

theorem Registered.stable {frame : Frame} {rpc : Rpc} (registered : Registered sh frame rpc) :
    Registered sh' frame rpc := by
  obtain ⟨id, callID, record⟩ := registered
  exact ⟨id, callID, more _ record⟩

theorem Traced.stable {result : Submission × Outcome} (traced : Traced sh result) :
    Traced sh' result := by
  intro frame answered
  obtain ⟨rpc, registered, member⟩ := traced frame answered
  exact ⟨rpc, registered.stable more, member⟩

theorem Thread.Traced.stable (traced : t.Traced sh) : t.Traced sh' := by
  cases t with
  | inFlightDown frame rpc => exact Registered.stable more traced
  | answer frame rpc => exact Registered.stable more traced
  | returnResult job after =>
      exact fun result member => RegionClient.Traced.stable more (traced result member)
  | _ => trivial

end Stable

theorem Agrees.stable (grows : Grows sh e sh') (agrees : Agrees sh t)
    (unused : e = .registerRPC → ∀ sending, t.sending = some sending → sending.id ≠ sh.id + 1) :
    Agrees sh' t := by
  intro sending holds entry member same
  obtain member | ⟨registers, fresh, _⟩ := grows.sent entry member
  · exact agrees sending holds entry member same
  · exact absurd (same.symm.trans fresh) (unused registers sending holds)

theorem Good.stable (grows : Grows sh e sh') (good : Good sh t)
    (unused : e = .registerRPC → ∀ sending, t.sending = some sending → sending.id ≠ sh.id + 1) :
    Good sh' t :=
  ⟨good.agrees.stable grows unused, good.traced.stable grows.registered⟩

theorem Fine.of_same (fine : Fine sh) (submitted : sh'.submitted = sh.submitted)
    (started : sh'.started = sh.started) (sent : sh'.sent = sh.sent)
    (registered : sh'.registered = sh.registered) (results : sh'.results = sh.results) :
    Fine sh' where
  tokens := by
    rw [submitted, started]
    exact fine.tokens
  unique := sent ▸ fine.unique
  recorded := by
    rw [sent, registered]
    exact fine.recorded
  traced result member := by
    rw [results] at member
    refine (fine.traced result member).stable fun record old => ?_
    rwa [registered]

theorem Fine.unregisterRPC (fine : Fine sh) (id : UInt32) : Fine (sh.unregisterRPC id) where
  tokens := fine.tokens
  unique := Multiset.nodup_of_le (Multiset.map_le_map (Multiset.filter_le _ _)) fine.unique
  recorded entry member := fine.recorded entry (Multiset.mem_of_mem_filter member)
  traced := fine.traced

theorem submit_tokens (first queueCtx : Nat) (ctxs : List Nat) :
    Multiset.range first + ((submit first queueCtx ctxs).map Submission.token : Multiset Nat) =
      Multiset.range (first + ctxs.length) := by
  induction ctxs generalizing first with
  | nil => simp [submit]
  | cons ctx ctxs ih =>
      have next := ih (first + 1)
      rw [Multiset.range_succ, ← Multiset.singleton_add] at next
      rw [submit, List.map_cons, ← Multiset.cons_coe, ← Multiset.singleton_add, List.length_cons,
        Nat.add_comm ctxs.length, ← Nat.add_assoc, ← next]
      abel

theorem Fine.submit (fine : Fine sh) (queueCtx : Nat) (ctxs : List Nat) :
    Fine (sh.submit queueCtx ctxs) where
  tokens := by
    simp only [Shared.submit, Multiset.map_add, fine.tokens, Multiset.map_coe]
    exact submit_tokens sh.started queueCtx ctxs
  unique := fine.unique
  recorded := fine.recorded
  traced := fine.traced

theorem Fine.registerRPC (fine : Fine sh) (rpc : Rpc) : Fine (sh.registerRPC rpc) where
  tokens := fine.tokens
  unique := by
    simp only [Shared.registerRPC, Multiset.map_cons, Multiset.nodup_cons]
    constructor
    · intro member
      obtain ⟨entry, kept, same⟩ := Multiset.mem_map.mp member
      exact (Multiset.mem_filter.mp kept).2 same
    · exact (fine.unregisterRPC (sh.id + 1)).unique
  recorded entry member := by
    obtain rfl | member := Multiset.mem_cons.mp member
    · exact List.mem_cons_self
    · exact List.mem_cons_of_mem _ (fine.recorded entry (Multiset.mem_of_mem_filter member))
  traced result member :=
    (fine.traced result member).stable fun _ old => List.mem_cons_of_mem _ old

theorem Alone.fine (taken : Alone settings sh t e sh' t') (fine : Fine sh) (traced : t.Traced sh) :
    Fine sh' := by
  cases taken with
  | registerRPC => exact fine.registerRPC _
  | unregister_found _ _ => exact fine.unregisterRPC _
  | received_found _ _ => exact fine.unregisterRPC _
  | swapSent =>
      refine ⟨fine.tokens, Multiset.nodup_zero, fun entry member => ?_, fine.traced⟩
      exact absurd member (Multiset.notMem_zero entry)
  | deliver =>
      refine ⟨fine.tokens, fine.unique, fine.recorded, fun result member => ?_⟩
      obtain rfl | member := Multiset.mem_cons.mp member
      · exact traced _ (List.mem_cons_self)
      · exact fine.traced result member
  | _ => exact fine.of_same rfl rfl rfl rfl rfl

@[simp]
theorem sending_caller_next (caller : Caller) : caller.next.sending = none := by
  cases caller <;> rfl

@[simp]
theorem sending_caller_after (caller : Caller) : caller.after.sending = none := by
  cases caller <;> rfl

@[simp]
theorem sending_resume_next (resume : Resume) : resume.next.sending = resume.sending := by
  cases resume <;> rfl

@[simp]
theorem sending_after_next (after : After) : after.next.sending = after.sending := by
  cases after <;> rfl

@[simp]
theorem sending_frame_after (frame : Frame) : frame.after.sending = none := by
  unfold Frame.after
  split <;> rfl

theorem Alone.sending (taken : Alone settings sh t e sh' t') :
    t'.sending = none ∨ t'.sending = t.sending ∨
      ∃ caller rpc, t = .register caller rpc ∧ sh' = sh.registerRPC rpc ∧
        t'.sending = some ⟨caller, rpc, sh.id + 1, sh.registrations + 1⟩ := by
  cases taken with
  | registerRPC => exact .inr (.inr ⟨_, _, rfl, rfl, rfl⟩)
  | @processRPCs_default taking calls _ =>
      obtain ⟨select, same⟩ | same := flushOrWait_cases settings taking calls
      · exact .inl (same ▸ rfl)
      · exact .inl (same ▸ rfl)
  | inFlightUp_ok _ => exact .inl (sending_caller_next _)
  | unregister_found _ _ => exact .inl (sending_caller_after _)
  | unregister_missing _ => exact .inl (sending_caller_next _)
  | fail_again _ => exact .inr (.inl (sending_resume_next _))
  | failSent_done => exact .inr (.inl (sending_resume_next _))
  | returned => exact .inr (.inl (sending_after_next _))
  | answer_single _ => exact .inl (sending_frame_after _)
  | answer_failed _ => exact .inl (sending_frame_after _)
  | marshal_failed => exact .inr (.inl rfl)
  | write_ok _ => exact .inr (.inl rfl)
  | write_failed => exact .inr (.inl rfl)
  | inFlightUp_failed => exact .inr (.inl rfl)
  | fail_first _ => exact .inr (.inl rfl)
  | closeConn => exact .inr (.inl rfl)
  | swapSent => exact .inr (.inl rfl)
  | failSent_next => exact .inr (.inl rfl)
  | deliver => exact .inr (.inl rfl)
  | _ => exact .inl rfl

theorem Alone.registers (taken : Alone settings sh t .registerRPC sh' t') : t.sending = none := by
  cases taken
  rfl

theorem Alone.agrees (taken : Alone settings sh t e sh' t') (agrees : Agrees sh t) :
    Agrees sh' t' := by
  obtain idle | same | ⟨caller, rpc, rfl, rfl, held⟩ := taken.sending
  · intro sending holds
    rw [idle] at holds
    cases holds
  · have kept : Agrees sh' t := by
      refine agrees.stable taken.grows fun registers sending holds => ?_
      subst registers
      rw [taken.registers] at holds
      cases holds
    intro sending holds
    exact kept sending (same ▸ holds)
  · intro sending holds entry member same
    rw [held] at holds
    cases holds
    obtain rfl | member := Multiset.mem_cons.mp member
    · rfl
    · exact absurd same (Multiset.mem_filter.mp member).2

theorem traced_error (rpc : Rpc) (cause : Failure) :
    ∀ result ∈ (rpc.returnResult (.error cause)).pending, Traced sh result := by
  intro result member frame answered
  obtain ⟨call, _, rfl⟩ := List.mem_map.mp member
  cases answered

theorem traced_outcome {frame : Frame} {rpc : Rpc} (registered : Registered sh frame rpc) :
    ∀ result ∈ (rpc.returnResult frame.outcome).pending, Traced sh result := by
  intro result member other answered
  obtain ⟨call, called, rfl⟩ := List.mem_map.mp member
  refine ⟨rpc, ?_, called⟩
  have same : frame.outcome = .response other := answered
  unfold Frame.outcome at same
  split at same
  · cases same
  · cases same
  · cases same
    exact registered

theorem traced_answers {frame : Frame} {taking : Nat} {calls missing : List Submission}
    {answers : List (Submission × Bool)} (registered : Registered sh frame (.multi taking calls))
    (once : (answers.map Prod.fst ++ missing).Perm calls) :
    ∀ result ∈ answers.map fun answer => (answer.1,
      if answer.2 then Outcome.response frame else .error .exception), Traced sh result := by
  intro result member other answered
  obtain ⟨answer, given, rfl⟩ := List.mem_map.mp member
  refine ⟨.multi taking calls, ?_, ?_⟩
  · dsimp only at answered
    split at answered
    · cases answered
      exact registered
    · cases answered
  · exact once.subset (List.mem_append_left _ (List.mem_map_of_mem given))

theorem Alone.traced (taken : Alone settings sh t e sh' t') (fine : Fine sh)
    (traced : t.Traced sh) : t'.Traced sh' := by
  cases taken with
  | queueRPC_closed _ => exact traced_error _ _
  | processRPCs_closed _ => exact traced_error _ _
  | unregister_found _ _ => exact traced_error _ _
  | failSent_next => exact traced_error _ _
  | @queueBatch_closed _ calls _ => exact traced_error (.multi 0 calls) .clientClosed
  | @received_found _ entry found callID => exact ⟨entry.id, callID, fine.recorded entry found⟩
  | inFlightDown_ok _ => exact traced
  | answer_single _ => exact traced_outcome traced
  | answer_failed _ => exact traced_outcome traced
  | answer_multi _ answers missing once => exact traced_answers traced once
  | deliver => exact fun result member => traced result (List.mem_cons_of_mem _ member)
  | @processRPCs_default taking calls _ =>
      obtain ⟨select, same⟩ | same := flushOrWait_cases settings taking calls
      · exact same ▸ trivial
      · exact same ▸ trivial
  | @inFlightUp_ok sending _ =>
      cases sending.caller <;> trivial
  | @unregister_missing sending _ =>
      cases sending.caller <;> trivial
  | @fail_again resume _ => cases resume <;> trivial
  | @failSent_done resume => cases resume <;> trivial
  | @returned _ after => cases after <;> trivial
  | _ => trivial

theorem Alone.good (taken : Alone settings sh t e sh' t') (fine : Fine sh) (good : Good sh t) :
    Good sh' t' :=
  ⟨taken.agrees good.agrees, taken.traced fine good.traced⟩

def FreshID (c : Config Shared Thread) (e : Event) : Prop :=
  e = .registerRPC → (∀ entry ∈ c.shared.sent, entry.id ≠ c.shared.id + 1) ∧
    ∀ t ∈ c.threads, ∀ sending, t.sending = some sending → sending.id ≠ c.shared.id + 1

structure Inv (c : Config Shared Thread) : Prop where
  fine : Fine c.shared
  good : ∀ t ∈ c.threads, Good c.shared t
  balanced : c.shared.items + c.threads.bind Thread.items = c.shared.issued

theorem Good.idle (idle : t.sending = none) (traced : t.Traced sh) : Good sh t := by
  refine ⟨fun sending holds => ?_, traced⟩
  rw [idle] at holds
  cases holds

theorem Spawn.idle (taken : Spawn settings sh e sh' t) : t.sending = none ∧ t.Traced sh' := by
  cases taken with
  | queueRPC ctx batchable =>
      split
      · exact ⟨rfl, trivial⟩
      · exact ⟨rfl, trivial⟩
  | queueBatch ctx ctxs => exact ⟨rfl, trivial⟩
  | close => exact ⟨rfl, trivial⟩

theorem Meet.unchanged {u u' : Thread} (taken : Meet settings sh t u e sh' t' u') : sh' = sh := by
  cases taken
  rfl

theorem Meet.balance {u u' : Thread} (taken : Meet settings sh t u e sh' t' u') :
    t'.items + u'.items = t.items + u.items := by
  cases taken with
  | @handOver _ calls pending select taking =>
      obtain ⟨select', same⟩ | same := added_cases settings select taking (pending ++ calls)
      · simp only [same, Thread.items, callItems_append]
        abel
      · simp only [same, Thread.items, Rpc.items, Rpc.calls, Rpc.taking, callItems_append]
        abel

theorem Meet.idle {u u' : Thread} (taken : Meet settings sh t u e sh' t' u') :
    (t'.sending = none ∧ t'.Traced sh') ∧ u'.sending = none ∧ u'.Traced sh' := by
  cases taken with
  | @handOver _ calls pending select taking =>
      refine ⟨⟨rfl, trivial⟩, ?_⟩
      obtain ⟨select', same⟩ | same := added_cases settings select taking (pending ++ calls)
      · rw [same]
        exact ⟨rfl, trivial⟩
      · rw [same]
        exact ⟨rfl, trivial⟩

theorem Spawn.grows (taken : Spawn settings sh e sh' t) : Grows sh e sh' := by
  cases taken <;> exact .of_same rfl rfl rfl rfl

theorem Spawn.fine (taken : Spawn settings sh e sh' t) (fine : Fine sh) : Fine sh' := by
  cases taken with
  | queueRPC ctx batchable => exact fine.submit ctx [ctx]
  | queueBatch ctx ctxs => exact fine.submit ctx ctxs
  | close => exact fine

theorem Outside.grows (taken : Outside sh e sh') : Grows sh e sh' := by
  cases taken
  exact .of_same rfl rfl rfl rfl

theorem Outside.fine (taken : Outside sh e sh') (fine : Fine sh) : Fine sh' := by
  cases taken
  exact fine.of_same rfl rfl rfl rfl rfl

section Steps

variable {c c' : Config Shared Thread}

theorem step_grows (step : (client settings).Step c e c') : Grows c.shared e c'.shared := by
  refine step.kinds ?_ ?_ ?_ ?_
  · exact fun _ _ _ taken => Alone.grows taken
  · intro _ _ _ _ taken
    rw [Meet.unchanged taken]
    exact .of_same rfl rfl rfl rfl
  · exact fun _ taken => Spawn.grows taken
  · exact fun taken => Outside.grows taken

/-- The step lemma: every step keeps the invariant, unless it reuses an ID. -/
theorem Inv.kept (step : (client settings).Step c e c') (fresh : FreshID c e) (inv : Inv c) :
    Inv c' := by
  refine ⟨?_, ?_, ?_⟩
  · refine step.kinds ?_ ?_ ?_ ?_
    · exact fun t _ member taken => Alone.fine taken inv.fine (inv.good t member).traced
    · intro _ _ _ _ taken
      rw [Meet.unchanged taken]
      exact inv.fine
    · exact fun _ taken => Spawn.fine taken inv.fine
    · exact fun taken => Outside.fine taken inv.fine
  · refine step.everywhere ?_ ?_ ?_ ?_
    · exact fun t _ member taken => Alone.good taken inv.fine (inv.good t member)
    · intro _ _ _ _ _ _ taken
      obtain ⟨first, second⟩ := Meet.idle taken
      exact ⟨.idle first.1 first.2, .idle second.1 second.2⟩
    · intro _ taken
      obtain ⟨idle, traced⟩ := Spawn.idle taken
      exact .idle idle traced
    · exact fun t member => (inv.good t member).stable (step_grows step)
        fun registers => (fresh registers).2 t member
  · refine step.balance Shared.items Thread.items Shared.issued ?_ ?_ ?_ ?_ inv.balanced
    · exact fun t _ member taken => Alone.balance taken inv.fine.unique (inv.good t member).agrees
        fun registers => (fresh registers).1
    · intro _ _ _ _ taken
      rw [Meet.unchanged taken, Meet.balance taken]
    · exact fun _ taken => Spawn.balance taken
    · exact fun taken => Outside.balance taken

theorem dialed_threads {batches : Bool} (member : t ∈ (dialed batches).threads) :
    t = .newMulti ∨ t = .receiveRPCs := by
  cases batches with
  | false => exact .inr (Multiset.mem_singleton.mp member)
  | true =>
      change t ∈ Thread.newMulti ::ₘ {Thread.receiveRPCs} at member
      obtain same | member := Multiset.mem_cons.mp member
      · exact .inl same
      · exact .inr (Multiset.mem_singleton.mp member)

theorem Inv.dialed (batches : Bool) : Inv (dialed batches) := by
  refine ⟨⟨rfl, ?_, ?_, ?_⟩, ?_, ?_⟩
  · exact Multiset.nodup_zero
  · exact fun entry member => absurd member (Multiset.notMem_zero entry)
  · exact fun result member => absurd member (Multiset.notMem_zero result)
  · intro t member
    obtain rfl | rfl := dialed_threads member
    · exact .idle rfl trivial
    · exact .idle rfl trivial
  · cases batches <;> rfl

end Steps

end GoHBase.RegionClient
