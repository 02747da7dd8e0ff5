import GoHBase.ClientInvariant

/-!
The batching goroutine of the region client as a machine of its own, that every run of the
client drives: calls are flushed in the order in which they arrive.
-/

namespace GoHBase.Batching

open RegionClient (Select Settings)

section Machine

variable {α : Type}

/-- `processRPCs` between two selects, with the calls of its multi. -/
structure State (α : Type) where
  select : Select
  calls : List α

structure Event (α : Type) where
  received : Option (List α)
  flushed : Option (List α)

variable (settings : Settings)

/-- Where `processRPCs` waits after its first loop, or nothing if it flushes. -/
def flushOrWait (len : Nat) : Option Select :=
  if len = 0 then some .wait
  else if settings.rpcQueueSize ≤ len ∨ settings.flushInterval = 0 then none
  else some .linger

def added (select : Select) (len : Nat) : Option Select :=
  match select with
  | .gather => if settings.rpcQueueSize ≤ len then flushOrWait settings len else some .gather
  | .wait => some .gather
  | .linger => if settings.rpcQueueSize ≤ len then none else some .linger

def settle (calls : List α) : Option Select → State α × Option (List α)
  | some select => (⟨select, calls⟩, none)
  | none => (⟨.gather, []⟩, some calls)

inductive Step : State α → Event α → State α → Prop
  | receive {select : Select} {calls group : List α} {next : State α} {flushed : Option (List α)}
      (settled : settle (calls ++ group) (added settings select (calls ++ group).length) =
        (next, flushed)) : Step ⟨select, calls⟩ ⟨some group, flushed⟩ next
  | default {calls : List α} {next : State α} {flushed : Option (List α)}
      (settled : settle calls (flushOrWait settings calls.length) = (next, flushed)) :
      Step ⟨.gather, calls⟩ ⟨none, flushed⟩ next
  | timeout {calls : List α} : Step ⟨.linger, calls⟩ ⟨none, some calls⟩ ⟨.gather, []⟩

inductive Run (start : State α) : List (Event α) → State α → Prop
  | refl : Run start [] start
  | step {events : List (Event α)} {s s' : State α} {e : Event α} (run : Run start events s)
      (taken : Step settings s e s') : Run start (events ++ [e]) s'

variable {settings} in
theorem Run.trans {start middle s : State α} {first later : List (Event α)}
    (prior : Run settings start first middle) (run : Run settings middle later s) :
    Run settings start (first ++ later) s := by
  induction run with
  | refl =>
      rw [List.append_nil]
      exact prior
  | step _ taken ih =>
      rw [← List.append_assoc]
      exact .step ih taken

def received (events : List (Event α)) : List (List α) := events.filterMap Event.received

def flushed (events : List (Event α)) : List (List α) := events.filterMap Event.flushed

@[simp]
theorem received_snoc (events : List (Event α)) (e : Event α) :
    received (events ++ [e]) = received events ++ e.received.toList := by
  rw [received, List.filterMap_append]
  cases found : e.received with
  | none => simp [received, found]
  | some group => simp [received, found]

@[simp]
theorem flushed_snoc (events : List (Event α)) (e : Event α) :
    flushed (events ++ [e]) = flushed events ++ e.flushed.toList := by
  rw [flushed, List.filterMap_append]
  cases found : e.flushed with
  | none => simp [flushed, found]
  | some calls => simp [flushed, found]

variable {settings} {s s' : State α} {e : Event α}

omit settings in
theorem settle_calls {calls : List α} {move : Option Select} {next : State α}
    {flushed : Option (List α)} (settled : settle calls move = (next, flushed)) :
    (flushed = none ∧ next.calls = calls) ∨ (flushed = some calls ∧ next.calls = []) := by
  cases move with
  | none =>
      cases settled
      exact .inr ⟨rfl, rfl⟩
  | some waits =>
      cases settled
      exact .inl ⟨rfl, rfl⟩

theorem Step.calls (step : Step settings s e s') :
    (e.flushed = none ∧ s'.calls = s.calls ++ e.received.toList.flatten) ∨
      (e.flushed = some (s.calls ++ e.received.toList.flatten) ∧ s'.calls = []) := by
  cases step with
  | @receive select calls group next flushed settled =>
      simpa using settle_calls settled
  | @default calls next flushed settled =>
      simpa using settle_calls settled
  | timeout => exact .inr ⟨by simp, rfl⟩

/-- The blocking select without a timer has no calls, and the one with a timer has some. -/
structure Sound (s : State α) : Prop where
  wait : s.select = .wait → s.calls = []
  linger : s.select = .linger → s.calls ≠ []

theorem Sound.gather (calls : List α) : Sound (⟨.gather, calls⟩ : State α) := ⟨nofun, nofun⟩

structure Proper (calls : List α) (move : Option Select) : Prop where
  flush : move = none → calls ≠ []
  wait : ∀ select, move = some select → Sound ⟨select, calls⟩

theorem Proper.stay {calls : List α} {select : Select} (sound : Sound ⟨select, calls⟩) :
    Proper calls (some select) :=
  ⟨nofun, fun _ chosen => Option.some.inj chosen ▸ sound⟩

theorem flushOrWait_proper (settings : Settings) (calls : List α) :
    Proper calls (flushOrWait settings calls.length) := by
  unfold flushOrWait
  by_cases empty : calls = []
  · subst empty
    exact .stay ⟨fun _ => rfl, nofun⟩
  · have positive : calls.length ≠ 0 := fun zero => empty (List.length_eq_zero_iff.mp zero)
    rw [if_neg positive]
    split
    · exact ⟨fun _ => empty, nofun⟩
    · exact .stay ⟨nofun, fun _ => empty⟩

theorem added_proper (settings : Settings) {select : Select} {calls : List α}
    (sound : Sound ⟨select, calls⟩) (group : List α) :
    Proper (calls ++ group) (added settings select (calls ++ group).length) := by
  cases select with
  | gather =>
      simp only [added]
      split
      · exact flushOrWait_proper settings (calls ++ group)
      · exact .stay (.gather _)
  | wait => exact .stay (.gather _)
  | linger =>
      have filled : calls ++ group ≠ [] :=
        List.append_ne_nil_of_left_ne_nil (sound.linger rfl) group
      simp only [added]
      split
      · exact ⟨fun _ => filled, nofun⟩
      · exact .stay ⟨nofun, fun _ => filled⟩

theorem settle_sound {calls : List α} {move : Option Select} {next : State α}
    {flushed : Option (List α)} (proper : Proper calls move)
    (settled : settle calls move = (next, flushed)) :
    Sound next ∧ ∀ calls, flushed = some calls → calls ≠ [] := by
  cases move with
  | none =>
      cases settled
      exact ⟨.gather [], fun calls flush => Option.some.inj flush ▸ proper.flush rfl⟩
  | some select =>
      cases settled
      exact ⟨proper.wait select rfl, nofun⟩

theorem Step.sound (step : Step settings s e s') (sound : Sound s) :
    Sound s' ∧ ∀ calls, e.flushed = some calls → calls ≠ [] := by
  cases step with
  | receive settled => exact settle_sound (added_proper settings sound _) settled
  | default settled => exact settle_sound (flushOrWait_proper settings _) settled
  | timeout => exact ⟨.gather [], fun calls flush => Option.some.inj flush ▸ sound.linger rfl⟩

/-- The groups that were received are cut into runs of groups: each multi that was flushed is
one run, and the calls that are pending are the last one. -/
structure Ordered (events : List (Event α)) (s : State α) (runs : List (List (List α)))
    (last : List (List α)) : Prop where
  cut : received events = runs.flatten ++ last
  multis : flushed events = runs.map List.flatten
  pending : s.calls = last.flatten
  nonempty : ∀ calls ∈ flushed events, calls ≠ []
  sound : Sound s

theorem Ordered.kept {events : List (Event α)} {runs : List (List (List α))}
    {last : List (List α)} (ordered : Ordered events s runs last) (step : Step settings s e s') :
    ∃ runs' last', Ordered (events ++ [e]) s' runs' last' := by
  rcases step.sound ordered.sound with ⟨sound, nonempty⟩
  rcases step.calls with ⟨quiet, pending⟩ | ⟨flush, empty⟩
  · refine ⟨runs, last ++ e.received.toList, ?_, ?_, ?_, ?_, sound⟩
    · rw [received_snoc, ordered.cut, List.append_assoc]
    · rw [flushed_snoc, quiet, ordered.multis]
      simp
    · rw [pending, ordered.pending, List.flatten_append]
    · rw [flushed_snoc, quiet]
      simpa using ordered.nonempty
  · refine ⟨runs ++ [last ++ e.received.toList], [], ?_, ?_, empty, ?_, sound⟩
    · rw [received_snoc, ordered.cut]
      simp
    · rw [flushed_snoc, flush, ordered.multis, ordered.pending]
      simp
    · intro calls member
      rw [flushed_snoc, flush, List.mem_append] at member
      rcases member with before | now
      · exact ordered.nonempty calls before
      · obtain rfl : calls = s.calls ++ e.received.toList.flatten := by simpa using now
        exact nonempty _ flush

theorem Run.ordered {events : List (Event α)} (run : Run settings ⟨.gather, []⟩ events s) :
    ∃ runs last, Ordered events s runs last := by
  induction run with
  | refl => exact ⟨[], [], rfl, rfl, rfl, nofun, .gather []⟩
  | step _ taken ih =>
      rcases ih with ⟨runs, last, ordered⟩
      exact ordered.kept taken

def State.patience (settings : Settings) (s : State α) : Nat :=
  (settings.rpcQueueSize - s.calls.length).toNat + if s.select = .gather then 1 else 0

theorem State.patience_le (settings : Settings) (s : State α) :
    s.patience settings ≤ (settings.rpcQueueSize - s.calls.length).toNat + 1 := by
  unfold State.patience
  split <;> omega

theorem patience_receive (settings : Settings) (select : Select) {calls group : List α}
    (nonempty : group ≠ []) (room : ¬settings.rpcQueueSize ≤ (calls ++ group).length) :
    (⟨select, calls ++ group⟩ : State α).patience settings <
      (⟨select, calls⟩ : State α).patience settings := by
  have positive : 0 < group.length := List.length_pos_iff.mpr nonempty
  simp only [State.patience]
  rw [List.length_append] at room ⊢
  omega

theorem Step.patience (step : Step settings s e s') (sound : Sound s) (filled : s.calls ≠ [])
    (group : e.received ≠ some []) (quiet : e.flushed = none) :
    s'.calls ≠ [] ∧ s'.patience settings < s.patience settings := by
  have kept : s'.calls ≠ [] := by
    rcases step.calls with ⟨_, calls⟩ | ⟨flush, _⟩
    · rw [calls]
      exact List.append_ne_nil_of_left_ne_nil filled _
    · rw [quiet] at flush
      cases flush
  refine ⟨kept, ?_⟩
  cases step with
  | timeout => cases quiet
  | @default calls next flushed settled =>
      have positive : calls.length ≠ 0 := fun zero => filled (List.length_eq_zero_iff.mp zero)
      rw [flushOrWait, if_neg positive] at settled
      split at settled
      · cases settled
        cases quiet
      · cases settled
        simp only [State.patience, reduceCtorEq, ↓reduceIte]
        omega
  | @receive select calls received next flushed settled =>
      have nonempty : received ≠ [] := fun empty => group (congrArg some empty)
      cases select with
      | wait => exact absurd (sound.wait rfl) filled
      | gather =>
          by_cases full : settings.rpcQueueSize ≤ (calls ++ received).length
          · have positive : (calls ++ received).length ≠ 0 := fun zero =>
              List.append_ne_nil_of_left_ne_nil filled received (List.length_eq_zero_iff.mp zero)
            rw [added, if_pos full, flushOrWait, if_neg positive, if_pos (.inl full)] at settled
            cases settled
            cases quiet
          · rw [added, if_neg full] at settled
            cases settled
            exact patience_receive settings .gather nonempty full
      | linger =>
          by_cases full : settings.rpcQueueSize ≤ (calls ++ received).length
          · rw [added, if_pos full] at settled
            cases settled
            cases quiet
          · rw [added, if_neg full] at settled
            cases settled
            exact patience_receive settings .linger nonempty full

theorem Run.patience {start : State α} {events : List (Event α)}
    (run : Run settings start events s) (sound : Sound start) (filled : start.calls ≠ [])
    (groups : [] ∉ received events) (quiet : flushed events = []) :
    Sound s ∧ s.calls ≠ [] ∧
      events.length + s.patience settings ≤ start.patience settings := by
  induction run with
  | refl => exact ⟨sound, filled, by simp⟩
  | @step events s s' e _ taken ih =>
      rw [received_snoc, List.mem_append, not_or] at groups
      rw [flushed_snoc, List.append_eq_nil_iff] at quiet
      rcases ih groups.1 quiet.1 with ⟨sound, filled, bound⟩
      have group : e.received ≠ some [] := fun empty => groups.2 (by simp [empty])
      have still : e.flushed = none := by simpa using quiet.2
      rcases taken.patience sound filled group still with ⟨kept, less⟩
      refine ⟨(taken.sound sound).1, kept, ?_⟩
      rw [List.length_append, List.length_singleton]
      omega

end Machine

end GoHBase.Batching

namespace GoHBase.RegionClient

open Interleaving
open Batching (State)

variable {settings : Settings} {sh sh' : Shared} {t t' : Thread} {e : Event}

/-- Where the batching goroutine is, if the thread is that goroutine. While it sends a multi
it has no calls. -/
def Thread.batching : Thread → Option (State Submission)
  | .processRPCs select _ calls => some ⟨select, calls⟩
  | .newMulti => some ⟨.gather, []⟩
  | .marshal .flush _ => some ⟨.gather, []⟩
  | .register .flush _ => some ⟨.gather, []⟩
  | .returnResult _ .newMulti => some ⟨.gather, []⟩
  | t => if t.sending.any fun sending => sending.caller = .flush then some ⟨.gather, []⟩ else none

def handled (received : Option (List Submission)) :
    Thread → Thread → List (Batching.Event Submission)
  | .processRPCs _ _ _, .processRPCs _ _ _ => [⟨received, none⟩]
  | .processRPCs _ _ _, .marshal .flush (.multi _ calls) => [⟨received, some calls⟩]
  | _, _ => []

def handledMeeting : Thread → Thread → Thread → Thread → List (Batching.Event Submission)
  | .queueBatch _ calls, u, _, u' => handled (some calls) u u'
  | _, _, _, _ => []

def recordedClient (settings : Settings) :
    System (Shared × List (Batching.Event Submission)) Thread Event :=
  (client settings).record (handled none) handledMeeting

def Recorded (settings : Settings) (c : Config Shared Thread)
    (history : List (Batching.Event Submission)) : Prop :=
  (recordedClient settings).Run (fun _ _ => True)
    ⟨((dialed true).shared, []), (dialed true).threads⟩ ⟨(c.shared, history), c.threads⟩

theorem run_recorded {c : Config Shared Thread}
    (run : (client settings).Run (fun _ _ => True) (dialed true) c) :
    ∃ history, Recorded settings c history :=
  run.recorded (handled none) handledMeeting

def resumed (taking : Nat) (calls : List Submission) : Option Select → Thread
  | some select => .processRPCs select taking calls
  | none => .marshal .flush (.multi taking calls)

theorem flushOrWait_resumed (taking : Nat) (calls : List Submission) :
    flushOrWait settings taking calls =
      resumed taking calls (Batching.flushOrWait settings calls.length) := by
  unfold flushOrWait Batching.flushOrWait
  split
  · rfl
  · split
    · rfl
    · rfl

theorem added_resumed (select : Select) (taking : Nat) (calls : List Submission) :
    added settings select taking calls =
      resumed taking calls (Batching.added settings select calls.length) := by
  cases select with
  | gather =>
      simp only [added, Batching.added]
      split
      · exact flushOrWait_resumed taking calls
      · rfl
  | wait => rfl
  | linger =>
      simp only [added, Batching.added]
      split
      · rfl
      · rfl

theorem settle_resumed (received : Option (List Submission)) (select : Select) (taking : Nat)
    (old calls : List Submission) (move : Option Select) :
    ∃ next flushed, Batching.settle calls move = (next, flushed) ∧
      (resumed taking calls move).batching = some next ∧
      handled received (.processRPCs select taking old) (resumed taking calls move) =
        [⟨received, flushed⟩] := by
  cases move with
  | none => exact ⟨_, _, rfl, rfl, rfl⟩
  | some select => exact ⟨_, _, rfl, rfl, rfl⟩

inductive Batches (settings : Settings) (t t' : Thread)
    (events : List (Batching.Event Submission)) : Prop
  | still (same : t'.batching = t.batching) (nothing : events = [])
  | moved {s s' : State Submission} {e : Batching.Event Submission} (before : t.batching = some s)
      (after : t'.batching = some s') (one : events = [e]) (step : Batching.Step settings s e s')

@[simp]
theorem batching_frame_after (job : Job) (frame : Frame) :
    (Thread.returnResult job frame.after).batching = none := by
  unfold Frame.after
  split <;> rfl

theorem Alone.batches (taken : Alone settings sh t e sh' t') (alive : sh'.done = false) :
    Batches settings t t' (handled none t t') := by
  cases taken with
  | processRPCs_closed closed =>
      rw [closed] at alive
      cases alive
  | @processRPCs_default taking calls _ =>
      rw [flushOrWait_resumed]
      rcases settle_resumed none .gather taking calls calls
        (Batching.flushOrWait settings calls.length) with ⟨next, flushed, settled, after, one⟩
      exact .moved rfl after one (.default settled)
  | processRPCs_timeout => exact .moved rfl rfl rfl .timeout
  | @marshal_single caller => cases caller <;> exact .still rfl rfl
  | @marshal_multi caller => cases caller <;> exact .still rfl rfl
  | @registerRPC caller => cases caller <;> exact .still rfl rfl
  | @inFlightUp_ok sending =>
      rcases sending with ⟨caller, rpc, id, number⟩
      cases caller <;> exact .still rfl rfl
  | @unregister_found sending =>
      rcases sending with ⟨caller, rpc, id, number⟩
      cases caller <;> exact .still rfl rfl
  | @unregister_missing sending =>
      rcases sending with ⟨caller, rpc, id, number⟩
      cases caller <;> exact .still rfl rfl
  | @fail_again resume => cases resume <;> exact .still rfl rfl
  | @failSent_done resume => cases resume <;> exact .still rfl rfl
  | @deliver _ _ _ after => cases after <;> exact .still rfl rfl
  | @returned _ after => cases after <;> exact .still rfl rfl
  | answer_single => exact .still (batching_frame_after _ _) rfl
  | answer_failed => exact .still (batching_frame_after _ _) rfl
  | _ => exact .still rfl rfl

theorem Meet.batches {u u' : Thread} (taken : Meet settings sh t u e sh' t' u') :
    t.batching = none ∧ t'.batching = none ∧ Batches settings u u' (handledMeeting t u t' u') := by
  cases taken with
  | @handOver ctx calls pending select taking =>
      rw [added_resumed]
      rcases settle_resumed (some calls) select taking pending (pending ++ calls)
        (Batching.added settings select (pending ++ calls).length) with
        ⟨next, flushed, settled, after, one⟩
      exact ⟨rfl, rfl, .moved rfl after one (.receive settled)⟩

theorem Spawn.batches (taken : Spawn settings sh e sh' t) :
    t.batching = none ∧ sh'.done = sh.done := by
  cases taken with
  | queueRPC ctx batchable =>
      refine ⟨?_, rfl⟩
      split <;> rfl
  | queueBatch => exact ⟨rfl, rfl⟩
  | close => exact ⟨rfl, rfl⟩

theorem Alone.alive (taken : Alone settings sh t e sh' t') (alive : sh'.done = false) :
    sh.done = false := by
  cases taken with
  | fail_first => cases alive
  | _ => exact alive

theorem Outside.done (taken : Outside sh e sh') : sh'.done = sh.done := by
  cases taken
  rfl

def Batcher (threads : Multiset Thread) (s : State Submission) : Prop :=
  threads.filterMap Thread.batching = {s}

theorem Batcher.cons {rest : Multiset Thread} {s : State Submission}
    (batcher : Batcher (t ::ₘ rest) s) :
    t.batching = none ∧ Batcher rest s ∨
      t.batching = some s ∧ rest.filterMap Thread.batching = 0 := by
  unfold Batcher at batcher ⊢
  cases place : t.batching with
  | none =>
      rw [Multiset.filterMap_cons_none _ _ place] at batcher
      exact .inl ⟨rfl, batcher⟩
  | some own =>
      rw [Multiset.filterMap_cons_some _ _ _ place] at batcher
      rcases (Multiset.singleton_eq_cons_iff _).mp batcher.symm with ⟨rfl, rest⟩
      exact .inr ⟨rfl, rest⟩

theorem Batcher.skip {rest : Multiset Thread} {s : State Submission} (other : t.batching = none) :
    Batcher (t ::ₘ rest) s ↔ Batcher rest s := by
  unfold Batcher
  rw [Multiset.filterMap_cons_none _ _ other]

theorem Batches.batcher {rest : Multiset Thread} {s : State Submission}
    {events : List (Batching.Event Submission)} (moves : Batches settings t t' events)
    (batcher : Batcher (t ::ₘ rest) s) :
    ∃ s', Batcher (t' ::ₘ rest) s' ∧ Batching.Run settings s events s' := by
  cases moves with
  | still same nothing =>
      subst nothing
      refine ⟨s, ?_, .refl⟩
      rcases batcher.cons with ⟨other, rest⟩ | ⟨own, rest⟩
      · exact (Batcher.skip (same.trans other)).mpr rest
      · unfold Batcher
        rw [Multiset.filterMap_cons_some _ _ _ (same.trans own), rest]
        rfl
  | @moved now next e before after one step =>
      subst one
      rcases batcher.cons with ⟨other, _⟩ | ⟨own, rest⟩
      · rw [before] at other
        cases other
      · obtain rfl : now = s := Option.some.inj (before.symm.trans own)
        refine ⟨next, ?_, .step .refl step⟩
        unfold Batcher
        rw [Multiset.filterMap_cons_some _ _ _ after, rest]
        rfl

variable {c c' : Config (Shared × List (Batching.Event Submission)) Thread}

theorem recorded_step (step : (recordedClient settings).Step c e c')
    (alive : c'.shared.1.done = false) {s : State Submission} (batcher : Batcher c.threads s) :
    ∃ more s', c'.shared.2 = c.shared.2 ++ more ∧ Batcher c'.threads s' ∧
      Batching.Run settings s more s' := by
  cases step with
  | alone rest taken =>
      rcases taken with ⟨taken, history⟩
      rcases (taken.batches alive).batcher batcher with ⟨s', kept, run⟩
      exact ⟨_, s', history, kept, run⟩
  | @meet _ _ t u t' u' _ rest taken =>
      rcases taken with ⟨taken, history⟩
      rcases Meet.batches taken with ⟨queue, finished, moves⟩
      rcases moves.batcher ((Batcher.skip queue).mp batcher) with ⟨s', kept, run⟩
      exact ⟨_, s', history, (Batcher.skip finished).mpr kept, run⟩
  | spawn rest taken =>
      rcases taken with ⟨taken, history⟩
      exact ⟨[], s, by rw [history, List.append_nil],
        (Batcher.skip (Spawn.batches taken).1).mpr batcher, .refl⟩
  | outside rest taken => exact ⟨[], s, by rw [taken.2, List.append_nil], batcher, .refl⟩

theorem recorded_alive (step : (recordedClient settings).Step c e c')
    (alive : c'.shared.1.done = false) : c.shared.1.done = false := by
  refine step.kinds ?_ ?_ ?_ ?_
  · exact fun _ _ _ taken => taken.1.alive alive
  · exact fun _ _ _ _ taken => Meet.unchanged taken.1 ▸ alive
  · exact fun _ taken => (Spawn.batches taken.1).2 ▸ alive
  · exact fun taken => Outside.done taken.1 ▸ alive

theorem recorded_run {allowed : Config (Shared × List (Batching.Event Submission)) Thread →
      Event → Prop} {start : Config (Shared × List (Batching.Event Submission)) Thread}
    {s : State Submission} (batcher : Batcher start.threads s)
    (run : (recordedClient settings).Run allowed start c) (alive : c.shared.1.done = false) :
    ∃ more s', c.shared.2 = start.shared.2 ++ more ∧ Batcher c.threads s' ∧
      Batching.Run settings s more s' := by
  induction run with
  | refl => exact ⟨[], s, by rw [List.append_nil], batcher, .refl⟩
  | step _ taken _ ih =>
      rcases ih (recorded_alive taken alive) with ⟨before, middle, first, batcher, prior⟩
      rcases recorded_step taken alive batcher with ⟨more, s', second, batcher, later⟩
      exact ⟨before ++ more, s', by rw [second, first, List.append_assoc], batcher,
        prior.trans later⟩

theorem dialed_batcher : Batcher (dialed true).threads ⟨.gather, []⟩ := rfl

end GoHBase.RegionClient
