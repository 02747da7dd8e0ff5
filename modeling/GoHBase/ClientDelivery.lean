import GoHBase.ClientInvariant

/-!
At-most-once delivery. Call IDs are numbered modulo 2^32, so that an ID names one
outstanding RPC as long as fewer than 2^32 RPCs are registered during its time.
-/

namespace GoHBase.RegionClient

open Interleaving

variable {settings : Settings} {sh sh' : Shared} {t t' : Thread} {e : Event}
  {c c' : Config Shared Thread}

/-- RPCs are outstanding while they are in the map, or their `send` has not come back:
fewer than 2^32 are registered after such an RPC, this one included. -/
def Window (c : Config Shared Thread) (e : Event) : Prop :=
  e = .registerRPC →
    (∀ entry ∈ c.shared.sent, c.shared.registrations + 1 < entry.number + 2 ^ 32) ∧
    ∀ t ∈ c.threads, ∀ sending, t.sending = some sending →
      c.shared.registrations + 1 < sending.number + 2 ^ 32

def Labelled (sh : Shared) (id : UInt32) (number : Nat) : Prop :=
  id = UInt32.ofNat number ∧ number ≤ sh.registrations

structure Numbered (c : Config Shared Thread) : Prop where
  counter : c.shared.id = UInt32.ofNat c.shared.registrations
  entries : ∀ entry ∈ c.shared.sent, Labelled c.shared entry.id entry.number
  senders : ∀ t ∈ c.threads, ∀ sending, t.sending = some sending →
    Labelled c.shared sending.id sending.number

theorem next_label {id : UInt32} {registrations : Nat} (counter : id = UInt32.ofNat registrations) :
    id + 1 = UInt32.ofNat (registrations + 1) := by
  rw [counter, UInt32.ofNat_add]
  rfl

theorem Labelled.stable {id : UInt32} {number : Nat} (grows : Grows sh e sh')
    (labelled : Labelled sh id number) : Labelled sh' id number := by
  obtain ⟨_, same⟩ | ⟨_, _, more⟩ := grows.counted
  · exact ⟨labelled.1, by rw [same]; exact labelled.2⟩
  · exact ⟨labelled.1, by rw [more]; exact Nat.le_succ_of_le labelled.2⟩

theorem label_unused {id : UInt32} {number : Nat} (counter : sh.id = UInt32.ofNat sh.registrations)
    (labelled : Labelled sh id number) (window : sh.registrations + 1 < number + 2 ^ 32) :
    id ≠ sh.id + 1 := by
  obtain ⟨rfl, registered⟩ := labelled
  rw [next_label counter]
  intro same
  have wrapped := congrArg UInt32.toNat same
  rw [UInt32.toNat_ofNat', UInt32.toNat_ofNat'] at wrapped
  omega

theorem Numbered.kept (step : (client settings).Step c e c') (numbered : Numbered c) :
    Numbered c' := by
  have grows := step_grows step
  refine ⟨?_, ?_, ?_⟩
  · obtain ⟨id, registrations⟩ | ⟨_, id, registrations⟩ := grows.counted
    · rw [id, registrations]
      exact numbered.counter
    · rw [id, registrations]
      exact next_label numbered.counter
  · intro entry member
    obtain member | ⟨_, id, number, more⟩ := grows.sent entry member
    · exact (numbered.entries entry member).stable grows
    · rw [id, number]
      exact ⟨next_label numbered.counter, more.ge⟩
  · refine step.everywhere ?_ ?_ ?_ ?_
    · intro t t' member taken sending holds
      obtain idle | same | ⟨caller, rpc, _, registered, held⟩ := Alone.sending taken
      · rw [idle] at holds
        cases holds
      · exact (numbered.senders t member sending (same ▸ holds)).stable grows
      · rw [held] at holds
        cases holds
        rw [registered]
        exact ⟨next_label numbered.counter, le_rfl⟩
    · intro _ _ _ _ _ _ taken
      obtain ⟨⟨first, _⟩, second, _⟩ := Meet.idle taken
      exact ⟨fun sending holds => by simp [first] at holds,
        fun sending holds => by simp [second] at holds⟩
    · intro _ taken sending holds
      simp [(Spawn.idle taken).1] at holds
    · exact fun t member sending holds => (numbered.senders t member sending holds).stable grows

theorem Numbered.dialed (batches : Bool) : Numbered (dialed batches) := by
  refine ⟨rfl, ?_, ?_⟩
  · exact fun entry member => absurd member (Multiset.notMem_zero entry)
  · intro t member sending holds
    obtain rfl | rfl := dialed_threads member
    · cases holds
    · cases holds

theorem Numbered.freshID (numbered : Numbered c) (window : Window c e) : FreshID c e := by
  intro registers
  obtain ⟨entries, senders⟩ := window registers
  constructor
  · intro entry member
    exact label_unused numbered.counter (numbered.entries entry member) (entries entry member)
  · intro t member sending holds
    exact label_unused numbered.counter (numbered.senders t member sending holds)
      (senders t member sending holds)

/-- The run lemma: a run that keeps within the window keeps the invariant. -/
theorem inv_of_run (batches : Bool) (run : (client settings).Run Window (dialed batches) c) :
    Inv c ∧ Numbered c := by
  refine run.invariant (fun c => Inv c ∧ Numbered c) ⟨.dialed batches, .dialed batches⟩ ?_
  rintro c e c' step window ⟨inv, numbered⟩
  exact ⟨inv.kept step (numbered.freshID window), numbered.kept step⟩

theorem Fine.token_inj (fine : Fine sh) : ∀ call ∈ sh.submitted, ∀ other ∈ sh.submitted,
    call.token = other.token → call = other := by
  refine Multiset.inj_on_of_nodup_map ?_
  rw [fine.tokens]
  exact Multiset.nodup_range sh.started

theorem Fine.issued_nodup (fine : Fine sh) : sh.issued.Nodup := by
  refine Multiset.nodup_add.mpr ⟨?_, ?_, ?_⟩
  · have submitted : sh.submitted.Nodup := by
      refine Multiset.Nodup.of_map Submission.token ?_
      rw [fine.tokens]
      exact Multiset.nodup_range sh.started
    exact submitted.map fun _ _ same => Item.call.inj same
  · exact (Multiset.nodup_range _).map fun _ _ same => Item.multi.inj same
  · rw [Multiset.disjoint_left]
    intro item called
    obtain ⟨_, _, rfl⟩ := Multiset.mem_map.mp called
    simp

theorem Inv.places (inv : Inv c) : (c.shared.items + c.threads.bind Thread.items).Nodup := by
  rw [inv.balanced]
  exact inv.fine.issued_nodup

def Thread.returns : Thread → Multiset Nat
  | .returnResult job _ => job.frees.toList
  | _ => 0

theorem returns_le (t : Thread) : t.returns.map Item.multi ≤ t.items := by
  cases t with
  | returnResult job after =>
      simp only [Thread.returns, Thread.items, Job.items, Multiset.map_coe]
      exact (Multiset.le_add_left _ _).trans (Multiset.le_add_right _ _)
  | _ => exact Multiset.zero_le _

theorem bind_le_bind {α β : Type} {first second : α → Multiset β} (values : Multiset α)
    (below : ∀ value, first value ≤ second value) : values.bind first ≤ values.bind second := by
  induction values using Multiset.induction_on with
  | empty => exact le_rfl
  | cons value values ih =>
      rw [Multiset.cons_bind, Multiset.cons_bind]
      exact add_le_add (below value) ih

def returnResultsRuns (c : Config Shared Thread) : Multiset Nat :=
  c.shared.freed + c.threads.bind Thread.returns

theorem Inv.submitted (inv : Inv c) {call : Submission} {outcome : Outcome}
    (result : (call, outcome) ∈ c.shared.results) : call ∈ c.shared.submitted := by
  have item : Item.call call ∈ c.shared.items + c.threads.bind Thread.items := by
    simp only [Shared.items, Multiset.mem_add]
    exact .inl (.inl (.inl (.inl (.inr (Multiset.mem_map.mpr ⟨_, result, rfl⟩)))))
  rw [inv.balanced, Shared.issued, Multiset.mem_add] at item
  obtain called | taken := item
  · obtain ⟨_, member, same⟩ := Multiset.mem_map.mp called
    cases same
    exact member
  · obtain ⟨_, _, same⟩ := Multiset.mem_map.mp taken
    cases same

theorem results_nodup (inv : Inv c) :
    (c.shared.results.map fun result => result.1.token).Nodup := by
  have places := (Multiset.nodup_add.mp inv.places).1
  simp only [Shared.items, Multiset.nodup_add] at places
  have calls : (c.shared.results.map Prod.fst).Nodup := by
    refine Multiset.Nodup.of_map Item.call ?_
    rw [Multiset.map_map]
    exact places.1.1.1.2.1
  have tokens : ((c.shared.results.map Prod.fst).map Submission.token).Nodup := by
    refine calls.map_on fun call member other otherMember => ?_
    obtain ⟨⟨_, outcome⟩, result, rfl⟩ := Multiset.mem_map.mp member
    obtain ⟨⟨_, outcome'⟩, result', rfl⟩ := Multiset.mem_map.mp otherMember
    exact inv.fine.token_inj _ (inv.submitted result) _ (inv.submitted result')
  rwa [Multiset.map_map] at tokens

theorem returnResultsRuns_nodup (inv : Inv c) : (returnResultsRuns c).Nodup := by
  refine Multiset.Nodup.of_map Item.multi (Multiset.nodup_of_le ?_ inv.places)
  rw [returnResultsRuns, Multiset.map_add, Multiset.map_bind]
  refine add_le_add ?_ (bind_le_bind c.threads returns_le)
  rw [Shared.items]
  exact (Multiset.le_add_left _ _).trans (Multiset.le_add_right _ _)

theorem freed_unused (inv : Inv c) {taking : Nat} (freed : taking ∈ c.shared.freed) :
    (∀ t ∈ c.threads, Item.multi taking ∉ t.items) ∧
      ∀ entry ∈ c.shared.sent, Item.multi taking ∉ entry.rpc.items := by
  have item : Item.multi taking ∈ c.shared.freed.map Item.multi :=
    Multiset.mem_map_of_mem _ freed
  obtain ⟨shared, _, apart⟩ := Multiset.nodup_add.mp inv.places
  constructor
  · intro t member held
    have here : Item.multi taking ∈ c.shared.items := by
      simp only [Shared.items, Multiset.mem_add]
      exact .inl (.inr item)
    exact Multiset.disjoint_left.mp apart here (Multiset.mem_bind.mpr ⟨t, member, held⟩)
  · intro entry member held
    simp only [Shared.items, Multiset.nodup_add] at shared
    have there : Item.multi taking ∈ c.shared.sent.bind fun entry => entry.rpc.items :=
      Multiset.mem_bind.mpr ⟨entry, member, held⟩
    refine Multiset.disjoint_left.mp shared.1.2.2 ?_ item
    exact Multiset.mem_add.mpr (.inl (Multiset.mem_add.mpr (.inl there)))

def Serial (c : Config Shared Thread) (e : Event) : Prop :=
  e = .other ∨ e = .registerRPC ∧ c.shared.sent = 0 ∧ ∀ t ∈ c.threads, t.sending = none

theorem serial_other (c : Config Shared Thread) : Serial c .other := .inl rfl

theorem Serial.idle (serial : Serial c e) (registers : e = .registerRPC) :
    c.shared.sent = 0 ∧ ∀ t ∈ c.threads, t.sending = none := by
  subst registers
  obtain other | ⟨_, idle⟩ := serial
  · cases other
  · exact idle

theorem Serial.window (serial : Serial c e) : Window c e := by
  intro registers
  obtain ⟨empty, idle⟩ := serial.idle registers
  refine ⟨by simp [empty], ?_⟩
  intro t member sending holds
  simp [idle t member] at holds

def sampleCall : Submission := ⟨0, 5, 5⟩

def sampleFrame : Frame := ⟨some 1, .message⟩

def waiting : Config Shared Thread where
  shared := { (dialed true).shared with
    sent := {⟨1, .single sampleCall, 1⟩}
    id := 1
    inFlight := 1
    started := 1
    submitted := {sampleCall}
    takings := 1
    registrations := 1
    registered := [(1, .single sampleCall)] }
  threads := .finished ::ₘ .processRPCs .gather 0 [] ::ₘ .receiveRPCs ::ₘ 0

theorem waiting_run : (client ⟨1, 0⟩).Run Serial (dialed true) waiting := by
  have run : (client ⟨1, 0⟩).Run Serial (dialed true)
      ⟨(dialed true).shared, ([.newMulti, .receiveRPCs] : List Thread)⟩ := .refl
  replace run := run.moves 0 rfl .newMulti (serial_other _)
  replace run := run.starts (.queueRPC 5 false) (serial_other _)
  rw [if_neg (by decide)] at run
  replace run := run.moves 0 rfl (.queueRPC_default rfl (by decide)) (serial_other _)
  replace run := run.moves 0 rfl .marshal_single (serial_other _)
  replace run := run.moves 0 rfl .registerRPC (.inr ⟨rfl, rfl, by decide⟩)
  replace run := run.moves 0 rfl (.write_ok rfl) (serial_other _)
  exact run.moves 0 rfl (.inFlightUp_ok rfl) (serial_other _)

def matched : Config Shared Thread where
  shared := { waiting.shared with sent := 0 }
  threads := .finished ::ₘ .processRPCs .gather 0 [] ::ₘ
    .inFlightDown sampleFrame (.single sampleCall) ::ₘ 0

theorem matched_run : (client ⟨1, 0⟩).Run Serial (dialed true) matched := by
  have run : (client ⟨1, 0⟩).Run Serial (dialed true) ⟨waiting.shared,
      ([.finished, .processRPCs .gather 0 [], .receiveRPCs] : List Thread)⟩ := waiting_run
  replace run := run.moves 2 rfl (.receiveRPCs_default rfl) (serial_other _)
  replace run := run.moves 2 rfl (.receive_frame sampleFrame) (serial_other _)
  have found : (⟨1, .single sampleCall, 1⟩ : Entry) ∈ waiting.shared.sent :=
    Multiset.mem_singleton_self _
  exact run.moves 2 rfl (.received_found found rfl) (serial_other _)

def answered : Config Shared Thread where
  shared := { matched.shared with
    done := true
    connClosed := true
    failOnce := .finished
    inFlight := 0
    results := {(sampleCall, .response sampleFrame)}
    freed := {0}
    swapped := true }
  threads := .finished ::ₘ .finished ::ₘ .finished ::ₘ .finished ::ₘ 0

theorem answered_run : (client ⟨1, 0⟩).Run Serial (dialed true) answered := by
  have run : (client ⟨1, 0⟩).Run Serial (dialed true) ⟨matched.shared,
      ([.finished, .processRPCs .gather 0 [],
        .inFlightDown sampleFrame (.single sampleCall)] : List Thread)⟩ := matched_run
  replace run := run.moves 2 rfl (.inFlightDown_ok fun _ => rfl) (serial_other _)
  replace run := run.moves 2 rfl (.answer_single (by decide)) (serial_other _)
  replace run := run.moves 2 rfl .deliver (serial_other _)
  replace run := run.moves 2 rfl .returned (serial_other _)
  replace run := run.starts .close (serial_other _)
  replace run := run.moves 0 rfl (.fail_first rfl) (serial_other _)
  replace run := run.moves 0 rfl .closeConn (serial_other _)
  replace run := run.moves 0 rfl .swapSent (serial_other _)
  replace run := run.moves 0 rfl .failSent_done (serial_other _)
  replace run := run.moves 2 rfl (.processRPCs_closed rfl) (serial_other _)
  replace run := run.moves 2 rfl .returned (serial_other _)
  exact run.moves 3 rfl (.receiveRPCs_closed rfl) (serial_other _)

/-- In every run within the window: one result for each submission, one run of `returnResults`
for each multi and no use of it afterwards, and responses only from frames with the ID under
which the RPC of the call was registered. -/
theorem delivery_at_most_once (settings : Settings) (batches : Bool) (c : Config Shared Thread)
    (run : (client settings).Run Window (dialed batches) c) :
    (∀ token, (c.shared.results.map fun result => result.1.token).count token ≤ 1) ∧
    (∀ taking, (returnResultsRuns c).count taking ≤ 1) ∧
    (∀ taking ∈ c.shared.freed, (∀ t ∈ c.threads, Item.multi taking ∉ t.items) ∧
      ∀ entry ∈ c.shared.sent, Item.multi taking ∉ entry.rpc.items) ∧
    ∀ call frame, (call, Outcome.response frame) ∈ c.shared.results →
      ∃ id rpc, frame.callID = some id ∧ (id, rpc) ∈ c.shared.registered ∧ call ∈ rpc.calls := by
  obtain ⟨inv, _⟩ := inv_of_run batches run
  refine ⟨?_, ?_, fun taking freed => freed_unused inv freed, ?_⟩
  · exact Multiset.nodup_iff_count_le_one.mp (results_nodup inv)
  · exact Multiset.nodup_iff_count_le_one.mp (returnResultsRuns_nodup inv)
  · intro call frame member
    obtain ⟨rpc, ⟨id, callID, record⟩, called⟩ := inv.fine.traced _ member frame rfl
    exact ⟨id, rpc, callID, record, called⟩

theorem delivery_at_most_once_answered :
    (sampleCall, .response sampleFrame) ∈ answered.shared.results ∧
      (answered.shared.results.map fun result => result.1.token).count 0 ≤ 1 ∧
      (returnResultsRuns answered).count 0 ≤ 1 := by
  obtain ⟨results, runs, _, _⟩ := delivery_at_most_once ⟨1, 0⟩ true answered
    (answered_run.mono fun _ _ serial => serial.window)
  exact ⟨Multiset.mem_singleton_self _, results 0, runs 0⟩

end GoHBase.RegionClient
