import GoHBase.Lib.Channel
import GoHBase.MultiCells
import GoHBase.ResponseFraming

/-! What happens to a MultiResponse that no server should send. Only the cellblock decoder of a
multi looks for such responses, and it runs only when there are cellblocks. -/

namespace GoHBase

open ByteString Runtime Buffer

def ResultOrException.Malformed (m : Multi) (roe : ResultOrException) : Prop :=
  roe.index.getD 0 = 0 ∨ m.calls.length < (roe.index.getD 0).toNat ∨
    (roe.result ≠ none ∧ roe.exception ≠ none) ∨ (roe.result = none ∧ roe.exception = none)

def Multi.Malformed (m : Multi) (response : MultiResponse) : Prop :=
  ∃ rar ∈ response, (rar.exception ≠ none ∧ rar.resultOrException ≠ []) ∨
    ∃ roe ∈ rar.resultOrException, roe.Malformed m

abbrev ResultChans := Nat → Channel.State RPCResult

/-- The sends to the channels of the calls. `takes` are the calls whose callers still wait. -/
def sendResults (takes : Nat → Bool) (deliveries : List Delivery) : Go ResultChans :=
  Channel.sendAll takes (fun _ => .empty)
    (deliveries.map fun delivery => (delivery.1.ref, delivery.2))

def Multi.AllFail (m : Multi) (channels : ResultChans) : Prop :=
  ∀ c, some c ∈ m.calls → ∃ err, (channels c.ref).received = some (.error err)

/-- Multis never expire. `put` is what becomes of the results that are handed out. -/
def multiReceiver {D : Type} (protowire : Protowire)
    (unmarshalHeader : Bytes → Except String ResponseHeader)
    (unmarshal : Bytes → MultiResponse → MultiResponse × Option String)
    (decompressCellblocks : Option (Bytes → Except String Bytes))
    (put : List Delivery → Go D) : Receiver Multi MultiResponse D where
  protowire := protowire
  unmarshalHeader := unmarshalHeader
  newResponse := fun _ => []
  unmarshal := unmarshal
  decompressCellblocks := decompressCellblocks
  deserializeCellBlocks := fun m => some m.deserializeCellBlocks
  expired := fun _ => false
  returnResult := fun m reply => do
    let deliveries ← m.returnResults reply.response reply.err
    put deliveries

/-- `receive` from the decoded response on, with the `returnResult` that it defers. -/
def Receiver.handleResponse {R M D : Type} (c : Receiver R M D) (rpc : R)
    (header : ResponseHeader) (size : UInt32) (b : Bytes) (response : M) : Go D := do
  let (reply, _) ← c.answerCells rpc header size b response
  c.returnResult rpc reply

namespace Multi

section Dispatch

variable (m : Multi)

def Addresses (roe : ResultOrException) (c : Call) : Prop :=
  roe.index.getD 0 ≠ 0 ∧ m.calls[(roe.index.getD 0).toNat - 1]? = some (some c)

def actionAnswer (roe : ResultOrException) : Option Delivery :=
  if roe.index.getD 0 = 0 then none
  else (m.calls[(roe.index.getD 0).toNat - 1]?).join.map fun c => (c, roe.resultFor c)

theorem actionAnswer_eq_some_iff (roe : ResultOrException) (delivery : Delivery) :
    m.actionAnswer roe = some delivery ↔
      m.Addresses roe delivery.1 ∧ delivery.2 = roe.resultFor delivery.1 := by
  obtain ⟨c, result⟩ := delivery
  unfold actionAnswer Addresses
  by_cases zero : roe.index.getD 0 = 0
  · simp [zero]
  · simp only [zero, ↓reduceIte, Option.map_eq_some_iff, Option.join_eq_some_iff, Prod.mk.injEq,
      ne_eq, not_false_eq_true, true_and]
    constructor
    · rintro ⟨_, stored, rfl, rfl⟩
      exact ⟨stored, rfl⟩
    · rintro ⟨stored, rfl⟩
      exact ⟨c, stored, rfl, rfl⟩

theorem returnAction_ok_iff (roe : ResultOrException) (delivery : Delivery) :
    m.returnAction roe = .ok delivery ↔ m.actionAnswer roe = some delivery := by
  rw [m.returnAction_eq, bind_ok_iff, actionAnswer_eq_some_iff]
  simp only [m.get_ok_iff]
  constructor
  · rintro ⟨stored, addressed, handed⟩
    obtain ⟨c, found, same⟩ := (bind_ok_iff _ _ _).mp handed
    cases stored with
    | none => cases found
    | some c' =>
        cases found
        cases same
        exact ⟨addressed, rfl⟩
  · rintro ⟨addressed, same⟩
    refine ⟨some delivery.1, addressed, ?_⟩
    rw [deref, ok_bind, ← same]

structure Dispatches (i : Nat) (rar : RegionActionResult) : Prop where
  region : rar.exception ≠ none → i < m.regions.length
  actions : rar.exception = none → ∀ roe ∈ rar.resultOrException, ∃ c, m.Addresses roe c

def regionAnswers (i : Nat) (rar : RegionActionResult) : List Delivery :=
  match rar.exception with
  | some e => failCalls m.calls (fun c => decide (some c.region = m.regions[i]?))
      (exceptionToError e.name e.value)
  | none => rar.resultOrException.filterMap m.actionAnswer

def answers (response : MultiResponse) : List Delivery :=
  response.zipIdx.flatMap fun entry => m.regionAnswers entry.2 entry.1

theorem returnRegion_ok_iff (i : Nat) (rar : RegionActionResult) (part : List Delivery) :
    m.returnRegion i rar = .ok part ↔ m.Dispatches i rar ∧ part = m.regionAnswers i rar := by
  unfold returnRegion regionAnswers
  cases failed : rar.exception with
  | some e =>
      simp only [bind_ok_iff, index]
      by_cases inside : i < m.regions.length
      · have dispatches : m.Dispatches i rar := by
          refine ⟨fun _ => inside, fun served => ?_⟩
          rw [failed] at served
          cases served
        rw [List.getElem?_eq_getElem inside]
        constructor
        · rintro ⟨reg, found, handed⟩
          cases found
          cases handed
          simp only [Option.some.injEq]
          exact ⟨dispatches, trivial⟩
        · rintro ⟨_, rfl⟩
          refine ⟨_, rfl, ?_⟩
          simp only [Option.some.injEq]
          rfl
      · rw [List.getElem?_eq_none (by omega)]
        apply iff_of_false
        · rintro ⟨_, missing, _⟩
          cases missing
        · exact fun dispatches => inside (dispatches.1.region (by simp [failed]))
  | none =>
      dsimp only
      rw [mapM_ok_iff_filterMap m.returnAction_ok_iff]
      refine and_congr_left fun _ => ?_
      simp only [Option.ne_none_iff_exists', actionAnswer_eq_some_iff]
      constructor
      · intro each
        refine ⟨fun thrown => absurd failed thrown, fun _ roe member => ?_⟩
        obtain ⟨delivery, addressed, _⟩ := each roe member
        exact ⟨delivery.1, addressed⟩
      · intro dispatches roe member
        obtain ⟨c, addressed⟩ := dispatches.actions failed roe member
        exact ⟨(c, roe.resultFor c), addressed, rfl⟩

theorem returnRegions_ok_iff (start : Nat) (response : MultiResponse)
    (deliveries : List Delivery) :
    m.returnRegions start response = .ok deliveries ↔
      (∀ i rar, response[i]? = some rar → m.Dispatches (start + i) rar) ∧
        deliveries =
          (response.zipIdx start).flatMap fun entry => m.regionAnswers entry.2 entry.1 := by
  induction response generalizing start deliveries with
  | nil =>
      simp only [returnRegions, List.getElem?_nil, List.zipIdx_nil, List.flatMap_nil]
      constructor
      · intro ran
        cases ran
        refine ⟨fun i rar placed => ?_, rfl⟩
        cases placed
      · rintro ⟨_, rfl⟩
        rfl
  | cons rar rest ih =>
      simp only [returnRegions, bind_ok_iff, returnRegion_ok_iff, ih, List.zipIdx_cons,
        List.flatMap_cons]
      constructor
      · rintro ⟨_, ⟨here, rfl⟩, _, ⟨later, rfl⟩, handed⟩
        cases handed
        refine ⟨fun i rar' placed => ?_, rfl⟩
        cases i with
        | zero =>
            cases placed
            exact here
        | succ i =>
            rw [Nat.add_comm i 1, ← Nat.add_assoc]
            exact later i rar' placed
      · rintro ⟨each, rfl⟩
        refine ⟨_, ⟨each 0 rar rfl, rfl⟩, _, ⟨fun i rar' placed => ?_, rfl⟩, rfl⟩
        rw [Nat.add_assoc, Nat.add_comm 1 i]
        exact each (i + 1) rar' placed

end Dispatch

section Channels

variable (m : Multi) (takes : Nat → Bool)

def resultsFor (ref : Nat) (deliveries : List Delivery) : List RPCResult :=
  Channel.valuesFor ref (deliveries.map fun delivery => (delivery.1.ref, delivery.2))

def Fits (deliveries : List Delivery) : Prop :=
  ∀ ref, (resultsFor ref deliveries).length ≤ Channel.room (takes ref)

/-- No call stands in the multi more often than its channel can take results. -/
def Roomy : Prop :=
  ∀ ref, ((m.calls.filterMap id).filter fun c => decide (c.ref = ref)).length ≤
    Channel.room (takes ref)

theorem sendResults_total_iff (deliveries : List Delivery) :
    (∃ channels, sendResults takes deliveries = .ok channels) ↔ Fits takes deliveries := by
  have sent := Channel.sendAll_returns_iff takes
    (deliveries.map fun delivery => (delivery.1.ref, delivery.2)) fun _ _ => True
  simp only [Returns, implies_true, and_true] at sent
  exact sent

theorem sendResults_allFail_iff (deliveries : List Delivery) :
    Returns (sendResults takes deliveries) m.AllFail ↔
      Fits takes deliveries ∧
        ∀ c, some c ∈ m.calls → ∃ err, (resultsFor c.ref deliveries).head? = some (.error err) := by
  have sent := Channel.sendAll_returns_iff takes
    (deliveries.map fun delivery => (delivery.1.ref, delivery.2)) fun ref result =>
      ∀ c, some c ∈ m.calls → c.ref = ref → ∃ err, result = some (.error err)
  have each (results : Nat → Option RPCResult) :
      (∀ ref c, some c ∈ m.calls → c.ref = ref → ∃ err, results ref = some (.error err)) ↔
        ∀ c, some c ∈ m.calls → ∃ err, results c.ref = some (.error err) := by
    constructor
    · exact fun all c live => all c.ref c live rfl
    · rintro all ref c live rfl
      exact all c live
  simp only [each] at sent
  exact sent

theorem returnRegions_allFail_iff (response : MultiResponse) :
    Returns (m.returnRegions 0 response >>= sendResults takes) m.AllFail ↔
      (∀ i rar, response[i]? = some rar → m.Dispatches i rar) ∧ Fits takes (m.answers response) ∧
        ∀ c, some c ∈ m.calls →
          ∃ err, (resultsFor c.ref (m.answers response)).head? = some (.error err) := by
  rw [returns_bind, ← sendResults_allFail_iff]
  simp only [Returns, returnRegions_ok_iff, Nat.zero_add]
  constructor
  · rintro ⟨_, ⟨dispatched, rfl⟩, failed⟩
    exact ⟨dispatched, failed⟩
  · rintro ⟨dispatched, failed⟩
    exact ⟨_, ⟨dispatched, rfl⟩, failed⟩

theorem resultsFor_failCalls (ref : Nat) (err : RpcError) :
    resultsFor ref (failCalls m.calls (fun _ => true) err) =
      ((m.calls.filterMap id).filter fun c => decide (c.ref = ref)).map fun _ => .error err := by
  simp only [resultsFor, Channel.valuesFor, failCalls, List.filter_true, List.map_map,
    List.filter_map]
  rfl

theorem fits_failCalls_iff (err : RpcError) :
    Fits takes (failCalls m.calls (fun _ => true) err) ↔ m.Roomy takes := by
  unfold Fits Roomy
  simp only [resultsFor_failCalls, List.length_map]

theorem failCalls_allFail_iff (err : RpcError) :
    Returns (sendResults takes (failCalls m.calls (fun _ => true) err)) m.AllFail ↔
      m.Roomy takes := by
  rw [sendResults_allFail_iff, fits_failCalls_iff, and_iff_left_iff_imp]
  intro _ c live
  refine ⟨err, ?_⟩
  have listed : c ∈ (m.calls.filterMap id).filter fun other => decide (other.ref = c.ref) := by
    simpa using live
  obtain ⟨first, later, split⟩ := List.exists_cons_of_ne_nil (List.ne_nil_of_mem listed)
  rw [resultsFor_failCalls, split]
  rfl

end Channels

end Multi

/-! A loop over items with cells that may stop: at which items it does, on any bytes. -/

section Loop

variable {α β : Type} {run : Bytes → List α → UInt32 → Go (List α × Except String UInt32)}
  {sent filled : β → α} {cells : β → List Cell} {passes : β → Prop} {stops : α → Bytes → Prop}

structure Passed (sent : β → α) (cells : β → List Cell) (passes : β → Prop) (items : List α)
    (unread : Bytes) (answers : List β) (rest : Bytes) : Prop where
  passes : ∀ answer ∈ answers, passes answer
  items : items = answers.map sent
  unread : unread = encodeCells (answers.flatMap cells) ++ rest

def Stopped (sent : β → α) (cells : β → List Cell) (passes : β → Prop)
    (stops : α → Bytes → Prop) (items : List α) (unread : Bytes) : Prop :=
  ∃ before item later answers rest, items = before ++ item :: later ∧
    Passed sent cells passes before unread answers rest ∧ stops item rest

structure Judges (run : Bytes → List α → UInt32 → Go (List α × Except String UInt32))
    (sent filled : β → α) (cells : β → List Cell) (passes : β → Prop)
    (stops : α → Bytes → Prop) : Prop where
  ends : ∀ b nread, run b [] nread = .ok ([], .ok nread)
  onward : ∀ answer, passes answer → Decodes run (sent answer) (filled answer) (cells answer)
  halts : ∀ (front unread : Bytes) (item : α) (items : List α),
    front.length + unread.length < 2 ^ 32 → stops item unread →
    ∃ left err, run (front ++ unread) (item :: items) (UInt32.ofNat front.length) =
      .ok (left, .error err)
  splits : ∀ (front unread : Bytes) (item : α) (items : List α)
    (result : List α × Except String UInt32), front.length + unread.length < 2 ^ 32 →
    run (front ++ unread) (item :: items) (UInt32.ofNat front.length) = .ok result →
    stops item unread ∨
      ∃ answer rest, passes answer ∧ item = sent answer ∧
        unread = encodeCells (cells answer) ++ rest

theorem Passed.length {items : List α} {unread : Bytes} {answers : List β} {rest : Bytes}
    (passed : Passed sent cells passes items unread answers rest) :
    unread.length = cellsLen (answers.flatMap cells) + rest.length := by
  rw [passed.unread, List.length_append, length_encodeCells]

theorem Passed.cons {items : List α} {unread : Bytes} {answers : List β} {rest : Bytes}
    (passed : Passed sent cells passes items unread answers rest) {answer : β}
    (pass : passes answer) :
    Passed sent cells passes (sent answer :: items) (encodeCells (cells answer) ++ unread)
      (answer :: answers) rest where
  passes := List.forall_mem_cons.mpr ⟨pass, passed.passes⟩
  items := by rw [List.map_cons, passed.items]
  unread := by rw [List.flatMap_cons, encodeCells_append, List.append_assoc, passed.unread]

theorem Judges.passed (judges : Judges run sent filled cells passes stops) {front unread : Bytes}
    {items : List α} {answers : List β} {rest : Bytes}
    (small : front.length + unread.length < 2 ^ 32)
    (passed : Passed sent cells passes items unread answers rest) (more : List α) :
    run (front ++ unread) (items ++ more) (UInt32.ofNat front.length) =
      (run (front ++ unread) more
        (UInt32.ofNat (front.length + cellsLen (answers.flatMap cells))) >>= fun later =>
          pure (answers.map filled ++ later.1, later.2)) := by
  have length := passed.length
  rw [passed.unread, passed.items]
  apply decodes_front
  · exact fun answer member => judges.onward answer (passed.passes answer member)
  · omega

theorem Judges.stopped (judges : Judges run sent filled cells passes stops) {front unread : Bytes}
    {items : List α} (small : front.length + unread.length < 2 ^ 32)
    (stopped : Stopped sent cells passes stops items unread) :
    ∃ left err, run (front ++ unread) items (UInt32.ofNat front.length) =
      .ok (left, .error err) := by
  obtain ⟨before, item, later, answers, rest, rfl, passed, stop⟩ := stopped
  have length := passed.length
  obtain ⟨left, err, failed⟩ := judges.halts (front ++ encodeCells (answers.flatMap cells)) rest
    item later (by rw [List.length_append, length_encodeCells]; omega) stop
  rw [List.append_assoc, ← passed.unread, List.length_append, length_encodeCells] at failed
  rw [judges.passed small passed, failed]
  exact ⟨_, err, rfl⟩

theorem Judges.returned (judges : Judges run sent filled cells passes stops)
    {front unread : Bytes} {items left : List α} {outcome : Except String UInt32}
    (small : front.length + unread.length < 2 ^ 32)
    (ran : run (front ++ unread) items (UInt32.ofNat front.length) = .ok (left, outcome)) :
    Stopped sent cells passes stops items unread ∨
      ∃ answers rest, Passed sent cells passes items unread answers rest ∧
        left = answers.map filled ∧
        outcome = .ok (UInt32.ofNat (front.length + cellsLen (answers.flatMap cells))) := by
  -- on the items; `front` takes up the cells of those that have passed
  induction items generalizing front unread left with
  | nil =>
      rw [judges.ends] at ran
      cases ran
      exact .inr ⟨[], unread, ⟨by simp, rfl, rfl⟩, rfl, by simp⟩
  | cons item items ih =>
      obtain stop | ⟨answer, behind, pass, rfl, rfl⟩ := judges.splits _ _ _ _ _ small ran
      · exact .inl ⟨[], item, items, [], unread, rfl, ⟨by simp, rfl, rfl⟩, stop⟩
      · rw [List.length_append, length_encodeCells] at small
        rw [(judges.onward answer pass).whole front behind items (by omega)] at ran
        obtain ⟨⟨others, last⟩, onward, ran⟩ := (bind_ok_iff _ _ _).mp ran
        cases ran
        rw [← List.append_assoc] at onward
        have position : UInt32.ofNat (front.length + cellsLen (cells answer)) =
            UInt32.ofNat (front ++ encodeCells (cells answer)).length := by
          rw [List.length_append, length_encodeCells]
        rw [position] at onward
        obtain ⟨before, next, later, answers, rest, rfl, passed, stop⟩ |
            ⟨answers, rest, passed, rfl, rfl⟩ :=
          ih (by rw [List.length_append, length_encodeCells]; omega) onward
        · refine .inl ⟨sent answer :: before, next, later, answer :: answers, rest, rfl, ?_, stop⟩
          exact passed.cons pass
        · refine .inr ⟨answer :: answers, rest, passed.cons pass, rfl, ?_⟩
          rw [List.flatMap_cons, cellsLen_append, List.length_append, length_encodeCells,
            Nat.add_assoc]

end Loop

namespace Multi

variable (m : Multi)

/-- The decoder reports this action, or the cells of a result that is for a live call. -/
def StopsAction (roe : ResultOrException) (unread : Bytes) : Prop :=
  roe.index.getD 0 = 0 ∨ (roe.result = none ∧ roe.exception = none) ∨
    (roe.result ≠ none ∧ roe.exception ≠ none) ∨
    (roe.exception = none ∧ ∃ r c, roe.result = some r ∧ m.Addresses roe c ∧
      CutCells (r.associatedCellCount.getD 0).toUInt32.toNat unread)

theorem deserializeActions_stops {front unread : Bytes} {roe : ResultOrException}
    (rest : List ResultOrException) (small : front.length + unread.length < 2 ^ 32)
    (stops : m.StopsAction roe unread) :
    ∃ left err, m.deserializeActions (front ++ unread) (roe :: rest) (UInt32.ofNat front.length) =
      .ok (left, .error err) := by
  rw [deserializeActions]
  by_cases zero : roe.index.getD 0 = 0
  · exact ⟨_, _, if_pos zero⟩
  dsimp only
  rw [if_neg zero]
  cases result : roe.result with
  | none =>
      cases exception : roe.exception with
      | none => exact ⟨_, _, rfl⟩
      | some e => simp [StopsAction, zero, result, exception] at stops
  | some r =>
      cases exception : roe.exception with
      | some e => exact ⟨_, _, rfl⟩
      | none =>
          obtain ⟨r', c, same, addressed, cut⟩ : ∃ r' c, some r = some r' ∧ m.Addresses roe c ∧
              CutCells (r'.associatedCellCount.getD 0).toUInt32.toNat unread := by
            simpa [StopsAction, zero, result, exception] using stops
          cases same
          obtain ⟨err, failed⟩ := fillResult_cut (by omega) cut
          simp only [(m.get_ok_iff _ _).mpr addressed, ok_bind, sliceFrom_word front unread
            (by omega), Call.deserializeCellBlocks_eq, failed]
          exact ⟨_, _, rfl⟩

theorem deserializeActions_splits {front unread : Bytes} {roe : ResultOrException}
    {rest : List ResultOrException} {answer : List ResultOrException × Except String UInt32}
    (small : front.length + unread.length < 2 ^ 32)
    (ran : m.deserializeActions (front ++ unread) (roe :: rest) (UInt32.ofNat front.length) =
      .ok answer) :
    m.StopsAction roe unread ∨ ∃ (answer : AnsweredAction) (left : Bytes), answer.Passes m ∧
      roe = answer.action ∧ unread = encodeCells answer.cells ++ left := by
  rw [deserializeActions] at ran
  by_cases zero : roe.index.getD 0 = 0
  · exact .inl (.inl zero)
  dsimp only at ran
  rw [if_neg zero] at ran
  cases result : roe.result with
  | none =>
      cases exception : roe.exception with
      | none => exact .inl (.inr (.inl ⟨result, exception⟩))
      | some e =>
          refine .inr ⟨⟨roe, []⟩, unread, ?_, rfl, rfl⟩
          exact ⟨zero, by simp [result, exception], by simp [result], by simp [result], by simp,
            by simp⟩
  | some r =>
      cases exception : roe.exception with
      | some e =>
          exact .inl (.inr (.inr (.inl ⟨by simp [result], by simp [exception]⟩)))
      | none =>
          rw [result, exception] at ran
          obtain ⟨stored, found, ran⟩ := (bind_ok_iff _ _ _).mp ran
          cases stored with
          | none => cases ran
          | some c =>
              have addressed := (m.get_ok_iff _ _).mp found
              dsimp only at ran
              rw [sliceFrom_word front unread (by omega), ok_bind] at ran
              obtain ⟨filled, read, _⟩ := (bind_ok_iff _ _ _).mp ran
              rw [Call.deserializeCellBlocks_eq] at read
              obtain cut | ⟨cells, left, counted, fits, split⟩ :=
                fillResult_returned (by omega) read
              · exact .inl (.inr (.inr (.inr ⟨exception, r, c, result, addressed, cut⟩)))
              · refine .inr ⟨⟨roe, cells⟩, left, ?_, rfl, split⟩
                refine ⟨zero, by simp [result, exception], fun _ => ⟨c, addressed.2⟩, ?_, ?_, fits⟩
                · intro r' same
                  rw [result] at same
                  cases same
                  exact counted
                · simp [result]

theorem actions_judged :
    Judges m.deserializeActions AnsweredAction.action AnsweredAction.filled AnsweredAction.cells
      (AnsweredAction.Passes m) m.StopsAction where
  ends := fun _ _ => rfl
  onward := fun _ passes => action_decodes passes
  halts := fun _ _ _ items small stops => m.deserializeActions_stops items small stops
  splits := fun _ _ _ _ _ small ran => m.deserializeActions_splits small ran

def StopsRegion (rar : RegionActionResult) (unread : Bytes) : Prop :=
  (rar.exception ≠ none ∧ rar.resultOrException ≠ []) ∨
    (rar.exception = none ∧ Stopped AnsweredAction.action AnsweredAction.cells
      (AnsweredAction.Passes m) m.StopsAction rar.resultOrException unread)

theorem deserializeRegions_stops {front unread : Bytes} {rar : RegionActionResult}
    (rest : MultiResponse) (small : front.length + unread.length < 2 ^ 32)
    (stops : m.StopsRegion rar unread) :
    ∃ left err, m.deserializeRegions (front ++ unread) (rar :: rest) (UInt32.ofNat front.length) =
      .ok (left, .error err) := by
  rw [deserializeRegions]
  obtain ⟨thrown, results⟩ | ⟨served, stopped⟩ := stops
  · obtain ⟨e, thrown⟩ := Option.ne_none_iff_exists'.mp thrown
    simp only [thrown, ne_eq, List.length_eq_zero_iff, results, not_false_eq_true, ↓reduceIte]
    exact ⟨_, _, rfl⟩
  · obtain ⟨left, err, failed⟩ := m.actions_judged.stopped small stopped
    simp only [served, failed, ok_bind]
    exact ⟨_, _, rfl⟩

theorem deserializeRegions_splits {front unread : Bytes} {rar : RegionActionResult}
    {rest : MultiResponse} {answer : MultiResponse × Except String UInt32}
    (small : front.length + unread.length < 2 ^ 32)
    (ran : m.deserializeRegions (front ++ unread) (rar :: rest) (UInt32.ofNat front.length) =
      .ok answer) :
    m.StopsRegion rar unread ∨ ∃ (answer : AnsweredRegion) (left : Bytes), answer.Passes m ∧
      rar = answer.sent ∧ unread = encodeCells (actionCells answer.actions) ++ left := by
  obtain ⟨results, exception⟩ := rar
  rw [deserializeRegions] at ran
  cases exception with
  | some e =>
      by_cases empty : results = []
      · exact .inr ⟨⟨[], some e⟩, unread, ⟨by simp, by simp⟩, by rw [empty]; rfl, rfl⟩
      · exact .inl (.inl ⟨by simp, empty⟩)
  | none =>
      obtain ⟨⟨actions, outcome⟩, read, _⟩ := (bind_ok_iff _ _ _).mp ran
      obtain stopped | ⟨answers, left, passed, _, _⟩ := m.actions_judged.returned small read
      · exact .inl (.inr ⟨rfl, stopped⟩)
      · refine .inr ⟨⟨answers, none⟩, left, ⟨passed.passes, by simp⟩, ?_, passed.unread⟩
        rw [AnsweredRegion.sent, ← passed.items]

theorem regions_judged :
    Judges m.deserializeRegions AnsweredRegion.sent AnsweredRegion.filled
      (fun answer => actionCells answer.actions) (AnsweredRegion.Passes m) m.StopsRegion where
  ends := fun _ _ => rfl
  onward := fun _ passes => region_decodes passes
  halts := fun _ _ _ items small stops => m.deserializeRegions_stops items small stops
  splits := fun _ _ _ _ _ small ran => m.deserializeRegions_splits small ran

/-- The decoder reports an error, or goes over the whole response and leaves cellblocks unread. -/
def Refuses (response : MultiResponse) (cells : Bytes) : Prop :=
  Stopped AnsweredRegion.sent (fun answer => actionCells answer.actions) (AnsweredRegion.Passes m)
      m.StopsRegion response cells ∨
    ∃ answers rest, Passed AnsweredRegion.sent (fun answer => actionCells answer.actions)
      (AnsweredRegion.Passes m) response cells answers rest ∧ rest ≠ []

/-- What the decoder lets pass of a malformed response is an exception with an index that is too
large, and that one panics when the exceptions are handed out. -/
theorem passed_not_dispatched {response : MultiResponse} {cells rest : Bytes}
    {answers : List AnsweredRegion}
    (passed : Passed AnsweredRegion.sent (fun answer => actionCells answer.actions)
      (AnsweredRegion.Passes m) response cells answers rest) (malformed : m.Malformed response) :
    ¬∀ i rar, (answers.map AnsweredRegion.filled)[i]? = some rar → m.Dispatches i rar := by
  intro dispatched
  obtain ⟨rar, member, fault⟩ := malformed
  rw [passed.items] at member
  obtain ⟨answer, listed, rfl⟩ := List.mem_map.mp member
  have passes := passed.passes answer listed
  obtain ⟨thrown, results⟩ | ⟨roe, inside, fault⟩ := fault
  · exact results (by simp [AnsweredRegion.sent, passes.refused thrown])
  · obtain ⟨action, own, rfl⟩ := List.mem_map.mp inside
    have served : answer.exception = none := by
      by_contra thrown
      rw [passes.refused thrown] at own
      cases own
    obtain ⟨position, placed⟩ := List.mem_iff_getElem?.mp (List.mem_map_of_mem listed)
    obtain ⟨c, addressed⟩ := (dispatched position _ placed).actions served action.filled
      (List.mem_map_of_mem own)
    have pass := passes.actions action own
    obtain zero | beyond | ⟨result, thrown⟩ | ⟨absent, calm⟩ := fault
    · exact pass.indexed zero
    · have inside := (List.getElem?_eq_some_iff.mp addressed.2).1
      change (action.action.index.getD 0).toNat - 1 < m.calls.length at inside
      omega
    · exact thrown (pass.either.mpr result)
    · exact pass.either.mp calm absent

end Multi

namespace Receiver

section Handling

variable {D : Type} {w : Protowire} {unmarshalHeader : Bytes → Except String ResponseHeader}
  {unmarshal : Bytes → MultiResponse → MultiResponse × Option String}
  {decompressCellblocks : Option (Bytes → Except String Bytes)} {put : List Delivery → Go D}
  {m : Multi} {header : ResponseHeader} {size : UInt32} {response : MultiResponse}

theorem handleResponse_bare (b : Bytes) (bare : header.cellsLen = 0) :
    (multiReceiver w unmarshalHeader unmarshal decompressCellblocks put).handleResponse m header
      size b response = m.returnRegions 0 response >>= put := by
  simp only [handleResponse, answerCells, multiReceiver, bare]
  rfl

section Cells

variable {front cells plain : Bytes} (length : (front ++ cells).length = size.toNat)
  (carried : header.cellsLen.toNat = cells.length) (present : cells ≠ [])

include length carried present

theorem handleResponse_cells :
    (multiReceiver w unmarshalHeader unmarshal decompressCellblocks put).handleResponse m header
      size (front ++ cells) response =
      ((multiReceiver w unmarshalHeader unmarshal decompressCellblocks put).decodeCells
        m.deserializeCellBlocks response cells >>= fun reply =>
          m.returnResults reply.response reply.err >>= put) := by
  have positive : 0 < header.cellsLen := by
    rw [UInt32.lt_iff_toNat_lt, carried]
    exact List.length_pos_iff.mpr present
  have cut : sliceFrom (front ++ cells) (size - header.cellsLen).toNat = .ok cells := by
    apply sliceFrom_append
    have bound := size.toNat_lt
    rw [UInt32.toNat_sub, carried, ← length]
    rw [← length] at bound
    rw [List.length_append] at bound ⊢
    omega
  unfold handleResponse answerCells
  change ((if 0 < header.cellsLen then _ else _) >>= _) = _
  rw [if_pos positive, cut, ok_bind, bind_assoc]
  rfl

variable (m response) in
theorem handleResponse_compressed {text : String}
    (failed : (multiReceiver w unmarshalHeader unmarshal decompressCellblocks put).decompress
      cells = .error text) :
    ∃ err, (multiReceiver w unmarshalHeader unmarshal decompressCellblocks put).handleResponse m
      header size (front ++ cells) response = put (failCalls m.calls (fun _ => true) err) := by
  rw [handleResponse_cells length carried present]
  simp only [decodeCells, failed]
  exact ⟨_, rfl⟩

variable (decompressed : (multiReceiver w unmarshalHeader unmarshal decompressCellblocks
  put).decompress cells = .ok plain)

include decompressed

theorem handleResponse_refused {filled : MultiResponse} {outcome : Except String UInt32}
    (decoded : m.deserializeCellBlocks response plain = .ok (filled, outcome))
    (refused : ∀ nread, outcome = .ok nread → nread.toNat < plain.length) :
    ∃ err, (multiReceiver w unmarshalHeader unmarshal decompressCellblocks put).handleResponse m
      header size (front ++ cells) response = put (failCalls m.calls (fun _ => true) err) := by
  rw [handleResponse_cells length carried present]
  simp only [decodeCells, decompressed, decoded, ok_bind]
  cases outcome with
  | error err => exact ⟨_, rfl⟩
  | ok nread =>
      simp only [refused nread rfl, ↓reduceIte]
      exact ⟨_, rfl⟩

theorem handleResponse_accepted {filled : MultiResponse} {nread : UInt32}
    (decoded : m.deserializeCellBlocks response plain = .ok (filled, .ok nread))
    (whole : ¬nread.toNat < plain.length) :
    (multiReceiver w unmarshalHeader unmarshal decompressCellblocks put).handleResponse m header
      size (front ++ cells) response = m.returnRegions 0 filled >>= put := by
  rw [handleResponse_cells length carried present]
  simp only [decodeCells, decompressed, decoded, ok_bind, whole, ↓reduceIte]
  rfl

theorem handleResponse_returned (malformed : m.Malformed response)
    (small : plain.length < 2 ^ 32) {result : D}
    (ran : (multiReceiver w unmarshalHeader unmarshal decompressCellblocks put).handleResponse m
      header size (front ++ cells) response = .ok result) : m.Refuses response plain := by
  have word : ([] : Bytes).length + plain.length < 2 ^ 32 := by
    rw [List.length_nil]
    omega
  have decoding := ran
  rw [handleResponse_cells length carried present] at decoding
  obtain ⟨reply, decoding, _⟩ := (bind_ok_iff _ _ _).mp decoding
  simp only [decodeCells, decompressed] at decoding
  obtain ⟨⟨filled, outcome⟩, decoded, _⟩ := (bind_ok_iff _ _ _).mp decoding
  obtain stopped | ⟨answers, rest, passed, rfl, rfl⟩ := m.regions_judged.returned word decoded
  · exact .inl stopped
  · refine .inr ⟨answers, rest, passed, ?_⟩
    rintro rfl
    have size := passed.length
    rw [List.length_nil, Nat.add_zero] at size
    rw [handleResponse_accepted length carried present decompressed decoded (by
      rw [List.length_nil, Nat.zero_add, ← size, UInt32.toNat_ofNat_of_lt' (by simpa using small)]
      omega)] at ran
    obtain ⟨deliveries, handed, _⟩ := (bind_ok_iff _ _ _).mp ran
    have dispatched := ((m.returnRegions_ok_iff 0 _ _).mp handed).1
    simp only [Nat.zero_add] at dispatched
    exact m.passed_not_dispatched passed malformed dispatched

theorem handleResponse_refuses (small : plain.length < 2 ^ 32)
    (refuses : m.Refuses response plain) :
    ∃ err, (multiReceiver w unmarshalHeader unmarshal decompressCellblocks put).handleResponse m
      header size (front ++ cells) response = put (failCalls m.calls (fun _ => true) err) := by
  have word : ([] : Bytes).length + plain.length < 2 ^ 32 := by
    rw [List.length_nil]
    omega
  obtain stopped | ⟨answers, rest, passed, leftover⟩ := refuses
  · obtain ⟨left, err, failed⟩ := m.regions_judged.stopped word stopped
    apply handleResponse_refused length carried present decompressed failed
    intro nread impossible
    cases impossible
  · have decoded := m.regions_judged.passed word passed []
    rw [List.append_nil, m.regions_judged.ends, ok_bind] at decoded
    apply handleResponse_refused length carried present decompressed decoded
    intro nread read
    cases read
    have size := passed.length
    have more := List.length_pos_iff.mpr leftover
    rw [List.length_nil, Nat.zero_add]
    rw [UInt32.toNat_ofNat_of_lt' (by change _ < 2 ^ 32; omega)]
    omega

end Cells

theorem handleResponse_cells_iff {takes : Nat → Bool} {front cells : Bytes}
    (length : (front ++ cells).length = size.toNat)
    (carried : header.cellsLen.toNat = cells.length) (present : cells ≠ [])
    (small : ∀ plain, (multiReceiver w unmarshalHeader unmarshal decompressCellblocks
      (sendResults takes)).decompress cells = .ok plain → plain.length < 2 ^ 32)
    (malformed : m.Malformed response) :
    Returns ((multiReceiver w unmarshalHeader unmarshal decompressCellblocks
        (sendResults takes)).handleResponse m header size (front ++ cells) response) m.AllFail ↔
      m.Roomy takes ∧ ∀ plain, (multiReceiver w unmarshalHeader unmarshal decompressCellblocks
        (sendResults takes)).decompress cells = .ok plain → m.Refuses response plain := by
  cases decompressed : (multiReceiver w unmarshalHeader unmarshal decompressCellblocks
      (sendResults takes)).decompress cells with
  | error text =>
      obtain ⟨err, handled⟩ := handleResponse_compressed m response length carried present
        decompressed
      rw [handled, m.failCalls_allFail_iff]
      simp
  | ok plain =>
      have short := small plain decompressed
      simp only [Except.ok.injEq, forall_eq']
      constructor
      · intro failed
        have ⟨_, ran, _⟩ := failed
        have refuses := handleResponse_returned length carried present decompressed malformed short
          ran
        obtain ⟨err, handled⟩ := handleResponse_refuses length carried present decompressed short
          refuses
        rw [handled, m.failCalls_allFail_iff] at failed
        exact ⟨failed, refuses⟩
      · rintro ⟨roomy, refuses⟩
        obtain ⟨err, handled⟩ := handleResponse_refuses length carried present decompressed short
          refuses
        rw [handled, m.failCalls_allFail_iff]
        exact roomy

end Handling

def samplePair : Multi :=
  ⟨2, [some (sampleGet 0 (sampleRegion 0 1 [] [])), some (sampleGet 1 (sampleRegion 0 1 [] []))],
    [some (sampleRegion 0 1 [] [])]⟩

def sampleReceiver : Receiver Multi MultiResponse ResultChans :=
  multiReceiver Varint.protowire (fun _ => .error "unexpected EOF")
    (fun _ response => (response, none)) none (sendResults fun _ => true)

def sampleHandling (cells : Bytes) (response : MultiResponse) : Go ResultChans :=
  sampleReceiver.handleResponse samplePair
    ⟨some 1, none, some ⟨some (UInt32.ofNat cells.length)⟩⟩ (UInt32.ofNat cells.length)
    ([] ++ cells) response

def samplePairOf (first second : ResultOrException) : MultiResponse := [⟨[first, second], none⟩]

def unindexedResponse : MultiResponse :=
  samplePairOf ⟨none, some sampleResult, none⟩ ⟨some 2, some sampleResult, none⟩

def doubleResponse : MultiResponse :=
  samplePairOf ⟨some 1, some sampleResult, some ⟨"", []⟩⟩ ⟨some 2, some sampleResult, none⟩

def distantResponse : MultiResponse :=
  samplePairOf ⟨some 3, some sampleResult, none⟩ ⟨some 2, some sampleResult, none⟩

section Deliverable

variable {R M D : Type} {c : Receiver R M D} {rpc : R} {reply : Reply M}

theorem decodeCells_response {deserialize : M → Bytes → Go (M × Except String UInt32)}
    {response : M} {b : Bytes} (decoded : c.decodeCells deserialize response b = .ok reply) :
    ∃ filled, reply.response = some filled := by
  unfold decodeCells at decoded
  split at decoded
  · cases decoded
    exact ⟨_, rfl⟩
  · obtain ⟨⟨filled, outcome⟩, _, decoded⟩ := (bind_ok_iff _ _ _).mp decoded
    cases outcome with
    | error err =>
        cases decoded
        exact ⟨_, rfl⟩
    | ok nread =>
        dsimp only at decoded
        split at decoded
        · cases decoded
          exact ⟨_, rfl⟩
        · cases decoded
          exact ⟨_, rfl⟩

theorem answer_response {header : ResponseHeader} {headerLen : Nat} {size : UInt32} {b : Bytes}
    {cellblocks : Option Bytes}
    (answered : c.answer rpc header headerLen size b = .ok (reply, cellblocks))
    (calm : reply.err = none) : ∃ response, reply.response = some response := by
  unfold answer at answered
  split at answered
  · obtain ⟨name, _, answered⟩ := (bind_ok_iff _ _ _).mp answered
    obtain ⟨trace, _, answered⟩ := (bind_ok_iff _ _ _).mp answered
    cases answered
    cases calm
  · obtain ⟨body, _, answered⟩ := (bind_ok_iff _ _ _).mp answered
    split at answered
    · cases answered
      exact ⟨_, rfl⟩
    · split at answered
      · cases answered
        exact ⟨_, rfl⟩
      · unfold answerCells at answered
        split at answered
        · cases answered
          exact ⟨_, rfl⟩
        · split at answered
          · obtain ⟨cells, _, answered⟩ := (bind_ok_iff _ _ _).mp answered
            obtain ⟨decoded, ran, answered⟩ := (bind_ok_iff _ _ _).mp answered
            cases answered
            exact decodeCells_response ran
          · cases answered
            exact ⟨_, rfl⟩

end Deliverable

/-- When a multi that is answered can hand its results out. -/
theorem multi_deliverable_iff (w : Protowire)
    (unmarshalHeader : Bytes → Except String ResponseHeader)
    (unmarshal : Bytes → MultiResponse → MultiResponse × Option String)
    (decompressCellblocks : Option (Bytes → Except String Bytes)) (takes : Nat → Bool) (m : Multi)
    (frame : ResponseFrame) :
    (multiReceiver w unmarshalHeader unmarshal decompressCellblocks
        (sendResults takes)).Deliverable m frame ↔
      ∀ reply cellblocks, (multiReceiver w unmarshalHeader unmarshal decompressCellblocks
          (sendResults takes)).answer m frame.header frame.headerPart.length
          (UInt32.ofNat frame.bytes.length) frame.bytes = .ok (reply, cellblocks) →
        (reply.err ≠ none → m.Roomy takes) ∧
        (reply.err = none → ∃ response, reply.response = some response ∧
          (∀ i rar, response[i]? = some rar → m.Dispatches i rar) ∧
          Multi.Fits takes (m.answers response)) := by
  refine forall₃_congr fun reply cellblocks answered => ?_
  obtain ⟨response, err⟩ := reply
  cases err with
  | some err =>
      have failed : (∃ delivered, sendResults takes (failCalls m.calls (fun _ => true) err) =
          .ok delivered) ↔ m.Roomy takes := by
        rw [Multi.sendResults_total_iff, m.fits_failCalls_iff]
      simpa [multiReceiver, Multi.returnResults] using failed
  | none =>
      obtain ⟨message, rfl⟩ : ∃ message, response = some message :=
        answer_response answered rfl
      have handed : (∃ delivered, (m.returnRegions 0 message >>= sendResults takes) =
          .ok delivered) ↔ (∀ i rar, message[i]? = some rar → m.Dispatches i rar) ∧
            Multi.Fits takes (m.answers message) := by
        simp only [bind_ok_iff, m.returnRegions_ok_iff, Nat.zero_add,
          ← Multi.sendResults_total_iff]
        constructor
        · rintro ⟨channels, _, ⟨dispatched, rfl⟩, sent⟩
          exact ⟨dispatched, channels, sent⟩
        · rintro ⟨dispatched, channels, sent⟩
          exact ⟨channels, _, ⟨dispatched, rfl⟩, sent⟩
      simpa [multiReceiver, Multi.returnResults] using handed

end Receiver

end GoHBase
