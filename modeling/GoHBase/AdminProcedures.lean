import GoHBase.SendRpc

/-!
Operations of the master that are not over when it answers: procedures on tables, and snapshots.
The client asks for their state until they are over.
-/

namespace GoHBase.Admin

open Runtime Retry

/-- The enumeration, and the numbers outside of it. -/
inductive ProcedureState
  | notFound
  | running
  | finished
  | other (state : Int32)
  deriving DecidableEq, Repr

structure GenericException where
  className : Option String
  message : Option String
  deriving DecidableEq, Repr

structure ForeignException where
  genericException : Option GenericException
  deriving DecidableEq, Repr

/-- The message `GetProcedureResultResponse`. -/
structure ProcedureResult where
  state : Option ProcedureState
  exception : Option ForeignException
  deriving DecidableEq, Repr

def ProcedureResult.getState (res : ProcedureResult) : ProcedureState := res.state.getD .notFound

def ForeignException.error (fe : ForeignException) : String :=
  match fe.genericException with
  | none => "got unexpected empty exception"
  | some ge =>
      "procedure exception: " ++ ge.className.getD "" ++ ": " ++ ge.message.getD ""

inductive TableOperation
  | createTable
  | deleteTable
  | enableTable
  | disableTable
  deriving DecidableEq, Repr

def TableOperation.response : TableOperation → String
  | .createTable => "CreateTableResponse"
  | .deleteTable => "DeleteTableResponse"
  | .enableTable => "EnableTableResponse"
  | .disableTable => "DisableTableResponse"

inductive SnapshotType
  | disabled
  | flush
  | skipFlush
  deriving DecidableEq, Repr

structure SnapshotDescription where
  snapshotType : Option SnapshotType
  table : String
  name : String
  version : Int32
  owner : String
  deriving DecidableEq, Repr

/-- What is sent to the master; `T` are the requests about tables. -/
inductive Request (T : Type)
  | table (op : TableOperation) (t : T)
  | getProcedureResult (procId : UInt64)
  | snapshot (description : SnapshotDescription)
  | isSnapshotDone (description : SnapshotDescription)

inductive Response
  | table (op : TableOperation) (procId : Option UInt64)
  | getProcedureResult (res : ProcedureResult)
  | snapshot
  | isSnapshotDone (done : Option Bool)
  | other
  deriving DecidableEq, Repr

abbrev Exchange (T : Type) := Request T × Except String Response

/-- `tick` is the select of `CreateSnapshot`: the ticker fires, or the context is done. -/
structure World (σ T : Type) where
  sendRPC : Request T → σ → σ × Except String Response
  sleep : Nat → σ → σ × Option String
  tick : σ → σ × Option String

structure Talk (σ T : Type) where
  world : σ
  log : List (Exchange T)

section Client

variable {σ T : Type} (w : World σ T)

def World.ask (request : Request T) (s : Talk σ T) : Talk σ T × Except String Response :=
  let (world, answer) := w.sendRPC request s.world
  (⟨world, s.log ++ [(request, answer)]⟩, answer)

/-- What `checkProcedureWithBackoff` makes of an answer. -/
def judgeProcedure : Except String Response → Go (Judgement (Option String) String)
  | .error err => pure (.final (some err))
  | .ok (.getProcedureResult res) =>
      match res.getState with
      | .notFound => pure (.final (some "procedure not found"))
      | .finished => pure (.final (res.exception.map ForeignException.error))
      | _ => pure (.pause some)
  | .ok _ =>
      .error (.panic "interface conversion: interface is not *pb.GetProcedureResultResponse")

def checkProcedure (procID : UInt64) (s : Talk σ T) :
    Go (Option (Talk σ T × Judgement (Option String) String)) := do
  let (s, answer) := w.ask (.getProcedureResult procID) s
  let judgement ← judgeProcedure answer
  pure (some (s, judgement))

def procedureLoop (procID : UInt64) : Loop (Talk σ T) (Option String) String where
  attempt := checkProcedure w procID
  sleep backoff s :=
    let (world, cut) := sleepBackoff w.sleep backoff s.world
    ({ s with world := world }, cut)
  next := increaseBackoff

def checkProcedureWithBackoff (procID : UInt64) (fuel : Nat) (s : Talk σ T) :
    Go (Option (Talk σ T × Option String × List Nat)) :=
  (procedureLoop w procID).run fuel backoffStart s

def tableOperation (op : TableOperation) (t : T) (fuel : Nat) (s : Talk σ T) :
    Go (Option (Talk σ T × Option String × List Nat)) :=
  match w.ask (.table op t) s with
  | (s, .error err) => pure (some (s, some err, []))
  | (s, .ok (.table answered procId)) =>
      if answered = op then checkProcedureWithBackoff w (procId.getD 0) fuel s
      else pure (some (s, some ("sendRPC returned not a " ++ op.response), []))
  | (s, .ok _) => pure (some (s, some ("sendRPC returned not a " ++ op.response), []))

def createTable (t : T) := tableOperation w .createTable t

def deleteTable (t : T) := tableOperation w .deleteTable t

def enableTable (t : T) := tableOperation w .enableTable t

def disableTable (t : T) := tableOperation w .disableTable t

def judgeSnapshot : Except String Response → Judgement (Option String) String
  | .error err => .final (some err)
  | .ok (.isSnapshotDone done) => if done.getD false then .final none else .again
  | .ok _ => .final (some "sendPRC returned not a IsSnapshotDoneResponse")

def checkSnapshot (description : SnapshotDescription) (s : Talk σ T) :
    Talk σ T × Judgement (Option String) String :=
  match w.tick s.world with
  | (world, some err) => ({ s with world := world }, .final (some err))
  | (world, none) =>
      let (s, answer) := w.ask (.isSnapshotDone description) { s with world := world }
      (s, judgeSnapshot answer)

/-- The loop never asks for a pause: its ticker goes on by itself. -/
def snapshotLoop (description : SnapshotDescription) : Loop (Talk σ T) (Option String) String where
  attempt s := pure (some (checkSnapshot w description s))
  sleep _ s := (s, none)
  next := id

def createSnapshot (description : SnapshotDescription) (fuel : Nat) (s : Talk σ T) :
    Go (Option (Talk σ T × Option String × List Nat)) :=
  match w.ask (.snapshot description) s with
  | (s, .error err) => pure (some (s, some err, []))
  | (s, .ok .snapshot) => (snapshotLoop w description).run fuel 0 s
  | (s, .ok _) => pure (some (s, some "sendPRC returned not a SnapshotResponse", []))

end Client

def ProcedureState.Open (state : ProcedureState) : Prop := state ≠ .notFound ∧ state ≠ .finished

/-- The procedure was asked for, and it is running or in a state that the client does not know. -/
def Running {T : Type} (procID : UInt64) (e : Exchange T) : Prop :=
  ∃ res, e = (.getProcedureResult procID, .ok (.getProcedureResult res)) ∧ res.getState.Open

inductive ProcedureEnded {T : Type} (procID : UInt64) :
    List (Exchange T) → Option String → Nat → Prop
  | unanswered {log : List (Exchange T)} {err : String} (before : ∀ e ∈ log, Running procID e) :
      ProcedureEnded procID (log ++ [(.getProcedureResult procID, .error err)]) (some err)
        log.length
  | notFound {log : List (Exchange T)} {res : ProcedureResult}
      (before : ∀ e ∈ log, Running procID e) (missing : res.getState = .notFound) :
      ProcedureEnded procID
        (log ++ [(.getProcedureResult procID, .ok (.getProcedureResult res))])
        (some "procedure not found") log.length
  | finished {log : List (Exchange T)} {res : ProcedureResult}
      (before : ∀ e ∈ log, Running procID e) (finished : res.getState = .finished) :
      ProcedureEnded procID
        (log ++ [(.getProcedureResult procID, .ok (.getProcedureResult res))])
        (res.exception.map ForeignException.error) log.length
  | interrupted {log : List (Exchange T)} {cause : String} (before : ∀ e ∈ log, Running procID e)
      (asked : log ≠ []) : ProcedureEnded procID log (some cause) log.length

section Procedures

variable {σ T : Type} {w : World σ T} {procID : UInt64} {s s' : Talk σ T}

theorem World.ask_log {request : Request T} {answer : Except String Response}
    (asked : w.ask request s = (s', answer)) : s'.log = s.log ++ [(request, answer)] := by
  cases asked
  rfl

inductive ProcedureJudged : Except String Response → Judgement (Option String) String → Prop
  | unanswered (err : String) : ProcedureJudged (.error err) (.final (some err))
  | notFound {res : ProcedureResult} (state : res.getState = .notFound) :
      ProcedureJudged (.ok (.getProcedureResult res)) (.final (some "procedure not found"))
  | finished {res : ProcedureResult} (state : res.getState = .finished) :
      ProcedureJudged (.ok (.getProcedureResult res))
        (.final (res.exception.map ForeignException.error))
  | running {res : ProcedureResult} (state : res.getState.Open) :
      ProcedureJudged (.ok (.getProcedureResult res)) (.pause some)

theorem judgeProcedure_cases {answer : Except String Response}
    {judgement : Judgement (Option String) String}
    (judged : judgeProcedure answer = .ok judgement) : ProcedureJudged answer judgement := by
  obtain err | answer := answer
  · cases judged
    exact .unanswered err
  · cases answer with
    | getProcedureResult res =>
        cases state : res.getState with
        | notFound =>
            simp only [judgeProcedure, state] at judged
            cases judged
            exact .notFound state
        | finished =>
            simp only [judgeProcedure, state] at judged
            cases judged
            exact .finished state
        | running =>
            simp only [judgeProcedure, state] at judged
            cases judged
            exact .running (by simp [ProcedureState.Open, state])
        | other n =>
            simp only [judgeProcedure, state] at judged
            cases judged
            exact .running (by simp [ProcedureState.Open, state])
    | table op procId => cases judged
    | snapshot => cases judged
    | isSnapshotDone done => cases judged
    | other => cases judged

theorem checkProcedure_cases {judgement : Judgement (Option String) String}
    (tried : checkProcedure w procID s = .ok (some (s', judgement))) :
    ∃ answer, s'.log = s.log ++ [(.getProcedureResult procID, answer)] ∧
      ProcedureJudged answer judgement := by
  obtain ⟨found, judged, same⟩ := (bind_ok_iff _ _ _).mp tried
  cases same
  exact ⟨_, rfl, judgeProcedure_cases judged⟩

theorem running_append {polls : List (Exchange T)} {res : ProcedureResult}
    (before : ∀ e ∈ polls, Running procID e) (state : res.getState.Open) :
    ∀ e ∈ polls ++ [(.getProcedureResult procID, .ok (.getProcedureResult res))],
      Running procID e := by
  intro e member
  obtain earlier | last := List.mem_append.mp member
  · exact before e earlier
  · exact ⟨res, List.mem_singleton.mp last, state⟩

theorem checkProcedureWithBackoff_ends {fuel : Nat} {outcome : Option String} {pauses : List Nat}
    (ran : checkProcedureWithBackoff w procID fuel s = .ok (some (s', outcome, pauses))) :
    ∃ polls, s'.log = s.log ++ polls ∧ ProcedureEnded procID polls outcome pauses.length := by
  have ended := (Retry.Ends.of_run ran).rule
    (fun count t => ∃ polls, t.log = s.log ++ polls ∧ (∀ e ∈ polls, Running procID e) ∧
      polls.length = count)
    (fun count t outcome => ∃ polls, t.log = s.log ++ polls ∧
      ProcedureEnded procID polls outcome count)
    0 ⟨[], by simp, by simp, rfl⟩ ?final ?again ?paused ?cut
  case final =>
    rintro _ t t' outcome ⟨polls, logged, running, rfl⟩ tried
    obtain ⟨answer, asked, judged⟩ := checkProcedure_cases tried
    refine ⟨polls ++ [(.getProcedureResult procID, answer)], ?_, ?_⟩
    · rw [asked, logged, List.append_assoc]
    · cases judged with
      | unanswered err => exact .unanswered running
      | notFound state => exact .notFound running state
      | finished state => exact .finished running state
  case again =>
    rintro _ t t' - tried
    obtain ⟨answer, _, judged⟩ := checkProcedure_cases tried
    cases judged
  case paused =>
    rintro _ t tired t' delay interrupted ⟨polls, logged, running, rfl⟩ tried slept
    obtain ⟨answer, asked, judged⟩ := checkProcedure_cases tried
    obtain rfl := congrArg Prod.fst slept
    cases judged with
    | @running res state =>
        refine ⟨polls ++ [(.getProcedureResult procID, .ok (.getProcedureResult res))], ?_,
          running_append running state, by simp⟩
        exact asked.trans (by rw [logged, List.append_assoc])
  case cut =>
    rintro _ t tired t' delay interrupted err ⟨polls, logged, running, rfl⟩ tried slept
    obtain ⟨answer, asked, judged⟩ := checkProcedure_cases tried
    obtain rfl := congrArg Prod.fst slept
    cases judged with
    | @running res state =>
        have grown : (polls ++ [(Request.getProcedureResult procID,
            Except.ok (Response.getProcedureResult res))]).length = polls.length + 1 := by simp
        refine ⟨polls ++ [(.getProcedureResult procID, .ok (.getProcedureResult res))], ?_, ?_⟩
        · exact asked.trans (by rw [logged, List.append_assoc])
        · rw [← grown]
          exact .interrupted (running_append running state) (by simp)
  rw [Nat.zero_add] at ended
  exact ended

theorem ProcedureEnded.success_iff {polls : List (Exchange T)} {outcome : Option String}
    {count : Nat} (ended : ProcedureEnded procID polls outcome count) :
    outcome = none ↔ ∃ front res,
      polls = front ++ [(.getProcedureResult procID, .ok (.getProcedureResult res))] ∧
        (∀ e ∈ front, Running procID e) ∧ res.getState = .finished ∧ res.exception = none := by
  constructor
  · intro success
    cases ended with
    | unanswered => cases success
    | notFound => cases success
    | interrupted => cases success
    | finished before state =>
        exact ⟨_, _, rfl, before, state, Option.map_eq_none_iff.mp success⟩
  · rintro ⟨front, res, split, _, state, calm⟩
    cases ended with
    | unanswered => cases List.append_inj_right' split rfl
    | notFound before missing =>
        cases List.append_inj_right' split rfl
        cases missing.symm.trans state
    | finished before state =>
        cases List.append_inj_right' split rfl
        rw [calm]
        rfl
    | interrupted before =>
        obtain ⟨own, same, running⟩ := before _ (split ▸ List.mem_append_right front
          (List.mem_singleton_self _))
        cases same
        exact absurd state running.2

inductive OperationEnded (op : TableOperation) (t : T) :
    List (Exchange T) → Option String → Nat → Prop
  | unanswered (err : String) : OperationEnded op t [(.table op t, .error err)] (some err) 0
  | mistaken {answer : Response} (other : ∀ procId, answer ≠ .table op procId) :
      OperationEnded op t [(.table op t, .ok answer)]
        (some ("sendRPC returned not a " ++ op.response)) 0
  | polled (procId : Option UInt64) {polls : List (Exchange T)} {outcome : Option String}
      {count : Nat} (ended : ProcedureEnded (procId.getD 0) polls outcome count) :
      OperationEnded op t ((.table op t, .ok (.table op procId)) :: polls) outcome count

theorem tableOperation_cases {op : TableOperation} {t : T} {answer : Except String Response}
    (asked : w.ask (.table op t) s = (s', answer)) :
    (∃ err, answer = .error err ∧
      ∀ fuel, tableOperation w op t fuel s = .ok (some (s', some err, []))) ∨
    (∃ procId, answer = .ok (.table op procId) ∧ ∀ fuel,
      tableOperation w op t fuel s = checkProcedureWithBackoff w (procId.getD 0) fuel s') ∨
    ∃ response, answer = .ok response ∧ (∀ procId, response ≠ .table op procId) ∧
      ∀ fuel, tableOperation w op t fuel s =
        .ok (some (s', some ("sendRPC returned not a " ++ op.response), [])) := by
  unfold tableOperation
  rw [asked]
  obtain err | answer := answer
  · exact .inl ⟨err, rfl, fun _ => rfl⟩
  · cases answer with
    | table answered procId =>
        by_cases same : answered = op
        · subst same
          exact .inr (.inl ⟨procId, rfl, fun _ => if_pos rfl⟩)
        · refine .inr (.inr ⟨_, rfl, fun own mistaken => same ?_, fun _ => if_neg same⟩)
          cases mistaken
          rfl
    | getProcedureResult res => exact .inr (.inr ⟨_, rfl, by simp, fun _ => rfl⟩)
    | snapshot => exact .inr (.inr ⟨_, rfl, by simp, fun _ => rfl⟩)
    | isSnapshotDone done => exact .inr (.inr ⟨_, rfl, by simp, fun _ => rfl⟩)
    | other => exact .inr (.inr ⟨_, rfl, by simp, fun _ => rfl⟩)

theorem tableOperation_ends {op : TableOperation} {t : T} {world : σ} {fuel : Nat}
    {outcome : Option String} {pauses : List Nat}
    (ran : tableOperation w op t fuel ⟨world, []⟩ = .ok (some (s', outcome, pauses))) :
    OperationEnded op t s'.log outcome pauses.length ∧ pauses =
      (List.range pauses.length).map fun count => increaseBackoff^[count] backoffStart := by
  cases asked : w.ask (.table op t) ⟨world, []⟩ with
  | mk s answer =>
      have logged : s.log = [(.table op t, answer)] := World.ask_log asked
      obtain ⟨err, rfl, ends⟩ | ⟨procId, rfl, goes⟩ | ⟨response, rfl, mistaken, ends⟩ :=
        tableOperation_cases asked
      · cases (ends fuel).symm.trans ran
        rw [logged]
        exact ⟨.unanswered err, rfl⟩
      · rw [goes fuel] at ran
        obtain ⟨polls, grown, ended⟩ := checkProcedureWithBackoff_ends ran
        rw [grown, logged]
        exact ⟨.polled procId ended, (Retry.Ends.of_run ran).schedule⟩
      · cases (ends fuel).symm.trans ran
        rw [logged]
        exact ⟨.mistaken mistaken, rfl⟩

/-- An operation on a table asks for its procedure, as long as that is running or in an unknown
state, and for nothing else; it pauses after each such answer, by the schedule. It returns no error
exactly when the last answer says that the procedure has finished without an exception. If the
answers are of the right type and the procedure does not run forever, the operation returns. -/
theorem table_operation_ends (w : World σ T) (op : TableOperation) (t : T) (world : σ) :
    (∀ fuel s' outcome pauses,
      tableOperation w op t fuel ⟨world, []⟩ = .ok (some (s', outcome, pauses)) →
      OperationEnded op t s'.log outcome pauses.length ∧
      (outcome = none ↔ ∃ procId polls res,
        s'.log = (.table op t, .ok (.table op procId)) :: (polls ++
          [(.getProcedureResult (procId.getD 0), .ok (.getProcedureResult res))]) ∧
        (∀ e ∈ polls, Running (procId.getD 0) e) ∧ res.getState = .finished ∧
        res.exception = none) ∧
      pauses = (List.range pauses.length).map fun count =>
        if count ≤ 9 then 16 * 2 ^ count
        else if count ≤ 14 then 8192 + 5000 * (count - 9) else 33192) ∧
    ((∀ procId s, w.ask (.table op t) ⟨world, []⟩ = (s, .ok (.table op procId)) →
        Responsive (procedureLoop w (procId.getD 0)) (backoffStart, s) ∧
        ¬Endless (procedureLoop w (procId.getD 0)) (backoffStart, s)) →
      ∃ fuel ended, tableOperation w op t fuel ⟨world, []⟩ = .ok (some ended)) := by
  constructor
  · intro fuel s' outcome pauses ran
    obtain ⟨ended, scheduled⟩ := tableOperation_ends ran
    refine ⟨ended, ?_, scheduled.trans (List.map_congr_left fun count _ => backoff_after count)⟩
    generalize s'.log = log, pauses.length = count at ended ⊢
    cases ended with
    | unanswered err => simp
    | mistaken other =>
        constructor
        · intro impossible
          cases impossible
        · rintro ⟨procId, polls, res, split, _⟩
          cases (List.cons.inj split).1
          exact absurd rfl (other procId)
    | polled procId ended =>
        rw [ended.success_iff]
        constructor
        · rintro ⟨front, res, rfl, facts⟩
          exact ⟨procId, front, res, rfl, facts⟩
        · rintro ⟨own, front, res, split, facts⟩
          obtain ⟨same, polls⟩ := List.cons.inj split
          cases same
          exact ⟨front, res, polls, facts⟩
  · intro waits
    cases asked : w.ask (.table op t) ⟨world, []⟩ with
    | mk s answer =>
        obtain ⟨err, rfl, ends⟩ | ⟨procId, rfl, goes⟩ | ⟨response, rfl, _, ends⟩ :=
          tableOperation_cases asked
        · exact ⟨0, _, ends 0⟩
        · obtain ⟨responsive, finite⟩ := waits procId s asked
          obtain ⟨fuel, s', outcome, pauses, ran⟩ := run_of_not_endless responsive finite
          exact ⟨fuel, _, (goes fuel).trans ran⟩
        · exact ⟨0, _, ends 0⟩

end Procedures

def countdownWorld : World Nat Unit where
  sendRPC
    | .table op _, left => (left, .ok (.table op (some 7)))
    | .getProcedureResult _, 0 => (0, .ok (.getProcedureResult ⟨some .finished, none⟩))
    | .getProcedureResult _, left + 1 => (left, .ok (.getProcedureResult ⟨some .running, none⟩))
    | _, left => (left, .ok .other)
  sleep _ left := (left, none)
  tick left := (left, none)

theorem countdown_polled (procID : UInt64) (s : Talk Nat Unit) :
    ∃ s' judgement, checkProcedure countdownWorld procID s = .ok (some (s', judgement)) ∧
      ((∃ outcome, judgement = .final outcome) ∨ s'.world < s.world) := by
  obtain ⟨left, log⟩ := s
  cases left with
  | zero => exact ⟨_, _, rfl, .inl ⟨_, rfl⟩⟩
  | succ left => exact ⟨_, _, rfl, .inr (Nat.lt_succ_self left)⟩

theorem countdown_round {procID : UInt64} {p p' : Nat × Talk Nat Unit}
    (round : Round (procedureLoop countdownWorld procID) p p') : p'.2.world < p.2.world := by
  obtain ⟨delay, s⟩ := p
  obtain ⟨next, judgement, tries, fewer⟩ := countdown_polled procID s
  cases round with
  | again tried =>
      cases Option.some.inj (Except.ok.inj (tried.symm.trans tries))
      obtain ⟨outcome, final⟩ | less := fewer
      · cases final
      · exact less
  | paused tried slept =>
      cases Option.some.inj (Except.ok.inj (tried.symm.trans tries))
      obtain ⟨outcome, final⟩ | less := fewer
      · cases final
      · obtain rfl := congrArg Prod.fst slept
        refine lt_of_eq_of_lt ?_ less
        simp only [procedureLoop, sleepBackoff]
        split <;> rfl

theorem table_operation_ends_countdown :
    (∃ s', createTable countdownWorld () 3 ⟨2, []⟩ = .ok (some (s', none, [16, 32])) ∧
      OperationEnded .createTable () s'.log none 2) ∧
    ∃ fuel ended, createTable countdownWorld () fuel ⟨1000, []⟩ = .ok (some ended) := by
  constructor
  · obtain ⟨s', ran⟩ : ∃ s', createTable countdownWorld () 3 ⟨2, []⟩ =
        .ok (some (s', none, [16, 32])) := ⟨_, rfl⟩
    exact ⟨s', ran, ((table_operation_ends countdownWorld .createTable () 2).1 3 s' _ _ ran).1⟩
  · refine (table_operation_ends countdownWorld .createTable () 1000).2 fun procId s _ => ?_
    refine ⟨fun p _ => ?_, not_endless_of_rank Talk.world fun _ _ => countdown_round⟩
    obtain ⟨s', judgement, tried, _⟩ := countdown_polled (procId.getD 0) p.2
    exact ⟨_, tried⟩

/-! ## Snapshots -/

def Undone {T : Type} (description : SnapshotDescription) (e : Exchange T) : Prop :=
  ∃ done, e = (.isSnapshotDone description, .ok (.isSnapshotDone done)) ∧ done.getD false = false

inductive SnapshotEnded {T : Type} (description : SnapshotDescription) :
    List (Exchange T) → Option String → Prop
  | unanswered {log : List (Exchange T)} {err : String} (before : ∀ e ∈ log, Undone description e) :
      SnapshotEnded description (log ++ [(.isSnapshotDone description, .error err)]) (some err)
  | mistaken {log : List (Exchange T)} {answer : Response}
      (before : ∀ e ∈ log, Undone description e) (other : ∀ done, answer ≠ .isSnapshotDone done) :
      SnapshotEnded description (log ++ [(.isSnapshotDone description, .ok answer)])
        (some "sendPRC returned not a IsSnapshotDoneResponse")
  | finished {log : List (Exchange T)} (before : ∀ e ∈ log, Undone description e) :
      SnapshotEnded description
        (log ++ [(.isSnapshotDone description, .ok (.isSnapshotDone (some true)))]) none
  | interrupted {log : List (Exchange T)} {cause : String}
      (before : ∀ e ∈ log, Undone description e) : SnapshotEnded description log (some cause)

inductive CreationEnded {T : Type} (description : SnapshotDescription) :
    List (Exchange T) → Option String → Prop
  | unanswered (err : String) :
      CreationEnded description [(.snapshot description, .error err)] (some err)
  | mistaken {answer : Response} (other : answer ≠ .snapshot) :
      CreationEnded description [(.snapshot description, .ok answer)]
        (some "sendPRC returned not a SnapshotResponse")
  | asked {questions : List (Exchange T)} {outcome : Option String}
      (ended : SnapshotEnded description questions outcome) :
      CreationEnded description ((.snapshot description, .ok .snapshot) :: questions) outcome

section Snapshots

variable {σ T : Type} {w : World σ T} {description : SnapshotDescription} {s s' : Talk σ T}

inductive SnapshotRound {T : Type} (description : SnapshotDescription) :
    List (Exchange T) → Judgement (Option String) String → Prop
  | interrupted (cause : String) : SnapshotRound description [] (.final (some cause))
  | unanswered (err : String) :
      SnapshotRound description [(.isSnapshotDone description, .error err)] (.final (some err))
  | mistaken {answer : Response} (other : ∀ done, answer ≠ .isSnapshotDone done) :
      SnapshotRound description [(.isSnapshotDone description, .ok answer)]
        (.final (some "sendPRC returned not a IsSnapshotDoneResponse"))
  | finished :
      SnapshotRound description
        [(.isSnapshotDone description, .ok (.isSnapshotDone (some true)))] (.final none)
  | again {done : Option Bool} (undone : done.getD false = false) :
      SnapshotRound description [(.isSnapshotDone description, .ok (.isSnapshotDone done))] .again

theorem judgeSnapshot_cases (answer : Except String Response) :
    SnapshotRound (T := T) description [(.isSnapshotDone description, answer)]
      (judgeSnapshot answer) := by
  obtain err | answer := answer
  · exact .unanswered err
  · cases answer with
    | isSnapshotDone done =>
        cases done with
        | none => exact .again rfl
        | some done =>
            cases done with
            | false => exact .again rfl
            | true => exact .finished
    | table op procId => exact .mistaken (by simp)
    | getProcedureResult res => exact .mistaken (by simp)
    | snapshot => exact .mistaken (by simp)
    | other => exact .mistaken (by simp)

theorem checkSnapshot_cases {judgement : Judgement (Option String) String}
    (tried : (snapshotLoop w description).attempt s = .ok (some (s', judgement))) :
    ∃ asked, s'.log = s.log ++ asked ∧ SnapshotRound description asked judgement := by
  have round : checkSnapshot w description s = (s', judgement) :=
    Option.some.inj (Except.ok.inj tried)
  unfold checkSnapshot at round
  cases ticked : w.tick s.world with
  | mk world cut =>
      rw [ticked] at round
      cases cut with
      | some cause =>
          cases round
          exact ⟨[], (List.append_nil _).symm, .interrupted cause⟩
      | none =>
          cases round
          exact ⟨_, rfl, judgeSnapshot_cases _⟩

theorem snapshotLoop_ends {fuel delay : Nat} {outcome : Option String} {pauses : List Nat}
    (ran : (snapshotLoop w description).run fuel delay s = .ok (some (s', outcome, pauses))) :
    ∃ questions, s'.log = s.log ++ questions ∧ SnapshotEnded description questions outcome := by
  refine (Retry.Ends.of_run ran).rule
    (fun _ t => ∃ questions, t.log = s.log ++ questions ∧ ∀ e ∈ questions, Undone description e)
    (fun _ t outcome => ∃ questions, t.log = s.log ++ questions ∧
      SnapshotEnded description questions outcome)
    0 ⟨[], by simp, by simp⟩ ?final ?again ?paused ?cut
  case final =>
    rintro _ t t' outcome ⟨questions, logged, undone⟩ tried
    obtain ⟨asked, grown, round⟩ := checkSnapshot_cases tried
    refine ⟨questions ++ asked, by rw [grown, logged, List.append_assoc], ?_⟩
    cases round with
    | interrupted cause =>
        rw [List.append_nil]
        exact .interrupted undone
    | unanswered err => exact .unanswered undone
    | mistaken other => exact .mistaken undone other
    | finished => exact .finished undone
  case again =>
    rintro _ t t' ⟨questions, logged, undone⟩ tried
    obtain ⟨asked, grown, round⟩ := checkSnapshot_cases tried
    refine ⟨questions ++ asked, by rw [grown, logged, List.append_assoc], ?_⟩
    cases round with
    | @again done still =>
        intro e member
        obtain earlier | last := List.mem_append.mp member
        · exact undone e earlier
        · exact ⟨done, List.mem_singleton.mp last, still⟩
  case paused =>
    rintro _ t tired t' delay interrupted - tried
    obtain ⟨_, _, round⟩ := checkSnapshot_cases tried
    cases round
  case cut =>
    rintro _ t tired t' delay interrupted err - tried
    obtain ⟨_, _, round⟩ := checkSnapshot_cases tried
    cases round

theorem SnapshotEnded.success_iff {questions : List (Exchange T)} {outcome : Option String}
    (ended : SnapshotEnded description questions outcome) :
    outcome = none ↔ ∃ front,
      questions = front ++ [(.isSnapshotDone description, .ok (.isSnapshotDone (some true)))] ∧
        ∀ e ∈ front, Undone description e := by
  constructor
  · intro success
    cases ended with
    | unanswered => cases success
    | mistaken => cases success
    | interrupted => cases success
    | finished before => exact ⟨_, rfl, before⟩
  · rintro ⟨front, split, _⟩
    cases ended with
    | unanswered => cases List.append_inj_right' split rfl
    | mistaken before other =>
        cases List.append_inj_right' split rfl
        exact absurd rfl (other _)
    | finished => rfl
    | interrupted before =>
        obtain ⟨done, same, still⟩ := before _ (split ▸ List.mem_append_right front
          (List.mem_singleton_self _))
        cases same
        cases still

theorem createSnapshot_cases {answer : Except String Response}
    (asked : w.ask (.snapshot description) s = (s', answer)) :
    (∃ err, answer = .error err ∧
      ∀ fuel, createSnapshot w description fuel s = .ok (some (s', some err, []))) ∨
    (answer = .ok .snapshot ∧ ∀ fuel,
      createSnapshot w description fuel s = (snapshotLoop w description).run fuel 0 s') ∨
    ∃ response, answer = .ok response ∧ response ≠ .snapshot ∧
      ∀ fuel, createSnapshot w description fuel s =
        .ok (some (s', some "sendPRC returned not a SnapshotResponse", [])) := by
  unfold createSnapshot
  rw [asked]
  obtain err | answer := answer
  · exact .inl ⟨err, rfl, fun _ => rfl⟩
  · cases answer with
    | snapshot => exact .inr (.inl ⟨rfl, fun _ => rfl⟩)
    | table op procId => exact .inr (.inr ⟨_, rfl, by simp, fun _ => rfl⟩)
    | getProcedureResult res => exact .inr (.inr ⟨_, rfl, by simp, fun _ => rfl⟩)
    | isSnapshotDone done => exact .inr (.inr ⟨_, rfl, by simp, fun _ => rfl⟩)
    | other => exact .inr (.inr ⟨_, rfl, by simp, fun _ => rfl⟩)

theorem createSnapshot_ends {fuel : Nat} {outcome : Option String} {pauses : List Nat} {world : σ}
    (ran : createSnapshot w description fuel ⟨world, []⟩ = .ok (some (s', outcome, pauses))) :
    CreationEnded description s'.log outcome := by
  cases asked : w.ask (.snapshot description) ⟨world, []⟩ with
  | mk s answer =>
      have logged : s.log = [(.snapshot description, answer)] := World.ask_log asked
      obtain ⟨err, rfl, ends⟩ | ⟨rfl, goes⟩ | ⟨response, rfl, mistaken, ends⟩ :=
        createSnapshot_cases asked
      · cases (ends fuel).symm.trans ran
        rw [logged]
        exact .unanswered err
      · rw [goes fuel] at ran
        obtain ⟨questions, grown, ended⟩ := snapshotLoop_ends ran
        rw [grown, logged]
        exact .asked ended
      · cases (ends fuel).symm.trans ran
        rw [logged]
        exact .mistaken mistaken

/-- `CreateSnapshot` asks whether its own snapshot is done until it is, and for nothing else. It
returns no error exactly when the last answer says so. If the snapshot is not undone forever, it
returns. -/
theorem create_snapshot_ends (w : World σ T) (description : SnapshotDescription) (world : σ) :
    (∀ fuel s' outcome pauses,
      createSnapshot w description fuel ⟨world, []⟩ = .ok (some (s', outcome, pauses)) →
      CreationEnded description s'.log outcome ∧
      (outcome = none ↔ ∃ questions,
        s'.log = (.snapshot description, .ok .snapshot) :: (questions ++
          [(.isSnapshotDone description, .ok (.isSnapshotDone (some true)))]) ∧
        ∀ e ∈ questions, Undone description e)) ∧
    ((∀ s, w.ask (.snapshot description) ⟨world, []⟩ = (s, .ok .snapshot) →
        ¬Endless (snapshotLoop w description) (0, s)) →
      ∃ fuel ended, createSnapshot w description fuel ⟨world, []⟩ = .ok (some ended)) := by
  constructor
  · intro fuel s' outcome pauses ran
    have ended := createSnapshot_ends ran
    refine ⟨ended, ?_⟩
    generalize s'.log = log at ended ⊢
    cases ended with
    | unanswered err => simp
    | mistaken other =>
        constructor
        · intro impossible
          cases impossible
        · rintro ⟨questions, split, _⟩
          cases (List.cons.inj split).1
          exact absurd rfl other
    | asked ended =>
        rw [ended.success_iff]
        constructor
        · rintro ⟨front, rfl, undone⟩
          exact ⟨front, rfl, undone⟩
        · rintro ⟨front, split, undone⟩
          exact ⟨front, (List.cons.inj split).2, undone⟩
  · intro waits
    cases asked : w.ask (.snapshot description) ⟨world, []⟩ with
    | mk s answer =>
        obtain ⟨err, rfl, ends⟩ | ⟨rfl, goes⟩ | ⟨response, rfl, _, ends⟩ :=
          createSnapshot_cases asked
        · exact ⟨0, _, ends 0⟩
        · have responsive : Responsive (snapshotLoop w description) (0, s) := fun p _ => ⟨_, rfl⟩
          obtain ⟨fuel, s', outcome, pauses, ran⟩ :=
            run_of_not_endless responsive (waits s asked)
          exact ⟨fuel, _, (goes fuel).trans ran⟩
        · exact ⟨0, _, ends 0⟩

end Snapshots

def snapshotWorld : World Nat Unit where
  sendRPC
    | .snapshot _, left => (left, .ok .snapshot)
    | .isSnapshotDone _, 0 => (0, .ok (.isSnapshotDone (some true)))
    | .isSnapshotDone _, left + 1 => (left, .ok (.isSnapshotDone none))
    | _, left => (left, .ok .other)
  sleep _ left := (left, none)
  tick left := (left, none)

theorem ticks_round {description : SnapshotDescription} {p p' : Nat × Talk Nat Unit}
    (round : Round (snapshotLoop snapshotWorld description) p p') : p'.2.world < p.2.world := by
  obtain ⟨delay, left, log⟩ := p
  cases round with
  | again tried =>
      cases left with
      | zero => cases Option.some.inj (Except.ok.inj tried)
      | succ left =>
          cases Option.some.inj (Except.ok.inj tried)
          exact Nat.lt_succ_self left
  | paused tried slept =>
      obtain ⟨_, _, asked⟩ := checkSnapshot_cases tried
      cases asked

theorem create_snapshot_ends_ticks :
    (∃ s', createSnapshot snapshotWorld ⟨none, "t", "nightly", 0, ""⟩ 3 ⟨2, []⟩ =
        .ok (some (s', none, [])) ∧
      CreationEnded ⟨none, "t", "nightly", 0, ""⟩ s'.log none) ∧
    ∃ fuel ended, createSnapshot snapshotWorld ⟨some .skipFlush, "t", "nightly", 0, ""⟩ fuel
      ⟨1000, []⟩ = .ok (some ended) := by
  constructor
  · obtain ⟨s', ran⟩ : ∃ s', createSnapshot snapshotWorld ⟨none, "t", "nightly", 0, ""⟩ 3 ⟨2, []⟩ =
        .ok (some (s', none, [])) := ⟨_, rfl⟩
    exact ⟨s', ran, ((create_snapshot_ends snapshotWorld _ 2).1 3 s' _ _ ran).1⟩
  · refine (create_snapshot_ends snapshotWorld _ 1000).2 fun s _ => ?_
    exact not_endless_of_rank Talk.world fun _ _ => ticks_round

end GoHBase.Admin
