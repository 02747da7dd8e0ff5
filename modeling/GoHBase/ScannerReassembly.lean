import GoHBase.ScannerDrain

/-! How `Next` puts rows together that the server sends in pieces. -/

namespace GoHBase

open ByteString Runtime Buffer

namespace PbResult

def firstRow (piece : PbResult) : Option Bytes := piece.cell.head?.map Cell.row

def absorb (row piece : PbResult) : PbResult :=
  { row with
    cell := row.cell ++ piece.cell
    stale := if piece.stale.getD false then some true else row.stale }

def finish (row : PbResult) : PbResult := { row with isPartial := some false }

theorem firstRow_eq_none {piece : PbResult} : piece.firstRow = none ↔ piece.cell = [] := by
  simp [firstRow]

theorem absorb_firstRow {row : PbResult} {key : Bytes} (known : row.firstRow = some key)
    (piece : PbResult) : (row.absorb piece).firstRow = some key := by
  cases cells : row.cell with
  | nil => simp [firstRow, cells] at known
  | cons cell cells' =>
      simp only [firstRow, cells, absorb] at known ⊢
      exact known

theorem absorb_empty {row piece : PbResult} (empty : piece.firstRow = none) :
    (row.absorb piece).firstRow = row.firstRow := by
  simp only [firstRow, absorb, firstRow_eq_none.mp empty, List.append_nil]

@[simp] theorem absorb_cell (row piece : PbResult) :
    (row.absorb piece).cell = row.cell ++ piece.cell := rfl

@[simp] theorem absorb_existence (row piece : PbResult) :
    (row.absorb piece).existence = row.existence := rfl

@[simp] theorem absorb_stale (row piece : PbResult) :
    (row.absorb piece).stale.getD false = (row.stale.getD false || piece.stale.getD false) := by
  unfold absorb
  cases piece.stale.getD false with
  | true => simp
  | false => simp

end PbResult

theorem coalesce_eq {row : PbResult} (unfinished : row.isPartial.getD false = true)
    (piece : PbResult) :
    coalesce (some row) (some piece) =
      match piece.firstRow, row.firstRow with
      | none, _ => .ok (some (row.absorb piece), true)
      | some _, none => .error (.panic "index out of range")
      | some key, some known =>
          if known ≠ key then .ok (some row.finish, false)
          else .ok (some (row.absorb piece), true) := by
  unfold coalesce PbResult.firstRow
  simp only [unfinished, Bool.not_true, Bool.false_eq_true, ↓reduceIte]
  cases cells : piece.cell with
  | nil =>
      simp only [List.head?_nil, Option.map_none, PbResult.absorb, cells, List.append_nil]
      rfl
  | cons cell cells' =>
      cases front : row.cell with
      | nil => rfl
      | cons first rest =>
          have found : index (first :: rest) 0 = .ok first := rfl
          simp only [found, ok_bind, List.head?_cons, Option.map_some, PbResult.absorb,
            PbResult.finish, cells, front]
          rfl

theorem coalesce_getPartial {row joined item : Option PbResult} {done : Bool}
    (unfinished : getPartial row = true) (ran : coalesce row item = .ok (joined, done)) :
    getPartial joined = done := by
  cases row with
  | none => cases unfinished
  | some row =>
      cases item with
      | none =>
          simp only [getPartial] at unfinished
          simp [coalesce, unfinished] at ran
      | some piece =>
          rw [coalesce_eq unfinished] at ran
          split at ran
          · cases ran
            exact unfinished
          · cases ran
          · split at ran
            · cases ran
              rfl
            · cases ran
              exact unfinished

/-- What calls of `Next` return on a stream of results, the first of them in the middle of `row`. -/
def reassemble : List (Option PbResult) → Option PbResult → Go (List (Option LocalResult))
  | [], none => pure []
  | [], some row => pure [toLocalResult (some { row with isPartial := some false })]
  | item :: rest, row =>
      let begins : Go (List (Option LocalResult)) :=
        if getPartial item then reassemble rest item
        else do
          let later ← reassemble rest none
          pure (toLocalResult item :: later)
      match row with
      | none => begins
      | some row => do
          let (joined, done) ← coalesce (some row) item
          if done then reassemble rest joined
          else do
            let later ← begins
            pure (toLocalResult joined :: later)

theorem reassemble_begin (item : Option PbResult) (rest : List (Option PbResult)) :
    reassemble (item :: rest) none =
      if getPartial item then reassemble rest item
      else (do
        let later ← reassemble rest none
        pure (toLocalResult item :: later)) := rfl

theorem reassemble_middle (item : Option PbResult) (rest : List (Option PbResult))
    (row : PbResult) :
    reassemble (item :: rest) (some row) = (do
      let (joined, done) ← coalesce (some row) item
      if done then reassemble rest joined
      else do
        let later ← reassemble (item :: rest) none
        pure (toLocalResult joined :: later)) := rfl

section Refinement

variable {σ ε : Type} (client : RPCClient σ ε)

def resume (fuel rounds calls : Nat) (row : Option PbResult) (st : ScanState σ) :
    Go (Option (ScanState σ × List (Option LocalResult) × ScanError ε)) := do
  match ← nextRow client fuel rounds row st with
  | none => pure none
  | some (st, _, some err) => pure (some (st, [], err))
  | some (st, result, none) => do
      match ← drain client fuel calls st with
      | none => pure none
      | some (st, later, err) => pure (some (st, result :: later, err))

theorem drain_resume {st : ScanState σ} (whole : st.scanner.rpc.allowPartialResults = false)
    (fuel calls : Nat) :
    drain client fuel (calls + 1) st = resume client fuel fuel calls none st := by
  simp only [drain, next, whole, resume]
  rfl

/-- With enough fuel the calls end in `final`, and return or panic as `outcome` says. -/
def Resumes (outcome : Go (List (Option LocalResult))) (row : Option PbResult)
    (st final : ScanState σ) : Prop :=
  ∃ enough, ∀ fuel rounds, enough ≤ fuel → enough ≤ rounds → ∃ calls,
    resume client fuel rounds calls row st =
      outcome.map fun results => some (final, results, .eof)

variable {client}

theorem nextRow_round {fuel : Nat} {st st' : ScanState σ} {item : Option PbResult}
    (peeked : peek client fuel st = .ok (some (st', .ok item))) (rounds : Nat)
    (row : Option PbResult) :
    nextRow client fuel (rounds + 1) row st = (do
      let (joined, done) ← coalesce row item
      if !getPartial joined then
        pure (some (if done then shiftState st' else st', toLocalResult joined, none))
      else nextRow client fuel rounds joined (if done then shiftState st' else st')) := by
  rw [nextRow, peeked]
  rfl

theorem Resumes.returned {outcome : Go (List (Option LocalResult))} {row joined : Option PbResult}
    {st st' final : ScanState σ} (rest : Resumes client outcome none st' final)
    (whole : st'.scanner.rpc.allowPartialResults = false) (least : Nat)
    (made : ∀ fuel rounds, least ≤ fuel →
      nextRow client fuel (rounds + 1) row st = .ok (some (st', toLocalResult joined, none))) :
    Resumes client
      (do
        let later ← outcome
        pure (toLocalResult joined :: later)) row st final := by
  obtain ⟨enough, ran⟩ := rest
  refine ⟨max (least + 1) enough, fun fuel rounds runs loops => ?_⟩
  obtain ⟨calls, ended⟩ := ran fuel fuel (by omega) (by omega)
  obtain ⟨rounds, rfl⟩ := Nat.exists_eq_succ_of_ne_zero (show rounds ≠ 0 by omega)
  refine ⟨calls + 1, ?_⟩
  rw [resume, made fuel rounds (by omega), ok_bind]
  simp only [drain_resume client whole, ended]
  cases outcome with
  | error abort => rfl
  | ok later => rfl

theorem Resumes.joined {outcome : Go (List (Option LocalResult))} {row joined : Option PbResult}
    {st st' final : ScanState σ} (rest : Resumes client outcome joined st' final) (least : Nat)
    (round : ∀ fuel rounds, least ≤ fuel →
      nextRow client fuel (rounds + 1) row st = nextRow client fuel rounds joined st') :
    Resumes client outcome row st final := by
  obtain ⟨enough, ran⟩ := rest
  refine ⟨max least (enough + 1), fun fuel rounds runs loops => ?_⟩
  obtain ⟨rounds, rfl⟩ := Nat.exists_eq_succ_of_ne_zero (show rounds ≠ 0 by omega)
  obtain ⟨calls, ended⟩ := ran fuel rounds (by omega) (by omega)
  refine ⟨calls, ?_⟩
  rw [resume, round fuel rounds (by omega)]
  exact ended

theorem Resumes.begins {st st' final : ScanState σ} {item : Option PbResult}
    {later : List (Option PbResult)} {least : Nat}
    (whole : st'.scanner.rpc.allowPartialResults = false)
    (peeked : ∀ fuel, least ≤ fuel → peek client fuel st = .ok (some (st', .ok item)))
    (rest : ∀ row, row = none ∨ getPartial row = true →
      Resumes client (reassemble later row) row (shiftState st') final) :
    Resumes client (reassemble (item :: later) none) none st final := by
  have taken : coalesce none item = .ok (item, true) := rfl
  rw [reassemble_begin]
  cases unfinished : getPartial item with
  | true =>
      refine (rest item (.inr unfinished)).joined least fun fuel rounds enough => ?_
      simp only [nextRow_round (peeked fuel enough), taken, ok_bind, unfinished]
      rfl
  | false =>
      refine (rest none (.inl rfl)).returned whole least fun fuel rounds enough => ?_
      simp only [nextRow_round (peeked fuel enough), taken, ok_bind, unfinished]
      rfl

theorem Feeds.resumes {st final : ScanState σ} {stream : List (Option PbResult)}
    (feeds : Feeds client st stream final) (whole : st.scanner.rpc.allowPartialResults = false)
    (row : Option PbResult) (unfinished : row = none ∨ getPartial row = true) :
    Resumes client (reassemble stream row) row st final := by
  induction feeds generalizing row with
  | @eof fuel st final peeked =>
      obtain ⟨_, ended, _⟩ := peek_keeps peeked
      obtain ⟨closed, empty⟩ := ended .eof rfl
      refine ⟨fuel + 1, fun more rounds runs loops => ⟨1, ?_⟩⟩
      obtain ⟨rounds, rfl⟩ := Nat.exists_eq_succ_of_ne_zero (show rounds ≠ 0 by omega)
      have last := (peek_prolongs client (show fuel ≤ more by omega) st).returned peeked
      cases row with
      | none =>
          simp only [resume, nextRow, last, ok_bind]
          rfl
      | some row =>
          have again := next_eof client (peek_closed closed empty more) (by omega)
          simp only [resume, nextRow, last, ok_bind, pure_bind, drain, again]
          rfl
  | @cons fuel st st' final item later peeked _ ih =>
      obtain ⟨same, _, front⟩ := peek_keeps peeked
      have whole' : st'.scanner.rpc.allowPartialResults = false := same ▸ whole
      have peeks (more : Nat) (enough : fuel ≤ more) :=
        (peek_prolongs client enough st).returned peeked
      cases row with
      | none => exact Resumes.begins whole' peeks (ih whole')
      | some row =>
          have unfinished := unfinished.resolve_left (Option.some_ne_none row)
          rw [reassemble_middle]
          cases joins : coalesce (some row) item with
          | error abort =>
              refine ⟨fuel + 1, fun more rounds runs loops => ⟨0, ?_⟩⟩
              obtain ⟨rounds, rfl⟩ := Nat.exists_eq_succ_of_ne_zero (show rounds ≠ 0 by omega)
              rw [resume, nextRow_round (peeks more (by omega)), joins]
              rfl
          | ok answer =>
              obtain ⟨joined, done⟩ := answer
              have flag := coalesce_getPartial unfinished joins
              cases done with
              | true =>
                  refine (ih whole' joined (.inr flag)).joined fuel fun more rounds enough => ?_
                  simp only [nextRow_round (peeks more enough), joins, ok_bind, flag]
                  rfl
              | false =>
                  -- The item stays in the buffer and begins the row of the next call.
                  obtain ⟨rest, buffered⟩ := front item rfl
                  have fresh := Resumes.begins whole'
                    (fun more (_ : 0 ≤ more) => peek_buffered buffered more) (ih whole')
                  refine fresh.returned whole' fuel fun more rounds enough => ?_
                  simp only [nextRow_round (peeks more enough), joins, ok_bind, flag]
                  rfl

/-- The run lemma: the calls return, or panic, as `reassemble` does on the stream. -/
theorem Feeds.drain {st final : ScanState σ} {stream : List (Option PbResult)}
    (feeds : Feeds client st stream final)
    (whole : st.scanner.rpc.allowPartialResults = false) :
    ∃ enough, ∀ fuel, enough ≤ fuel → ∃ calls, drain client fuel calls st =
      (reassemble stream none).map fun results => some (final, results, .eof) := by
  obtain ⟨enough, ran⟩ := feeds.resumes whole none (.inl rfl)
  refine ⟨enough, fun fuel runs => ?_⟩
  obtain ⟨calls, ended⟩ := ran fuel fuel runs runs
  exact ⟨calls + 1, (drain_resume client whole fuel calls).trans ended⟩

end Refinement

def localCells (result : Option LocalResult) : List Cell :=
  match result with
  | some result => result.cells
  | none => []

@[simp] theorem localCells_toLocalResult (row : PbResult) :
    localCells (toLocalResult (some row)) = row.cell := rfl

/-! Rows whose pieces all have cells. -/

/-- The pieces of a row, in stream order. The last one may carry either flag. -/
structure RowPieces (key : Bytes) (pieces : List PbResult) : Prop where
  present : pieces ≠ []
  cells : ∀ piece ∈ pieces, piece.firstRow = some key
  flagged : ∀ piece ∈ pieces.dropLast, piece.isPartial.getD false = true

def assembleRow (pieces : List PbResult) : LocalResult where
  cells := pieces.flatMap PbResult.cell
  stale := pieces.any fun piece => piece.stale.getD false
  isPartial := false
  existence := pieces.head?.bind PbResult.existence

theorem reassemble_absorb {key : Bytes} (pieces : List PbResult)
    (cells : ∀ piece ∈ pieces, piece.firstRow = some key) (rest : List (Option PbResult))
    {row : PbResult} (unfinished : row.isPartial.getD false = true)
    (known : row.firstRow = some key) :
    reassemble (pieces.map some ++ rest) (some row) =
      reassemble rest (some (pieces.foldl PbResult.absorb row)) := by
  induction pieces generalizing row with
  | nil => rfl
  | cons piece pieces ih =>
      have same := cells piece List.mem_cons_self
      have joins : coalesce (some row) (some piece) = .ok (some (row.absorb piece), true) := by
        rw [coalesce_eq unfinished, same, known]
        simp
      rw [List.map_cons, List.cons_append, reassemble_middle, joins, ok_bind]
      exact ih (fun other member => cells other (List.mem_cons_of_mem _ member)) unfinished
        (PbResult.absorb_firstRow known piece)

theorem reassemble_finish {row : PbResult} (unfinished : row.isPartial.getD false = true)
    {key : Bytes} (known : row.firstRow = some key) (stream : List PbResult)
    (apart : ∀ piece ∈ stream.head?, ∃ other, piece.firstRow = some other ∧ key ≠ other) :
    reassemble (stream.map some) (some row) = (do
      let later ← reassemble (stream.map some) none
      pure (toLocalResult (some row.finish) :: later)) := by
  cases stream with
  | nil => rfl
  | cons piece stream =>
      obtain ⟨other, found, differ⟩ := apart piece rfl
      have joins : coalesce (some row) (some piece) = .ok (some row.finish, false) := by
        rw [coalesce_eq unfinished, found, known]
        simp [differ]
      rw [List.map_cons, reassemble_middle, joins]
      rfl

theorem foldl_absorb (pieces : List PbResult) (row : PbResult) :
    toLocalResult (some (pieces.foldl PbResult.absorb row).finish) =
      some (assembleRow (row :: pieces)) := by
  induction pieces generalizing row with
  | nil => simp [assembleRow, toLocalResult, PbResult.finish]
  | cons piece pieces ih =>
      rw [List.foldl_cons, ih]
      simp [assembleRow, List.append_assoc, Bool.or_assoc]

theorem foldl_absorb_open (pieces : List PbResult) {row : PbResult} {key : Bytes}
    (unfinished : row.isPartial.getD false = true) (known : row.firstRow = some key) :
    (pieces.foldl PbResult.absorb row).isPartial.getD false = true ∧
      (pieces.foldl PbResult.absorb row).firstRow = some key := by
  induction pieces generalizing row with
  | nil => exact ⟨unfinished, known⟩
  | cons piece pieces ih => exact ih unfinished (PbResult.absorb_firstRow known piece)

theorem reassemble_rows {rows : List (Bytes × List PbResult)}
    (pieces : ∀ row ∈ rows, RowPieces row.1 row.2)
    (apart : rows.IsChain fun row next => row.1 ≠ next.1) :
    reassemble ((rows.flatMap Prod.snd).map some) none =
      .ok (rows.map fun row => some (assembleRow row.2)) := by
  induction rows with
  | nil => rfl
  | cons row rows ih =>
      obtain ⟨key, group⟩ := row
      have own : RowPieces key group := pieces _ List.mem_cons_self
      have later := ih (fun row member => pieces row (List.mem_cons_of_mem _ member)) apart.tail
      cases group with
      | nil => exact absurd rfl own.present
      | cons first others =>
          have known := own.cells first List.mem_cons_self
          rw [List.flatMap_cons, List.cons_append, List.map_cons, reassemble_begin]
          cases unfinished : getPartial (some first) with
          | true =>
              have absorbed := reassemble_absorb others
                (fun piece member => own.cells piece (List.mem_cons_of_mem _ member))
                ((rows.flatMap Prod.snd).map some) unfinished known
              obtain ⟨flag, known⟩ := foldl_absorb_open others unfinished known
              rw [if_pos rfl, List.map_append, absorbed, reassemble_finish flag known, later]
              · rw [ok_bind, foldl_absorb]
                rfl
              · cases rows with
                | nil => exact fun _ member => nomatch member
                | cons next rows =>
                    obtain ⟨piece, tail, same⟩ := List.exists_cons_of_ne_nil
                      (pieces next (by simp)).present
                    rintro piece' member
                    rw [List.flatMap_cons, same] at member
                    cases member
                    have mine : piece ∈ next.2 := by simp [same]
                    exact ⟨next.1, (pieces next (by simp)).cells piece mine,
                      apart.rel⟩
          | false =>
              -- A piece that is followed by another one of its row would be flagged.
              have alone : others = [] := by
                cases others with
                | nil => rfl
                | cons second others =>
                    have flag := own.flagged first (by simp)
                    simp only [getPartial, flag] at unfinished
                    cases unfinished
              subst alone
              rw [List.nil_append, later]
              have single : toLocalResult (some first) = some (assembleRow [first]) := by
                simp only [getPartial] at unfinished
                simp [toLocalResult, assembleRow, unfinished]
              rw [single]
              rfl

/-! The responses that a scanner gets until it is closed. -/

section Answers

variable {σ ε : Type} (client : RPCClient σ ε)

/-- The requests are answered by these responses, which may be empty, until the scanner closes. -/
inductive Answered : ScanState σ → List (List PbResult) → ScanState σ → Prop
  | closed {st : ScanState σ} (ended : st.scanner.closed = true) : Answered st [] st
  | response {st st' final : ScanState σ} {server : σ} {resp : ScanResponse} {region : RegionInfo}
      {outcome : Option (Except (ScanError ε) (List (Option PbResult)))}
      {results : List PbResult} {later : List (List PbResult)}
      (waiting : st.scanner.closed = false)
      (answered : client.sendRPC st.server st.scanner.request = (server, .ok (resp, region)))
      (carried : resp.results = results.map some)
      (taken : fetchStep client st = .ok (st', outcome))
      (rest : Answered st' later final) : Answered st (results :: later) final

variable {client}

theorem Answered.feeds {st final : ScanState σ} {responses : List (List PbResult)}
    (answers : Answered client st responses final) (empty : st.scanner.results = []) :
    Feeds client st (responses.flatten.map some) final := by
  induction answers with
  | closed ended => exact .eof 0 (peek_closed ended empty 0)
  | @response st st' final server resp region outcome results later waiting answered carried
      taken _ ih =>
      have feeds := ih ((fetchStep_keeps taken).1.trans empty)
      rw [List.flatten_cons, List.map_append, ← carried]
      refine feeds.response client empty waiting ?_
      rcases fetchStep_cases taken with ⟨_, _, failed, _⟩ |
        ⟨_, resp', _, _, _, closing, served, _, _, rfl, rfl⟩
      · rw [answered] at failed
        cases failed
      · rw [answered] at served
        cases served
        exact taken

theorem Answered.drain {st final : ScanState σ} {responses : List (List PbResult)}
    (answers : Answered client st responses final) (empty : st.scanner.results = [])
    (whole : st.scanner.rpc.allowPartialResults = false) :
    ∃ enough, ∀ fuel, enough ≤ fuel → ∃ calls, drain client fuel calls st =
      (reassemble (responses.flatten.map some) none).map fun results =>
        some (final, results, .eof) :=
  (answers.feeds empty).drain whole

end Answers

def replayClient (region : RegionInfo) : RPCClient (List (List PbResult)) String where
  sendRPC
    | [], _ => ([], .ok (⟨[], some 1, some false, [], [], some false⟩, region))
    | results :: later, _ =>
        (later, .ok (⟨[], some 1, none, results.map some, [], some true⟩, region))

theorem replay_answered (region : RegionInfo) (rpc : Scan) (responses : List (List PbResult))
    (id : UInt64) (started : id = noScannerID ∨ id = 1) (row : Bytes) (sent : List Scan) :
    ∃ final, Answered (replayClient region) ⟨⟨rpc, id, row, [], false⟩, responses, sent⟩
      (responses ++ [[]]) final := by
  induction responses generalizing id sent with
  | nil =>
      rcases started with rfl | rfl
      · exact ⟨_, .response rfl rfl rfl rfl (.closed rfl)⟩
      · exact ⟨_, .response rfl rfl rfl rfl (.closed rfl)⟩
  | cons results later ih =>
      have opened : ∃ sent' outcome, fetchStep (replayClient region)
          ⟨⟨rpc, id, row, [], false⟩, results :: later, sent⟩ =
          .ok (⟨⟨rpc, 1, row, [], false⟩, later, sent'⟩, outcome) := by
        rcases started with rfl | rfl
        · exact ⟨_, _, rfl⟩
        · exact ⟨_, _, rfl⟩
      obtain ⟨sent', outcome, taken⟩ := opened
      obtain ⟨final, rest⟩ := ih 1 (.inr rfl) sent'
      exact ⟨final, .response rfl rfl rfl taken rest⟩

def pieceOf (row : UInt8) (values : List UInt8) (stale isPartial : Bool) : PbResult where
  cell := values.map fun value => ⟨[row], [102], [113], 1, 4, [value]⟩
  associatedCellCount := none
  existence := none
  stale := some stale
  isPartial := some isPartial

def replayScan (responses : List (List PbResult)) : ScanState (List (List PbResult)) :=
  ⟨newScanner (newScanRange [] []), responses, []⟩

def wholeTable : RegionInfo := ⟨0, 1, none, [116], [116, 44, 44, 49], [], []⟩

/-- Whatever the responses are that the stream comes in: one result for each row, and then EOF.
Of the order of the rows it only matters that rows that follow each other differ. -/
theorem rows_reassembled {σ ε : Type} (client : RPCClient σ ε) {st final : ScanState σ}
    {responses : List (List PbResult)} {rows : List (Bytes × List PbResult)}
    (whole : st.scanner.rpc.allowPartialResults = false) (empty : st.scanner.results = [])
    (answers : Answered client st responses final)
    (stream : responses.flatten = rows.flatMap Prod.snd)
    (pieces : ∀ row ∈ rows, RowPieces row.1 row.2)
    (apart : rows.IsChain fun row next => row.1 ≠ next.1) :
    Returns client st (rows.map fun row => some (assembleRow row.2)) final ∧
    (rows.map fun row => some (assembleRow row.2)).flatMap localCells =
      responses.flatten.flatMap PbResult.cell := by
  constructor
  · obtain ⟨enough, ran⟩ := answers.drain empty whole
    refine ⟨enough, fun fuel runs => ?_⟩
    obtain ⟨calls, ended⟩ := ran fuel runs
    rw [stream, reassemble_rows pieces apart] at ended
    exact ⟨calls, ended⟩
  · rw [stream, List.flatMap_map, List.flatMap_assoc]
    rfl

def splitRows : List (Bytes × List PbResult) :=
  [([97], [pieceOf 97 [1] false true, pieceOf 97 [2, 3] true true, pieceOf 97 [4] false true]),
    ([98], [pieceOf 98 [5] false false])]

def splitResponses : List (List PbResult) :=
  [[pieceOf 97 [1] false true], [], [pieceOf 97 [2, 3] true true, pieceOf 97 [4] false true,
    pieceOf 98 [5] false false]]

theorem rows_reassembled_split : ∃ final,
    Returns (replayClient wholeTable) (replayScan splitResponses)
      (splitRows.map fun row => some (assembleRow row.2)) final := by
  obtain ⟨final, answers⟩ := replay_answered wholeTable (newScanRange [] []) splitResponses
    noScannerID (.inl rfl) [] []
  have stream : (splitResponses ++ [[]]).flatten = splitRows.flatMap Prod.snd := rfl
  refine ⟨final, (rows_reassembled (replayClient wholeTable) rfl rfl answers stream ?_ ?_).1⟩
  · intro row member
    rcases List.mem_pair.mp member with rfl | rfl
    · exact ⟨by decide, by decide, by decide⟩
    · exact ⟨by decide, by decide, by decide⟩
  · decide

/-! Pieces without cells. -/

/-- The row that is open behind a result: `some none` is a row that has no cells yet. -/
def openStep (row : Option (Option Bytes)) (piece : PbResult) : Option (Option Bytes) :=
  match row with
  | some key =>
      if piece.firstRow = none ∨ piece.firstRow = key then some key
      else if piece.isPartial.getD false then some piece.firstRow else none
  | none => if piece.isPartial.getD false then some piece.firstRow else none

/-- Behind a flagged result without cells that begins a row come only results without cells. -/
structure BareRowsEnd (row : Option (Option Bytes)) (stream : List PbResult) : Prop where
  opened : row = some none → ∀ piece ∈ stream, piece.cell = []
  begun : ∀ before bare after, stream = before ++ bare :: after →
    before.foldl openStep row = none → bare.isPartial.getD false = true → bare.cell = [] →
    ∀ piece ∈ after, piece.cell = []

theorem bareRowsEnd_nil (row : Option (Option Bytes)) : BareRowsEnd row [] where
  opened _ _ member := nomatch member
  begun before bare after shape := by simp at shape

theorem openStep_bare {row : Option (Option Bytes)} {piece : PbResult}
    (bare : openStep row piece = some none) :
    row = some none ∨ row = none ∧ piece.isPartial.getD false = true ∧ piece.cell = [] := by
  cases row with
  | none =>
      simp only [openStep] at bare
      split at bare
      · rename_i flag
        exact .inr ⟨rfl, flag, PbResult.firstRow_eq_none.mp (Option.some.inj bare)⟩
      · cases bare
  | some key =>
      simp only [openStep] at bare
      split at bare
      · exact .inl bare
      · rename_i other
        split at bare
        · exact absurd (.inl (Option.some.inj bare)) other
        · cases bare

theorem bareRowsEnd_cons (row : Option (Option Bytes)) (piece : PbResult)
    (rest : List PbResult) :
    BareRowsEnd row (piece :: rest) ↔
      (row = some none → piece.cell = []) ∧ BareRowsEnd (openStep row piece) rest := by
  constructor
  · intro ends
    refine ⟨fun bare => ends.opened bare piece List.mem_cons_self, fun bare other member => ?_,
      fun before bare after shape closed => ?_⟩
    · rcases openStep_bare bare with rfl | ⟨rfl, flag, empty⟩
      · exact ends.opened rfl other (List.mem_cons_of_mem _ member)
      · exact ends.begun [] piece rest rfl rfl flag empty other member
    · exact ends.begun (piece :: before) bare after (by rw [shape, List.cons_append]) closed
  · rintro ⟨first, ends⟩
    refine ⟨fun bare other member => ?_, fun before bare after shape closed flag empty => ?_⟩
    · subst bare
      have still : openStep (some none) piece = some none := by
        simp [openStep, PbResult.firstRow_eq_none.mpr (first rfl)]
      rcases List.mem_cons.mp member with rfl | member
      · exact first rfl
      · exact ends.opened still other member
    · cases before with
      | nil =>
          obtain ⟨rfl, rfl⟩ := List.cons.inj shape
          have closed : row = none := closed
          subst closed
          refine ends.opened ?_
          simp [openStep, flag, PbResult.firstRow_eq_none.mpr empty]
      | cons other before =>
          obtain ⟨rfl, rfl⟩ := List.cons.inj shape
          exact ends.begun before bare after rfl closed flag empty

def Settles (safe : Prop) (cells : List Cell) (outcome : Go (List (Option LocalResult))) : Prop :=
  (safe ∧ ∃ results, outcome = .ok results ∧ results.flatMap localCells = cells) ∨
    (¬safe ∧ outcome = .error (.panic "index out of range"))

theorem Settles.cons {safe : Prop} {cells : List Cell} {outcome : Go (List (Option LocalResult))}
    (settles : Settles safe cells outcome) (row : PbResult) :
    Settles safe (row.cell ++ cells) (do
      let later ← outcome
      pure (toLocalResult (some row) :: later)) := by
  rcases settles with ⟨held, results, rfl, same⟩ | ⟨failed, rfl⟩
  · exact .inl ⟨held, _, rfl, by rw [List.flatMap_cons, same]; rfl⟩
  · exact .inr ⟨failed, rfl⟩

theorem coalesce_cases {row : PbResult} (unfinished : row.isPartial.getD false = true)
    (piece : PbResult) :
    (coalesce (some row) (some piece) = .ok (some (row.absorb piece), true) ∧
      openStep (some row.firstRow) piece = some (row.absorb piece).firstRow ∧
      (row.firstRow = none → piece.cell = [])) ∨
    (coalesce (some row) (some piece) = .error (.panic "index out of range") ∧
      row.firstRow = none ∧ piece.cell ≠ []) ∨
    (coalesce (some row) (some piece) = .ok (some row.finish, false) ∧
      openStep (some row.firstRow) piece = openStep none piece ∧ row.firstRow ≠ none) := by
  rw [coalesce_eq unfinished]
  cases found : piece.firstRow with
  | none =>
      refine .inl ⟨rfl, ?_, fun _ => PbResult.firstRow_eq_none.mp found⟩
      rw [PbResult.absorb_empty found]
      simp [openStep, found]
  | some key =>
      cases known : row.firstRow with
      | none =>
          refine .inr (.inl ⟨rfl, rfl, fun empty => ?_⟩)
          rw [PbResult.firstRow_eq_none.mpr empty] at found
          cases found
      | some mine =>
          by_cases same : mine = key
          · refine .inl ⟨by simp [same], ?_, nofun⟩
            rw [PbResult.absorb_firstRow known]
            simp [openStep, found, same]
          · refine .inr (.inr ⟨by simp [same], ?_, Option.some_ne_none mine⟩)
            simp [openStep, found, Ne.symm same]

def rowCells (row : Option PbResult) : List Cell :=
  match row with
  | some row => row.cell
  | none => []

theorem reassemble_settles (stream : List PbResult) (row : Option PbResult)
    (unfinished : row = none ∨ getPartial row = true) :
    Settles (BareRowsEnd (row.map PbResult.firstRow) stream)
      (rowCells row ++ stream.flatMap PbResult.cell) (reassemble (stream.map some) row) := by
  induction stream generalizing row with
  | nil =>
      refine .inl ⟨bareRowsEnd_nil _, ?_⟩
      cases row with
      | none => exact ⟨_, rfl, rfl⟩
      | some row => exact ⟨_, rfl, by simp [rowCells]⟩
  | cons piece rest ih =>
      have begins : Settles (BareRowsEnd (openStep none piece) rest)
          (piece.cell ++ rest.flatMap PbResult.cell)
          (reassemble (some piece :: rest.map some) none) := by
        rw [reassemble_begin]
        cases flag : getPartial (some piece) with
        | true =>
            have opens : openStep none piece = some piece.firstRow := if_pos flag
            rw [opens]
            exact ih (some piece) (.inr flag)
        | false =>
            have closes : openStep none piece = none := by
              simp only [getPartial] at flag
              simp [openStep, flag]
            rw [closes]
            exact (ih none (.inl rfl)).cons piece
      rw [bareRowsEnd_cons]
      cases row with
      | none => simpa [rowCells] using begins
      | some row =>
          have unfinished := unfinished.resolve_left (Option.some_ne_none row)
          rw [List.map_cons, reassemble_middle, Option.map_some]
          rcases coalesce_cases unfinished piece with ⟨joins, stays, bare⟩ | ⟨panics, bare, cells⟩ |
            ⟨joins, turns, begun⟩
          · have settles := ih (some (row.absorb piece)) (.inr unfinished)
            rw [Option.map_some] at settles
            rw [joins, ok_bind, stays, and_iff_right fun same => bare (Option.some.inj same)]
            simpa [rowCells] using settles
          · refine .inr ⟨fun ends => cells (ends.1 (by rw [bare])), ?_⟩
            rw [panics]
            rfl
          · rw [joins, ok_bind, turns]
            simpa [rowCells, PbResult.finish, begun] using begins.cons row.finish

/-- The calls neither panic nor lose a cell exactly when no row begins with a flagged result
without cells that is followed by a result with cells. -/
theorem bare_pieces_safe_iff {σ ε : Type} (client : RPCClient σ ε) {st final : ScanState σ}
    {responses : List (List PbResult)}
    (whole : st.scanner.rpc.allowPartialResults = false) (empty : st.scanner.results = [])
    (answers : Answered client st responses final) :
    ((∀ fuel calls, drain client fuel calls st ≠ .error (.panic "index out of range")) ∧
      ∃ results, Returns client st results final ∧
        results.flatMap localCells = responses.flatten.flatMap PbResult.cell) ↔
    BareRowsEnd none responses.flatten := by
  obtain ⟨enough, ran⟩ := answers.drain empty whole
  have settles := reassemble_settles responses.flatten none (.inl rfl)
  rcases settles with ⟨safe, results, returned, cells⟩ | ⟨failed, panics⟩
  · rw [returned] at ran
    refine iff_of_true ⟨fun fuel calls panics => ?_, results, ⟨enough, ran⟩, cells⟩ safe
    -- The run that panics has enough fuel when it gets more.
    obtain ⟨others, ended⟩ := ran (max fuel enough) (Nat.le_max_right _ _)
    have longer := (drain_prolongs client (Nat.le_max_left fuel enough)
      (Nat.le_max_left calls others) st).aborted panics
    rw [(drain_prolongs client le_rfl (Nat.le_max_right calls others) st).returned ended] at longer
    cases longer
  · rw [panics] at ran
    obtain ⟨calls, ended⟩ := ran enough le_rfl
    exact iff_of_false (fun safe => safe.1 enough calls ended) failed

def bareInside : List (List PbResult) :=
  [[pieceOf 97 [1] false true, pieceOf 97 [] true true], [pieceOf 97 [2] false false]]

theorem bare_pieces_safe_iff_inside : ∃ final results,
    Returns (replayClient wholeTable) (replayScan bareInside) results final ∧
      results.flatMap localCells = bareInside.flatten.flatMap PbResult.cell := by
  obtain ⟨final, answers⟩ := replay_answered wholeTable (newScanRange [] []) bareInside
    noScannerID (.inl rfl) [] []
  refine ⟨final, ((bare_pieces_safe_iff (replayClient wholeTable) rfl rfl answers).mpr ?_).2⟩
  simp only [bareInside, List.flatten_cons, List.flatten_nil, List.cons_append, List.nil_append,
    bareRowsEnd_cons]
  exact ⟨nofun, nofun, nofun, bareRowsEnd_nil _⟩

def bareFirst : List (List PbResult) := [[pieceOf 97 [] false true, pieceOf 97 [1] false false]]

/-- A flagged result without cells, and then the cell of its row: `Next` panics. -/
theorem bare_piece_panics :
    (∃ final, Answered (replayClient wholeTable) (replayScan bareFirst) (bareFirst ++ [[]]) final) ∧
    ∀ fuel, 2 ≤ fuel → next (replayClient wholeTable) fuel none (replayScan bareFirst) =
      .error (.panic "index out of range") := by
  refine ⟨replay_answered wholeTable (newScanRange [] []) bareFirst noScannerID (.inl rfl) [] [],
    fun fuel enough => ?_⟩
  have panics : next (replayClient wholeTable) 2 none (replayScan bareFirst) =
      .error (.panic "index out of range") := rfl
  exact (next_prolongs (replayClient wholeTable) enough none _).aborted panics

end GoHBase
