import GoHBase.ScannerDrain

/-!
The region scanners that a scan opens and closes, over all calls of `Next` and
`Close`. What the server does is an arbitrary function of the requests so far.
-/

namespace GoHBase

open ByteString Runtime Buffer

section Calls

variable {σ ε : Type} (client : RPCClient σ ε)

def closeState (st : ScanState σ) : ScanState σ :=
  { st with scanner := st.scanner.close.1, sent := st.sent ++ st.scanner.close.2 }

/-- The calls on a scanner; `Next` comes with the error of a context that is done. -/
inductive ScanCall (ε : Type)
  | next (cancelled : Option ε)
  | close

def ScanCall.run (fuel : Nat) (st : ScanState σ) : ScanCall ε → Go (Option (ScanState σ))
  | .next cancelled => do
      let returned ← GoHBase.next client fuel cancelled st
      pure (returned.map fun outcome => outcome.1)
  | .close => pure (some (closeState st))

def runScan (fuel : Nat) : List (ScanCall ε) → ScanState σ → Go (Option (ScanState σ))
  | [], st => pure (some st)
  | call :: calls, st => do
      match ← call.run client fuel st with
      | none => pure none
      | some st => runScan fuel calls st

structure ScanInvariant (inv : ScanState σ → Prop) : Prop where
  round : ∀ st st' outcome, inv st → st.scanner.closed = false →
    fetchStep client st = .ok (st', outcome) → inv st'
  close : ∀ st, inv st → inv (closeState st)
  results : ∀ st results, inv st → inv (setResults st results)

variable {client} {inv : ScanState σ → Prop} (kept : ScanInvariant client inv)

include kept

theorem ScanInvariant.fetch {fuel : Nat} {st st' : ScanState σ}
    {outcome : Except (ScanError ε) (List (Option PbResult))} (start : inv st)
    (waiting : st.scanner.closed = false)
    (fetched : fetch client fuel st = .ok (some (st', outcome))) : inv st' := by
  induction fuel generalizing st with
  | zero => cases fetched
  | succ fuel ih =>
      rcases (bind_ok_iff _ _ _).mp fetched with ⟨⟨next, answer⟩, step, rest⟩
      have after := kept.round st next answer start waiting step
      cases answer with
      | some answer =>
          cases rest
          exact after
      | none =>
          -- Another round comes only while the scanner is not closed.
          have open_ : next.scanner.closed = false := by
            rcases fetchStep_cases step with ⟨_, _, _, _, ended⟩ |
              ⟨_, resp, _, _, _, closing, _, _, _, rfl, ended⟩
            · cases ended
            · by_cases found : 0 < resp.results.length
              · simp [found] at ended
              · cases closed : closing.1.closed with
                | false => rfl
                | true => simp [found, closed] at ended
          exact ih after open_ rest

theorem ScanInvariant.peek {fuel : Nat} {st st' : ScanState σ}
    {outcome : Except (ScanError ε) (Option PbResult)} (start : inv st)
    (peeked : peek client fuel st = .ok (some (st', outcome))) : inv st' := by
  unfold GoHBase.peek at peeked
  cases results : st.scanner.results with
  | cons result rest =>
      rw [results] at peeked
      cases peeked
      exact start
  | nil =>
      simp only [results] at peeked
      cases closed : st.scanner.closed with
      | true =>
          rw [closed, if_pos rfl] at peeked
          cases peeked
          exact start
      | false =>
          rw [closed, if_neg (by decide)] at peeked
          rcases (bind_ok_iff _ _ _).mp peeked with ⟨fetched, ran, rest⟩
          rcases fetched with _ | ⟨next, err | found⟩
          · cases rest
          · cases rest
            exact kept.fetch start closed ran
          · rcases (bind_ok_iff _ _ _).mp rest with ⟨result, _, last⟩
            cases last
            exact kept.results next found (kept.fetch start closed ran)

theorem ScanInvariant.shift {st : ScanState σ} (start : inv st) : inv (shiftState st) :=
  kept.results st st.scanner.results.tail start

theorem ScanInvariant.nextRow {fuel rounds : Nat} {result : Option PbResult}
    {st st' : ScanState σ} {outcome : Option LocalResult × Option (ScanError ε)} (start : inv st)
    (returned : nextRow client fuel rounds result st = .ok (some (st', outcome))) : inv st' := by
  induction rounds generalizing result st with
  | zero => cases returned
  | succ rounds ih =>
      rcases (bind_ok_iff _ _ _).mp returned with ⟨peeked, ran, rest⟩
      rcases peeked with _ | ⟨next, err | item⟩
      · cases rest
      · have after := kept.peek start ran
        cases err with
        | eof =>
            cases result with
            | none =>
                cases rest
                exact after
            | some result =>
                cases rest
                exact after
        | failed err =>
            cases rest
            exact after
      · have after := kept.peek start ran
        rcases (bind_ok_iff _ _ _).mp rest with ⟨⟨joined, done⟩, _, last⟩
        have shifted : inv (if done then shiftState next else next) := by
          cases done with
          | true => exact kept.shift after
          | false => exact after
        dsimp only at last
        by_cases whole : (!getPartial joined) = true
        · rw [if_pos whole] at last
          cases last
          exact shifted
        · rw [if_neg whole] at last
          exact ih shifted last

theorem ScanInvariant.next {fuel : Nat} {cancelled : Option ε} {st st' : ScanState σ}
    {outcome : Option LocalResult × Option (ScanError ε)} (start : inv st)
    (returned : next client fuel cancelled st = .ok (some (st', outcome))) : inv st' := by
  unfold GoHBase.next at returned
  cases cancelled with
  | some err =>
      cases returned
      exact kept.close st start
  | none =>
      simp only at returned
      split at returned
      · rcases (bind_ok_iff _ _ _).mp returned with ⟨peeked, ran, rest⟩
        rcases peeked with _ | ⟨next, err | item⟩
        · cases rest
        · cases rest
          exact kept.peek start ran
        · cases rest
          exact kept.shift (kept.peek start ran)
      · exact kept.nextRow start returned

/-- The run lemma: what the rounds and `Close` keep holds after any calls. -/
theorem ScanInvariant.runScan {fuel : Nat} {calls : List (ScanCall ε)} {st final : ScanState σ}
    (start : inv st) (ran : runScan client fuel calls st = .ok (some final)) : inv final := by
  induction calls generalizing st with
  | nil =>
      cases ran
      exact start
  | cons call calls ih =>
      rcases (bind_ok_iff _ _ _).mp ran with ⟨returned, called, rest⟩
      cases returned with
      | none => cases rest
      | some next =>
          refine ih ?_ rest
          cases call with
          | close =>
              cases called
              exact kept.close st start
          | next cancelled =>
              rcases (bind_ok_iff _ _ _).mp called with ⟨outcome, made, last⟩
              cases outcome with
              | none => cases last
              | some outcome =>
                  cases last
                  exact kept.next start made

end Calls

section Panics

def notClosedPanic : Abort := .panic "should not happen: previous region scanner was not closed"

theorem bind_not_panic {α β : Type} {first : Go α} {next : α → Go β}
    (safe : first ≠ .error notClosedPanic)
    (later : ∀ value, next value ≠ .error notClosedPanic) :
    (first >>= next) ≠ .error notClosedPanic := by
  cases first with
  | error abort =>
      intro same
      apply safe
      injection same with same
      rw [same]
  | ok value => exact later value

variable {σ ε : Type} (client : RPCClient σ ε)

theorem update_ok (s : Scanner) (resp : ScanResponse) (region : RegionInfo) :
    ∃ updated, s.update resp region = .ok updated := by
  have noted : ∃ noted, s.noteScannerId resp = .ok noted := by
    unfold Scanner.noteScannerId
    split
    · by_cases closed : s.isRegionScannerClosed = true
      · rw [if_pos closed, Scanner.openRegionScanner, if_pos closed]
        exact ⟨_, rfl⟩
      · rw [if_neg closed]
        exact ⟨_, rfl⟩
    · exact ⟨_, rfl⟩
  rcases noted with ⟨noted, ran⟩
  rw [Scanner.update, ran, ok_bind]
  split
  · exact ⟨_, rfl⟩
  · exact ⟨_, rfl⟩

theorem fetchStep_ok (st : ScanState σ) : ∃ outcome, fetchStep client st = .ok outcome := by
  cases answered : client.sendRPC st.server st.scanner.request with
  | mk server answer =>
      rcases answer with err | ⟨resp, region⟩
      · simp only [fetchStep, answered]
        exact ⟨_, rfl⟩
      · rcases update_ok st.scanner resp region with ⟨updated, ran⟩
        simp only [fetchStep, answered, ran, ok_bind]
        exact ⟨_, rfl⟩

theorem fetch_ok (fuel : Nat) (st : ScanState σ) :
    ∃ outcome, fetch client fuel st = .ok outcome := by
  induction fuel generalizing st with
  | zero => exact ⟨none, rfl⟩
  | succ fuel ih =>
      rcases fetchStep_ok client st with ⟨⟨next, answer⟩, ran⟩
      rw [fetch, ran, ok_bind]
      cases answer with
      | some answer => exact ⟨_, rfl⟩
      | none => exact ih next

theorem index_not_panic {α : Type} (buffer : List α) (position : Nat) :
    index buffer position ≠ .error notClosedPanic := by
  unfold index
  split
  · simp
  · simp [notClosedPanic]

theorem peek_not_panic (fuel : Nat) (st : ScanState σ) :
    peek client fuel st ≠ .error notClosedPanic := by
  unfold peek
  split
  · simp [pure, Except.pure]
  · split
    · simp [pure, Except.pure]
    · rcases fetch_ok client fuel st with ⟨outcome, ran⟩
      rw [ran, ok_bind]
      rcases outcome with _ | ⟨next, err | results⟩
      · simp [keepFetched, pure, Except.pure]
      · simp [keepFetched, pure, Except.pure]
      · exact bind_not_panic (index_not_panic _ _) fun _ => by simp [pure, Except.pure]

theorem coalesce_not_panic (result item : Option PbResult) :
    coalesce result item ≠ .error notClosedPanic := by
  unfold coalesce
  split
  · simp [pure, Except.pure]
  · split
    · simp [pure, Except.pure]
    · split
      · simp [notClosedPanic]
      · split
        · simp [pure, Except.pure]
        · refine bind_not_panic (index_not_panic _ _) fun first => ?_
          split <;> simp [pure, Except.pure]

theorem nextRow_not_panic (fuel rounds : Nat) (result : Option PbResult) (st : ScanState σ) :
    nextRow client fuel rounds result st ≠ .error notClosedPanic := by
  induction rounds generalizing result st with
  | zero => simp [nextRow, pure, Except.pure]
  | succ rounds ih =>
      refine bind_not_panic (peek_not_panic client fuel st) ?_
      rintro (_ | ⟨next, (_ | err) | item⟩)
      · simp [pure, Except.pure]
      · cases result with
        | none => simp [pure, Except.pure]
        | some result => simp [pure, Except.pure]
      · simp [pure, Except.pure]
      · refine bind_not_panic (coalesce_not_panic result item) fun joined => ?_
        dsimp only
        split
        · simp [pure, Except.pure]
        · exact ih _ _

theorem next_not_panic (fuel : Nat) (cancelled : Option ε) (st : ScanState σ) :
    next client fuel cancelled st ≠ .error notClosedPanic := by
  unfold next
  cases cancelled with
  | some err => simp [pure, Except.pure]
  | none =>
      dsimp only
      split
      · refine bind_not_panic (peek_not_panic client fuel st) ?_
        rintro (_ | ⟨next, err | item⟩)
        · simp [pure, Except.pure]
        · simp [pure, Except.pure]
        · simp [pure, Except.pure]
      · exact nextRow_not_panic client fuel fuel none st

theorem runScan_not_panic (fuel : Nat) (calls : List (ScanCall ε)) (st : ScanState σ) :
    runScan client fuel calls st ≠ .error notClosedPanic := by
  induction calls generalizing st with
  | nil => simp [runScan, pure, Except.pure]
  | cons call calls ih =>
      refine bind_not_panic ?_ ?_
      · cases call with
        | close => simp [ScanCall.run, pure, Except.pure]
        | next cancelled =>
            exact bind_not_panic (next_not_panic client fuel cancelled st) fun _ => by
              simp [pure, Except.pure]
      · rintro (_ | next)
        · simp [pure, Except.pure]
        · exact ih next

end Panics

section Sessions

variable {ε : Type}

abbrev Answer (ε : Type) := Except (ScanError ε) (ScanResponse × RegionInfo)

def recording (oracle : List (Scan × Answer ε) → Scan → Answer ε) :
    RPCClient (List (Scan × Answer ε)) ε where
  sendRPC past rpc := (past ++ [(rpc, oracle past rpc)], oracle past rpc)

/-- A region-open request with its answer, and the answers of the requests that continue it. -/
structure Session (ε : Type) where
  startRow : Bytes
  answer : Answer ε
  more : List (Answer ε)

namespace Session

variable (query : Scan) (session : Session ε)

def id : Option UInt64 :=
  match session.answer with
  | .error _ => none
  | .ok (resp, _) => resp.scannerId.filter fun id => id ≠ noScannerID

def opening : Scan := { query with startRow := session.startRow }

def continuation (id : UInt64) : Scan :=
  { newScanRange session.startRow [] with
    scannerID := id
    numberOfRows := query.numberOfRows }

def closing (id : UInt64) : Scan :=
  { newScanRange session.startRow [] with
    scannerID := id
    closeScanner := true
    numberOfRows := 0 }

def exchanges : List (Scan × Answer ε) :=
  (session.opening query, session.answer) ::
    match session.id with
    | none => []
    | some id => session.more.map fun answer => (session.continuation query id, answer)

/-- One close request for the ID, unless the scan closes its region scanners at the server. -/
def closes : List Scan :=
  match session.id with
  | none => []
  | some id => if query.closeScanner then [] else [session.closing id]

def requests : List Scan := (session.exchanges query).map Prod.fst ++ session.closes query

end Session

/-- The requests of a scan are finished sessions and perhaps one that is still open, whose ID
and start row are those of the scanner. -/
structure Logged (query : Scan) (st : ScanState (List (Scan × Answer ε)))
    (done : List (Session ε)) (current : Option (Session ε)) : Prop where
  rpc : st.scanner.rpc = query
  heard : st.server = (done ++ current.toList).flatMap fun session => session.exchanges query
  sent : st.sent = (done.flatMap fun session => session.requests query) ++
    current.toList.flatMap fun session => (session.exchanges query).map Prod.fst
  idle : current = none → st.scanner.curRegionScannerID = noScannerID
  inside : ∀ session, current = some session →
    session.id = some st.scanner.curRegionScannerID ∧ session.startRow = st.scanner.startRow

variable {query : Scan} {st : ScanState (List (Scan × Answer ε))} {done : List (Session ε)}
  {current : Option (Session ε)}

theorem Session.id_valid {session : Session ε} {id : UInt64} (known : session.id = some id) :
    id ≠ noScannerID := by
  unfold Session.id at known
  split at known
  · cases known
  · simpa using (Option.filter_eq_some_iff.mp known).2

theorem Logged.rescan (logged : Logged query st done none) {s : Scanner}
    (same : s.rpc = st.scanner.rpc) (closed : s.curRegionScannerID = noScannerID) :
    Logged query { st with scanner := s } done none where
  rpc := same.trans logged.rpc
  heard := logged.heard
  sent := logged.sent
  idle _ := closed
  inside session known := by cases known

theorem Logged.closeRegionScanner (logged : Logged query st done current) :
    Logged query ⟨st.scanner.closeRegionScanner.1, st.server,
      st.sent ++ st.scanner.closeRegionScanner.2⟩ (done ++ current.toList) none := by
  cases current with
  | none =>
      have idle : st.scanner.isRegionScannerClosed = true := decide_eq_true (logged.idle rfl)
      rw [Scanner.closeRegionScanner, if_pos idle]
      simp only [Option.toList_none, List.append_nil]
      exact logged
  | some session =>
      rcases logged.inside session rfl with ⟨known, row⟩
      have opened : ¬st.scanner.isRegionScannerClosed = true := by
        rw [Scanner.isRegionScannerClosed, decide_eq_true_eq]
        exact Session.id_valid known
      have closes : session.closes query = if st.scanner.rpc.closeScanner then [] else
          [{ newScanRange st.scanner.startRow [] with
            scannerID := st.scanner.curRegionScannerID
            closeScanner := true
            numberOfRows := 0 }] := by
        rw [Session.closes, known, logged.rpc]
        simp only [Session.closing, row]
      have sent := logged.sent
      rw [Scanner.closeRegionScanner, if_neg opened]
      refine ⟨logged.rpc, ?_, ?_, fun _ => rfl, fun _ known => by cases known⟩
      · simpa using logged.heard
      · simp only [Option.toList_some, List.flatMap_singleton] at sent
        simp only [sent, ← closes, Option.toList_some, Option.toList_none, List.flatMap_append,
          List.flatMap_singleton, List.flatMap_nil, List.append_nil, List.append_assoc,
          Session.requests]

theorem Logged.close (logged : Logged query st done current)
    (waiting : st.scanner.closed = false) :
    Logged query (closeState st) (done ++ current.toList) none := by
  have flagged : Logged query { st with scanner := { st.scanner with closed := true } } done
      current := ⟨logged.rpc, logged.heard, logged.sent, logged.idle, logged.inside⟩
  have finished := flagged.closeRegionScanner
  rw [closeState, Scanner.close, if_neg (by simp [waiting])]
  exact finished

def Notes (s : Scanner) (answer : Answer ε) (s' : Scanner) : Prop :=
  match answer with
  | .ok (resp, _) => s.noteScannerId resp = .ok s'
  | .error _ => s' = s

theorem Logged.opens (logged : Logged query st done none) (answer : Answer ε) {s : Scanner}
    (notes : Notes st.scanner answer s) :
    ∃ done current, Logged query ⟨s, st.server ++ [(st.scanner.request, answer)],
      st.sent ++ [st.scanner.request]⟩ done current := by
  have idle := logged.idle rfl
  have closed : st.scanner.isRegionScannerClosed = true := decide_eq_true idle
  have heard := logged.heard
  have sent := logged.sent
  simp only [Option.toList_none, List.append_nil, List.flatMap_nil] at heard sent
  let session : Session ε := ⟨st.scanner.startRow, answer, []⟩
  have request : st.scanner.request = session.opening query := by
    rw [Scanner.request, if_pos closed, logged.rpc]
    rfl
  have first : session.exchanges query = [(st.scanner.request, answer)] := by
    rw [Session.exchanges, request]
    cases session.id with
    | none => rfl
    | some id => rfl
  have shape : s.rpc = query ∧ s.startRow = st.scanner.startRow ∧
      s.curRegionScannerID = session.id.getD noScannerID := by
    rcases answer with err | ⟨resp, region⟩
    · cases notes
      exact ⟨logged.rpc, rfl, idle⟩
    · simp only [Notes, Scanner.noteScannerId] at notes
      simp only [session, Session.id]
      cases issued : resp.scannerId with
      | none =>
          rw [issued] at notes
          cases notes
          exact ⟨logged.rpc, rfl, idle⟩
      | some id =>
          rw [issued] at notes
          simp only [closed, ↓reduceIte, Scanner.openRegionScanner] at notes
          cases notes
          refine ⟨logged.rpc, rfl, ?_⟩
          by_cases reserved : id = noScannerID
          · simp [Option.filter, reserved]
          · simp [Option.filter, reserved]
  rcases shape with ⟨rpc, row, cur⟩
  cases known : session.id with
  | none =>
      refine ⟨done ++ [session], none, rpc, ?_, ?_, ?_, ?_⟩
      · simp [heard, first]
      · simp [sent, Session.requests, Session.closes, first, known]
      · intro _
        rw [cur, known]
        rfl
      · intro _ impossible
        cases impossible
  | some id =>
      refine ⟨done, some session, rpc, ?_, ?_, ?_, ?_⟩
      · simp [heard, first]
      · simp [sent, first]
      · intro impossible
        cases impossible
      · intro other same
        cases same
        rw [cur, known, row]
        exact ⟨rfl, rfl⟩

theorem Logged.continues {session : Session ε} (logged : Logged query st done (some session))
    (answer : Answer ε) {s : Scanner} (notes : Notes st.scanner answer s) :
    ∃ done current, Logged query ⟨s, st.server ++ [(st.scanner.request, answer)],
      st.sent ++ [st.scanner.request]⟩ done current := by
  rcases logged.inside session rfl with ⟨known, row⟩
  have opened : ¬st.scanner.isRegionScannerClosed = true := by
    rw [Scanner.isRegionScannerClosed, decide_eq_true_eq]
    exact Session.id_valid known
  have same : s = st.scanner := by
    rcases answer with err | ⟨resp, region⟩
    · exact notes
    · simp only [Notes, Scanner.noteScannerId, opened] at notes
      cases issued : resp.scannerId with
      | none =>
          rw [issued] at notes
          cases notes
          rfl
      | some id =>
          rw [issued] at notes
          cases notes
          rfl
  let longer : Session ε := { session with more := session.more ++ [answer] }
  have request : st.scanner.request =
      session.continuation query st.scanner.curRegionScannerID := by
    rw [Scanner.request, if_neg opened, logged.rpc, Session.continuation, row]
  have extended : longer.exchanges query =
      session.exchanges query ++ [(st.scanner.request, answer)] := by
    have knownLonger : longer.id = some st.scanner.curRegionScannerID := known
    rw [Session.exchanges, Session.exchanges, known, knownLonger, request]
    simp [longer, Session.opening, Session.continuation]
  have heard := logged.heard
  have sent := logged.sent
  subst same
  refine ⟨done, some longer, logged.rpc, ?_, ?_, nofun, ?_⟩
  · simp [heard, extended]
  · simp [sent, extended]
  · intro other same
    cases same
    exact ⟨known, row⟩

theorem Logged.exchange (logged : Logged query st done current) (answer : Answer ε) {s : Scanner}
    (notes : Notes st.scanner answer s) :
    ∃ done current, Logged query ⟨s, st.server ++ [(st.scanner.request, answer)],
      st.sent ++ [st.scanner.request]⟩ done current := by
  cases current with
  | none => exact logged.opens answer notes
  | some session => exact logged.continues answer notes

theorem noteScannerId_closed {s noted : Scanner} {resp : ScanResponse}
    (ran : s.noteScannerId resp = .ok noted) : noted.closed = s.closed := by
  obtain ⟨_, rfl⟩ := noteScannerId_eq ran
  rfl

theorem closeRegionScanner_closed (s : Scanner) : s.closeRegionScanner.1.closed = s.closed := by
  obtain ⟨_, closed⟩ := closeRegionScanner_eq s
  rw [closed]

theorem closeRegionScanner_idle (s : Scanner) :
    s.closeRegionScanner.1.curRegionScannerID = noScannerID := by
  unfold Scanner.closeRegionScanner
  by_cases closed : s.isRegionScannerClosed = true
  · rw [if_pos closed]
    exact decide_eq_true_eq.mp closed
  · rw [if_neg closed]

theorem Logged.update (logged : Logged query st done current) {resp : ScanResponse}
    {region : RegionInfo} {s : Scanner} {requests : List Scan}
    (updated : st.scanner.update resp region = .ok (s, requests)) :
    s.closed = st.scanner.closed ∧ ∃ done current,
      Logged query ⟨s, st.server ++ [(st.scanner.request, .ok (resp, region))],
        st.sent ++ [st.scanner.request] ++ requests⟩ done current := by
  rcases update_cases updated with ⟨noted, ran, rest⟩
  rcases logged.exchange (.ok (resp, region)) ran with ⟨done, current, exchanged⟩
  have closed := noteScannerId_closed ran
  rcases rest with ⟨rfl, rfl⟩ | ⟨rfl, rfl⟩
  · refine ⟨closed, done, current, ?_⟩
    rw [List.append_nil]
    exact exchanged
  · have finished := exchanged.closeRegionScanner
    refine ⟨(closeRegionScanner_closed noted).trans closed, done ++ current.toList, none, ?_⟩
    exact finished.rescan rfl (closeRegionScanner_idle noted)

def HasLog (query : Scan) (st : ScanState (List (Scan × Answer ε))) : Prop :=
  ∃ done current, Logged query st done current ∧ (st.scanner.closed = true → current = none)

theorem HasLog.close (log : HasLog query st) : HasLog query (closeState st) := by
  rcases log with ⟨done, current, logged, ended⟩
  cases closed : st.scanner.closed with
  | true =>
      have same : closeState st = st := by
        rw [closeState, Scanner.close, if_pos closed, List.append_nil]
      rw [same]
      exact ⟨done, current, logged, ended⟩
  | false => exact ⟨_, none, logged.close closed, fun _ => rfl⟩

theorem HasLog.round (oracle : List (Scan × Answer ε) → Scan → Answer ε)
    {st' : ScanState (List (Scan × Answer ε))}
    {outcome : Option (Except (ScanError ε) (List (Option PbResult)))} (log : HasLog query st)
    (waiting : st.scanner.closed = false)
    (step : fetchStep (recording oracle) st = .ok (st', outcome)) : HasLog query st' := by
  rcases log with ⟨done, current, logged, _⟩
  rcases fetchStep_cases step with ⟨server, err, answered, rfl, _⟩ |
    ⟨server, resp, region, s, requests, closing, answered, updated, rfl, rfl, _⟩
  · have failed : oracle st.server st.scanner.request = .error err := congrArg Prod.snd answered
    have heard : server = st.server ++ [(st.scanner.request, .error err)] := by
      rw [← failed]
      exact (congrArg Prod.fst answered).symm
    rcases logged.exchange (.error err) rfl with ⟨done, current, exchanged⟩
    rw [heard]
    exact ⟨_, none, exchanged.close waiting, fun _ => rfl⟩
  · have found : oracle st.server st.scanner.request = .ok (resp, region) :=
      congrArg Prod.snd answered
    have heard : server = st.server ++ [(st.scanner.request, .ok (resp, region))] := by
      rw [← found]
      exact (congrArg Prod.fst answered).symm
    rcases logged.update updated with ⟨closed, done, current, taken⟩
    rw [heard]
    by_cases last : s.isDone resp region = true
    · simp only [if_pos last]
      exact ⟨_, none, taken.close (closed.trans waiting), fun _ => rfl⟩
    · simp only [if_neg last, List.append_nil]
      refine ⟨done, current, taken, fun ended => ?_⟩
      rw [closed, waiting] at ended
      cases ended

theorem hasLog_invariant (query : Scan) (oracle : List (Scan × Answer ε) → Scan → Answer ε) :
    ScanInvariant (recording oracle) (HasLog query) where
  round _ _ _ log waiting step := log.round oracle waiting step
  close _ log := log.close
  results _ _ log := by
    rcases log with ⟨done, current, logged, ended⟩
    exact ⟨done, current,
      ⟨logged.rpc, logged.heard, logged.sent, logged.idle, logged.inside⟩, ended⟩

theorem closed_invariant {σ : Type} (client : RPCClient σ ε) (server : σ) (sent : List Scan) :
    ScanInvariant client fun st => st.scanner.closed = true ∧ st.server = server ∧
      st.sent = sent where
  round st _ _ ended waiting _ := by
    rw [ended.1] at waiting
    cases waiting
  close st ended := by
    rw [closeState, Scanner.close, if_pos ended.1, List.append_nil]
    exact ended
  results _ _ ended := ended

def beginScan (query : Scan) : ScanState (List (Scan × Answer ε)) := ⟨newScanner query, [], []⟩

/-- Whatever the server answers and whatever is called: `openRegionScanner` does not panic, the
requests are sessions one after the other, each with its own ID and its own close request, and
nothing is sent after the scanner is closed. -/
theorem scanner_lifecycle (query : Scan) (oracle : List (Scan × Answer ε) → Scan → Answer ε)
    (fuel : Nat) (calls : List (ScanCall ε)) :
    runScan (recording oracle) fuel calls (beginScan query) ≠ .error notClosedPanic ∧
    ∀ st, runScan (recording oracle) fuel calls (beginScan query) = .ok (some st) →
      (∃ done current, Logged query st done current ∧
        (st.scanner.closed = true → current = none)) ∧
      (st.scanner.closed = true → ∀ more final,
        runScan (recording oracle) fuel more st = .ok (some final) →
          final.server = st.server ∧ final.sent = st.sent) := by
  refine ⟨runScan_not_panic _ fuel calls _, ?_⟩
  intro st ran
  constructor
  · refine (hasLog_invariant query oracle).runScan ?_ ran
    exact ⟨[], none, ⟨rfl, rfl, rfl, fun _ => rfl, nofun⟩, fun _ => rfl⟩
  · intro closed more final further
    exact ((closed_invariant (recording oracle) st.server st.sent).runScan
      ⟨closed, rfl, rfl⟩ further).2

def steadyOracle (_ : List (Scan × Answer String)) (_ : Scan) : Answer String :=
  .ok (⟨[], some 7, none, [some ⟨[], none, none, none, none⟩], [], some true⟩,
    sampleRegion 0 1 [] [])

theorem scanner_lifecycle_steady :
    ∃ st, runScan (recording steadyOracle) 3 [.next none, .next none, .close]
        (beginScan (newScanRange [97] [])) = .ok (some st) ∧
      st.sent = [newScanRange [97] [],
        { newScanRange [97] [] with scannerID := 7 },
        { newScanRange [97] [] with scannerID := 7, closeScanner := true, numberOfRows := 0 }] ∧
      ∃ done current, Logged (newScanRange [97] []) st done current ∧
        (st.scanner.closed = true → current = none) :=
  ⟨_, rfl, rfl, ((scanner_lifecycle (newScanRange [97] []) steadyOracle 3
    [.next none, .next none, .close]).2 _ rfl).1⟩

end Sessions

end GoHBase
