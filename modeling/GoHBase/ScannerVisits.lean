import GoHBase.ScannerDrain

/-! Scans against a server that answers each region scan from a plan: a region
and the responses of that region scan. -/

namespace GoHBase

open ByteString Runtime Buffer

structure RegionPlan where
  region : RegionInfo
  responses : List ScanResponse

structure PlanState where
  opens : Nat
  current : Option (RegionInfo × UInt64 × List ScanResponse)

/-- The plan of a region scan may depend on how many came before it. -/
def planClient (plans : Nat → Bytes → RegionPlan) : RPCClient PlanState String where
  sendRPC st rpc :=
    if rpc.scannerID = noScannerID then
      let plan := plans st.opens rpc.startRow
      match plan.responses with
      | [] => (st, .error (.failed "no response"))
      | first :: rest =>
          (⟨st.opens + 1, some (plan.region, first.scannerId.getD noScannerID, rest)⟩,
            .ok (first, plan.region))
    else
      match st.current with
      | some (region, id, resp :: rest) =>
          if id = rpc.scannerID then (⟨st.opens, some (region, id, rest)⟩, .ok (resp, region))
          else (st, .error (.failed "unknown scanner"))
      | _ => (st, .error (.failed "unknown scanner"))

def Scan.stopsAfter (rpc : Scan) (region : RegionInfo) : Bool :=
  if region.stopKey.length = 0 ∧ !rpc.reversed then true
  else if rpc.reversed ∧ region.startKey.length = 0 then true
  else if !rpc.reversed then
    rpc.stopRow.length ≠ 0 && decide (bytesCompare rpc.stopRow region.stopKey ≤ 0)
  else rpc.stopRow.length ≠ 0 && decide (bytesCompare rpc.stopRow region.startKey ≥ 0)

theorem Scanner.isDone_eq (s : Scanner) (resp : ScanResponse) (region : RegionInfo) :
    s.isDone resp region = (decide (resp.moreResults = some false) ||
      s.isRegionScannerClosed && s.rpc.stopsAfter region) := by
  unfold isDone Scan.stopsAfter
  cases s.isRegionScannerClosed with
  | true => by_cases last : resp.moreResults = some false <;> simp [last]
  | false => by_cases last : resp.moreResults = some false <;> simp [last]

def Flagged : List ScanResponse → Prop
  | [] => False
  | [last] => last.moreResultsInRegion ≠ some true
  | resp :: next :: rest => resp.moreResultsInRegion = some true ∧ Flagged (next :: rest)

theorem Flagged.tail {resp : ScanResponse} {rest : List ScanResponse}
    (flagged : Flagged (resp :: rest)) (more : rest ≠ []) : Flagged rest := by
  cases rest with
  | nil => exact absurd rfl more
  | cons other rest => exact flagged.2

/-- A response ends the scan only when the rest of the region and `beyond` are empty. -/
def Truthful (beyond : List (Option PbResult)) : List ScanResponse → Prop
  | [] => True
  | resp :: rest =>
      (resp.moreResults = some false → rest.flatMap ScanResponse.results ++ beyond = []) ∧
        Truthful beyond rest

theorem Truthful.imp {beyond beyond' : List (Option PbResult)} {responses : List ScanResponse}
    (truthful : Truthful beyond responses) (fewer : beyond = [] → beyond' = []) :
    Truthful beyond' responses := by
  induction responses with
  | nil => trivial
  | cons resp rest ih =>
      refine ⟨fun ended => ?_, ih truthful.2⟩
      obtain ⟨empty, nothing⟩ := List.append_eq_nil_iff.mp (truthful.1 ended)
      rw [empty, fewer nothing]
      rfl

def openRows (sent : List Scan) : List Bytes :=
  (sent.filter fun rpc => rpc.scannerID = noScannerID).map Scan.startRow

@[simp]
theorem openRows_append (first second : List Scan) :
    openRows (first ++ second) = openRows first ++ openRows second := by
  simp [openRows]

section Run

variable (rpc : Scan) (plans : Nat → Bytes → RegionPlan)

def idleState (k : Nat) (row : Bytes) (current : Option (RegionInfo × UInt64 × List ScanResponse))
    (sent : List Scan) : ScanState PlanState :=
  ⟨⟨rpc, noScannerID, row, [], false⟩, ⟨k, current⟩, sent⟩

def insideState (k : Nat) (row : Bytes) (id : UInt64) (region : RegionInfo)
    (pending : List ScanResponse) (sent : List Scan) : ScanState PlanState :=
  ⟨⟨rpc, id, row, [], false⟩, ⟨k, some (region, id, pending)⟩, sent⟩

def closedState (row : Bytes) (server : PlanState) (sent : List Scan) : ScanState PlanState :=
  ⟨⟨rpc, noScannerID, row, [], true⟩, server, sent⟩

theorem closeRegionScanner_open {id : UInt64} (valid : id ≠ noScannerID) (row : Bytes)
    (closed : Bool) : ∃ requests,
      Scanner.closeRegionScanner ⟨rpc, id, row, [], closed⟩ =
        (⟨rpc, noScannerID, row, [], closed⟩, requests) ∧ openRows requests = [] := by
  unfold Scanner.closeRegionScanner
  have opened : Scanner.isRegionScannerClosed ⟨rpc, id, row, [], closed⟩ = false := by
    simp [Scanner.isRegionScannerClosed, valid]
  rw [opened]
  refine ⟨_, rfl, ?_⟩
  cases rpc.closeScanner with
  | true => rfl
  | false => simp [openRows, valid]

theorem update_more {s : Scanner} {resp : ScanResponse} {region : RegionInfo} {id : UInt64}
    {row : Bytes} (noted : s.noteScannerId resp = .ok ⟨rpc, id, row, [], false⟩)
    (more : resp.moreResultsInRegion = some true) :
    s.update resp region = .ok (⟨rpc, id, row, [], false⟩, []) := by
  simp only [Scanner.update, noted, ok_bind, more, Option.getD_some, ↓reduceIte]
  rfl

theorem update_last {s : Scanner} {resp : ScanResponse} (region : RegionInfo) {id : UInt64}
    {row : Bytes} (noted : s.noteScannerId resp = .ok ⟨rpc, id, row, [], false⟩)
    (last : resp.moreResultsInRegion ≠ some true) (valid : id ≠ noScannerID) :
    ∃ requests, s.update resp region =
      .ok (⟨rpc, noScannerID, rpc.nextStartRow region, [], false⟩, requests) ∧
      openRows requests = [] := by
  obtain ⟨requests, closed, unopened⟩ := closeRegionScanner_open rpc valid row false
  have final : resp.moreResultsInRegion.getD false = false := by
    cases reported : resp.moreResultsInRegion with
    | none => rfl
    | some flag =>
        cases flag with
        | true => exact absurd reported last
        | false => rfl
  refine ⟨requests, ?_, unopened⟩
  simp only [Scanner.update, noted, ok_bind, final, Bool.false_eq_true, ↓reduceIte, closed]
  rfl

theorem fetchStep_response {client : RPCClient PlanState String} {st : ScanState PlanState}
    {server : PlanState} {resp : ScanResponse} {region : RegionInfo} {id : UInt64} {row : Bytes}
    (answered : client.sendRPC st.server st.scanner.request = (server, .ok (resp, region)))
    (noted : st.scanner.noteScannerId resp = .ok ⟨rpc, id, row, [], false⟩)
    (valid : id ≠ noScannerID) :
    ∃ st', fetchStep client st = .ok (st', if 0 < resp.results.length then some (.ok resp.results)
        else if st'.scanner.closed then some (.error .eof) else none) ∧
      openRows st'.sent = openRows st.sent ++ openRows [st.scanner.request] ∧
      ((resp.moreResultsInRegion = some true ∧ resp.moreResults ≠ some false ∧
          st' = ⟨⟨rpc, id, row, [], false⟩, server, st'.sent⟩) ∨
        (resp.moreResultsInRegion ≠ some true ∧ resp.moreResults ≠ some false ∧
          rpc.stopsAfter region = false ∧
          st' = ⟨⟨rpc, noScannerID, rpc.nextStartRow region, [], false⟩, server, st'.sent⟩) ∨
        ((resp.moreResults = some false ∨
            resp.moreResultsInRegion ≠ some true ∧ rpc.stopsAfter region = true) ∧
          ∃ row, st' = closedState rpc row server st'.sent)) := by
  have opened : Scanner.isRegionScannerClosed ⟨rpc, id, row, [], false⟩ = false := by
    simp [Scanner.isRegionScannerClosed, valid]
  have shut (row : Bytes) :
      Scanner.isRegionScannerClosed ⟨rpc, noScannerID, row, [], false⟩ = true := by
    simp [Scanner.isRegionScannerClosed]
  by_cases more : resp.moreResultsInRegion = some true
  · by_cases ended : resp.moreResults = some false
    · obtain ⟨requests, closing, unopened⟩ := closeRegionScanner_open rpc valid row true
      refine ⟨closedState rpc row server (st.sent ++ [st.scanner.request] ++ [] ++ requests), ?_,
        ?_, .inr (.inr ⟨.inl ended, row, rfl⟩)⟩
      · simp only [fetchStep, answered, update_more rpc noted more, ok_bind, Scanner.isDone_eq,
          ended, decide_true, Bool.true_or, ↓reduceIte, Scanner.close, Bool.false_eq_true, closing]
        rfl
      · simp only [closedState, openRows_append, unopened, List.append_nil]
    · refine ⟨⟨⟨rpc, id, row, [], false⟩, server, st.sent ++ [st.scanner.request] ++ [] ++ []⟩, ?_,
        ?_, .inl ⟨more, ended, rfl⟩⟩
      · simp only [fetchStep, answered, update_more rpc noted more, ok_bind, Scanner.isDone_eq,
          ended, decide_false, Bool.false_or, opened, Bool.false_and, Bool.false_eq_true,
          ↓reduceIte]
        rfl
      · simp only [openRows_append, List.append_nil]
  · obtain ⟨requests, updated, unopened⟩ := update_last rpc region noted more valid
    have closing : Scanner.close ⟨rpc, noScannerID, rpc.nextStartRow region, [], false⟩ =
        (⟨rpc, noScannerID, rpc.nextStartRow region, [], true⟩, []) := by
      simp [Scanner.close, Scanner.closeRegionScanner, Scanner.isRegionScannerClosed]
    have rows : openRows (st.sent ++ [st.scanner.request] ++ requests ++ []) =
        openRows st.sent ++ openRows [st.scanner.request] := by
      simp only [openRows_append, unopened, List.append_nil]
    cases done :
        Scanner.isDone ⟨rpc, noScannerID, rpc.nextStartRow region, [], false⟩ resp region with
    | true =>
        refine ⟨closedState rpc (rpc.nextStartRow region) server
          (st.sent ++ [st.scanner.request] ++ requests ++ []), ?_, rows, .inr (.inr ⟨?_, _, rfl⟩)⟩
        · simp only [fetchStep, answered, updated, ok_bind, done, ↓reduceIte, closing]
          rfl
        · simp only [Scanner.isDone_eq, shut, Bool.true_and, Bool.or_eq_true,
            decide_eq_true_eq] at done
          exact done.imp_right fun stops => ⟨more, stops⟩
    | false =>
        refine ⟨⟨⟨rpc, noScannerID, rpc.nextStartRow region, [], false⟩, server,
          st.sent ++ [st.scanner.request] ++ requests ++ []⟩, ?_, rows, .inr (.inl ?_)⟩
        · simp only [fetchStep, answered, updated, ok_bind, done, Bool.false_eq_true, ↓reduceIte]
          rfl
        · simp only [Scanner.isDone_eq, shut, Bool.true_and, Bool.or_eq_false_iff,
            decide_eq_false_iff_not] at done
          exact ⟨more, done.1, done.2, rfl⟩

def Ends (st : ScanState PlanState) (results : List (Option PbResult))
    (rows : List Bytes → Prop) : Prop :=
  ∃ final more, Drains (planClient plans) st results final ∧
    openRows final.sent = openRows st.sent ++ more ∧ rows more

def Follows (row later : Bytes) : Prop :=
  ∃ k, rpc.stopsAfter (plans k row).region = false ∧
    later = rpc.nextStartRow (plans k row).region

def beyond (todo : Bytes → List (Option PbResult)) (region : RegionInfo) :
    List (Option PbResult) :=
  if rpc.stopsAfter region then [] else todo (rpc.nextStartRow region)

variable {rpc plans}

theorem ends_closed (row : Bytes) (server : PlanState) (sent : List Scan) :
    Ends plans (closedState rpc row server sent) [] fun more => more = [] :=
  ⟨_, [], .eof 0 rfl, by simp, rfl⟩

theorem Ends.imp {st : ScanState PlanState} {results : List (Option PbResult)}
    {rows rows' : List Bytes → Prop} (ends : Ends plans st results rows)
    (weaker : ∀ more, rows more → rows' more) : Ends plans st results rows' := by
  obtain ⟨final, more, drains, opened, held⟩ := ends
  exact ⟨final, more, drains, opened, weaker more held⟩

/-- The step lemma: a response adds its results, and what follows is up to the state it leads to. -/
theorem ends_response {st : ScanState PlanState} {server : PlanState} {resp : ScanResponse}
    {region : RegionInfo} {id : UInt64} {row : Bytes} (later : List (Option PbResult))
    (rows : List Bytes → Prop) (hands : ∀ result ∈ resp.results, rpc.HandsOut result)
    (empty : st.scanner.results = []) (waiting : st.scanner.closed = false)
    (same : st.scanner.rpc = rpc)
    (answered : (planClient plans).sendRPC st.server st.scanner.request =
      (server, .ok (resp, region)))
    (noted : st.scanner.noteScannerId resp = .ok ⟨rpc, id, row, [], false⟩)
    (valid : id ≠ noScannerID)
    (goesOn : resp.moreResultsInRegion = some true → resp.moreResults ≠ some false →
      ∀ sent, Ends plans ⟨⟨rpc, id, row, [], false⟩, server, sent⟩ later rows)
    (next : resp.moreResultsInRegion ≠ some true → resp.moreResults ≠ some false →
      rpc.stopsAfter region = false →
      ∀ sent, Ends plans ⟨⟨rpc, noScannerID, rpc.nextStartRow region, [], false⟩, server, sent⟩
        later rows)
    (stops : resp.moreResults = some false ∨
      resp.moreResultsInRegion ≠ some true ∧ rpc.stopsAfter region = true →
      later = [] ∧ rows []) :
    Ends plans st (resp.results ++ later) fun more =>
      ∃ tail, more = openRows [st.scanner.request] ++ tail ∧ rows tail := by
  obtain ⟨st', step, sent, cases⟩ := fetchStep_response rpc answered noted valid
  have ends : Ends plans st' later rows := by
    obtain ⟨more, notEnded, shape⟩ | ⟨last, notEnded, further, shape⟩ | ⟨ended, row, shape⟩ := cases
    · rw [shape]
      exact goesOn more notEnded _
    · rw [shape]
      exact next last notEnded further _
    · obtain ⟨rfl, ends⟩ := stops ended
      rw [shape]
      refine (ends_closed row server st'.sent).imp ?_
      rintro more rfl
      exact ends
  obtain ⟨final, more, drains, opened, held⟩ := ends
  refine ⟨final, openRows [st.scanner.request] ++ more, ?_, ?_, more, rfl, held⟩
  · exact drains.response (planClient plans) empty waiting (same ▸ hands) step
  · rw [opened, sent, List.append_assoc]

section Requests

variable {k : Nat} {row : Bytes} {sent : List Scan}

theorem idle_request (current : Option (RegionInfo × UInt64 × List ScanResponse)) :
    (idleState rpc k row current sent).scanner.request = { rpc with startRow := row } := by
  simp [idleState, Scanner.request, Scanner.isRegionScannerClosed]

theorem idle_answered (fresh : rpc.scannerID = noScannerID) {id : UInt64} {first : ScanResponse}
    {rest : List ScanResponse} (responses : (plans k row).responses = first :: rest)
    (issued : first.scannerId = some id)
    (current : Option (RegionInfo × UInt64 × List ScanResponse)) :
    (planClient plans).sendRPC (idleState rpc k row current sent).server
        (idleState rpc k row current sent).scanner.request =
      (⟨k + 1, some ((plans k row).region, id, rest)⟩, .ok (first, (plans k row).region)) := by
  rw [idle_request]
  simp [planClient, idleState, fresh, responses, issued]

theorem idle_noted {id : UInt64} {first : ScanResponse} (issued : first.scannerId = some id)
    (current : Option (RegionInfo × UInt64 × List ScanResponse)) :
    (idleState rpc k row current sent).scanner.noteScannerId first =
      .ok ⟨rpc, id, row, [], false⟩ := by
  simp [Scanner.noteScannerId, issued, idleState, Scanner.isRegionScannerClosed,
    Scanner.openRegionScanner]

variable {id : UInt64} (valid : id ≠ noScannerID) {region : RegionInfo}
  {pending : List ScanResponse}

include valid

theorem inside_request : (insideState rpc k row id region pending sent).scanner.request =
    { newScanRange row [] with scannerID := id, numberOfRows := rpc.numberOfRows } := by
  simp [insideState, Scanner.request, Scanner.isRegionScannerClosed, valid]

theorem inside_answered {resp : ScanResponse} {rest : List ScanResponse} :
    (planClient plans).sendRPC (insideState rpc k row id region (resp :: rest) sent).server
        (insideState rpc k row id region (resp :: rest) sent).scanner.request =
      (⟨k, some (region, id, rest)⟩, .ok (resp, region)) := by
  rw [inside_request valid]
  simp [planClient, insideState, valid]

theorem inside_noted (resp : ScanResponse) :
    (insideState rpc k row id region pending sent).scanner.noteScannerId resp =
      .ok ⟨rpc, id, row, [], false⟩ := by
  have opened : Scanner.isRegionScannerClosed ⟨rpc, id, row, [], false⟩ = false := by
    simp [Scanner.isRegionScannerClosed, valid]
  cases issued : resp.scannerId with
  | none => simp [Scanner.noteScannerId, issued, insideState, pure, Except.pure]
  | some other => simp [Scanner.noteScannerId, issued, insideState, opened, pure, Except.pure]

end Requests

section Region

variable (todo : Bytes → List (Option PbResult)) {k : Nat} {row : Bytes} {id : UInt64}
  {region : RegionInfo} (valid : id ≠ noScannerID)
  (follows : rpc.stopsAfter region = false → Follows rpc plans row (rpc.nextStartRow region))
  (next : rpc.stopsAfter region = false → ∀ current sent,
    Ends plans (idleState rpc k (rpc.nextStartRow region) current sent)
      (todo (rpc.nextStartRow region)) fun more =>
        ∃ tail, more = rpc.nextStartRow region :: tail ∧ List.IsChain (Follows rpc plans) more)

include valid follows next

theorem ends_pending {resp : ScanResponse} {rest : List ScanResponse} {st : ScanState PlanState}
    (flagged : Flagged (resp :: rest))
    (truthful : Truthful (beyond rpc todo region) (resp :: rest))
    (hands : ∀ result ∈ resp.results, rpc.HandsOut result)
    (empty : st.scanner.results = []) (waiting : st.scanner.closed = false)
    (same : st.scanner.rpc = rpc)
    (answered : (planClient plans).sendRPC st.server st.scanner.request =
      (⟨k, some (region, id, rest)⟩, .ok (resp, region)))
    (noted : st.scanner.noteScannerId resp = .ok ⟨rpc, id, row, [], false⟩)
    (goesOn : rest ≠ [] → ∀ sent, Ends plans (insideState rpc k row id region rest sent)
      (rest.flatMap ScanResponse.results ++ beyond rpc todo region) fun more =>
        List.IsChain (Follows rpc plans) (row :: more)) :
    Ends plans st ((resp :: rest).flatMap ScanResponse.results ++ beyond rpc todo region)
      fun more => ∃ tail, more = openRows [st.scanner.request] ++ tail ∧
        List.IsChain (Follows rpc plans) (row :: tail) := by
  have alone : resp.moreResultsInRegion ≠ some true → rest = [] := by
    intro last
    cases rest with
    | nil => rfl
    | cons other rest => exact absurd flagged.1 last
  rw [List.flatMap_cons, List.append_assoc]
  refine ends_response _ _ hands empty waiting same answered noted valid ?_ ?_ ?_
  · intro more _ sent
    cases rest with
    | nil => exact absurd more flagged
    | cons other rest => exact goesOn (List.cons_ne_nil other rest) sent
  · intro last _ further sent
    rw [alone last, List.flatMap_nil, List.nil_append, beyond, if_neg (by simp [further])]
    refine (next further _ sent).imp ?_
    rintro more ⟨tail, rfl, chain⟩
    exact .cons_cons (follows further) chain
  · intro ended
    refine ⟨?_, .singleton row⟩
    obtain ended | ⟨last, stops⟩ := ended
    · exact truthful.1 ended
    · rw [alone last, beyond, if_pos stops]
      rfl

/-- Inside a region the pending responses are handed out, by induction on them. -/
theorem ends_inside (pending : List ScanResponse) (flagged : Flagged pending)
    (truthful : Truthful (beyond rpc todo region) pending)
    (hands : ∀ result ∈ pending.flatMap ScanResponse.results, rpc.HandsOut result)
    (sent : List Scan) :
    Ends plans (insideState rpc k row id region pending sent)
      (pending.flatMap ScanResponse.results ++ beyond rpc todo region) fun more =>
        List.IsChain (Follows rpc plans) (row :: more) := by
  induction pending generalizing sent with
  | nil => cases flagged
  | cons resp rest ih =>
      rw [List.flatMap_cons, List.forall_mem_append] at hands
      refine (ends_pending todo valid follows next flagged truthful hands.1 rfl rfl rfl
        (inside_answered valid) (inside_noted valid resp) ?_).imp ?_
      · intro more sent
        exact ih (flagged.tail more) truthful.2 hands.2 sent
      · rintro more ⟨tail, rfl, chain⟩
        simpa [inside_request valid, openRows, valid] using chain

end Region

structure Visit (rpc : Scan) (todo : Bytes → List (Option PbResult)) (rank : Bytes → Nat)
    (row : Bytes) (plan : RegionPlan) : Prop where
  opened : ∃ id first rest, plan.responses = first :: rest ∧ first.scannerId = some id ∧
    id ≠ noScannerID
  flagged : Flagged plan.responses
  truthful : Truthful (beyond rpc todo plan.region) plan.responses
  content : plan.responses.flatMap ScanResponse.results ++ beyond rpc todo plan.region = todo row
  advances : rpc.stopsAfter plan.region = false → rank (rpc.nextStartRow plan.region) < rank row

/-- The run lemma: region after region, by induction on the rank of the start row. -/
theorem ends_visits (fresh : rpc.scannerID = noScannerID) {todo : Bytes → List (Option PbResult)}
    {rank : Bytes → Nat} (hands : ∀ row, ∀ result ∈ todo row, rpc.HandsOut result)
    (visits : ∀ k row, Visit rpc todo rank row (plans k row)) (k : Nat) (row : Bytes)
    (current : Option (RegionInfo × UInt64 × List ScanResponse)) (sent : List Scan) :
    Ends plans (idleState rpc k row current sent) (todo row) fun more =>
      ∃ tail, more = row :: tail ∧ List.IsChain (Follows rpc plans) more := by
  induction measure : rank row using Nat.strong_induction_on generalizing k row current sent with
  | _ size ih =>
      have visit := visits k row
      obtain ⟨id, first, rest, responses, issued, valid⟩ := visit.opened
      have next : rpc.stopsAfter (plans k row).region = false → ∀ current sent,
          Ends plans (idleState rpc (k + 1) (rpc.nextStartRow (plans k row).region) current sent)
            (todo (rpc.nextStartRow (plans k row).region)) fun more =>
              ∃ tail, more = rpc.nextStartRow (plans k row).region :: tail ∧
                List.IsChain (Follows rpc plans) more := by
        intro further current sent
        exact ih _ (measure ▸ visit.advances further) (k + 1) _ current sent rfl
      have follows : rpc.stopsAfter (plans k row).region = false →
          Follows rpc plans row (rpc.nextStartRow (plans k row).region) :=
        fun further => ⟨k, further, rfl⟩
      have flagged := visit.flagged
      have truthful := visit.truthful
      have content := visit.content
      rw [responses] at flagged truthful content
      have handed := hands row
      rw [← content, List.forall_mem_append, List.flatMap_cons, List.forall_mem_append] at handed
      obtain ⟨⟨handsFirst, handsRest⟩, _⟩ := handed
      rw [← content]
      refine (ends_pending todo valid follows next flagged truthful handsFirst rfl rfl rfl
        (idle_answered fresh responses issued current) (idle_noted issued current) ?_).imp ?_
      · intro more sent
        exact ends_inside todo valid follows next rest (flagged.tail more) truthful.2 handsRest sent
      · rintro more ⟨tail, rfl, chain⟩
        refine ⟨tail, ?_, ?_⟩
        · simp [idle_request, openRows, fresh]
        · simpa [idle_request, openRows, fresh] using chain

end Run

end GoHBase
