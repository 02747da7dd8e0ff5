import GoHBase.Lib.Fuel
import GoHBase.ScannerCore

/-! How repeated calls of `Next` hand out what the responses carry. -/

namespace GoHBase

open ByteString Runtime Buffer

section Fuel

variable {σ ε : Type} (client : RPCClient σ ε)

theorem fetch_prolongs {fuel more : Nat} (enough : fuel ≤ more) (st : ScanState σ) :
    Prolongs (fetch client fuel st) (fetch client more st) := by
  induction fuel generalizing more st with
  | zero => exact .out _
  | succ fuel ih =>
      obtain ⟨more, rfl⟩ := Nat.exists_eq_succ_of_ne_zero (show more ≠ 0 by omega)
      refine .after _ fun (st', answer) => ?_
      cases answer with
      | some answer => exact .same _
      | none => exact ih (by omega) st'

theorem peek_prolongs {fuel more : Nat} (enough : fuel ≤ more) (st : ScanState σ) :
    Prolongs (peek client fuel st) (peek client more st) := by
  unfold peek
  cases st.scanner.results with
  | cons result rest => exact .same _
  | nil =>
      cases st.scanner.closed with
      | true => exact .same _
      | false => exact (fetch_prolongs client enough st).bind rfl fun _ => .same _

theorem nextRow_prolongs {fuel more : Nat} (enough : fuel ≤ more) {rounds loops : Nat}
    (loop : rounds ≤ loops) (row : Option PbResult) (st : ScanState σ) :
    Prolongs (nextRow client fuel rounds row st) (nextRow client more loops row st) := by
  induction rounds generalizing loops row st with
  | zero => exact .out _
  | succ rounds ih =>
      obtain ⟨loops, rfl⟩ := Nat.exists_eq_succ_of_ne_zero (show loops ≠ 0 by omega)
      refine (peek_prolongs client enough st).bind rfl fun peeked => ?_
      match peeked with
      | none => exact .same _
      | some (st', .error .eof) => exact .same _
      | some (st', .error (.failed err)) => exact .same _
      | some (st', .ok item) =>
          refine .after _ fun (joined, done) => ?_
          dsimp only
          split
          · exact .same _
          · exact ih (by omega) joined _

theorem next_prolongs {fuel more : Nat} (enough : fuel ≤ more) (cancelled : Option ε)
    (st : ScanState σ) :
    Prolongs (next client fuel cancelled st) (next client more cancelled st) := by
  unfold next
  cases cancelled with
  | some err => exact .same _
  | none =>
      cases st.scanner.rpc.allowPartialResults with
      | true => exact (peek_prolongs client enough st).bind rfl fun _ => .same _
      | false => exact nextRow_prolongs client enough enough none st

theorem drain_prolongs {fuel more : Nat} (enough : fuel ≤ more) {calls others : Nat}
    (longer : calls ≤ others) (st : ScanState σ) :
    Prolongs (drain client fuel calls st) (drain client more others st) := by
  induction calls generalizing others st with
  | zero => exact .out _
  | succ calls ih =>
      obtain ⟨others, rfl⟩ := Nat.exists_eq_succ_of_ne_zero (show others ≠ 0 by omega)
      refine (next_prolongs client enough none st).bind rfl fun returned => ?_
      match returned with
      | none => exact .same _
      | some (st', _, some err) => exact .same _
      | some (st', result, none) => exact (ih (by omega) st').bind rfl fun _ => .same _

end Fuel

theorem fetchStep_cases {σ ε : Type} {client : RPCClient σ ε} {st st' : ScanState σ}
    {outcome : Option (Except (ScanError ε) (List (Option PbResult)))}
    (step : fetchStep client st = .ok (st', outcome)) :
    (∃ server err, client.sendRPC st.server st.scanner.request = (server, .error err) ∧
      st' = ⟨st.scanner.close.1, server,
        st.sent ++ [st.scanner.request] ++ st.scanner.close.2⟩ ∧
      outcome = some (.error err)) ∨
    ∃ server resp region s requests closing,
      client.sendRPC st.server st.scanner.request = (server, .ok (resp, region)) ∧
      st.scanner.update resp region = .ok (s, requests) ∧
      closing = (if s.isDone resp region then s.close else (s, [])) ∧
      st' = ⟨closing.1, server, st.sent ++ [st.scanner.request] ++ requests ++ closing.2⟩ ∧
      outcome = if 0 < resp.results.length then some (.ok resp.results)
        else if closing.1.closed then some (.error .eof) else none := by
  unfold fetchStep at step
  cases answered : client.sendRPC st.server st.scanner.request with
  | mk server answer =>
      simp only [answered] at step
      cases answer with
      | error err =>
          cases step
          exact .inl ⟨server, err, rfl, rfl, rfl⟩
      | ok answer =>
          rcases answer with ⟨resp, region⟩
          rcases (bind_ok_iff _ _ _).mp step with ⟨⟨s, requests⟩, updated, rest⟩
          cases rest
          exact .inr ⟨server, resp, region, s, requests, _, rfl, updated, rfl, rfl, rfl⟩

/-! What requests leave alone: the query and the results in the buffer. -/

theorem closeRegionScanner_eq (s : Scanner) :
    ∃ id, s.closeRegionScanner.1 = { s with curRegionScannerID := id } := by
  unfold Scanner.closeRegionScanner
  split
  · exact ⟨s.curRegionScannerID, rfl⟩
  · exact ⟨noScannerID, rfl⟩

theorem close_eq (s : Scanner) :
    ∃ id, s.close.1 = { s with curRegionScannerID := id, closed := true } := by
  unfold Scanner.close
  by_cases closed : s.closed = true
  · rw [if_pos closed, ← closed]
    exact ⟨s.curRegionScannerID, rfl⟩
  · rw [if_neg closed]
    exact closeRegionScanner_eq { s with closed := true }

theorem noteScannerId_eq {s noted : Scanner} {resp : ScanResponse}
    (ran : s.noteScannerId resp = .ok noted) :
    ∃ id, noted = { s with curRegionScannerID := id } := by
  unfold Scanner.noteScannerId at ran
  split at ran
  · rename_i id _
    by_cases closed : s.isRegionScannerClosed = true
    · rw [if_pos closed, Scanner.openRegionScanner, if_pos closed] at ran
      cases ran
      exact ⟨id, rfl⟩
    · rw [if_neg closed] at ran
      cases ran
      exact ⟨s.curRegionScannerID, rfl⟩
  · cases ran
    exact ⟨s.curRegionScannerID, rfl⟩

theorem update_cases {s s' : Scanner} {resp : ScanResponse} {region : RegionInfo}
    {requests : List Scan} (updated : s.update resp region = .ok (s', requests)) :
    ∃ noted, s.noteScannerId resp = .ok noted ∧ (s' = noted ∧ requests = [] ∨
      s' = { noted.closeRegionScanner.1 with
        startRow := noted.closeRegionScanner.1.rpc.nextStartRow region } ∧
      requests = noted.closeRegionScanner.2) := by
  rcases (bind_ok_iff _ _ _).mp updated with ⟨noted, ran, rest⟩
  refine ⟨noted, ran, ?_⟩
  split at rest
  · cases rest
    exact .inl ⟨rfl, rfl⟩
  · cases rest
    exact .inr ⟨rfl, rfl⟩

theorem update_eq {s s' : Scanner} {resp : ScanResponse} {region : RegionInfo}
    {requests : List Scan} (updated : s.update resp region = .ok (s', requests)) :
    ∃ id row, s' = { s with curRegionScannerID := id, startRow := row } := by
  obtain ⟨noted, ran, rest⟩ := update_cases updated
  obtain ⟨id, rfl⟩ := noteScannerId_eq ran
  rcases rest with ⟨rfl, _⟩ | ⟨rfl, _⟩
  · exact ⟨id, s.startRow, rfl⟩
  · obtain ⟨id', closed⟩ := closeRegionScanner_eq { s with curRegionScannerID := id }
    rw [closed]
    exact ⟨id', _, rfl⟩

section Kept

variable {σ ε : Type} {client : RPCClient σ ε}

theorem fetchStep_keeps {st st' : ScanState σ}
    {outcome : Option (Except (ScanError ε) (List (Option PbResult)))}
    (step : fetchStep client st = .ok (st', outcome)) :
    st'.scanner.results = st.scanner.results ∧ st'.scanner.rpc = st.scanner.rpc ∧
    (∀ err, outcome = some (.error err) → st'.scanner.closed = true) ∧
    ∀ results, outcome = some (.ok results) → results ≠ [] := by
  rcases fetchStep_cases step with ⟨_, _, _, rfl, rfl⟩ |
    ⟨_, resp, region, s, _, closing, _, updated, last, rfl, rfl⟩
  · obtain ⟨id, closed⟩ := close_eq st.scanner
    simp [closed]
  · obtain ⟨id, row, rfl⟩ := update_eq updated
    have kept : closing.1.results = st.scanner.results ∧ closing.1.rpc = st.scanner.rpc := by
      rw [last]
      split
      · obtain ⟨id', closed⟩ := close_eq
          { st.scanner with curRegionScannerID := id, startRow := row }
        simp [closed]
      · exact ⟨rfl, rfl⟩
    refine ⟨kept.1, kept.2, fun err failed => ?_, fun results found => ?_⟩
    · split at failed
      · cases failed
      · split at failed
        · assumption
        · cases failed
    · split at found
      · cases found
        exact List.ne_nil_of_length_pos (by assumption)
      · split at found
        · cases found
        · cases found

theorem fetch_keeps {fuel : Nat} {st st' : ScanState σ}
    {outcome : Except (ScanError ε) (List (Option PbResult))}
    (fetched : fetch client fuel st = .ok (some (st', outcome))) :
    st'.scanner.results = st.scanner.results ∧ st'.scanner.rpc = st.scanner.rpc ∧
    (∀ err, outcome = .error err → st'.scanner.closed = true) ∧
    ∀ results, outcome = .ok results → results ≠ [] := by
  induction fuel generalizing st with
  | zero => cases fetched
  | succ fuel ih =>
      obtain ⟨⟨next, answer⟩, step, rest⟩ := (bind_ok_iff _ _ _).mp fetched
      obtain ⟨results, rpc, ended, nonempty⟩ := fetchStep_keeps step
      cases answer with
      | some answer =>
          cases rest
          exact ⟨results, rpc, fun err failed => ended err (by rw [failed]),
            fun found carried => nonempty found (by rw [carried])⟩
      | none =>
          obtain ⟨results', rpc', last⟩ := ih rest
          exact ⟨results'.trans results, rpc'.trans rpc, last⟩

theorem peek_closed {st : ScanState σ} (closed : st.scanner.closed = true)
    (empty : st.scanner.results = []) (fuel : Nat) :
    peek client fuel st = .ok (some (st, .error .eof)) := by
  simp only [peek, empty, closed, ↓reduceIte]
  rfl

theorem peek_buffered {st : ScanState σ} {item : Option PbResult} {rest : List (Option PbResult)}
    (buffered : st.scanner.results = item :: rest) (fuel : Nat) :
    peek client fuel st = .ok (some (st, .ok item)) := by
  simp only [peek, buffered]
  rfl

theorem peek_open {st : ScanState σ} (waiting : st.scanner.closed = false)
    (empty : st.scanner.results = []) (fuel : Nat) :
    peek client fuel st = fetch client fuel st >>= keepFetched := by
  simp only [peek, empty, waiting]
  rfl

theorem peek_keeps {fuel : Nat} {st st' : ScanState σ}
    {outcome : Except (ScanError ε) (Option PbResult)}
    (peeked : peek client fuel st = .ok (some (st', outcome))) :
    st'.scanner.rpc = st.scanner.rpc ∧
    (∀ err, outcome = .error err → st'.scanner.closed = true ∧ st'.scanner.results = []) ∧
    ∀ item, outcome = .ok item → ∃ rest, st'.scanner.results = item :: rest := by
  cases results : st.scanner.results with
  | cons item rest =>
      rw [peek_buffered results] at peeked
      cases peeked
      refine ⟨rfl, nofun, fun _ found => ?_⟩
      cases found
      exact ⟨rest, results⟩
  | nil =>
      cases closed : st.scanner.closed with
      | true =>
          rw [peek_closed closed results] at peeked
          cases peeked
          exact ⟨rfl, fun _ _ => ⟨closed, results⟩, nofun⟩
      | false =>
          rw [peek_open closed results] at peeked
          obtain ⟨answer, fetched, kept⟩ := (bind_ok_iff _ _ _).mp peeked
          rcases answer with _ | ⟨next, err | found⟩
          · cases kept
          · obtain ⟨results', rpc, ended, _⟩ := fetch_keeps fetched
            cases kept
            exact ⟨rpc, fun _ _ => ⟨ended err rfl, results'.trans results⟩,
              nofun⟩
          · obtain ⟨_, rpc, _, nonempty⟩ := fetch_keeps fetched
            obtain ⟨first, front, last⟩ := (bind_ok_iff _ _ _).mp kept
            cases last
            refine ⟨rpc, nofun, fun item taken => ?_⟩
            cases taken
            cases found with
            | nil => exact absurd rfl (nonempty [] rfl)
            | cons result rest =>
                cases front
                exact ⟨rest, rfl⟩

end Kept

/-! The results that a scanner comes by, one after the other. -/

section Feeds

variable {σ ε : Type} (client : RPCClient σ ε)

inductive Feeds : ScanState σ → List (Option PbResult) → ScanState σ → Prop
  | eof (fuel : Nat) {st final : ScanState σ}
      (peeked : peek client fuel st = .ok (some (final, .error .eof))) : Feeds st [] final
  | cons (fuel : Nat) {st st' final : ScanState σ} {result : Option PbResult}
      {later : List (Option PbResult)}
      (peeked : peek client fuel st = .ok (some (st', .ok result)))
      (rest : Feeds (shiftState st') later final) : Feeds st (result :: later) final

theorem Feeds.buffered {st final : ScanState σ} {later : List (Option PbResult)}
    (feeds : Feeds client (setResults st []) later final) (results : List (Option PbResult)) :
    Feeds client (setResults st results) (results ++ later) final := by
  induction results with
  | nil => exact feeds
  | cons result results ih =>
      have peeked : peek client 0 (setResults st (result :: results)) =
          .ok (some (setResults st (result :: results), .ok result)) := rfl
      exact .cons 0 peeked ih

theorem Feeds.response {st st' final : ScanState σ} {results later : List (Option PbResult)}
    (empty : st.scanner.results = []) (waiting : st.scanner.closed = false)
    (step : fetchStep client st = .ok (st', if 0 < results.length then some (.ok results)
      else if st'.scanner.closed then some (.error .eof) else none))
    (feeds : Feeds client st' later final) : Feeds client st (results ++ later) final := by
  have empty' : st'.scanner.results = [] := (fetchStep_keeps step).1.trans empty
  have same : setResults st' [] = st' := by
    obtain ⟨⟨rpc, id, row, items, closed⟩, server, sent⟩ := st'
    cases empty'
    rfl
  have peeks (fuel : Nat) : peek client fuel st = fetch client fuel st >>= keepFetched :=
    peek_open waiting empty fuel
  cases results with
  | cons result results =>
      have fetched : fetch client 1 st = .ok (some (st', .ok (result :: results))) := by
        rw [fetch, step]
        rfl
      have peeked : peek client 1 st =
          .ok (some (setResults st' (result :: results), .ok result)) := by
        rw [peeks, fetched]
        rfl
      rw [← same] at feeds
      exact .cons 1 peeked (feeds.buffered client results)
  | nil =>
      rw [List.nil_append]
      cases closed : st'.scanner.closed with
      | true =>
          have fetched : fetch client 1 st = .ok (some (st', .error .eof)) := by
            rw [fetch, step, closed]
            rfl
          have peeked : peek client 1 st = .ok (some (st', .error .eof)) := by
            rw [peeks, fetched]
            rfl
          cases feeds with
          | eof _ last =>
              rw [peek_closed closed empty'] at last
              cases last
              exact .eof 1 peeked
          | cons _ last _ =>
              rw [peek_closed closed empty'] at last
              cases last
      | false =>
          have skips (fuel : Nat) : peek client (fuel + 1) st = peek client fuel st' := by
            rw [peeks, peek_open closed empty', fetch, step, closed]
            rfl
          cases feeds with
          | eof fuel peeked => exact .eof (fuel + 1) ((skips fuel).trans peeked)
          | cons fuel peeked rest => exact .cons (fuel + 1) ((skips fuel).trans peeked) rest

end Feeds

section Drains

variable {σ ε : Type} (client : RPCClient σ ε)

def Scan.HandsOut (rpc : Scan) (result : Option PbResult) : Prop :=
  rpc.allowPartialResults = true ∨ getPartial result = false

theorem next_eof {fuel : Nat} {st final : ScanState σ}
    (peeked : peek client fuel st = .ok (some (final, .error .eof))) (runs : 0 < fuel) :
    next client fuel none st = .ok (some (final, none, some .eof)) := by
  unfold next
  cases st.scanner.rpc.allowPartialResults with
  | true =>
      simp only [↓reduceIte, peeked, ok_bind]
      rfl
  | false =>
      obtain ⟨rounds, rfl⟩ := Nat.exists_eq_succ_of_ne_zero runs.ne'
      simp only [Bool.false_eq_true, ↓reduceIte, nextRow, peeked, ok_bind]
      rfl

theorem next_result {fuel : Nat} {st st' : ScanState σ} {result : Option PbResult}
    (hands : st.scanner.rpc.HandsOut result)
    (peeked : peek client fuel st = .ok (some (st', .ok result))) (runs : 0 < fuel) :
    next client fuel none st = .ok (some (shiftState st', toLocalResult result, none)) := by
  unfold next
  cases allows : st.scanner.rpc.allowPartialResults with
  | true =>
      simp only [↓reduceIte, peeked, ok_bind]
      rfl
  | false =>
      have whole : getPartial result = false := hands.resolve_left (by simp [allows])
      obtain ⟨rounds, rfl⟩ := Nat.exists_eq_succ_of_ne_zero runs.ne'
      simp only [Bool.false_eq_true, ↓reduceIte, nextRow, peeked, ok_bind, coalesce, pure_bind,
        whole, Bool.not_false]
      rfl

def Returns (st : ScanState σ) (results : List (Option LocalResult)) (final : ScanState σ) : Prop :=
  ∃ enough, ∀ fuel, enough ≤ fuel → ∃ calls,
    drain client fuel calls st = .ok (some (final, results, .eof))

theorem Returns.unique {st final final' : ScanState σ}
    {results results' : List (Option LocalResult)} (first : Returns client st results final)
    (second : Returns client st results' final') :
    results = results' := by
  obtain ⟨enough, ran⟩ := first
  obtain ⟨enough', ran'⟩ := second
  obtain ⟨calls, done⟩ := ran (max enough enough') (Nat.le_max_left _ _)
  obtain ⟨calls', done'⟩ := ran' (max enough enough') (Nat.le_max_right _ _)
  have one := (drain_prolongs client le_rfl (Nat.le_max_left calls calls') st).returned done
  have other := (drain_prolongs client le_rfl (Nat.le_max_right calls calls') st).returned done'
  have same := one.symm.trans other
  cases same
  rfl

inductive Drains : ScanState σ → List (Option PbResult) → ScanState σ → Prop
  | eof (fuel : Nat) {st final : ScanState σ}
      (peeked : peek client fuel st = .ok (some (final, .error .eof))) : Drains st [] final
  | cons (fuel : Nat) {st st' final : ScanState σ} {result : Option PbResult}
      {later : List (Option PbResult)} (hands : st.scanner.rpc.HandsOut result)
      (peeked : peek client fuel st = .ok (some (st', .ok result)))
      (rest : Drains (shiftState st') later final) : Drains st (result :: later) final

theorem Drains.returns {st final : ScanState σ} {results : List (Option PbResult)}
    (drains : Drains client st results final) :
    Returns client st (results.map toLocalResult) final := by
  induction drains with
  | @eof fuel st final peeked =>
      refine ⟨fuel + 1, fun more enough => ⟨1, ?_⟩⟩
      have peeks := (peek_prolongs client (show fuel ≤ more by omega) st).returned peeked
      have last := next_eof client peeks (by omega)
      simp only [drain, last, ok_bind]
      rfl
  | @cons fuel st st' final result later hands peeked _ ih =>
      obtain ⟨tail, ran⟩ := ih
      refine ⟨max (fuel + 1) tail, fun more enough => ?_⟩
      obtain ⟨calls, rest⟩ := ran more (by omega)
      refine ⟨calls + 1, ?_⟩
      have first := next_result client hands
        ((peek_prolongs client (show fuel ≤ more by omega) st).returned peeked) (by omega)
      simp only [drain, first, ok_bind, rest]
      rfl

theorem drains_iff {st final : ScanState σ} {results : List (Option PbResult)} :
    Drains client st results final ↔
      Feeds client st results final ∧ ∀ result ∈ results, st.scanner.rpc.HandsOut result := by
  constructor
  · intro drains
    induction drains with
    | eof fuel peeked => exact ⟨.eof fuel peeked, fun _ member => nomatch member⟩
    | cons fuel hands peeked _ ih =>
        have rpc := (peek_keeps peeked).1
        refine ⟨.cons fuel peeked ih.1, fun result member => ?_⟩
        rcases List.mem_cons.mp member with rfl | member
        · exact hands
        · exact rpc ▸ ih.2 result member
  · rintro ⟨feeds, hands⟩
    induction feeds with
    | eof fuel peeked => exact .eof fuel peeked
    | cons fuel peeked _ ih =>
        have rpc := (peek_keeps peeked).1
        refine .cons fuel (hands _ List.mem_cons_self) peeked (ih fun result member => ?_)
        exact rpc.symm ▸ hands result (List.mem_cons_of_mem _ member)

theorem Drains.response {st st' final : ScanState σ} {results later : List (Option PbResult)}
    (empty : st.scanner.results = []) (waiting : st.scanner.closed = false)
    (hands : ∀ result ∈ results, st.scanner.rpc.HandsOut result)
    (step : fetchStep client st = .ok (st', if 0 < results.length then some (.ok results)
      else if st'.scanner.closed then some (.error .eof) else none))
    (drains : Drains client st' later final) : Drains client st (results ++ later) final := by
  have rpc := (fetchStep_keeps step).2.1
  obtain ⟨feeds, hands'⟩ := (drains_iff client).mp drains
  refine (drains_iff client).mpr ⟨feeds.response client empty waiting step, fun result member => ?_⟩
  rcases List.mem_append.mp member with member | member
  · exact hands result member
  · exact rpc ▸ hands' result member

end Drains

end GoHBase
