import GoHBase.ScannerReassembly

/-! What calls of `Next` return after one of them has returned an error. -/

namespace GoHBase

open ByteString Runtime Buffer

section Latch

variable {σ ε : Type} (client : RPCClient σ ε)

def runNexts (fuel : Nat) : List (Option ε) → ScanState σ →
    Go (Option (ScanState σ × List (Option LocalResult × Option (ScanError ε))))
  | [], st => pure (some (st, []))
  | cancelled :: calls, st => do
      match ← next client fuel cancelled st with
      | none => pure none
      | some (st, outcome) => do
          match ← runNexts fuel calls st with
          | none => pure none
          | some (st, later) => pure (some (st, outcome :: later))

def Lasting (calls : List (Option ε)) : Prop :=
  calls.Pairwise fun earlier later => earlier ≠ none → later = earlier

def Ended (st : ScanState σ) : Prop := st.scanner.closed = true ∧ st.scanner.results = []

variable {client}

theorem nextRow_failed {fuel rounds : Nat} {row : Option PbResult} {st st' : ScanState σ}
    {result : Option LocalResult} {err : ScanError ε}
    (returned : nextRow client fuel rounds row st = .ok (some (st', result, some err))) :
    Ended st' := by
  induction rounds generalizing row st with
  | zero => cases returned
  | succ rounds ih =>
      obtain ⟨peeked, ran, rest⟩ := (bind_ok_iff _ _ _).mp returned
      match peeked, ran, rest with
      | some (next, .error .eof), ran, rest =>
          cases row with
          | none =>
              cases rest
              exact (peek_keeps ran).2.1 .eof rfl
          | some row => cases rest
      | some (next, .error (.failed other)), ran, rest =>
          cases rest
          exact (peek_keeps ran).2.1 (.failed other) rfl
      | some (next, .ok item), ran, rest =>
          obtain ⟨⟨joined, done⟩, _, last⟩ := (bind_ok_iff _ _ _).mp rest
          dsimp only at last
          split at last
          · cases last
          · exact ih last

theorem next_failed {fuel : Nat} {cancelled : Option ε} {st st' : ScanState σ}
    {result : Option LocalResult} {err : ScanError ε}
    (returned : next client fuel cancelled st = .ok (some (st', result, some err))) :
    cancelled ≠ none ∨ Ended st' := by
  cases cancelled with
  | some err => exact .inl (Option.some_ne_none err)
  | none =>
      right
      unfold next at returned
      cases allows : st.scanner.rpc.allowPartialResults with
      | true =>
          simp only [allows, ↓reduceIte] at returned
          obtain ⟨peeked, ran, rest⟩ := (bind_ok_iff _ _ _).mp returned
          rcases peeked with _ | ⟨next, other | item⟩
          · cases rest
          · cases rest
            exact (peek_keeps ran).2.1 err rfl
          · cases rest
      | false =>
          simp only [allows, Bool.false_eq_true, ↓reduceIte] at returned
          exact nextRow_failed returned

def overAnswer (cancelled : Option ε) : Option LocalResult × Option (ScanError ε) :=
  match cancelled with
  | some err => (none, some (.failed err))
  | none => (none, some .eof)

theorem overAnswer_eof (cancelled : Option ε) :
    overAnswer cancelled = (none, some .eof) ↔ cancelled = none := by
  cases cancelled with
  | none => simp [overAnswer]
  | some err => simp [overAnswer]

theorem next_over (client : RPCClient σ ε) {fuel : Nat} (runs : 0 < fuel) {cancelled : Option ε}
    {st : ScanState σ} (ended : cancelled = none → Ended st) :
    ∃ st', next client fuel cancelled st = .ok (some (st', overAnswer cancelled)) ∧
      (Ended st → Ended st') := by
  cases cancelled with
  | some err =>
      refine ⟨{ st with
        scanner := st.scanner.close.1
        sent := st.sent ++ st.scanner.close.2 }, rfl, fun before => ?_⟩
      have same : st.scanner.close = (st.scanner, []) := if_pos before.1
      rw [Ended, same]
      exact before
  | none =>
      obtain ⟨closed, empty⟩ := ended rfl
      exact ⟨st, next_eof client (peek_closed closed empty fuel) runs, id⟩

theorem runNexts_over (client : RPCClient σ ε) {fuel : Nat} (runs : 0 < fuel)
    {later : List (Option ε)} {st : ScanState σ}
    (ended : Ended st ∨ ∀ cancelled ∈ later, cancelled ≠ none) :
    ∃ final, runNexts client fuel later st = .ok (some (final, later.map overAnswer)) ∧
      (Ended st → Ended final) := by
  induction later generalizing st with
  | nil => exact ⟨st, rfl, id⟩
  | cons cancelled later ih =>
      have first : cancelled = none → Ended st := fun live =>
        ended.resolve_right fun done => done cancelled List.mem_cons_self live
      obtain ⟨st', called, kept⟩ := next_over client runs first
      obtain ⟨final, rest, kept'⟩ := ih (ended.imp kept fun done other member =>
        done other (List.mem_cons_of_mem _ member))
      refine ⟨final, ?_, fun before => kept' (kept before)⟩
      simp only [runNexts, called, rest, ok_bind]
      rfl

theorem runNexts_failed {fuel : Nat} (runs : 0 < fuel) {calls later : List (Option ε)}
    {st st' : ScanState σ} {outcomes : List (Option LocalResult × Option (ScanError ε))}
    (lasting : Lasting (calls ++ later))
    (ran : runNexts client fuel calls st = .ok (some (st', outcomes)))
    (failed : ∃ outcome ∈ outcomes, outcome.2 ≠ none) :
    Ended st' ∨ ∀ cancelled ∈ later, cancelled ≠ none := by
  induction calls generalizing st outcomes with
  | nil =>
      cases ran
      obtain ⟨_, member, _⟩ := failed
      cases member
  | cons cancelled calls ih =>
      obtain ⟨returned, called, rest⟩ := (bind_ok_iff _ _ _).mp ran
      rcases returned with _ | ⟨next, result, answer⟩
      · cases rest
      obtain ⟨answers, others, last⟩ := (bind_ok_iff _ _ _).mp rest
      rcases answers with _ | ⟨final, answers⟩
      · cases last
      cases last
      obtain ⟨mine, tail⟩ := List.pairwise_cons.mp lasting
      cases answer with
      | none =>
          refine ih tail others ?_
          obtain ⟨outcome, member, err⟩ := failed
          rcases List.mem_cons.mp member with rfl | member
          · exact absurd rfl err
          · exact ⟨outcome, member, err⟩
      | some err =>
          rcases next_failed called with done | ended
          · -- The context stays done, which is all that is known: results may be buffered.
            right
            intro other member
            rw [mine other (List.mem_append_right _ member) done]
            exact done
          · left
            have ended' : Ended next ∨ ∀ cancelled ∈ calls, cancelled ≠ none := .inl ended
            obtain ⟨final', same, kept⟩ := runNexts_over client runs ended'
            rw [others] at same
            cases same
            exact kept ended

/-- After a call that returned an error every call returns, and what they return is nil and EOF
exactly when the context is not done at any of them. -/
theorem error_latched_iff (client : RPCClient σ ε) {fuel : Nat} (runs : 0 < fuel)
    {calls later : List (Option ε)} {st st' : ScanState σ}
    {outcomes : List (Option LocalResult × Option (ScanError ε))}
    (lasting : Lasting (calls ++ later))
    (ran : runNexts client fuel calls st = .ok (some (st', outcomes)))
    (failed : ∃ outcome ∈ outcomes, outcome.2 ≠ none) :
    ∃ final answers, runNexts client fuel later st' = .ok (some (final, answers)) ∧
      answers.length = later.length ∧
      ((∀ answer ∈ answers, answer = (none, some .eof)) ↔
        ∀ cancelled ∈ later, cancelled = none) := by
  obtain ⟨final, returned, _⟩ := runNexts_over client runs (runNexts_failed runs lasting ran failed)
  refine ⟨final, later.map overAnswer, returned, List.length_map _, ?_⟩
  rw [List.forall_mem_map]
  exact forall₂_congr fun cancelled _ => overAnswer_eof cancelled

end Latch

def brokenClient (piece : PbResult) : RPCClient Bool String where
  sendRPC
    | true, _ => (false, .ok (⟨[], some 1, none, [some piece], [], some true⟩, wholeTable))
    | false, _ => (false, .error (.failed "connection lost"))

def brokenScan : ScanState Bool := ⟨newScanner (newScanRange [] []), true, []⟩

def brokenEnd : ScanState Bool :=
  ⟨⟨newScanRange [] [], noScannerID, [], [], true⟩, false,
    [newScanRange [] [], { newScanRange [] [] with scannerID := 1 },
      { newScanRange [] [] with scannerID := 1, closeScanner := true, numberOfRows := 0 }]⟩

theorem error_latched_iff_broken :
    runNexts (brokenClient (pieceOf 97 [1] false true)) 2 [none] brokenScan =
      .ok (some (brokenEnd, [(toLocalResult (some (pieceOf 97 [1] false true)),
        some (.failed "connection lost"))])) ∧
    ∃ final answers,
      runNexts (brokenClient (pieceOf 97 [1] false true)) 2 [none, none] brokenEnd =
        .ok (some (final, answers)) ∧
      ∀ answer ∈ answers, answer = (none, some .eof) := by
  have ran : runNexts (brokenClient (pieceOf 97 [1] false true)) 2 [none] brokenScan =
      .ok (some (brokenEnd, [(toLocalResult (some (pieceOf 97 [1] false true)),
        some (.failed "connection lost"))])) := rfl
  have lasting : Lasting ([none] ++ [none, none] : List (Option String)) := by
    simp [Lasting]
  obtain ⟨final, answers, returned, _, latched⟩ :=
    error_latched_iff (brokenClient (pieceOf 97 [1] false true)) (by decide) lasting ran
      ⟨_, List.mem_cons_self, by simp⟩
  exact ⟨ran, final, answers, returned, latched.mpr (by simp)⟩

/-- The context is done: every call returns its error, whether the scan was over or not. -/
theorem cancelled_next_repeats :
    (∃ final, runNexts (replayClient wholeTable) 1
      [some "context canceled", some "context canceled"] (replayScan []) =
      .ok (some (final, [(none, some (.failed "context canceled")),
        (none, some (.failed "context canceled"))]))) ∧
    ∃ final, runNexts (replayClient wholeTable) 1
      [none, some "context canceled"] (replayScan []) =
      .ok (some (final, [(none, some .eof), (none, some (.failed "context canceled"))])) :=
  ⟨⟨_, rfl⟩, ⟨_, rfl⟩⟩

end GoHBase
