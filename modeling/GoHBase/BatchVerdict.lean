import GoHBase.BatchRejection

/-! When `allOK` says exactly whether an entry of what `SendBatch` returns has an error. -/

namespace GoHBase

open ByteString RangeLoop Grouping

section Waiting

variable {C K M E : Type} {batch : List C} {s s' : Collecting C K M E}

def Blamed (batch : List C) (s : Collecting C K M E) : Prop :=
  ∃ (i : Nat) (rpc : C) (entry : BatchResult M E), batch[i]? = some rpc ∧ rpc ∉ s.pending ∧
    s.res[i]? = some entry ∧ entry.error ≠ none

def Sweeps (s : Collecting C K M E) : Prop :=
  s.sweeping = true ∧ ∃ rc rpc rpcs groups, s.groups = (rc, rpc :: rpcs) :: groups ∧
    s.channel rpc = none

/-- A batch that has failed has an entry with an error, or gets one at the next select. -/
def Explained (batch : List C) (s : Collecting C K M E) : Prop :=
  s.fail = true ∨ s.ok = false → Blamed batch s ∨ Sweeps s

/-- The branch of the context is taken for a call whose result is not there, and none is delivered
for a call while the second loop is at it. -/
def Unraced (s s' : Collecting C K M E) : Prop :=
  ∀ rc rpc rpcs groups, s.groups = (rc, rpc :: rpcs) :: groups →
    (s.sweeping = false → s'.sweeping = true → s.channel rpc = none) ∧
    (s.sweeping = true → s'.groups = s.groups → s'.channel rpc = s.channel rpc)

variable [DecidableEq C] {rpcToRes : AList fun _ : C => Nat}

theorem Environment.explained (step : Environment s s') (unraced : Unraced s s')
    (explained : Explained batch s) : Explained batch s' := by
  cases step with
  | cancel err alive => exact explained
  | deliver rpc res first =>
      intro failed
      refine (explained failed).imp id ?_
      rintro ⟨sweeping, rc, other, rpcs, groups, current, empty⟩
      refine ⟨sweeping, rc, other, rpcs, groups, current, ?_⟩
      rw [(unraced rc other rpcs groups current).2 sweeping rfl]
      exact empty

theorem Blamed.advance (indexed : Indexed rpcToRes batch) (pending : Pending batch s)
    {rc : K} {rpc : C} {rpcs : List C} {groups : List (K × List C)}
    (current : s.groups = (rc, rpc :: rpcs) :: groups) (groups' : s'.groups = (rc, rpcs) :: groups)
    (others : ∀ i, resultIndex rpcToRes rpc ≠ i → s'.res[i]? = s.res[i]?)
    (blamed : Blamed batch s) : Blamed batch s' := by
  obtain ⟨inside, _, _, split⟩ := pending.advance current
  obtain ⟨i, other, entry, listed, past, stored, error⟩ := blamed
  have differs : other ≠ rpc := fun same => past ((split other).mpr (.inl same))
  refine ⟨i, other, entry, listed, fun waiting => past ?_, ?_, error⟩
  · rw [Collecting.pending, groups'] at waiting
    exact (split other).mpr (.inr waiting)
  · rw [others i (indexed.elsewhere inside listed differs)]
    exact stored

theorem Blamed.stored (indexed : Indexed rpcToRes batch) (aligned : Aligned batch s)
    {rc : K} {rpc : C} {rpcs : List C} {groups : List (K × List C)}
    (current : s.groups = (rc, rpc :: rpcs) :: groups) (groups' : s'.groups = (rc, rpcs) :: groups)
    (entry : ∀ i old, resultIndex rpcToRes rpc = i → s.res[i]? = some old →
      ∃ new, s'.res[i]? = some new ∧ new.error ≠ none) : Blamed batch s' := by
  obtain ⟨inside, absent, _, _⟩ := aligned.pending.advance current
  obtain ⟨i, listed⟩ := List.mem_iff_getElem?.mp inside
  obtain ⟨old, stored, _⟩ := aligned.entries.entry i rpc listed
  obtain ⟨new, stored', error⟩ := entry i old (indexed.position listed) stored
  refine ⟨i, rpc, new, listed, ?_, stored', error⟩
  rw [Collecting.pending, groups']
  exact absent

theorem Collect.explained (indexed : Indexed rpcToRes batch) (step : Collect rpcToRes s s')
    (unraced : Unraced s s') (aligned : Aligned batch s) (explained : Explained batch s) :
    Explained batch s' := by
  cases step with
  | @cancelled rc rpc rpcs groups current looping done =>
      intro _
      exact .inr ⟨rfl, rc, rpc, rpcs, groups, current,
        (unraced rc rpc rpcs groups current).1 looping rfl⟩
  | @default rc rpc rpcs groups current sweeping empty =>
      intro _
      obtain ⟨err, cancelled⟩ := Option.ne_none_iff_exists'.mp
        (aligned.verdict.swept sweeping).1
      refine .inl (Blamed.stored indexed aligned current rfl fun i old here stored => ?_)
      refine ⟨{ old with error := s.ctxErr.map .foreign }, ?_, ?_⟩
      · simp only [List.getElem?_modify, here, ↓reduceIte, stored]
        rfl
      · rw [cancelled]
        exact Option.some_ne_none _
  | @completed rc groups current =>
      intro failed
      have before : s.fail = true ∨ s.ok = false := by
        rcases failed with failed | impossible
        · rcases Bool.or_eq_true_iff.mp failed with old | new
          · exact .inl old
          · exact .inr (by simpa using new)
        · cases impossible
      rcases explained before with ⟨i, rpc, entry, listed, past, stored⟩ |
        ⟨_, _, _, _, _, other, _⟩
      · rw [pending_nil current] at past
        exact .inl ⟨i, rpc, entry, listed, past, stored⟩
      · rw [current] at other
        cases other
  | @read rc rpc rpcs groups res current ready =>
      intro failed
      left
      by_cases before : s.fail = true ∨ s.ok = false
      · rcases explained before with blamed | ⟨_, _, other, _, _, current', empty⟩
        · refine blamed.advance indexed aligned.pending current rfl fun i elsewhere => ?_
          exact List.getElem?_set_ne elsewhere
        · rw [current] at current'
          cases current'
          rw [ready] at empty
          cases empty
      · have error : res.error ≠ none := by
          intro absent
          rcases failed with failed | failed
          · exact before (.inl failed)
          · simp only [absent, Option.isNone_none, Bool.and_true, ite_self] at failed
            exact before (.inr failed)
        refine Blamed.stored indexed aligned current rfl fun i old here stored => ⟨res, ?_, error⟩
        rw [← here, List.getElem?_set_self]
        rw [here]
        exact (List.getElem?_eq_some_iff.mp stored).1

end Waiting

section SendBatch

variable {C K M E : Type} [DecidableEq C] [DecidableEq K] (calls : BatchCalls C)
  (located : Nat → Except E K) (order : Order (Σ _ : K, List C)) (batch : List C)

def WaitsUnraced (s : Collecting C K M E) : Prop :=
  let checked := checkBatch calls batch
  let found := findClients located 0 batch ⟨checked.res, ∅, true⟩
  batch ≠ [] ∧ checked.allOK = true ∧ found.ok = true ∧
    Relation.ReflTransGen (fun s s' => (Environment s s' ∨ Collect checked.rpcToRes s s') ∧
      Unraced s s') (queued found order) s

inductive SendBatchUnraced : List (BatchResult M E) → Bool → Prop
  | early {res : List (BatchResult M E)} {allOK : Bool} {taken : List (C × BatchResult M E)}
      {ctxErr : Option E} (returned : SendBatch calls located order batch res allOK taken ctxErr)
      (unwaited : ∀ s : Collecting C K M E, ¬Waits calls located order batch s) :
      SendBatchUnraced res allOK
  | collected {s : Collecting C K M E} (waits : WaitsUnraced calls located order batch s)
      (finished : s.groups = []) : SendBatchUnraced s.res (!s.fail)

variable {calls located order batch}

theorem WaitsUnraced.waits {s : Collecting C K M E}
    (waits : WaitsUnraced calls located order batch s) : Waits calls located order batch s := by
  obtain ⟨nonempty, passed, ok, run⟩ := waits
  refine ⟨nonempty, passed, ok, ?_⟩
  exact Relation.ReflTransGen.mono (fun _ _ (step : _ ∧ Unraced _ _) => step.1) _ _ run

theorem WaitsUnraced.explained {s : Collecting C K M E}
    (waits : WaitsUnraced calls located order batch s) : Explained batch s := by
  obtain ⟨nonempty, passed, ok, run⟩ := waits
  have acceptable := (checkBatch_exact M E calls batch).2.mp passed
  have indexed : Indexed (checkBatch calls batch : Checked C M E).rpcToRes batch :=
    acceptable.checked.2.2
  induction run with
  | refl =>
      rintro (failed | failed)
      · cases failed
      · cases failed
  | tail before step ih =>
      rcases step with ⟨outside | own, unraced⟩
      · exact outside.explained unraced ih
      · have aligned := Waits.aligned acceptable (WaitsUnraced.waits ⟨nonempty, passed, ok, before⟩)
        exact own.explained indexed unraced aligned ih

theorem WaitsUnraced.verdict {s : Collecting C K M E}
    (waits : WaitsUnraced calls located order batch s) (finished : s.groups = []) :
    s.fail = false ↔ ∀ entry ∈ s.res, entry.error = none := by
  have aligned := waits.waits.aligned ((checkBatch_exact M E calls batch).2.mp waits.2.1)
  refine ⟨aligned.errors_nil finished, fun good => Bool.eq_false_iff.mpr fun failed => ?_⟩
  rcases waits.explained (.inl failed) with ⟨i, rpc, entry, _, _, stored, error⟩ |
    ⟨_, _, _, _, _, current, _⟩
  · exact error (good entry (List.mem_of_getElem? stored))
  · rw [finished] at current
    cases current

/-- In every run whose steps are unraced, `allOK` is true exactly if no entry has an error. -/
theorem verdict_exact (calls : BatchCalls C) (located : Nat → Except E K)
    (order : Order (Σ _ : K, List C)) (batch : List C) {res : List (BatchResult M E)} {allOK : Bool}
    (returned : SendBatchUnraced calls located order batch res allOK) :
    allOK = true ↔ ∀ entry ∈ res, entry.error = none := by
  cases returned with
  | @collected s waits finished =>
      rw [Bool.not_eq_true', waits.verdict finished]
  | early returned unwaited =>
      cases returned with
      | empty none => simp
      | collected waits _ => exact absurd waits (unwaited _)
      | rejected nonempty checks bad =>
          subst checks
          have positive := List.length_pos_of_ne_nil nonempty
          rw [← checked_length M E calls batch] at positive
          obtain ⟨entry, member⟩ := List.exists_mem_of_length_pos positive
          have error := checked_errors calls batch entry member
          exact iff_of_false Bool.false_ne_true fun good => error (good entry member)
      | unresolved nonempty checks good lookups bad =>
          subst checks
          subst lookups
          have positive := List.length_pos_of_ne_nil nonempty
          rw [← checked_length M E calls batch, ← found_length located batch
            (⟨(checkBatch calls batch : Checked C M E).res, ∅, true⟩ : Found C K M E)] at positive
          obtain ⟨entry, member⟩ := List.exists_mem_of_length_pos positive
          have error := found_errors located batch _ (checked_errors calls batch) entry member
          exact iff_of_false Bool.false_ne_true fun good => error (good entry member)

end SendBatch

theorem verdict_exact_cancelled :
    ∃ (res : List (BatchResult Nat String)) (allOK : Bool),
      SendBatchUnraced numberedCalls (fun _ => .ok 0) (.stored (Σ _ : Nat, List Nat)) [10] res
        allOK ∧ allOK = false ∧ (allOK = true ↔ ∀ entry ∈ res, entry.error = none) := by
  have run : Relation.ReflTransGen (fun s s' => (Environment s s' ∨
      Collect (checkBatch numberedCalls [10] : Checked Nat Nat String).rpcToRes s s') ∧
        Unraced s s')
      (queued (findClients (fun _ => .ok 0) 0 [10]
        ⟨(checkBatch numberedCalls [10] : Checked Nat Nat String).res, ∅, true⟩)
        (.stored (Σ _ : Nat, List Nat))) _ := .refl
  replace run := run.tail ⟨.inl (.cancel "context canceled" rfl), fun _ _ _ _ _ => ⟨nofun, nofun⟩⟩
  replace run := run.tail ⟨.inr (.cancelled rfl rfl nofun),
    fun _ _ _ _ _ => ⟨fun _ _ => rfl, nofun⟩⟩
  replace run := run.tail ⟨.inr (.default rfl rfl rfl), fun _ _ _ _ _ => ⟨nofun, fun _ _ => rfl⟩⟩
  replace run := run.tail ⟨.inr (.completed rfl), fun _ _ _ _ _ => ⟨nofun, fun _ _ => rfl⟩⟩
  have returned : SendBatchUnraced numberedCalls (fun _ => .ok 0) (.stored (Σ _ : Nat, List Nat))
      [10] _ _ := .collected ⟨nofun, rfl, rfl, run⟩ rfl
  exact ⟨_, _, returned, rfl, verdict_exact numberedCalls _ _ [10] returned⟩

/-- The result comes in together with the cancellation: it is read by the second loop. -/
theorem raced_verdict_wrong :
    ∃ (res : List (BatchResult Nat String)) (taken : List (Nat × BatchResult Nat String))
      (ctxErr : Option String),
      SendBatch numberedCalls (fun _ => .ok 0) (.stored (Σ _ : Nat, List Nat)) [10] res false taken
        ctxErr ∧ res = [⟨some 7, none⟩] ∧ ∀ entry ∈ res, entry.error = none := by
  have run : Relation.ReflTransGen (fun s s' => Environment s s' ∨
      Collect (checkBatch numberedCalls [10] : Checked Nat Nat String).rpcToRes s s')
      (queued (findClients (fun _ => .ok 0) 0 [10]
        ⟨(checkBatch numberedCalls [10] : Checked Nat Nat String).res, ∅, true⟩)
        (.stored (Σ _ : Nat, List Nat))) _ := .refl
  replace run := run.tail (.inl (.deliver 10 ⟨some 7, none⟩ List.not_mem_nil))
  replace run := run.tail (.inl (.cancel "context canceled" rfl))
  replace run := run.tail (.inr (.cancelled rfl rfl nofun))
  replace run := run.tail (.inr (.read rfl rfl))
  replace run := run.tail (.inr (.completed rfl))
  have returned : SendBatch numberedCalls (fun _ => .ok 0) (.stored (Σ _ : Nat, List Nat)) [10]
      _ _ _ _ := .collected ⟨nofun, rfl, rfl, run⟩ rfl
  refine ⟨_, _, _, returned, rfl, fun entry member => ?_⟩
  rw [List.mem_singleton.mp member]

end GoHBase
