import GoHBase.BatchResults

/-! What `SendBatch` reports about a batch that it does not send, entry by entry. -/

namespace GoHBase

open ByteString RangeLoop Grouping

section Checks

variable {C M E : Type} [DecidableEq C] (calls : BatchCalls C)

def callVerdict (table : Bytes) (earlier : List C) (rpc : C) : BatchError E :=
  if rpc ∈ earlier then .duplicate (earlier.idxOf rpc)
  else if calls.table rpc ≠ table then .multipleTables table (calls.table rpc)
  else if calls.batchable rpc = false then .nonBatchable
  else .notExecuted

theorem callVerdict_notExecuted {table : Bytes} {earlier : List C} {rpc : C} :
    (callVerdict calls table earlier rpc : BatchError E) = .notExecuted ↔
      rpc ∉ earlier ∧ calls.table rpc = table ∧ calls.batchable rpc = true := by
  unfold callVerdict
  by_cases again : rpc ∈ earlier
  · simp [again]
  by_cases other : calls.table rpc ≠ table
  · simp [again, other]
  by_cases single : calls.batchable rpc = false
  · simp [again, not_not.mp other, single]
  · simp [again, not_not.mp other, single]

def IndexedBy (rpcToRes : AList fun _ : C => Nat) (seen : List C) : Prop :=
  ∀ rpc, rpcToRes.lookup rpc = if rpc ∈ seen then some (seen.idxOf rpc) else none

theorem IndexedBy.insert {rpcToRes : AList fun _ : C => Nat} {seen : List C}
    (indexed : IndexedBy rpcToRes seen) {rpc : C} (fresh : rpc ∉ seen) :
    IndexedBy (rpcToRes.insert rpc seen.length) (seen ++ [rpc]) := by
  intro other
  by_cases same : other = rpc
  · subst same
    simp [AList.lookup_insert, List.idxOf_append_of_notMem fresh]
  · rw [AList.lookup_insert_ne same, indexed other]
    by_cases old : other ∈ seen
    · simp [old, List.idxOf_append_of_mem old]
    · simp [old, same]

theorem IndexedBy.again {rpcToRes : AList fun _ : C => Nat} {seen : List C}
    (indexed : IndexedBy rpcToRes seen) {rpc : C} (old : rpc ∈ seen) :
    IndexedBy rpcToRes (seen ++ [rpc]) := by
  intro other
  rw [indexed other]
  by_cases before : other ∈ seen
  · simp [before, List.idxOf_append_of_mem before]
  · have differs : other ≠ rpc := by
      rintro rfl
      exact before old
    simp [before, differs]

theorem Checked.add_exact (table : Bytes) (state : Checked C M E) (seen : List C) (rpc : C)
    (indexed : IndexedBy state.rpcToRes seen) :
    (state.add calls table seen.length rpc).res =
        state.res ++ [⟨none, some (callVerdict calls table seen rpc)⟩] ∧
      ((state.add calls table seen.length rpc).allOK = true ↔
        state.allOK = true ∧ (callVerdict calls table seen rpc : BatchError E) = .notExecuted) ∧
      IndexedBy (state.add calls table seen.length rpc).rpcToRes (seen ++ [rpc]) := by
  have found := indexed rpc
  unfold Checked.add callVerdict
  by_cases again : rpc ∈ seen
  · rw [if_pos again] at found
    simp only [found, again, ↓reduceIte, reduceCtorEq, Bool.false_eq_true, and_false, true_and]
    exact indexed.again again
  · rw [if_neg again] at found
    simp only [found, again, ↓reduceIte]
    by_cases other : calls.table rpc ≠ table
    · simp only [if_pos other, reduceCtorEq, Bool.false_eq_true, and_false, true_and]
      exact indexed.insert again
    by_cases single : calls.batchable rpc = false
    · simp only [if_neg other, if_pos single, reduceCtorEq, Bool.false_eq_true, and_false,
        true_and]
      exact indexed.insert again
    · simp only [if_neg other, if_neg single, and_true, true_and]
      exact indexed.insert again

theorem checkCalls_exact (table : Bytes) (state : Checked C M E) (seen rpcs : List C)
    (indexed : IndexedBy state.rpcToRes seen) :
    (checkCalls calls table seen.length rpcs state).res = state.res ++ rpcs.mapIdx (fun k rpc =>
        ⟨none, some (callVerdict calls table (seen ++ rpcs.take k) rpc)⟩) ∧
      ((checkCalls calls table seen.length rpcs state).allOK = true ↔
        state.allOK = true ∧ ∀ k rpc, rpcs[k]? = some rpc →
          (callVerdict calls table (seen ++ rpcs.take k) rpc : BatchError E) = .notExecuted) := by
  induction rpcs generalizing seen state with
  | nil => simp [checkCalls]
  | cons rpc rpcs ih =>
      obtain ⟨res, allOK, more⟩ := state.add_exact calls table seen rpc indexed
      have later := ih (state.add calls table seen.length rpc) (seen ++ [rpc]) more
      simp only [List.length_append, List.length_singleton, List.append_assoc,
        List.singleton_append] at later
      rw [checkCalls, later.1, later.2, res, allOK]
      constructor
      · simp [List.mapIdx_cons]
      · rw [and_assoc]
        refine and_congr_right fun _ => ?_
        constructor
        · rintro ⟨first, rest⟩ k other found
          cases k with
          | zero =>
              obtain rfl : rpc = other := by simpa using found
              simpa using first
          | succ k => exact rest k other (by simpa using found)
        · intro all
          exact ⟨by simpa using all 0 rpc rfl, fun k other found => all (k + 1) other found⟩

def firstTable (batch : List C) : Bytes := batch.head?.elim [] calls.table

variable (M E) in
theorem checkBatch_exact (batch : List C) :
    (checkBatch calls batch : Checked C M E).res = batch.mapIdx (fun k rpc =>
        ⟨none, some (callVerdict calls (firstTable calls batch) (batch.take k) rpc)⟩) ∧
      ((checkBatch calls batch : Checked C M E).allOK = true ↔ Acceptable calls batch) := by
  obtain ⟨res, allOK⟩ := checkCalls_exact calls (firstTable calls batch)
    (⟨[], ∅, true⟩ : Checked C M E) [] batch (by
      intro rpc
      simp [AList.lookup_empty])
  refine ⟨res, ?_⟩
  constructor
  · intro passed
    have facts := (allOK.mp passed).2
    simp only [callVerdict_notExecuted, List.nil_append] at facts
    have listed {rpc : C} (member : rpc ∈ batch) :
        calls.table rpc = firstTable calls batch ∧ calls.batchable rpc = true := by
      obtain ⟨k, found⟩ := List.mem_iff_getElem?.mp member
      exact (facts k rpc found).2
    refine ⟨?_, ?_, fun rpc member => (listed member).2⟩
    · rw [List.nodup_iff_getElem?_ne_getElem?]
      intro i j less bound same
      have second := List.getElem?_eq_getElem bound
      apply (facts j _ second).1
      apply List.mem_of_getElem? (i := i)
      rw [List.getElem?_take_of_lt less, same, second]
    · intro rpc member other otherMember
      exact (listed member).1.trans (listed otherMember).1.symm
  · exact fun acceptable => acceptable.checked.2.1

variable (M E) in
theorem checked_entry {batch : List C} {k : Nat} {call : C} (there : batch[k]? = some call) :
    (checkBatch calls batch : Checked C M E).res[k]? = some ⟨none,
      some (callVerdict calls (firstTable calls batch) (batch.take k) call)⟩ := by
  rw [(checkBatch_exact M E calls batch).1, List.getElem?_mapIdx, there]
  rfl

variable (M E) in
theorem checked_length (batch : List C) :
    (checkBatch calls batch : Checked C M E).res.length = batch.length := by
  rw [(checkBatch_exact M E calls batch).1, List.length_mapIdx]

theorem checked_errors (batch : List C) :
    ∀ entry ∈ (checkBatch calls batch : Checked C M E).res, entry.error ≠ none := by
  intro entry member
  obtain ⟨k, stored⟩ := List.mem_iff_getElem?.mp member
  have bound := (List.getElem?_eq_some_iff.mp stored).1
  rw [checked_length] at bound
  rw [checked_entry M E calls (List.getElem?_eq_getElem bound)] at stored
  cases stored
  exact Option.some_ne_none _

end Checks

section Clients

variable {C K M E : Type} [DecidableEq K] (located : Nat → Except E K)

def afterLookup (k : Nat) (entry : BatchResult M E) : BatchResult M E :=
  match located k with
  | .error err => entry.setError (.foreign err)
  | .ok _ => entry

theorem Found.add_exact (state : Found C K M E) (i : Nat) (rpc : C) :
    (state.add i rpc (located i)).res = state.res.modify i (afterLookup located i) ∧
      ((state.add i rpc (located i)).ok = true ↔
        state.ok = true ∧ ∃ rc, located i = .ok rc) := by
  cases found : located i with
  | error err =>
      have changed : afterLookup (M := M) located i = .setError (.foreign err) := by
        funext entry
        rw [afterLookup, found]
      rw [Found.add, changed]
      simp
  | ok rc =>
      have unchanged : afterLookup (M := M) located i = id := by
        funext entry
        rw [afterLookup, found]
        rfl
      rw [Found.add, unchanged]
      simp

theorem findClients_exact (i : Nat) (rpcs : List C) (state : Found C K M E) :
    (∀ k, (findClients located i rpcs state).res[k]? =
        if i ≤ k ∧ k < i + rpcs.length then (state.res[k]?).map (afterLookup located k)
        else state.res[k]?) ∧
      ((findClients located i rpcs state).ok = true ↔
        state.ok = true ∧ ∀ k < rpcs.length, ∃ rc, located (i + k) = .ok rc) := by
  induction rpcs generalizing i state with
  | nil =>
      refine ⟨fun k => ?_, by simp [findClients]⟩
      rw [if_neg (by simp only [List.length_nil]; omega), findClients]
  | cons rpc rpcs ih =>
      obtain ⟨res, ok⟩ := state.add_exact located i rpc
      obtain ⟨entries, all⟩ := ih (i + 1) (state.add i rpc (located i))
      rw [findClients]
      constructor
      · intro k
        rw [entries k, res, List.getElem?_modify, List.length_cons]
        by_cases here : i = k
        · subst here
          rw [if_neg (by omega), if_pos (by omega)]
          simp
        · by_cases later : i + 1 ≤ k ∧ k < i + 1 + rpcs.length
          · rw [if_pos later, if_pos (by omega)]
            simp [here]
          · rw [if_neg later, if_neg (by omega)]
            simp [here]
      · rw [all, ok, and_assoc]
        refine and_congr_right fun _ => ?_
        constructor
        · rintro ⟨first, rest⟩ k bound
          cases k with
          | zero => exact first
          | succ k =>
              have found := rest k (by simpa using bound)
              rwa [Nat.add_assoc, Nat.add_comm 1 k] at found
        · intro every
          refine ⟨every 0 (by simp), fun k bound => ?_⟩
          have found := every (k + 1) (by simpa using bound)
          rwa [Nat.add_comm k 1, ← Nat.add_assoc] at found

theorem found_length (batch : List C) (state : Found C K M E) :
    (findClients located 0 batch state).res.length = state.res.length :=
  (findClients_res located 0 batch state).1

theorem found_errors (batch : List C) (state : Found C K M E)
    (errors : ∀ entry ∈ state.res, entry.error ≠ none) :
    ∀ entry ∈ (findClients located 0 batch state).res, entry.error ≠ none := by
  intro entry member
  obtain ⟨k, stored⟩ := List.mem_iff_getElem?.mp member
  rw [(findClients_exact located 0 batch state).1 k] at stored
  split at stored
  · obtain ⟨old, before, rfl⟩ := Option.map_eq_some_iff.mp stored
    unfold afterLookup
    split
    · exact Option.some_ne_none _
    · exact errors old (List.mem_of_getElem? before)
  · exact errors entry (List.mem_of_getElem? stored)

end Clients

section SendBatch

variable {C K M E : Type} [DecidableEq C] [DecidableEq K] (calls : BatchCalls C)
  (located : Nat → Except E K) (order : Order (Σ _ : K, List C)) (batch : List C)

/-- A call that occurs before, is on another table than the first, cannot be batched, or has no
region client. -/
def Faulty (i : Nat) (rpc : C) : Prop :=
  rpc ∈ batch.take i ∨ calls.table rpc ≠ firstTable calls batch ∨ calls.batchable rpc = false ∨
    ∃ err, located i = .error err

variable {calls located order batch}

omit [DecidableEq C] [DecidableEq K] in
theorem Faulty.lookup_failed {i : Nat} {rpc : C} (faulty : Faulty calls located batch i rpc)
    (found : batch[i]? = some rpc) (acceptable : Acceptable calls batch) :
    ∃ err, located i = .error err := by
  have member := List.mem_of_getElem? found
  rcases faulty with again | other | single | failed
  · obtain ⟨j, earlier⟩ := List.mem_iff_getElem?.mp again
    rw [List.getElem?_take] at earlier
    split at earlier
    · rename_i less
      have bound := (List.getElem?_eq_some_iff.mp found).1
      have differs := List.nodup_iff_getElem?_ne_getElem?.mp acceptable.distinct j i less bound
      exact absurd (earlier.trans found.symm) differs
    · cases earlier
  · cases batch with
    | nil => cases member
    | cons first rpcs =>
        exact absurd (acceptable.oneTable rpc member first List.mem_cons_self) other
  · rw [acceptable.batchable rpc member] at single
    cases single
  · exact failed

variable {res : List (BatchResult M E)} {allOK : Bool} {taken : List (C × BatchResult M E)}
  {ctxErr : Option E}

theorem SendBatch.of_rejected (nonempty : batch ≠ [])
    (bad : (checkBatch calls batch : Checked C M E).allOK = false)
    (returned : SendBatch calls located order batch res allOK taken ctxErr) :
    allOK = false ∧ res = (checkBatch calls batch : Checked C M E).res := by
  cases returned with
  | empty nothing => exact absurd nothing nonempty
  | rejected _ checks _ => exact ⟨rfl, by rw [checks]⟩
  | unresolved _ checks good _ _ =>
      rw [checks, good] at bad
      cases bad
  | collected waits _ =>
      rw [waits.2.1] at bad
      cases bad

theorem SendBatch.of_unresolved (nonempty : batch ≠ [])
    (good : (checkBatch calls batch : Checked C M E).allOK = true)
    (bad : (findClients located 0 batch
      (⟨(checkBatch calls batch : Checked C M E).res, ∅, true⟩ : Found C K M E)).ok = false)
    (returned : SendBatch calls located order batch res allOK taken ctxErr) :
    allOK = false ∧ res = (findClients located 0 batch
      (⟨(checkBatch calls batch : Checked C M E).res, ∅, true⟩ : Found C K M E)).res := by
  cases returned with
  | empty nothing => exact absurd nothing nonempty
  | rejected _ checks refused =>
      rw [checks, refused] at good
      cases good
  | unresolved _ checks _ lookups _ => exact ⟨rfl, by rw [checks, lookups]⟩
  | collected waits _ =>
      rw [waits.2.2.1] at bad
      cases bad

variable (calls located order batch)

/-- A batch with a fault in it is not sent: no call reaches a region client, and the entry of each
call says what is wrong with it, if anything. -/
theorem faulty_batch_unsent {i : Nat} {rpc : C} (found : batch[i]? = some rpc)
    (faulty : Faulty calls located batch i rpc) :
    queueBatches calls M located order batch = [] ∧
      (∃ res : List (BatchResult M E), SendBatch calls located order batch res false [] none) ∧
      ∀ (res : List (BatchResult M E)) (allOK : Bool) (taken : List (C × BatchResult M E))
        (ctxErr : Option E), SendBatch calls located order batch res allOK taken ctxErr →
        allOK = false ∧ res.length = batch.length ∧ (∀ entry ∈ res, entry.error ≠ none) ∧
        (¬Acceptable calls batch → ∀ (k : Nat) (call : C), batch[k]? = some call →
          res[k]? = some ⟨none,
            some (callVerdict calls (firstTable calls batch) (batch.take k) call)⟩) ∧
        (Acceptable calls batch → ∀ (k : Nat) (call : C), batch[k]? = some call →
          res[k]? = some (afterLookup located k ⟨none, some .notExecuted⟩)) := by
  have nonempty : batch ≠ [] := by
    rintro rfl
    cases found
  have accepted := (checkBatch_exact M E calls batch).2
  have length := checked_length M E calls batch
  by_cases acceptable : Acceptable calls batch
  · -- the checks pass, so the lookup of the faulty call has failed
    have good := accepted.mpr acceptable
    obtain ⟨err, failed⟩ := faulty.lookup_failed found acceptable
    obtain ⟨lookups, all⟩ := findClients_exact located 0 batch
      (⟨(checkBatch calls batch : Checked C M E).res, ∅, true⟩ : Found C K M E)
    have bad : (findClients located 0 batch
        (⟨(checkBatch calls batch : Checked C M E).res, ∅, true⟩ : Found C K M E)).ok = false := by
      rw [Bool.eq_false_iff, ne_eq, all]
      rintro ⟨_, every⟩
      obtain ⟨rc, ok⟩ := every i (List.getElem?_eq_some_iff.mp found).1
      rw [Nat.zero_add, failed] at ok
      cases ok
    refine ⟨?_, ⟨_, .unresolved nonempty rfl good rfl bad⟩, ?_⟩
    · simp [queueBatches, nonempty, good, bad]
    · intro res allOK taken ctxErr returned
      obtain ⟨no, rfl⟩ := returned.of_unresolved nonempty good bad
      refine ⟨no, (found_length located batch _).trans length,
        found_errors located batch _ (checked_errors calls batch),
        fun refused => absurd acceptable refused, ?_⟩
      intro _ k call there
      have bound := (List.getElem?_eq_some_iff.mp there).1
      rw [lookups k, if_pos (by omega), acceptable.checked.1, List.getElem?_replicate,
        if_pos bound]
      rfl
  · have bad : (checkBatch calls batch : Checked C M E).allOK = false := by
      rw [Bool.eq_false_iff, ne_eq, accepted]
      exact acceptable
    refine ⟨?_, ⟨_, .rejected nonempty rfl bad⟩, ?_⟩
    · simp [queueBatches, bad]
    · intro res allOK taken ctxErr returned
      obtain ⟨no, rfl⟩ := returned.of_rejected nonempty bad
      exact ⟨no, length, checked_errors calls batch, fun _ k call => checked_entry M E calls,
        fun impossible => absurd impossible acceptable⟩

end SendBatch

def parityCalls : BatchCalls Nat := ⟨fun rpc => [UInt8.ofNat (rpc % 2)], fun _ => true⟩

theorem faulty_batch_unsent_repeated :
    queueBatches parityCalls Nat (fun _ => (.ok 0 : Except String Nat))
        (.stored (Σ _ : Nat, List Nat)) [10, 11, 10] = [] ∧
      ∃ res : List (BatchResult Nat String), SendBatch parityCalls
        (fun _ => (.ok 0 : Except String Nat)) (.stored (Σ _ : Nat, List Nat)) [10, 11, 10] res
        false [] none :=
  have unsent := faulty_batch_unsent (M := Nat) parityCalls (fun _ => (.ok 0 : Except String Nat))
    (.stored (Σ _ : Nat, List Nat)) [10, 11, 10] (show [10, 11, 10][2]? = some 10 from rfl)
    (.inl (by decide))
  ⟨unsent.1, unsent.2.1⟩

end GoHBase
