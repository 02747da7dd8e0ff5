import GoHBase.BatchCore

/-! Every entry of what `SendBatch` returns is the result that was read for the call at its
index, or says why none was read. -/

namespace GoHBase

open ByteString RangeLoop Grouping

section Checks

variable {C M E : Type} [DecidableEq C] (calls : BatchCalls C)

theorem checkCalls_ok (table : Bytes) (i : Nat) (rpcs : List C) (state : Checked C M E)
    (distinct : rpcs.Nodup) (fresh : ∀ rpc ∈ rpcs, state.rpcToRes.lookup rpc = none)
    (tables : ∀ rpc ∈ rpcs, calls.table rpc = table)
    (batchable : ∀ rpc ∈ rpcs, calls.batchable rpc = true) :
    (checkCalls calls table i rpcs state).res =
        state.res ++ List.replicate rpcs.length ⟨none, some .notExecuted⟩ ∧
      (checkCalls calls table i rpcs state).allOK = state.allOK ∧
      (∀ rpc ∉ rpcs, (checkCalls calls table i rpcs state).rpcToRes.lookup rpc =
        state.rpcToRes.lookup rpc) ∧
      ∀ k rpc, rpcs[k]? = some rpc →
        (checkCalls calls table i rpcs state).rpcToRes.lookup rpc = some (i + k) := by
  induction rpcs generalizing i state with
  | nil => simp [checkCalls]
  | cons first rpcs ih =>
      rcases List.nodup_cons.mp distinct with ⟨absent, distinct⟩
      have added : state.add calls table i first =
          ⟨state.res ++ [⟨none, some .notExecuted⟩], state.rpcToRes.insert first i,
            state.allOK⟩ := by
        rw [Checked.add, fresh first List.mem_cons_self]
        simp [tables first List.mem_cons_self, batchable first List.mem_cons_self]
      have still : ∀ rpc ∈ rpcs, (state.rpcToRes.insert first i).lookup rpc = none := by
        intro rpc member
        have other : rpc ≠ first := by
          rintro rfl
          exact absent member
        rw [AList.lookup_insert_ne other]
        exact fresh rpc (List.mem_cons_of_mem _ member)
      rcases ih (i + 1) ⟨state.res ++ [⟨none, some .notExecuted⟩], state.rpcToRes.insert first i,
        state.allOK⟩ distinct still (fun rpc member => tables rpc (List.mem_cons_of_mem _ member))
        (fun rpc member => batchable rpc (List.mem_cons_of_mem _ member)) with
        ⟨res, allOK, others, indices⟩
      rw [checkCalls, added]
      refine ⟨?_, allOK, ?_, ?_⟩
      · rw [res, List.append_assoc, List.length_cons, List.replicate_succ, List.singleton_append]
      · intro rpc outside
        rcases List.not_mem_of_not_mem_cons outside with later
        rw [others rpc later, AList.lookup_insert_ne (List.ne_of_not_mem_cons outside)]
      · intro k rpc found
        cases k with
        | zero =>
            obtain rfl : first = rpc := by simpa using found
            rw [others first absent, AList.lookup_insert, Nat.add_zero]
        | succ k =>
            rw [indices k rpc (by simpa using found)]
            congr 1
            omega

end Checks

section Clients

variable {C K M E : Type} [DecidableEq K] (located : Nat → Except E K)

def resolved : Nat → List C → List (K × C)
  | _, [] => []
  | i, rpc :: rpcs =>
      match located i with
      | .ok rc => (rc, rpc) :: resolved (i + 1) rpcs
      | .error _ => resolved (i + 1) rpcs

theorem findClients_rpcByClient (i : Nat) (rpcs : List C) (state : Found C K M E) :
    (findClients located i rpcs state).rpcByClient = (resolved located i rpcs).foldl
      (accumulate Prod.fst [] fun group entry => group ++ [entry.2]) state.rpcByClient := by
  induction rpcs generalizing i state with
  | nil => rfl
  | cons rpc rpcs ih =>
      rw [findClients, ih, resolved]
      cases located i with
      | ok rc => rfl
      | error err => rfl

theorem findClients_ok (i : Nat) (rpcs : List C) (state : Found C K M E)
    (ok : (findClients located i rpcs state).ok = true) :
    state.ok = true ∧ (findClients located i rpcs state).res = state.res ∧
      (resolved located i rpcs).map Prod.snd = rpcs := by
  induction rpcs generalizing i state with
  | nil => exact ⟨ok, rfl, rfl⟩
  | cons rpc rpcs ih =>
      rw [findClients] at ok ⊢
      rcases ih _ _ ok with ⟨before, res, calls⟩
      rw [resolved]
      cases found : located i with
      | error err =>
          rw [found] at before
          cases before
      | ok rc =>
          rw [found] at before
          rw [found] at res
          refine ⟨before, res, ?_⟩
          rw [List.map_cons, calls]

theorem findClients_res (i : Nat) (rpcs : List C) (state : Found C K M E) :
    (findClients located i rpcs state).res.length = state.res.length ∧
      ∀ (k : Nat) (entry : BatchResult M E),
        (findClients located i rpcs state).res[k]? = some entry →
        ∃ old : BatchResult M E, state.res[k]? = some old ∧ entry.msg = old.msg ∧
          (entry.error = old.error ∨
            ∃ err, located k = .error err ∧ entry.error = some (.foreign err)) := by
  induction rpcs generalizing i state with
  | nil => exact ⟨rfl, fun k entry found => ⟨entry, found, rfl, .inl rfl⟩⟩
  | cons rpc rpcs ih =>
      rcases ih (i + 1) (state.add i rpc (located i)) with ⟨length, entries⟩
      rw [findClients]
      cases outcome : located i with
      | ok rc =>
          rw [outcome] at length entries
          exact ⟨length, entries⟩
      | error err =>
          rw [outcome] at length entries
          refine ⟨length.trans (List.length_modify _ _ _), ?_⟩
          intro k entry found
          rcases entries k entry found with ⟨middle, modified, msg, error⟩
          rw [Found.add, List.getElem?_modify] at modified
          cases stored : state.res[k]? with
          | none =>
              rw [stored] at modified
              cases modified
          | some old =>
              rw [stored] at modified
              by_cases here : i = k
              · simp only [here, ↓reduceIte] at modified
                cases modified
                refine ⟨old, rfl, msg, .inr ?_⟩
                rcases error with same | changed
                · exact ⟨err, here ▸ outcome, same⟩
                · exact changed
              · simp only [here, ↓reduceIte] at modified
                cases modified
                exact ⟨old, rfl, msg, error⟩

omit [DecidableEq K] in
theorem foldl_group (entries : List (K × C)) (group : List C) :
    entries.foldl (fun group entry => group ++ [entry.2]) group =
      group ++ entries.map Prod.snd := by
  induction entries generalizing group with
  | nil => simp
  | cons entry entries ih => simp [ih]

theorem mem_rpcByClient (i : Nat) (rpcs : List C) (res : List (BatchResult M E)) (rc : K)
    (group : List C)
    (member : ⟨rc, group⟩ ∈ (findClients located i rpcs ⟨res, ∅, true⟩).rpcByClient.entries) :
    group = (members Prod.fst (resolved located i rpcs) rc).map Prod.snd := by
  rw [findClients_rpcByClient] at member
  have folded := ((mem_entries_foldl _ _ _ _ _).mp member).2
  rw [foldl_group, List.nil_append] at folded
  exact folded

theorem groups_perm (rpcs : List C) (res : List (BatchResult M E)) (order : Order (Σ _ : K, List C))
    (ok : (findClients located 0 rpcs ⟨res, ∅, true⟩).ok = true) :
    ((order.visit (findClients located 0 rpcs ⟨res, ∅, true⟩).rpcByClient.entries).flatMap
      Sigma.snd).Perm rpcs := by
  generalize same : (findClients located 0 rpcs ⟨res, ∅, true⟩).rpcByClient = groups
  have shape : ∀ entry ∈ groups.entries,
      entry.2 = (members Prod.fst (resolved located 0 rpcs) entry.1).map Prod.snd := by
    intro entry member
    rw [← same] at member
    exact mem_rpcByClient located 0 rpcs res entry.1 entry.2 member
  have split : groups.entries.flatMap Sigma.snd =
      (groups.keys.flatMap (members Prod.fst (resolved located 0 rpcs))).map Prod.snd := by
    rw [List.map_flatMap, AList.keys, List.keys, List.flatMap_map]
    exact List.flatMap_congr shape
  have covered : ∀ entry ∈ resolved located 0 rpcs, entry.1 ∈ groups.keys := by
    intro entry member
    rw [← same, findClients_rpcByClient]
    exact (mem_keys_foldl _ _ _ _ _).mpr ⟨entry, member, rfl⟩
  have items := flatMap_members_perm Prod.fst groups.keys groups.keys_nodup _ covered
  have all := (findClients_ok located 0 rpcs _ ok).2.2
  refine ((order.perm groups.entries).flatMap_right _).trans ?_
  rw [split]
  exact (items.map Prod.snd).trans (.of_eq all)

end Clients

section Waiting

variable {C K M E : Type}

def Collecting.pending (s : Collecting C K M E) : List C := s.groups.flatMap Prod.snd

def Collecting.read (s : Collecting C K M E) : List C := s.taken.map Prod.fst

/-- A channel holds what was delivered for its call until it is read. -/
structure Channels (s : Collecting C K M E) : Prop where
  once : (s.delivered.map Prod.fst).Nodup
  taken : ∀ result ∈ s.taken, result ∈ s.delivered
  channel : ∀ rpc res, s.channel rpc = some res ↔ (rpc, res) ∈ s.delivered ∧ rpc ∉ s.read

structure Pending (batch : List C) (s : Collecting C K M E) : Prop where
  distinct : s.pending.Nodup
  inside : ∀ rpc ∈ s.pending, rpc ∈ batch
  unread : ∀ rpc ∈ s.pending, rpc ∉ s.read

def Collecting.Unread (s : Collecting C K M E) (rpc : C) (entry : BatchResult M E) : Prop :=
  entry.msg = none ∧ (rpc ∈ s.pending ∧ entry.error = some .notExecuted ∨
    ∃ err, s.ctxErr = some err ∧ entry.error = some (.foreign err))

structure Entries (batch : List C) (s : Collecting C K M E) : Prop where
  length : s.res.length = batch.length
  entry : ∀ (i : Nat) (rpc : C), batch[i]? = some rpc → ∃ entry, s.res[i]? = some entry ∧
    ((rpc, entry) ∈ s.taken ∨ rpc ∉ s.read ∧ s.Unread rpc entry)

structure Verdict (batch : List C) (s : Collecting C K M E) : Prop where
  swept : s.sweeping = true → s.ctxErr ≠ none ∧ s.ok = false
  idle : s.groups = [] → s.ok = true
  fine : s.fail = false → s.ok = true → ∀ rpc ∈ batch,
    rpc ∈ s.pending ∨ ∃ res, (rpc, res) ∈ s.taken ∧ res.error = none

structure Aligned (batch : List C) (s : Collecting C K M E) : Prop where
  channels : Channels s
  pending : Pending batch s
  entries : Entries batch s
  verdict : Verdict batch s

variable {batch : List C} {s s' : Collecting C K M E}

theorem Channels.result_unique (channels : Channels s) {rpc : C} {first second : BatchResult M E}
    (one : (rpc, first) ∈ s.delivered) (other : (rpc, second) ∈ s.delivered) : first = second :=
  congrArg Prod.snd (List.inj_on_of_nodup_map channels.once one other rfl)

theorem Channels.read_delivered (channels : Channels s) {rpc : C} (read : rpc ∈ s.read) :
    rpc ∈ s.delivered.map Prod.fst := by
  rcases List.mem_map.mp read with ⟨result, member, rfl⟩
  exact List.mem_map_of_mem (channels.taken result member)

theorem pending_cons {rc : K} {rpc : C} {rpcs : List C} {groups : List (K × List C)}
    (current : s.groups = (rc, rpc :: rpcs) :: groups) :
    s.pending = rpc :: (rpcs ++ groups.flatMap Prod.snd) := by
  rw [Collecting.pending, current, List.flatMap_cons, List.cons_append]

theorem pending_nil {rc : K} {groups : List (K × List C)}
    (current : s.groups = (rc, []) :: groups) :
    s.pending = groups.flatMap Prod.snd := by
  rw [Collecting.pending, current, List.flatMap_cons, List.nil_append]

theorem pending_finished (finished : s.groups = []) : s.pending = [] := by
  rw [Collecting.pending, finished, List.flatMap_nil]

theorem Pending.advance (pending : Pending batch s) {rc : K} {rpc : C} {rpcs : List C}
    {groups : List (K × List C)} (current : s.groups = (rc, rpc :: rpcs) :: groups) :
    rpc ∈ batch ∧ rpc ∉ rpcs ++ groups.flatMap Prod.snd ∧ (rpcs ++ groups.flatMap Prod.snd).Nodup ∧
      ∀ other, other ∈ s.pending ↔ other = rpc ∨ other ∈ rpcs ++ groups.flatMap Prod.snd := by
  have whole := pending_cons current
  have distinct := pending.distinct
  rw [whole] at distinct
  rcases List.nodup_cons.mp distinct with ⟨absent, rest⟩
  refine ⟨pending.inside rpc ?_, absent, rest, ?_⟩
  · rw [whole]
    exact List.mem_cons_self
  · intro other
    rw [whole]
    exact List.mem_cons

theorem mem_read_append {taken : List (C × BatchResult M E)} {rpc other : C}
    {res : BatchResult M E} :
    other ∈ (taken ++ [(rpc, res)]).map Prod.fst ↔ other ∈ taken.map Prod.fst ∨ other = rpc := by
  rw [List.map_append, List.mem_append, List.map_singleton, List.mem_singleton]

theorem Aligned.errors_nil (aligned : Aligned batch s) (finished : s.groups = [])
    (noFail : s.fail = false) : ∀ entry ∈ s.res, entry.error = none := by
  intro entry member
  rcases List.mem_iff_getElem?.mp member with ⟨i, stored⟩
  have bound : i < batch.length := by
    rw [← aligned.entries.length]
    exact (List.getElem?_eq_some_iff.mp stored).1
  have listed := List.getElem?_eq_getElem bound
  have good := aligned.verdict.fine noFail (aligned.verdict.idle finished) _
    (List.mem_of_getElem? listed)
  rw [pending_finished finished] at good
  rcases good.resolve_left List.not_mem_nil with ⟨result, taken, noError⟩
  rcases aligned.entries.entry i _ listed with ⟨entry', stored', read | ⟨never, _⟩⟩
  · obtain rfl : entry' = entry := Option.some.inj (stored'.symm.trans stored)
    rw [aligned.channels.result_unique (aligned.channels.taken _ read)
      (aligned.channels.taken _ taken)]
    exact noError
  · exact absurd (List.mem_map_of_mem taken) never

variable [DecidableEq C]

theorem Environment.channels (step : Environment s s') (channels : Channels s) : Channels s' := by
  cases step with
  | cancel err alive => exact ⟨channels.once, channels.taken, channels.channel⟩
  | deliver rpc res first =>
      refine ⟨?_, ?_, ?_⟩
      · have single : ([(rpc, res)].map Prod.fst).Nodup := List.nodup_singleton _
        change ((s.delivered ++ [(rpc, res)]).map Prod.fst).Nodup
        rw [List.map_append]
        apply List.Nodup.append channels.once single
        intro other delivered new
        obtain rfl : other = rpc := List.mem_singleton.mp new
        exact first delivered
      · intro result member
        exact List.mem_append_left _ (channels.taken result member)
      · intro other result
        change Function.update s.channel rpc (some res) other = some result ↔
          (other, result) ∈ s.delivered ++ [(rpc, res)] ∧ other ∉ s.read
        rw [List.mem_append, List.mem_singleton, Prod.mk.injEq]
        by_cases same : other = rpc
        · subst same
          rw [Function.update_self]
          constructor
          · intro delivered
            refine ⟨.inr ⟨rfl, (Option.some.inj delivered).symm⟩, ?_⟩
            exact fun read => first (channels.read_delivered read)
          · rintro ⟨old | ⟨_, rfl⟩, _⟩
            · exact absurd (List.mem_map_of_mem old) first
            · rfl
        · rw [Function.update_of_ne same, channels.channel]
          simp only [same, false_and, or_false]

theorem Environment.aligned (step : Environment s s') (aligned : Aligned batch s) :
    Aligned batch s' := by
  have channels := step.channels aligned.channels
  rcases aligned with ⟨_, pending, entries, verdict⟩
  cases step with
  | deliver rpc res first =>
      exact ⟨channels, ⟨pending.distinct, pending.inside, pending.unread⟩,
        ⟨entries.length, entries.entry⟩, ⟨verdict.swept, verdict.idle, verdict.fine⟩⟩
  | cancel err alive =>
      refine ⟨channels, ⟨pending.distinct, pending.inside, pending.unread⟩,
        ⟨entries.length, ?_⟩, ⟨?_, verdict.idle, verdict.fine⟩⟩
      · intro i rpc found
        rcases entries.entry i rpc found with ⟨entry, stored, read | ⟨never, msg, waiting | past⟩⟩
        · exact ⟨entry, stored, .inl read⟩
        · exact ⟨entry, stored, .inr ⟨never, msg, .inl waiting⟩⟩
        · rcases past with ⟨_, cancelled, _⟩
          rw [alive] at cancelled
          cases cancelled
      · intro sweeping
        exact absurd alive (verdict.swept sweeping).1

variable {rpcToRes : AList fun _ : C => Nat}

theorem Collect.channels (step : Collect rpcToRes s s') (channels : Channels s) : Channels s' := by
  cases step with
  | cancelled => exact ⟨channels.once, channels.taken, channels.channel⟩
  | default => exact ⟨channels.once, channels.taken, channels.channel⟩
  | completed => exact ⟨channels.once, channels.taken, channels.channel⟩
  | @read rc rpc rpcs groups res current ready =>
      refine ⟨channels.once, ?_, ?_⟩
      · intro result member
        rcases List.mem_append.mp member with before | now
        · exact channels.taken result before
        · rw [List.mem_singleton.mp now]
          exact ((channels.channel rpc res).mp ready).1
      · intro other result
        change Function.update s.channel rpc none other = some result ↔
          (other, result) ∈ s.delivered ∧ other ∉ (s.taken ++ [(rpc, res)]).map Prod.fst
        rw [mem_read_append]
        by_cases same : other = rpc
        · subst same
          rw [Function.update_self]
          simp
        · rw [Function.update_of_ne same, channels.channel]
          simp only [same, or_false]
          rfl

theorem Collect.pending (step : Collect rpcToRes s s') (pending : Pending batch s) :
    Pending batch s' := by
  cases step with
  | cancelled => exact ⟨pending.distinct, pending.inside, pending.unread⟩
  | @completed rc groups current =>
      have same := pending_nil current
      rcases pending with ⟨distinct, inside, unread⟩
      rw [same] at distinct inside unread
      exact ⟨distinct, inside, unread⟩
  | @default rc rpc rpcs groups current sweeping empty =>
      rcases pending.advance current with ⟨_, _, distinct, split⟩
      refine ⟨distinct, ?_, ?_⟩
      · exact fun other member => pending.inside other ((split other).mpr (.inr member))
      · exact fun other member => pending.unread other ((split other).mpr (.inr member))
  | @read rc rpc rpcs groups res current ready =>
      rcases pending.advance current with ⟨_, absent, distinct, split⟩
      refine ⟨distinct, ?_, ?_⟩
      · exact fun other member => pending.inside other ((split other).mpr (.inr member))
      · intro other member read
        rcases mem_read_append.mp read with before | rfl
        · exact pending.unread other ((split other).mpr (.inr member)) before
        · exact absent member

def Indexed (rpcToRes : AList fun _ : C => Nat) (batch : List C) : Prop :=
  ∀ (i : Nat) (rpc : C), batch[i]? = some rpc → rpcToRes.lookup rpc = some i

theorem Indexed.position (indexed : Indexed rpcToRes batch) {i : Nat} {rpc : C}
    (found : batch[i]? = some rpc) : resultIndex rpcToRes rpc = i := by
  rw [resultIndex, indexed i rpc found, Option.getD_some]

theorem Indexed.elsewhere (indexed : Indexed rpcToRes batch) {i : Nat} {rpc other : C}
    (member : rpc ∈ batch) (found : batch[i]? = some other) (differs : other ≠ rpc) :
    resultIndex rpcToRes rpc ≠ i := by
  intro here
  rcases List.mem_iff_getElem?.mp member with ⟨j, listed⟩
  rw [indexed.position listed] at here
  subst here
  exact differs (Option.some.inj (found.symm.trans listed))

theorem Collect.entries (indexed : Indexed rpcToRes batch) (step : Collect rpcToRes s s')
    (aligned : Aligned batch s) : Entries batch s' := by
  rcases aligned with ⟨_, pending, entries, verdict⟩
  cases step with
  | cancelled => exact ⟨entries.length, entries.entry⟩
  | @completed rc groups current =>
      have same := pending_nil current
      refine ⟨entries.length, ?_⟩
      have before := entries.entry
      simp only [Collecting.Unread, same] at before
      exact before
  | @read rc rpc rpcs groups res current ready =>
      rcases pending.advance current with ⟨inside, _, _, split⟩
      refine ⟨List.length_set.trans entries.length, ?_⟩
      intro i other found
      by_cases same : other = rpc
      · subst same
        have bound : i < s.res.length := by
          rw [entries.length]
          exact (List.getElem?_eq_some_iff.mp found).1
        refine ⟨res, ?_, .inl (List.mem_append_right _ (List.mem_singleton_self _))⟩
        rw [indexed.position found, List.getElem?_set_self bound]
      · rcases entries.entry i other found with ⟨entry, stored, old⟩
        refine ⟨entry, ?_, ?_⟩
        · rw [List.getElem?_set_ne (indexed.elsewhere inside found same)]
          exact stored
        · rcases old with taken | ⟨never, msg, reason⟩
          · exact .inl (List.mem_append_left _ taken)
          · refine .inr ⟨?_, msg, ?_⟩
            · intro read
              exact (mem_read_append.mp read).elim never same
            · rcases reason with ⟨waiting, error⟩ | past
              · exact .inl ⟨((split other).mp waiting).resolve_left same, error⟩
              · exact .inr past
  | @default rc rpc rpcs groups current sweeping empty =>
      rcases pending.advance current with ⟨inside, _, _, split⟩
      refine ⟨(List.length_modify _ _ _).trans entries.length, ?_⟩
      intro i other found
      rcases entries.entry i other found with ⟨entry, stored, old⟩
      by_cases same : other = rpc
      · subst same
        rcases Option.ne_none_iff_exists'.mp (verdict.swept sweeping).1 with ⟨err, cancelled⟩
        have never : other ∉ s.read := pending.unread other ((split other).mpr (.inl rfl))
        refine ⟨{ entry with error := s.ctxErr.map .foreign }, ?_, .inr ⟨never, ?_, .inr ?_⟩⟩
        · simp only [List.getElem?_modify, indexed.position found, ↓reduceIte, stored]
          rfl
        · rcases old with taken | ⟨_, msg, _⟩
          · exact absurd (List.mem_map_of_mem taken) never
          · exact msg
        · refine ⟨err, cancelled, ?_⟩
          rw [cancelled]
          rfl
      · refine ⟨entry, ?_, ?_⟩
        · have elsewhere := indexed.elsewhere inside found same
          simp only [List.getElem?_modify, elsewhere, ↓reduceIte, stored]
          rfl
        · rcases old with taken | ⟨never, msg, ⟨waiting, error⟩ | past⟩
          · exact .inl taken
          · exact .inr ⟨never, msg, .inl ⟨((split other).mp waiting).resolve_left same, error⟩⟩
          · exact .inr ⟨never, msg, .inr past⟩

theorem Collect.verdict (step : Collect rpcToRes s s') (pending : Pending batch s)
    (verdict : Verdict batch s) : Verdict batch s' := by
  cases step with
  | cancelled current looping done =>
      refine ⟨fun _ => ⟨done, rfl⟩, ?_, nofun⟩
      intro cleared
      rw [current] at cleared
      cases cleared
  | @completed rc groups current =>
      have same := pending_nil current
      refine ⟨nofun, fun _ => rfl, ?_⟩
      intro noFail _
      rcases Bool.or_eq_false_iff.mp noFail with ⟨before, good⟩
      have fine := verdict.fine before (by simpa using good)
      rw [same] at fine
      exact fine
  | @default rc rpc rpcs groups current sweeping empty =>
      refine ⟨verdict.swept, nofun, ?_⟩
      intro _ ok
      rw [(verdict.swept sweeping).2] at ok
      cases ok
  | @read rc rpc rpcs groups res current ready =>
      rcases pending.advance current with ⟨_, _, _, split⟩
      refine ⟨?_, nofun, ?_⟩
      · intro sweeping
        have before := verdict.swept sweeping
        exact ⟨before.1, (if_pos sweeping).trans before.2⟩
      · intro noFail ok other member
        have before : s.ok = true ∧ res.error = none := by
          by_cases sweeping : s.sweeping = true
          · rw [if_pos sweeping, (verdict.swept sweeping).2] at ok
            cases ok
          · rw [if_neg sweeping, Bool.and_eq_true, Option.isNone_iff_eq_none] at ok
            exact ok
        rcases verdict.fine noFail before.1 other member with waiting | ⟨result, taken, fine⟩
        · rcases (split other).mp waiting with rfl | later
          · exact .inr ⟨res, List.mem_append_right _ (List.mem_singleton_self _), before.2⟩
          · exact .inl later
        · exact .inr ⟨result, List.mem_append_left _ taken, fine⟩

theorem Collect.aligned (indexed : Indexed rpcToRes batch) (step : Collect rpcToRes s s')
    (aligned : Aligned batch s) : Aligned batch s' :=
  ⟨step.channels aligned.channels, step.pending aligned.pending, step.entries indexed aligned,
    step.verdict aligned.pending aligned.verdict⟩

/-- What `waitForCompletion` has to do at most: a select for each call, and for each group a
change to the second loop and a return. -/
def Collecting.left (s : Collecting C K M E) : Nat :=
  s.pending.length + 2 * s.groups.length - if s.sweeping then 1 else 0

def Collecting.Answered (batch : List C) (s : Collecting C K M E) : Prop :=
  s.ctxErr ≠ none ∨ ∀ rpc ∈ batch, rpc ∈ s.delivered.map Prod.fst

theorem Collect.progress (rpcToRes : AList fun _ : C => Nat) (aligned : Aligned batch s)
    (waits : s.groups ≠ []) (answered : s.Answered batch) :
    ∃ s', Collect rpcToRes s s' ∧ s'.Answered batch ∧ s'.left < s.left := by
  rcases List.exists_cons_of_ne_nil waits with ⟨⟨rc, group⟩, groups, current⟩
  cases group with
  | nil =>
      refine ⟨_, .completed current, answered, ?_⟩
      simp only [Collecting.left, Collecting.pending, current, List.flatMap_cons, List.nil_append,
        List.length_cons, Bool.false_eq_true, ↓reduceIte]
      split
      · omega
      · omega
  | cons rpc rpcs =>
      have whole := pending_cons current
      cases ready : s.channel rpc with
      | some res =>
          refine ⟨_, .read current ready, answered, ?_⟩
          simp only [Collecting.left, Collecting.pending, current, List.flatMap_cons,
            List.length_append, List.length_cons]
          split
          · omega
          · omega
      | none =>
          have done : s.ctxErr ≠ none := by
            rcases answered with done | delivered
            · exact done
            · have waiting : rpc ∈ s.pending := by
                rw [whole]
                exact List.mem_cons_self
              have sent := delivered rpc (aligned.pending.inside rpc waiting)
              rcases List.mem_map.mp sent with ⟨⟨_, res⟩, member, rfl⟩
              have holds := (aligned.channels.channel _ res).mpr
                ⟨member, aligned.pending.unread _ waiting⟩
              rw [ready] at holds
              cases holds
          cases loop : s.sweeping with
          | true =>
              refine ⟨_, .default current loop ready, answered, ?_⟩
              simp only [Collecting.left, Collecting.pending, current, loop, ↓reduceIte,
                List.flatMap_cons, List.length_append, List.length_cons]
              omega
          | false =>
              refine ⟨_, .cancelled current loop done, answered, ?_⟩
              simp only [Collecting.left, Collecting.pending, current, loop, ↓reduceIte,
                List.length_cons, Bool.false_eq_true]
              omega

theorem Collect.returns (indexed : Indexed rpcToRes batch) (aligned : Aligned batch s)
    (answered : s.Answered batch) :
    ∃ final, Relation.ReflTransGen (Collect rpcToRes) s final ∧ final.groups = [] := by
  induction count : s.left using Nat.strong_induction_on generalizing s with
  | _ count ih =>
    by_cases finished : s.groups = []
    · exact ⟨s, .refl, finished⟩
    · rcases Collect.progress rpcToRes aligned finished answered with
        ⟨next, step, still, less⟩
      rcases ih next.left (count ▸ less) (step.aligned indexed aligned) still rfl with
        ⟨final, run, ended⟩
      exact ⟨final, .head step run, ended⟩

end Waiting

section SendBatch

variable {C K M E : Type} [DecidableEq C] [DecidableEq K] (calls : BatchCalls C)

structure Acceptable (batch : List C) : Prop where
  distinct : batch.Nodup
  oneTable : ∀ rpc ∈ batch, ∀ other ∈ batch, calls.table rpc = calls.table other
  batchable : ∀ rpc ∈ batch, calls.batchable rpc = true

variable {calls} {batch : List C} {located : Nat → Except E K} {order : Order (Σ _ : K, List C)}

theorem Acceptable.checked (acceptable : Acceptable calls batch) :
    (checkBatch calls batch : Checked C M E).res =
        List.replicate batch.length ⟨none, some .notExecuted⟩ ∧
      (checkBatch calls batch : Checked C M E).allOK = true ∧
      Indexed (checkBatch calls batch : Checked C M E).rpcToRes batch := by
  have tables : ∀ rpc ∈ batch, calls.table rpc = batch.head?.elim [] calls.table := by
    cases batch with
    | nil => simp
    | cons first rpcs =>
        intro rpc member
        exact acceptable.oneTable rpc member first List.mem_cons_self
  rcases checkCalls_ok calls (batch.head?.elim [] calls.table) 0 batch
    (⟨[], ∅, true⟩ : Checked C M E) acceptable.distinct (fun _ _ => AList.lookup_empty _) tables
    acceptable.batchable with ⟨res, allOK, _, indices⟩
  refine ⟨?_, allOK, ?_⟩
  · rw [checkBatch, res, List.nil_append]
  · intro i rpc found
    rw [checkBatch, indices i rpc found, Nat.zero_add]

theorem queued_aligned {found : Found C K M E} (acceptable : Acceptable calls batch)
    (lookups : findClients located 0 batch ⟨(checkBatch calls batch : Checked C M E).res, ∅, true⟩ =
      found) (ok : found.ok = true) : Aligned batch (queued found order) := by
  have unchanged : found.res = List.replicate batch.length ⟨none, some .notExecuted⟩ := by
    rw [← lookups] at ok ⊢
    rw [(findClients_ok located 0 batch _ ok).2.1]
    exact acceptable.checked.1
  have perm : (queued found order).pending.Perm batch := by
    have groups := groups_perm located batch (checkBatch calls batch : Checked C M E).res order
    rw [lookups] at groups
    rw [Collecting.pending, queued, List.flatMap_map]
    exact groups ok
  refine ⟨⟨List.nodup_nil, nofun, ?_⟩, ⟨perm.nodup_iff.mpr acceptable.distinct, ?_, nofun⟩,
    ⟨?_, ?_⟩, ⟨nofun, fun _ => rfl, ?_⟩⟩
  · intro rpc res
    simp [queued]
  · exact fun rpc member => perm.mem_iff.mp member
  · change found.res.length = batch.length
    rw [unchanged, List.length_replicate]
  · intro i rpc listed
    have bound : i < batch.length := (List.getElem?_eq_some_iff.mp listed).1
    refine ⟨⟨none, some .notExecuted⟩, ?_, .inr ⟨List.not_mem_nil, rfl, .inl ⟨?_, rfl⟩⟩⟩
    · change found.res[i]? = _
      rw [unchanged, List.getElem?_replicate_of_lt bound]
    · exact perm.mem_iff.mpr (List.mem_of_getElem? listed)
  · exact fun _ _ rpc member => .inl (perm.mem_iff.mpr member)

theorem Waits.aligned {s : Collecting C K M E} (acceptable : Acceptable calls batch)
    (waits : Waits calls located order batch s) : Aligned batch s := by
  rcases waits with ⟨_, _, ok, run⟩
  have indexed := (acceptable.checked :
    _ ∧ _ ∧ Indexed (checkBatch calls batch : Checked C M E).rpcToRes batch).2.2
  induction run with
  | refl => exact queued_aligned acceptable rfl ok
  | tail _ step ih =>
      rcases step with outside | own
      · exact outside.aligned ih
      · exact own.aligned indexed ih

/-- Each entry is the result that was read for its call, or has no message and says why none
was read; and once the context is done or every call has its result, `SendBatch` returns. -/
theorem send_batch_aligned (calls : BatchCalls C) (located : Nat → Except E K)
    (order : Order (Σ _ : K, List C)) (batch : List C) (acceptable : Acceptable calls batch) :
    (∀ (res : List (BatchResult M E)) (allOK : Bool) (taken : List (C × BatchResult M E))
      (ctxErr : Option E), SendBatch calls located order batch res allOK taken ctxErr →
      res.length = batch.length ∧
      (∀ (i : Nat) (rpc : C), batch[i]? = some rpc → ∃ entry, res[i]? = some entry ∧
        ((rpc, entry) ∈ taken ∨ (∀ result, (rpc, result) ∉ taken) ∧ entry.msg = none ∧
          (entry.error = some .notExecuted ∨
            (∃ err, located i = .error err ∧ entry.error = some (.foreign err)) ∨
            ∃ err, ctxErr = some err ∧ entry.error = some (.foreign err)))) ∧
      (allOK = true → ∀ entry ∈ res, entry.error = none)) ∧
    ∀ s : Collecting C K M E, Waits calls located order batch s →
      (∀ result ∈ s.taken, result ∈ s.delivered) ∧ (s.delivered.map Prod.fst).Nodup ∧
      (s.Answered batch → ∃ final,
        Relation.ReflTransGen (Collect (checkBatch calls batch : Checked C M E).rpcToRes) s final ∧
          final.groups = []) := by
  rcases (acceptable.checked : (checkBatch calls batch : Checked C M E).res = _ ∧ _) with
    ⟨fresh, accepted, indexed⟩
  refine ⟨?_, ?_⟩
  · intro res allOK taken ctxErr returned
    cases returned with
    | empty none =>
        subst none
        exact ⟨rfl, by simp, by simp⟩
    | rejected nonempty checks bad =>
        rw [← checks, accepted] at bad
        cases bad
    | unresolved nonempty checks good lookups bad =>
        subst checks
        subst lookups
        rcases findClients_res located 0 batch
          ⟨(checkBatch calls batch : Checked C M E).res, ∅, true⟩ with ⟨length, entries⟩
        refine ⟨?_, ?_, nofun⟩
        · rw [length, fresh, List.length_replicate]
        · intro i rpc listed
          have bound : i < batch.length := (List.getElem?_eq_some_iff.mp listed).1
          have inside : i < (findClients located 0 batch
              ⟨(checkBatch calls batch : Checked C M E).res, ∅, true⟩).res.length := by
            rw [length, fresh, List.length_replicate]
            exact bound
          have stored := List.getElem?_eq_getElem inside
          rcases entries i _ stored with ⟨old, before, msg, error⟩
          obtain rfl : old = ⟨none, some .notExecuted⟩ := by
            change (checkBatch calls batch : Checked C M E).res[i]? = some old at before
            rw [fresh, List.getElem?_replicate_of_lt bound] at before
            exact (Option.some.inj before).symm
          refine ⟨_, stored, .inr ⟨fun _ => List.not_mem_nil, msg, ?_⟩⟩
          rcases error with same | failed
          · exact .inl same
          · exact .inr (.inl failed)
    | @collected s waits finished =>
        have aligned := waits.aligned acceptable
        have settled := pending_finished finished
        refine ⟨aligned.entries.length, ?_, ?_⟩
        · intro i rpc listed
          rcases aligned.entries.entry i rpc listed with
            ⟨entry, stored, read | ⟨never, msg, ⟨waiting, _⟩ | past⟩⟩
          · exact ⟨entry, stored, .inl read⟩
          · rw [settled] at waiting
            exact absurd waiting List.not_mem_nil
          · refine ⟨entry, stored, .inr ⟨?_, msg, .inr (.inr past)⟩⟩
            exact fun result taken => never (List.mem_map_of_mem taken)
        · exact fun allOK => aligned.errors_nil finished (by simpa using allOK)
  · intro s waits
    have aligned := waits.aligned acceptable
    exact ⟨aligned.channels.taken, aligned.channels.once, Collect.returns indexed aligned⟩

end SendBatch

def numberedCalls : BatchCalls Nat := ⟨fun _ => [116], fun _ => true⟩

theorem send_batch_aligned_cancelled :
    ∃ (res : List (BatchResult Nat String)) (allOK : Bool)
      (taken : List (Nat × BatchResult Nat String)) (ctxErr : Option String),
      SendBatch numberedCalls (fun _ => .ok 0) (.stored (Σ _ : Nat, List Nat)) [10, 20] res allOK
        taken ctxErr ∧ taken = [(20, ⟨some 7, none⟩)] ∧ res.length = 2 ∧
      (∃ entry, res[0]? = some entry ∧ ((10, entry) ∈ taken ∨ entry.msg = none)) ∧
      (allOK = true → ∀ entry ∈ res, entry.error = none) := by
  have run : Relation.ReflTransGen (fun s s' => Environment s s' ∨
      Collect (checkBatch numberedCalls [10, 20] : Checked Nat Nat String).rpcToRes s s')
      (queued (findClients (fun _ => .ok 0) 0 [10, 20]
        ⟨(checkBatch numberedCalls [10, 20] : Checked Nat Nat String).res, ∅, true⟩)
        (.stored (Σ _ : Nat, List Nat))) _ := .refl
  replace run := run.tail (.inl (.deliver 20 ⟨some 7, none⟩ List.not_mem_nil))
  replace run := run.tail (.inl (.cancel "context canceled" rfl))
  replace run := run.tail (.inr (.cancelled rfl rfl nofun))
  replace run := run.tail (.inr (.default rfl rfl rfl))
  replace run := run.tail (.inr (.read rfl rfl))
  replace run := run.tail (.inr (.completed rfl))
  have returned : SendBatch numberedCalls (fun _ => .ok 0) (.stored (Σ _ : Nat, List Nat)) [10, 20]
      _ _ _ _ := .collected ⟨nofun, rfl, rfl, run⟩ rfl
  have acceptable : Acceptable numberedCalls [10, 20] := ⟨by decide, by decide, by decide⟩
  rcases (send_batch_aligned numberedCalls _ _ [10, 20] acceptable).1 _ _ _ _ returned with
    ⟨length, entries, good⟩
  rcases entries 0 10 rfl with ⟨entry, stored, read | ⟨_, msg, _⟩⟩
  · exact ⟨_, _, _, _, returned, rfl, length, ⟨entry, stored, .inl read⟩, good⟩
  · exact ⟨_, _, _, _, returned, rfl, length, ⟨entry, stored, .inr msg⟩, good⟩

end GoHBase
