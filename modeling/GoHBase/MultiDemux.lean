import GoHBase.MultiGrouping

/-! Every live call of a batch gets the answer to its own action. -/

namespace GoHBase

open ByteString Runtime Buffer RangeLoop Grouping

section Live

variable (expired : Nat → Bool) (calls : List Call)

theorem mem_liveCalls (c : Call) (position : Nat) :
    (c, position) ∈ liveCalls expired 0 calls ↔
      calls[position]? = some c ∧ expired position = false := by
  simp [liveCalls, List.mem_zipIdx_iff_getElem?]

theorem maskCalls_live : (maskCalls expired 0 calls).filterMap id =
    (liveCalls expired 0 calls).map Prod.fst := by
  unfold maskCalls liveCalls
  rw [List.filterMap_map]
  induction calls.zipIdx 0 with
  | nil => rfl
  | cons entry entries ih =>
      by_cases gone : expired entry.2
      · simp only [List.filterMap_cons, List.filter_cons, Function.comp_apply, gone]
        exact ih
      · simp only [List.filterMap_cons, List.filter_cons, Function.comp_apply, gone]
        exact congrArg (entry.1 :: ·) ih

theorem maskCalls_getElem (c : Call) (position : Nat)
    (member : (c, position) ∈ liveCalls expired 0 calls) :
    (maskCalls expired 0 calls)[position]? = some (some c) := by
  obtain ⟨found, wanted⟩ := (mem_liveCalls expired calls c position).mp member
  simp [maskCalls, found, wanted]

end Live

def Sent.index (sent : Sent) : UInt32 := UInt32.ofNat sent.position + 1

theorem Sent.action_index (sent : Sent) : sent.action.index = some sent.index := by
  unfold action Request.action
  cases sent.request with
  | get request => rfl
  | mutate request => rfl

def ResultOrException.resultFor (roe : ResultOrException) (c : Call) : RPCResult :=
  match roe.exception with
  | some e => .error (exceptionToError e.name e.value)
  | none => .message (c.respond roe.result)

theorem Multi.returnAction_eq (m : Multi) (roe : ResultOrException) :
    m.returnAction roe =
      (m.get (roe.index.getD 0) >>= fun stored =>
        deref stored >>= fun c => .ok (c, roe.resultFor c)) := by
  unfold Multi.returnAction ResultOrException.resultFor
  cases roe.exception with
  | some e => rfl
  | none => rfl

def Answers (ra : RegionAction) (rar : RegionActionResult) : Prop :=
  (rar.exception.isSome ∧ rar.resultOrException = []) ∨
    (rar.exception = none ∧
      (rar.resultOrException.map ResultOrException.index).Perm (ra.action.map Action.index) ∧
      ∀ roe ∈ rar.resultOrException, roe.result.isSome ≠ roe.exception.isSome)

def Conforming (request : MultiRequest) (response : MultiResponse) : Prop :=
  List.Forall₂ Answers request response

def Produced (request : MultiRequest) (response : MultiResponse) (c : Call) (idx : UInt32)
    (result : RPCResult) : Prop :=
  ∃ entry ∈ request.zip response, some idx ∈ entry.1.action.map Action.index ∧
    ((∃ e, entry.2.exception = some e ∧ result = .error (exceptionToError e.name e.value)) ∨
      (entry.2.exception = none ∧
        ∃ roe ∈ entry.2.resultOrException, roe.index = some idx ∧ result = roe.resultFor c))

section Demux

variable {isCellblocks : Bool} {run : MultiRun} {calls : List Call} {cbs cbs' : List Bytes}
  {m : Multi} {request : MultiRequest} {size : UInt32} {sent : List Sent}
  {regions : List RegionInfo}
  (layout : Layout isCellblocks run calls cbs m request cbs' size sent regions)
  (few : calls.length < 2 ^ 32)

include layout

theorem Layout.sent_live (s : Sent) (member : s ∈ sent) :
    (s.call, s.position) ∈ liveCalls run.expired 0 calls := by
  rw [← (encoded_sent layout.encoded).1]
  exact List.mem_map_of_mem member

theorem Layout.walk_perm : (regions.flatMap (onRegion sent)).Perm sent := by
  have split := flatMap_members_perm (fun s => Call.region (Sent.call s)) (regions.map some)
    (layout.distinct.map (Option.some_injective _)) sent fun s member => by
      obtain ⟨region, listed, same⟩ := layout.covered s member
      exact List.mem_map.mpr ⟨region, listed, same.symm⟩
  rw [List.flatMap_map] at split
  exact split

include few

theorem Layout.get_index (s : Sent) (member : s ∈ sent) : m.get s.index = .ok (some s.call) := by
  have live := layout.sent_live s member
  obtain ⟨found, wanted⟩ := (mem_liveCalls run.expired calls s.call s.position).mp live
  have bound : s.position < calls.length := (List.getElem?_eq_some_iff.mp found).1
  have word : (UInt32.ofNat s.position).toNat = s.position :=
    UInt32.toNat_ofNat_of_lt' (by change _ < 2 ^ 32; omega)
  have nonzero : s.index ≠ 0 := by
    intro zero
    have wrapped := congrArg UInt32.toNat zero
    simp only [Sent.index, UInt32.toNat_add, word, UInt32.reduceToNat] at wrapped
    omega
  have shifted : (s.index - 1).toNat = s.position := by
    rw [Sent.index, UInt32.add_sub_cancel, word]
  have stored := maskCalls_getElem run.expired calls s.call s.position live
  simp only [Multi.get, nonzero, ↓reduceIte, shifted, index, layout.masked, stored]

theorem Layout.returnAction_index (s : Sent) (member : s ∈ sent) (roe : ResultOrException)
    (matched : roe.index = some s.index) :
    m.returnAction roe = .ok (s.call, roe.resultFor s.call) := by
  rw [m.returnAction_eq, matched, Option.getD_some, layout.get_index few s member, ok_bind,
    deref, ok_bind]

omit few in
theorem Layout.failCalls_region (region : RegionInfo) (err : RpcError) :
    failCalls m.calls (fun c => decide (c.region = some region)) err =
      (onRegion sent region).map fun s => (s.call, .error err) := by
  have live : m.calls.filterMap id = sent.map Sent.call := by
    rw [layout.masked, maskCalls_live, ← (encoded_sent layout.encoded).1, List.map_map]
    rfl
  rw [failCalls, live, List.filter_map, List.map_map]
  rfl

theorem Layout.returnActions_ok (roes : List ResultOrException) (group : List Sent)
    (paired : List.Forall₂ (fun roe s => roe.index = some s.index) roes group)
    (members : ∀ s ∈ group, s ∈ sent) :
    ∃ tagged : List (Sent × RPCResult),
      roes.mapM m.returnAction = .ok (tagged.map fun t => (t.1.call, t.2)) ∧
      tagged.map Prod.fst = group ∧
      ∀ t ∈ tagged, ∃ roe ∈ roes, roe.index = some t.1.index ∧ t.2 = roe.resultFor t.1.call := by
  induction paired with
  | nil => exact ⟨[], rfl, rfl, by simp⟩
  | @cons roe s roes group matched paired ih =>
      obtain ⟨tagged, ran, same, produced⟩ := ih fun s member => members s (by simp [member])
      refine ⟨(s, roe.resultFor s.call) :: tagged, ?_, by simp [same], ?_⟩
      · rw [List.mapM_cons, layout.returnAction_index few s (members s (by simp)) roe matched,
          ok_bind, ran, ok_bind]
        rfl
      · intro t member
        cases List.mem_cons.mp member with
        | inl head => exact ⟨roe, by simp, by rw [head]; exact ⟨matched, rfl⟩⟩
        | inr tail =>
            obtain ⟨found, inside, facts⟩ := produced t tail
            exact ⟨found, by simp [inside], facts⟩

theorem Layout.returnRegion_ok (i : Nat) (region : RegionInfo) (placed : regions[i]? = some region)
    (rar : RegionActionResult)
    (answers : Answers ⟨⟨region.name⟩, (onRegion sent region).map Sent.action⟩ rar) :
    ∃ tagged : List (Sent × RPCResult),
      m.returnRegion i rar = .ok (tagged.map fun t => (t.1.call, t.2)) ∧
      (tagged.map Prod.fst).Perm (onRegion sent region) ∧
      ∀ t ∈ tagged,
        (∃ e, rar.exception = some e ∧ t.2 = .error (exceptionToError e.name e.value)) ∨
          (rar.exception = none ∧
            ∃ roe ∈ rar.resultOrException, roe.index = some t.1.index ∧
              t.2 = roe.resultFor t.1.call) := by
  have members : ∀ s ∈ onRegion sent region, s ∈ sent := by
    intro s member
    exact (List.mem_filter.mp member).1
  cases failed : rar.exception with
  | some e =>
      refine ⟨(onRegion sent region).map fun s => (s, .error (exceptionToError e.name e.value)),
        ?_, ?_, ?_⟩
      · have listed : index m.regions i = .ok (some region) := by
          simp [index, layout.ordered, placed]
        simp only [Multi.returnRegion, failed, listed, ok_bind, layout.failCalls_region,
          List.map_map]
        rfl
      · simp [Function.comp_def]
      · intro t member
        obtain ⟨s, _, rfl⟩ := List.mem_map.mp member
        exact .inl ⟨e, rfl, rfl⟩
  | none =>
      obtain ⟨whole, _⟩ | ⟨_, indices, _⟩ := answers
      · rw [failed] at whole
        cases whole
      · have matched : List.Forall₂ (fun idx s => idx = some (Sent.index s))
            (((onRegion sent region).map Sent.action).map Action.index) (onRegion sent region) := by
          rw [List.map_map, List.forall₂_map_left_iff, List.forall₂_same]
          intro s _
          exact s.action_index
        obtain ⟨group, paired, perm⟩ := List.perm_comp_forall₂ indices matched
        rw [List.forall₂_map_left_iff] at paired
        obtain ⟨tagged, ran, same, produced⟩ := layout.returnActions_ok few _ group paired
          fun s member => members s (perm.mem_iff.mp member)
        refine ⟨tagged, ?_, same ▸ perm, fun t member => .inr ⟨rfl, produced t member⟩⟩
        rw [Multi.returnRegion, failed]
        exact ran

theorem Layout.returnRegions_ok (i : Nat) (later : List RegionInfo)
    (placed : regions.drop i = later) (response : MultiResponse)
    (conforming : Conforming (later.map fun region =>
      ⟨⟨region.name⟩, (onRegion sent region).map Sent.action⟩) response) :
    ∃ tagged : List (Sent × RPCResult),
      m.returnRegions i response = .ok (tagged.map fun t => (t.1.call, t.2)) ∧
      (tagged.map Prod.fst).Perm (later.flatMap (onRegion sent)) ∧
      ∀ t ∈ tagged, Produced (later.map fun region =>
        ⟨⟨region.name⟩, (onRegion sent region).map Sent.action⟩) response t.1.call t.1.index
          t.2 := by
  induction later generalizing i response with
  | nil =>
      cases conforming
      exact ⟨[], rfl, by simp, by simp⟩
  | cons region later ih =>
      rw [List.map_cons, Conforming, List.forall₂_cons_left_iff] at conforming
      obtain ⟨rar, rest, answers, conforming, rfl⟩ := conforming
      have here : regions[i]? = some region := by
        rw [← List.head?_drop, placed, List.head?_cons]
      have next : regions.drop (i + 1) = later := by
        rw [← List.drop_drop, placed, List.drop_one, List.tail_cons]
      obtain ⟨first, ranFirst, permFirst, producedFirst⟩ :=
        layout.returnRegion_ok few i region here rar answers
      obtain ⟨others, ranOthers, permOthers, producedOthers⟩ := ih (i + 1) next rest conforming
      refine ⟨first ++ others, ?_, ?_, ?_⟩
      · rw [Multi.returnRegions, ranFirst, ok_bind, ranOthers, ok_bind, List.map_append]
        rfl
      · rw [List.map_append, List.flatMap_cons]
        exact permFirst.append permOthers
      · intro t member
        cases List.mem_append.mp member with
        | inl head =>
            refine ⟨(_, rar), List.mem_cons_self, ?_, producedFirst t head⟩
            have grouped := permFirst.mem_iff.mp (List.mem_map_of_mem head)
            rw [List.map_map]
            exact List.mem_map.mpr ⟨t.1, grouped, t.1.action_index⟩
        | inr tail =>
            obtain ⟨entry, zipped, facts⟩ := producedOthers t tail
            exact ⟨entry, List.mem_cons_of_mem _ zipped, facts⟩

end Demux

/-- With fewer than `2 ^ 32` calls, the results are those the server produced for the
actions of the live calls, one for each of them. -/
theorem returnResults_exact (m m' : Multi) (isCellblocks : Bool) (run : MultiRun)
    (calls : List Call) (cbs cbs' : List Bytes) (request : MultiRequest) (size : UInt32)
    (batched : m.calls = calls.map some) (few : calls.length < 2 ^ 32)
    (returned : m.toProto isCellblocks run cbs = .ok (m', request, cbs', size))
    (response : MultiResponse) (conforming : Conforming request response) :
    ∃ tagged : List (Nat × Delivery),
      m'.returnResults (some response) none = .ok (tagged.map Prod.snd) ∧
      (tagged.map fun t => (t.2.1, t.1)).Perm (liveCalls run.expired 0 calls) ∧
      ∀ t ∈ tagged, Produced request response t.2.1 (UInt32.ofNat (t.1 + 1)) t.2.2 := by
  obtain ⟨sent, regions, layout⟩ := Multi.toProto_layout batched returned
  have requested := layout.actions
  subst requested
  obtain ⟨tagged, ran, perm, produced⟩ :=
    layout.returnRegions_ok few 0 regions rfl response conforming
  refine ⟨tagged.map fun t => (t.1.position, t.1.call, t.2), ?_, ?_, ?_⟩
  · rw [Multi.returnResults, ran, List.map_map]
    rfl
  · have live := (perm.trans layout.walk_perm).map fun s => (s.call, s.position)
    rw [(encoded_sent layout.encoded).1, List.map_map] at live
    rw [List.map_map]
    exact live
  · intro t member
    obtain ⟨source, inside, rfl⟩ := List.mem_map.mp member
    rw [UInt32.ofNat_add]
    exact produced source inside

def sampleGet (ref : Nat) (region : RegionInfo) : Call where
  ref := ref
  rpc := .get {
    key := [97]
    region := some region
    families := ∅
    filter := none
    fromTimestamp := minTimestamp
    toTimestamp := maxTimestamp
    maxVersions := defaultMaxVersions
    storeLimit := defaultMaxResultsPerColumnFamily
    storeOffset := 0
    cacheBlocks := defaultCacheBlocks
    consistency := defaultConsistency
    existsOnly := false
  }

def sampleRun (expired : Nat → Bool) : MultiRun where
  expired := expired
  orders := fun _ => ⟨.stored _, ⟨⟨.stored _, fun _ => .stored _⟩, ⟨.stored _, fun _ => .stored _⟩,
    ⟨.stored _, fun _ => .stored _⟩⟩⟩
  regions := .stored _

def sampleResult : PbResult := ⟨[], none, none, none, none⟩

def sampleBatch : List Call :=
  [sampleGet 0 (sampleRegion 0 1 [] [109]), sampleGet 1 (sampleRegion 0 1 [] [109]),
    sampleGet 2 (sampleRegion 1 2 [109] [])]

def sampleResponse : MultiResponse :=
  [⟨[], some ⟨"org.apache.hadoop.hbase.NotServingRegionException", []⟩⟩,
    ⟨[⟨some 1, some sampleResult, none⟩], none⟩]

theorem returnResults_exact_three :
    ∃ m' request cbs' size,
      Multi.toProto ⟨3, sampleBatch.map some, []⟩ true (sampleRun fun i => i == 1) [] =
        .ok (m', request, cbs', size) ∧
      Conforming request sampleResponse ∧
      ∃ tagged : List (Nat × Delivery),
        m'.returnResults (some sampleResponse) none = .ok (tagged.map Prod.snd) ∧
        (tagged.map fun t => (t.2.1, t.1)).Perm (liveCalls (fun i => i == 1) 0 sampleBatch) ∧
        ∀ t ∈ tagged,
          Produced request sampleResponse t.2.1 (UInt32.ofNat (t.1 + 1)) t.2.2 := by
  refine ⟨_, _, _, _, rfl, ?_, returnResults_exact ⟨3, sampleBatch.map some, []⟩ _ true
    (sampleRun fun i => i == 1) sampleBatch [] _ _ _ rfl (by decide) rfl sampleResponse ?_⟩
  · exact .cons (.inl ⟨rfl, rfl⟩) (.cons (.inr ⟨rfl, .refl _, by simp⟩) .nil)
  · exact .cons (.inl ⟨rfl, rfl⟩) (.cons (.inr ⟨rfl, .refl _, by simp⟩) .nil)

def repeatedGets (count : Nat) : List Call :=
  List.replicate count (sampleGet 0 (sampleRegion 0 1 [] []))

theorem toProto_repeated (k : Nat) :
    ∃ m' request cbs' size front last,
      Multi.toProto ⟨2, (repeatedGets (k + 1)).map some, []⟩ true (sampleRun fun _ => false) [] =
        .ok (m', request, cbs', size) ∧
      request = [⟨⟨[116, 44, 44, 49]⟩, (front ++ [last]).map Sent.action⟩] ∧
      last.position = k := by
  have same : ∀ entry ∈ liveCalls (fun _ => false) 0 (repeatedGets (k + 1)),
      entry.1 = sampleGet 0 (sampleRegion 0 1 [] []) := by
    intro entry member
    obtain ⟨found, _⟩ := (mem_liveCalls _ _ entry.1 entry.2).mp member
    exact List.eq_of_mem_replicate (List.mem_of_getElem? found)
  obtain ⟨sent, encoded⟩ := mapM_total (encodeCall true (sampleRun fun _ => false).orders)
    (liveCalls (fun _ => false) 0 (repeatedGets (k + 1))) fun entry member => by
      obtain ⟨c, i⟩ := entry
      obtain rfl : c = _ := same _ member
      exact ⟨_, rfl⟩
  obtain ⟨⟨m', request, cbs', size⟩, returned⟩ := Multi.toProto_total
    ⟨2, (repeatedGets (k + 1)).map some, []⟩ true (sampleRun fun _ => false) _ [] rfl sent encoded
  obtain ⟨sent, regions, layout⟩ := Multi.toProto_layout rfl returned
  have tags := (encoded_sent layout.encoded).1
  have onSample : ∀ s ∈ sent, s.call.region = some (sampleRegion 0 1 [] []) := by
    intro s member
    have sampled : s.call = sampleGet 0 (sampleRegion 0 1 [] []) :=
      same _ (layout.sent_live s member)
    rw [sampled]
    rfl
  have split : liveCalls (fun _ => false) 0 (repeatedGets (k + 1)) =
      liveCalls (fun _ => false) 0 (repeatedGets k) ++
        [(sampleGet 0 (sampleRegion 0 1 [] []), k)] := by
    simp [liveCalls, repeatedGets, List.replicate_succ', List.zipIdx_append]
  rw [show (sampleRun fun _ => false).expired = fun _ => false from rfl, split,
    List.map_eq_append_iff] at tags
  obtain ⟨front, ending, rfl, _, tail⟩ := tags
  obtain ⟨last, rfl, position⟩ := List.map_eq_singleton_iff.mp tail
  have single : regions = [sampleRegion 0 1 [] []] := by
    have all : ∀ region ∈ regions, region = sampleRegion 0 1 [] [] := by
      intro region listed
      obtain ⟨s, inside, assigned⟩ := layout.used region listed
      rw [onSample s inside] at assigned
      exact (Option.some.inj assigned).symm
    have copies := List.eq_replicate_of_mem all
    have atMost : regions.length ≤ 1 := by
      have distinct := layout.distinct
      rw [copies] at distinct
      exact List.nodup_replicate.mp distinct
    obtain ⟨region, listed, _⟩ := layout.covered last (by simp)
    have atLeast := List.length_pos_of_mem listed
    rw [copies, show regions.length = 1 by omega]
    rfl
  have whole : onRegion (front ++ [last]) (sampleRegion 0 1 [] []) = front ++ [last] :=
    List.filter_eq_self.mpr fun s member => decide_eq_true (onSample s member)
  refine ⟨m', request, cbs', size, front, last, returned, ?_, (Prod.mk.inj position).2⟩
  rw [layout.actions, single, List.map_singleton, whole]
  rfl

/-- The last of `2 ^ 32` calls is sent under index zero, and the answer to it panics. -/
theorem returnResults_index_wraps :
    ∃ m' request cbs' size response,
      Multi.toProto ⟨2, (repeatedGets (2 ^ 32)).map some, []⟩ true (sampleRun fun _ => false) [] =
        .ok (m', request, cbs', size) ∧
      Conforming request response ∧
      m'.returnResults (some response) none = .error (.panic "index cannot be 0") := by
  obtain ⟨m', request, cbs', size, front, last, returned, rfl, position⟩ :=
    toProto_repeated (2 ^ 32 - 1)
  have wraps : last.index = 0 := by
    rw [Sent.index, position]
    decide
  refine ⟨m', _, cbs', size,
    [⟨(front ++ [last]).reverse.map fun s => ⟨some s.index, some sampleResult, none⟩, none⟩],
    returned, .cons (.inr ⟨rfl, ?_, ?_⟩) .nil, ?_⟩
  · rw [List.map_map, List.map_map]
    have indices : (Action.index ∘ Sent.action) = fun s => some s.index :=
      funext Sent.action_index
    rw [indices]
    exact (List.reverse_perm _).map _
  · intro roe member
    obtain ⟨s, _, rfl⟩ := List.mem_map.mp member
    simp
  · simp only [Multi.returnResults, Multi.returnRegions, Multi.returnRegion, List.reverse_append,
      List.reverse_singleton, List.singleton_append, List.map_cons, List.mapM_cons,
      Multi.returnAction, wraps, Option.getD_some, Multi.get, ↓reduceIte]
    rfl

end GoHBase
