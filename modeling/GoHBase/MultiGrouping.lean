import GoHBase.Lib.Grouping
import GoHBase.MultiCore

/-! What `toProto` of a batch builds: the live calls, encoded one by one and
grouped by region. -/

namespace GoHBase

open ByteString Runtime Buffer RangeLoop Grouping

def liveCalls (expired : Nat → Bool) (start : Nat) (calls : List Call) : List (Call × Nat) :=
  (calls.zipIdx start).filter fun entry => !expired entry.2

def maskCalls (expired : Nat → Bool) (start : Nat) (calls : List Call) : List (Option Call) :=
  (calls.zipIdx start).map fun entry => if expired entry.2 then none else some entry.1

structure Sent where
  position : Nat
  call : Call
  request : Request
  cellblocks : List Bytes
  size : UInt32

def Sent.action (sent : Sent) : Action := sent.request.action (UInt32.ofNat sent.position + 1)

def Actions.extend (as : Actions) (sent : Sent) : Actions :=
  ⟨as.pbs ++ [sent.action], as.cellblocks ++ sent.cellblocks⟩

def encodeCall (isCellblocks : Bool) (orders : Nat → CallOrders) (entry : Call × Nat) :
    Go Sent := do
  let (msg, own, sz) ← entry.1.serialize isCellblocks (orders entry.2) []
  pure ⟨entry.2, entry.1, msg, own, sz⟩

def groupSent (sent : List Sent) (groups : ActionsPerReg) : ActionsPerReg :=
  sent.foldl (accumulate (fun s => s.call.region) ⟨[], []⟩ Actions.extend) groups

theorem Mutate.serializeCellBlocks_append (m : Mutate) (orders : MutateOrders) (cbs : List Bytes) :
    m.serializeCellBlocks orders cbs = (m.serializeCellBlocks orders []).map
      fun (request, own, size) => (request, cbs ++ own, size) := by
  simp only [serializeCellBlocks, toProto, addValues, ↓reduceIte]
  cases durabilityOf m.durability with
  | error abort => rfl
  | ok durability =>
      cases m.valuesToCellblocks orders.measuring orders.writing with
      | error abort => rfl
      | ok encoded =>
          obtain ⟨cellblocks, count, size⟩ := encoded
          cases m.region with
          | none => rfl
          | some region =>
              by_cases positive : 0 < size
              · simp [positive, regionSpecifier, pure, Except.pure, Except.map]
              · simp [positive, regionSpecifier, pure, Except.pure, Except.map]

theorem Call.serialize_append (c : Call) (isCellblocks : Bool) (orders : CallOrders)
    (cellblocks : List Bytes) :
    c.serialize isCellblocks orders cellblocks = (c.serialize isCellblocks orders []).map
      fun (msg, own, sz) => (msg, cellblocks ++ own, sz) := by
  obtain ⟨ref, rpc⟩ := c
  cases rpc with
  | get g =>
      simp only [serialize]
      cases g.toProto orders.columns with
      | error abort => rfl
      | ok msg => simp [pure, Except.pure, Except.map]
  | mutate m =>
      cases isCellblocks with
      | false =>
          simp only [serialize, Bool.false_eq_true, ↓reduceIte]
          cases m.toProtoMessage orders.mutate with
          | error abort => rfl
          | ok msg => simp [pure, Except.pure, Except.map]
      | true =>
          simp only [serialize, ↓reduceIte]
          rw [m.serializeCellBlocks_append orders.mutate cellblocks]
          cases m.serializeCellBlocks orders.mutate [] with
          | error abort => rfl
          | ok encoded => rfl

theorem Aggregate.addCall_eq (state : Aggregate) (isCellblocks : Bool) (orders : Nat → CallOrders)
    (i : Nat) (c : Call) :
    state.addCall isCellblocks (orders i) i c =
      (encodeCall isCellblocks orders (c, i)).map fun sent =>
        ⟨state.calls ++ [some c], groupSent [sent] state.actionsPerReg,
          state.size + sent.size⟩ := by
  unfold addCall encodeCall
  simp only
  rw [c.serialize_append]
  cases c.serialize isCellblocks (orders i) [] with
  | error abort => rfl
  | ok encoded => rfl

theorem aggregate_eq (isCellblocks : Bool) (expired : Nat → Bool) (orders : Nat → CallOrders)
    (i : Nat) (calls : List Call) (state : Aggregate) :
    aggregate isCellblocks expired orders i (calls.map some) state =
      ((liveCalls expired i calls).mapM (encodeCall isCellblocks orders)).map fun sent =>
        ⟨state.calls ++ maskCalls expired i calls, groupSent sent state.actionsPerReg,
          sent.foldl (fun size s => size + s.size) state.size⟩ := by
  induction calls generalizing i state with
  | nil => simp [aggregate, liveCalls, maskCalls, groupSent, pure, Except.pure, Except.map]
  | cons c calls ih =>
      have masked : maskCalls expired i (c :: calls) =
          (if expired i then none else some c) :: maskCalls expired (i + 1) calls := rfl
      rw [List.map_cons, aggregate, masked]
      by_cases gone : expired i
      · have live : liveCalls expired i (c :: calls) = liveCalls expired (i + 1) calls := by
          simp [liveCalls, gone]
        rw [if_pos gone, if_pos gone, live, ih]
        simp
      · have live : liveCalls expired i (c :: calls) =
            (c, i) :: liveCalls expired (i + 1) calls := by
          simp [liveCalls, gone]
        rw [if_neg gone, if_neg gone, live, state.addCall_eq, List.mapM_cons]
        cases encodeCall isCellblocks orders (c, i) with
        | error abort => rfl
        | ok sent =>
            simp only [Except.map, ok_bind, ih]
            cases (liveCalls expired (i + 1) calls).mapM (encodeCall isCellblocks orders) with
            | error abort => rfl
            | ok later => simp [groupSent, pure, Except.pure]

theorem encoded_sent {isCellblocks : Bool} {orders : Nat → CallOrders} {live : List (Call × Nat)}
    {sent : List Sent} (encoded : live.mapM (encodeCall isCellblocks orders) = .ok sent) :
    sent.map (fun s => (s.call, s.position)) = live ∧
      ∀ s ∈ sent, s.call.serialize isCellblocks (orders s.position) [] =
        .ok (s.request, s.cellblocks, s.size) := by
  rw [mapM_ok_iff] at encoded
  induction encoded with
  | nil => simp
  | cons first later ih =>
      simp only [encodeCall, bind_ok_iff] at first
      obtain ⟨output, serialized, finished⟩ := first
      cases finished
      obtain ⟨same, rest⟩ := ih
      refine ⟨congrArg (_ :: ·) same, ?_⟩
      intro s member
      cases List.mem_cons.mp member with
      | inl head => rw [head]; exact serialized
      | inr tail => exact rest s tail

def onRegion (sent : List Sent) (region : RegionInfo) : List Sent :=
  members (fun s => s.call.region) sent (some region)

theorem foldl_extend (sent : List Sent) (as : Actions) :
    sent.foldl Actions.extend as =
      ⟨as.pbs ++ sent.map Sent.action, as.cellblocks ++ sent.flatMap Sent.cellblocks⟩ := by
  induction sent generalizing as with
  | nil => simp
  | cons first sent ih => simp [ih, Actions.extend]

theorem buildRegionActions_ok {entries : List (Σ _ : Option RegionInfo, Actions)}
    {cbs cbs' : List Bytes} {ra : MultiRequest}
    (built : buildRegionActions entries cbs = .ok (ra, cbs')) :
    ∃ regions : List RegionInfo, entries.map Sigma.fst = regions.map some ∧
      ra = List.zipWith (fun region entry => ⟨⟨region.name⟩, entry.2.pbs⟩) regions entries ∧
      cbs' = cbs ++ entries.flatMap fun entry => entry.2.cellblocks := by
  induction entries generalizing cbs ra with
  | nil =>
      cases built
      exact ⟨[], rfl, rfl, by simp⟩
  | cons entry entries ih =>
      obtain ⟨key, as⟩ := entry
      simp only [buildRegionActions, bind_ok_iff] at built
      obtain ⟨specifier, located, ⟨later, cbsOut⟩, rest, finished⟩ := built
      cases finished
      obtain ⟨regions, keys, rfl, rfl⟩ := ih rest
      cases key with
      | none => cases located
      | some region =>
          cases located
          exact ⟨region :: regions, by simp [keys], rfl, by simp⟩

structure Layout (isCellblocks : Bool) (run : MultiRun) (calls : List Call) (cbs : List Bytes)
    (m : Multi) (request : MultiRequest) (cbs' : List Bytes) (size : UInt32) (sent : List Sent)
    (regions : List RegionInfo) : Prop where
  encoded : (liveCalls run.expired 0 calls).mapM (encodeCall isCellblocks run.orders) = .ok sent
  masked : m.calls = maskCalls run.expired 0 calls
  ordered : m.regions = regions.map some
  distinct : regions.Nodup
  covered : ∀ s ∈ sent, ∃ region ∈ regions, s.call.region = some region
  used : ∀ region ∈ regions, ∃ s ∈ sent, s.call.region = some region
  actions : request = regions.map fun region =>
    ⟨⟨region.name⟩, (onRegion sent region).map Sent.action⟩
  slices : cbs' =
    cbs ++ regions.flatMap fun region => (onRegion sent region).flatMap Sent.cellblocks
  total : size = sent.foldl (fun size s => size + s.size) 0

theorem entries_by_region (sent : List Sent) (entries : List (Σ _ : Option RegionInfo, Actions))
    (regions : List RegionInfo) (keys : entries.map Sigma.fst = regions.map some)
    (shape : ∀ entry ∈ entries, entry.2 =
      ⟨(members (fun s => s.call.region) sent entry.1).map Sent.action,
        (members (fun s => s.call.region) sent entry.1).flatMap Sent.cellblocks⟩) :
    List.zipWith (fun region entry => (⟨⟨region.name⟩, entry.2.pbs⟩ : RegionAction)) regions
        entries =
        regions.map (fun region => ⟨⟨region.name⟩, (onRegion sent region).map Sent.action⟩) ∧
      (entries.flatMap fun entry => entry.2.cellblocks) =
        regions.flatMap fun region => (onRegion sent region).flatMap Sent.cellblocks := by
  induction regions generalizing entries with
  | nil =>
      obtain rfl : entries = [] := List.map_eq_nil_iff.mp keys
      exact ⟨rfl, rfl⟩
  | cons region regions ih =>
      cases entries with
      | nil => cases keys
      | cons entry entries =>
          simp only [List.map_cons, List.cons.injEq] at keys
          obtain ⟨head, later⟩ :=
            ih entries keys.2 fun entry member => shape entry (by simp [member])
          have first := shape entry (by simp)
          rw [keys.1] at first
          rw [List.zipWith_cons_cons, List.flatMap_cons, head, later, first]
          exact ⟨rfl, rfl⟩

theorem Multi.toProto_layout {m m' : Multi} {isCellblocks : Bool} {run : MultiRun}
    {calls : List Call} {cbs cbs' : List Bytes} {request : MultiRequest} {size : UInt32}
    (batched : m.calls = calls.map some)
    (returned : m.toProto isCellblocks run cbs = .ok (m', request, cbs', size)) :
    ∃ sent regions, Layout isCellblocks run calls cbs m' request cbs' size sent regions := by
  simp only [toProto, bind_ok_iff, batched, aggregate_eq, map_ok_iff] at returned
  obtain ⟨state, ⟨sent, encoded, rfl⟩, ⟨ra, cbsOut⟩, built, finished⟩ := returned
  cases finished
  obtain ⟨regions, keys, rfl, rfl⟩ := buildRegionActions_ok built
  have shape : ∀ entry ∈ run.regions.visit (groupSent sent ∅).entries,
      entry.2 = ⟨(members (fun s => s.call.region) sent entry.1).map Sent.action,
        (members (fun s => s.call.region) sent entry.1).flatMap Sent.cellblocks⟩ := by
    intro entry visited
    have member := (run.regions.mem_visit _ _).mp visited
    rw [((mem_entries_foldl _ _ _ sent entry).mp member).2, foldl_extend]
    simp
  obtain ⟨actions, slices⟩ := entries_by_region sent _ regions keys shape
  have visits := (run.regions.perm (groupSent sent ∅).entries).map Sigma.fst
  rw [keys] at visits
  refine ⟨sent, regions, encoded, rfl, keys, ?_, ?_, ?_, actions, by rw [slices], rfl⟩
  · have distinct := visits.nodup_iff.mpr (groupSent sent ∅).keys_nodup
    exact distinct.of_map
  · intro s member
    have visited := visits.mem_iff.mpr ((mem_keys_foldl _ _ _ sent _).mpr ⟨s, member, rfl⟩)
    obtain ⟨region, listed, same⟩ := List.mem_map.mp visited
    exact ⟨region, listed, same.symm⟩
  · intro region listed
    have grouped := visits.mem_iff.mp (List.mem_map_of_mem listed)
    exact (mem_keys_foldl _ _ _ sent _).mp grouped

theorem buildRegionActions_total (entries : List (Σ _ : Option RegionInfo, Actions))
    (cbs : List Bytes) (assigned : ∀ entry ∈ entries, entry.1 ≠ none) :
    ∃ output, buildRegionActions entries cbs = .ok output := by
  induction entries generalizing cbs with
  | nil => exact ⟨_, rfl⟩
  | cons entry entries ih =>
      obtain ⟨key, as⟩ := entry
      obtain ⟨region, rfl⟩ := Option.ne_none_iff_exists'.mp (assigned _ List.mem_cons_self)
      obtain ⟨output, ran⟩ := ih (cbs ++ as.cellblocks) fun entry member =>
        assigned entry (List.mem_cons_of_mem _ member)
      rw [buildRegionActions, regionSpecifier, ok_bind, ran]
      exact ⟨_, rfl⟩

theorem Call.serialize_region {c : Call} {isCellblocks : Bool} {orders : CallOrders}
    {cellblocks : List Bytes} {output : Request × List Bytes × UInt32}
    (serialized : c.serialize isCellblocks orders cellblocks = .ok output) : c.region ≠ none := by
  intro unset
  obtain ⟨ref, rpc⟩ := c
  cases rpc with
  | get g =>
      simp only [region] at unset
      simp only [serialize, Get.toProto, unset, regionSpecifier] at serialized
      cases serialized
  | mutate m =>
      simp only [region] at unset
      have stuck (cellblocks : Bool) (cbs : List Bytes)
          (output : MutateRequest × List Bytes × UInt32) :
          m.toProto cellblocks orders.mutate cbs ≠ .ok output := by
        intro returned
        simp only [Mutate.toProto, bind_ok_iff, unset, regionSpecifier] at returned
        obtain ⟨_, _, _, _, _, located, _⟩ := returned
        cases located
      cases isCellblocks with
      | false =>
          simp only [serialize, Bool.false_eq_true, ↓reduceIte, Mutate.toProtoMessage,
            bind_ok_iff] at serialized
          obtain ⟨_, ⟨_, returned, _⟩, _⟩ := serialized
          exact stuck _ _ _ returned
      | true =>
          simp only [serialize, ↓reduceIte, Mutate.serializeCellBlocks, bind_ok_iff] at serialized
          obtain ⟨_, returned, _⟩ := serialized
          exact stuck _ _ _ returned

theorem Multi.toProto_total (m : Multi) (isCellblocks : Bool) (run : MultiRun) (calls : List Call)
    (cbs : List Bytes) (batched : m.calls = calls.map some) (sent : List Sent)
    (encoded : (liveCalls run.expired 0 calls).mapM (encodeCall isCellblocks run.orders) =
      .ok sent) :
    ∃ output, m.toProto isCellblocks run cbs = .ok output := by
  have assigned : ∀ entry ∈ run.regions.visit (groupSent sent ∅).entries, entry.1 ≠ none := by
    intro entry visited
    have member := (run.regions.mem_visit _ _).mp visited
    obtain ⟨s, inside, same⟩ :=
      (mem_keys_foldl _ _ _ sent entry.1).mp (List.mem_map_of_mem member)
    rw [← same]
    exact Call.serialize_region ((encoded_sent encoded).2 s inside)
  obtain ⟨output, built⟩ := buildRegionActions_total _ cbs assigned
  rw [toProto, batched, aggregate_eq, encoded]
  simp only [Except.map, ok_bind, built]
  exact ⟨_, rfl⟩

end GoHBase
