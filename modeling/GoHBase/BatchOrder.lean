import GoHBase.ClientFlush
import GoHBase.BatchResults
import GoHBase.MultiLayout

/-! The order of batched calls: from the batch through the queue of the region client and the
multi it is flushed in to the actions of one MultiRequest. -/

namespace GoHBase

open Runtime RangeLoop Grouping Interleaving

section Groups

variable {C K M E : Type} (located : Nat → Except E K)

theorem mem_resolved (i : Nat) (rpcs : List C) (rc : K) (rpc : C)
    (member : (rc, rpc) ∈ resolved located i rpcs) :
    ∃ k, rpcs[k]? = some rpc ∧ located (i + k) = .ok rc := by
  induction rpcs generalizing i with
  | nil => cases member
  | cons first rpcs ih =>
      have later (found : (rc, rpc) ∈ resolved located (i + 1) rpcs) :
          ∃ k, (first :: rpcs)[k]? = some rpc ∧ located (i + k) = .ok rc := by
        rcases ih (i + 1) found with ⟨k, here, ok⟩
        refine ⟨k + 1, here, ?_⟩
        rw [← ok]
        congr 1
        omega
      rw [resolved] at member
      cases found : located i with
      | error err =>
          rw [found] at member
          exact later member
      | ok own =>
          rw [found] at member
          rcases List.mem_cons.mp member with same | member
          · cases same
            exact ⟨0, rfl, found⟩
          · exact later member

variable [DecidableEq K] {R : Type} [DecidableEq R] (region : C → R)

theorem group_members (batch : List C) (res : List (BatchResult M E))
    (accepted : (findClients located 0 batch ⟨res, ∅, true⟩).ok = true)
    (together : ∀ i j first second, batch[i]? = some first → batch[j]? = some second →
      region first = region second → located i = located j)
    (rc : K) (rpcs : List C)
    (member : ⟨rc, rpcs⟩ ∈ (findClients located 0 batch ⟨res, ∅, true⟩).rpcByClient.entries)
    (rpc : C) (inside : rpc ∈ rpcs) :
    members region rpcs (region rpc) = members region batch (region rpc) := by
  have calls := (findClients_ok located 0 batch _ accepted).2.2
  have shape := mem_rpcByClient located 0 batch res rc rpcs member
  rw [shape] at inside
  rcases List.mem_map.mp inside with ⟨entry, grouped, same⟩
  rcases List.mem_filter.mp grouped with ⟨listed, own⟩
  obtain rfl : entry = (rc, rpc) := Prod.ext (of_decide_eq_true own) same
  rcases mem_resolved located 0 batch rc rpc listed with ⟨i, here, ok⟩
  have all : ∀ other ∈ resolved located 0 batch, region other.2 = region rpc → other.1 = rc := by
    intro other found shared
    rcases mem_resolved located 0 batch other.1 other.2 found with ⟨j, there, answer⟩
    have equal := together j i other.2 rpc there here shared
    rw [Nat.zero_add] at ok answer
    rw [answer, ok] at equal
    exact Except.ok.inj equal
  rw [shape]
  conv_rhs => rw [← calls]
  rw [members, members, members, List.filter_map, List.filter_map, List.filter_filter]
  congr 1
  refine List.filter_congr ?_
  intro other found
  by_cases shared : region other.2 = region rpc
  · simp [shared, all other found shared]
  · simp [shared]

end Groups

def actionOf (isCellblocks : Bool) (orders : Nat → CallOrders) (entry : Call × Nat) : Action :=
  match encodeCall isCellblocks orders entry with
  | .ok sent => sent.action
  | .error _ => ⟨none, none, none⟩

def liveOn (live : List (Call × Nat)) (region : RegionInfo) : List (Call × Nat) :=
  members (fun entry => Call.region entry.1) live (some region)

structure InOrder (isCellblocks : Bool) (run : MultiRun) (calls : List Call)
    (request : MultiRequest) (regions : List RegionInfo) : Prop where
  distinct : regions.Nodup
  covered : ∀ entry ∈ liveCalls run.expired 0 calls, ∃ region ∈ regions,
    entry.1.region = some region
  actions : request = regions.map fun region => ⟨⟨region.name⟩,
    (liveOn (liveCalls run.expired 0 calls) region).map (actionOf isCellblocks run.orders)⟩
  once : (request.flatMap RegionAction.action).Perm
    ((liveCalls run.expired 0 calls).map (actionOf isCellblocks run.orders))

theorem actionOf_encoded {isCellblocks : Bool} {orders : Nat → CallOrders} {entry : Call × Nat}
    {sent : Sent} (encoded : encodeCall isCellblocks orders entry = .ok sent) :
    actionOf isCellblocks orders entry = sent.action ∧ sent.call = entry.1 := by
  refine ⟨by rw [actionOf, encoded], ?_⟩
  simp only [encodeCall, bind_ok_iff] at encoded
  rcases encoded with ⟨output, _, finished⟩
  cases finished
  rfl

theorem encoded_actions {isCellblocks : Bool} {orders : Nat → CallOrders}
    {live : List (Call × Nat)} {sent : List Sent}
    (encoded : live.mapM (encodeCall isCellblocks orders) = .ok sent) :
    sent.map Sent.action = live.map (actionOf isCellblocks orders) ∧
      ∀ region, (onRegion sent region).map Sent.action =
        (liveOn live region).map (actionOf isCellblocks orders) := by
  rw [mapM_ok_iff] at encoded
  induction encoded with
  | nil => exact ⟨rfl, fun _ => rfl⟩
  | @cons entry s live sent first _ ih =>
      rcases actionOf_encoded first with ⟨action, call⟩
      rcases ih with ⟨all, each⟩
      refine ⟨by rw [List.map_cons, List.map_cons, all, action], ?_⟩
      intro region
      by_cases same : entry.1.region = some region
      · have one : onRegion (s :: sent) region = s :: onRegion sent region := by
          simp [onRegion, members, call, same]
        have other : liveOn (entry :: live) region = entry :: liveOn live region := by
          simp [liveOn, members, same]
        rw [one, other, List.map_cons, List.map_cons, each, action]
      · have one : onRegion (s :: sent) region = onRegion sent region := by
          simp [onRegion, members, call, same]
        have other : liveOn (entry :: live) region = liveOn live region := by
          simp [liveOn, members, same]
        rw [one, other, each]

theorem Layout.inOrder {isCellblocks : Bool} {run : MultiRun} {calls : List Call}
    {cbs cbs' : List ByteString.Bytes} {m : Multi} {request : MultiRequest} {size : UInt32}
    {sent : List Sent} {regions : List RegionInfo}
    (layout : Layout isCellblocks run calls cbs m request cbs' size sent regions) :
    InOrder isCellblocks run calls request regions := by
  rcases encoded_actions layout.encoded with ⟨all, each⟩
  have tags := (encoded_sent layout.encoded).1
  refine ⟨layout.distinct, ?_, ?_, ?_⟩
  · intro entry member
    rw [← tags] at member
    rcases List.mem_map.mp member with ⟨s, listed, rfl⟩
    exact layout.covered s listed
  · rw [layout.actions]
    exact List.map_congr_left fun region _ => by rw [each region]
  · have walked : request.flatMap RegionAction.action =
        (regions.flatMap (onRegion sent)).map Sent.action := by
      rw [layout.actions, List.flatMap_map, List.map_flatMap]
    rw [walked, ← all]
    exact layout.walk_perm.map _

theorem liveCalls_append (expired : Nat → Bool) (start : Nat) (first later : List Call) :
    liveCalls expired start (first ++ later) =
      liveCalls expired start first ++ liveCalls expired (start + first.length) later := by
  rw [liveCalls, List.zipIdx_append, List.filter_append]
  rfl

theorem InOrder.together {isCellblocks : Bool} {run : MultiRun} {front group back : List Call}
    {request : MultiRequest} {regions : List RegionInfo}
    (ordered : InOrder isCellblocks run (front ++ group ++ back) request regions)
    (region : RegionInfo) (listed : region ∈ regions) :
    ∃ before after, (⟨⟨region.name⟩, before ++
      (liveOn (liveCalls run.expired front.length group) region).map
        (actionOf isCellblocks run.orders) ++ after⟩ : RegionAction) ∈ request := by
  have member := List.mem_map_of_mem (f := fun region => (⟨⟨region.name⟩,
    (liveOn (liveCalls run.expired 0 (front ++ group ++ back)) region).map
      (actionOf isCellblocks run.orders)⟩ : RegionAction)) listed
  rw [← ordered.actions, liveCalls_append, liveCalls_append, Nat.zero_add, liveOn, members,
    List.filter_append, List.filter_append, List.map_append, List.map_append] at member
  exact ⟨_, _, member⟩

def orderedBatch : List Call :=
  [sampleGet 0 (sampleRegion 0 1 [] []), sampleGet 1 (sampleRegion 0 1 [] [])]

def orderedPair : List RegionClient.Submission := [⟨0, 0, 0⟩, ⟨1, 0, 0⟩]

def orderedClient : Config RegionClient.Shared RegionClient.Thread where
  shared := { (RegionClient.dialed true).shared with
    takings := 1
    started := 2
    submitted := orderedPair }
  threads := .finished ::ₘ .marshal .flush (.multi 0 orderedPair) ::ₘ .receiveRPCs ::ₘ 0

theorem orderedClient_run :
    (RegionClient.client ⟨2, 0⟩).Run (fun _ _ => True) (RegionClient.dialed true)
      orderedClient := by
  have run : (RegionClient.client ⟨2, 0⟩).Run (fun _ _ => True) (RegionClient.dialed true)
      ⟨(RegionClient.dialed true).shared,
        ([.newMulti, .receiveRPCs] : List RegionClient.Thread)⟩ := .refl
  replace run := run.moves 0 rfl .newMulti trivial
  have queued : (RegionClient.client ⟨2, 0⟩).Run (fun _ _ => True) (RegionClient.dialed true)
      ⟨orderedClient.shared, .queueBatch 0 orderedPair ::ₘ .processRPCs .gather 0 [] ::ₘ
        .receiveRPCs ::ₘ 0⟩ := run.starts (.queueBatch 0 [0, 0]) trivial
  exact queued.step (.meet _ .handOver) trivial

theorem orderedClient_recorded :
    RegionClient.Recorded ⟨2, 0⟩ orderedClient [⟨some orderedPair, some orderedPair⟩] := by
  have taken : (RegionClient.recordedClient ⟨2, 0⟩).Step
      ⟨((RegionClient.dialed true).shared, []), .newMulti ::ₘ .receiveRPCs ::ₘ 0⟩ .other
      ⟨({ (RegionClient.dialed true).shared with takings := 1 }, []),
        .processRPCs .gather 0 [] ::ₘ .receiveRPCs ::ₘ 0⟩ := .alone _ ⟨.newMulti, rfl⟩
  have queued : (RegionClient.recordedClient ⟨2, 0⟩).Step
      ⟨({ (RegionClient.dialed true).shared with takings := 1 }, []),
        .processRPCs .gather 0 [] ::ₘ .receiveRPCs ::ₘ 0⟩ .other
      ⟨(orderedClient.shared, []),
        .queueBatch 0 orderedPair ::ₘ .processRPCs .gather 0 [] ::ₘ .receiveRPCs ::ₘ 0⟩ :=
    .spawn _ ⟨.queueBatch 0 [0, 0], rfl⟩
  have received : (RegionClient.recordedClient ⟨2, 0⟩).Step
      ⟨(orderedClient.shared, []),
        .queueBatch 0 orderedPair ::ₘ .processRPCs .gather 0 [] ::ₘ .receiveRPCs ::ₘ 0⟩ .other
      ⟨(orderedClient.shared, [⟨some orderedPair, some orderedPair⟩]), orderedClient.threads⟩ :=
    .meet _ ⟨.handOver, rfl⟩
  exact ((System.Run.refl.step taken trivial).step queued trivial).step received trivial

end GoHBase
