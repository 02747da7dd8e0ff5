import GoHBase.CacheLookup
import GoHBase.ScannerReversed

/-! A reversed scan of a whole table, with its requests routed by the region cache. -/

namespace GoHBase

open ByteString Runtime OrderedTree

section Rounds

variable {σ ε : Type} (client : RPCClient σ ε)

inductive Rounds : ScanState σ → ScanState σ → Prop
  | closed {st : ScanState σ} (done : st.scanner.closed = true) : Rounds st st
  | round {st st' final : ScanState σ}
      {outcome : Option (Except (ScanError ε) (List (Option PbResult)))}
      (waiting : st.scanner.closed = false) (step : fetchStep client st = .ok (st', outcome))
      (rest : Rounds st' final) : Rounds st final

theorem Rounds.unique {st final final' : ScanState σ} (first : Rounds client st final)
    (second : Rounds client st final') : final = final' := by
  induction first with
  | closed done =>
      cases second with
      | closed => rfl
      | round waiting => simp [done] at waiting
  | round waiting step rest ih =>
      cases second with
      | closed done => simp [done] at waiting
      | round _ step' rest' =>
          rw [step] at step'
          cases step'
          exact ih rest'

end Rounds

structure RegionPlan.Serves (plan : RegionPlan) : Prop where
  identified : ∃ id first rest, plan.responses = first :: rest ∧ first.scannerId = some id ∧
    id ≠ noScannerID
  flagged : Flagged plan.responses

section Last

variable {rpc : Scan} {plans : Nat → Bytes → RegionPlan} {region : RegionInfo}
  (stops : rpc.stopsAfter region = true)

include stops

theorem rounds_pending (st : ScanState PlanState) {server : PlanState} {resp : ScanResponse}
    {rest : List ScanResponse} {id : UInt64} {row : Bytes} (valid : id ≠ noScannerID)
    (waiting : st.scanner.closed = false) (flagged : Flagged (resp :: rest))
    (answered : (planClient plans).sendRPC st.server st.scanner.request =
      (server, .ok (resp, region)))
    (noted : st.scanner.noteScannerId resp = .ok ⟨rpc, id, row, [], false⟩)
    (goesOn : rest ≠ [] → ∀ sent, ∃ final,
      Rounds (planClient plans) ⟨⟨rpc, id, row, [], false⟩, server, sent⟩ final ∧
        openRows final.sent = openRows sent) :
    ∃ final, Rounds (planClient plans) st final ∧
      openRows final.sent = openRows st.sent ++ openRows [st.scanner.request] := by
  rcases fetchStep_response rpc answered noted valid with ⟨st', step, sent, cases⟩
  rcases cases with ⟨more, _, shape⟩ | ⟨_, _, further, _⟩ | ⟨_, row, shape⟩
  · have further : rest ≠ [] := by
      rintro rfl
      exact flagged more
    rcases goesOn further st'.sent with ⟨final, rounds, opened⟩
    rw [← shape] at rounds
    exact ⟨final, .round waiting step rounds, opened.trans sent⟩
  · rw [stops] at further
    cases further
  · have done : st'.scanner.closed = true := by
      rw [shape]
      rfl
    exact ⟨st', .round waiting step (.closed done), sent⟩

theorem rounds_inside {k : Nat} {row : Bytes} {id : UInt64} (valid : id ≠ noScannerID)
    (pending : List ScanResponse) (flagged : Flagged pending) (sent : List Scan) :
    ∃ final, Rounds (planClient plans) (insideState rpc k row id region pending sent) final ∧
      openRows final.sent = openRows sent := by
  induction pending generalizing sent with
  | nil => cases flagged
  | cons resp rest ih =>
      rcases rounds_pending stops (insideState rpc k row id region (resp :: rest) sent) valid rfl
        flagged (inside_answered valid) (inside_noted valid resp)
        (fun more sent => ih (flagged.tail more) sent) with ⟨final, rounds, opened⟩
      refine ⟨final, rounds, ?_⟩
      rw [opened, inside_request valid]
      simp [openRows, valid, insideState]

theorem rounds_single (fresh : rpc.scannerID = noScannerID)
    (served : (plans 0 rpc.startRow).Serves) (only : (plans 0 rpc.startRow).region = region) :
    ∃ final, Rounds (planClient plans) (openScan rpc) final ∧
      openRows final.sent = [rpc.startRow] := by
  subst only
  rcases served.identified with ⟨id, first, rest, responses, issued, valid⟩
  have flagged := served.flagged
  rw [responses] at flagged
  rcases rounds_pending stops (idleState rpc 0 rpc.startRow none []) valid rfl flagged
    (idle_answered fresh responses issued none) (idle_noted issued none)
    (fun more sent => rounds_inside stops valid rest (flagged.tail more) sent) with
    ⟨final, rounds, opened⟩
  refine ⟨final, rounds, ?_⟩
  rw [opened, idle_request]
  simp [openRows, fresh, idleState]

end Last

section Routed

variable {T : Tree Bytes RegionInfo compare} {client : Client T} {calls : List CacheCall}
  {table : Bytes} {partition : Partition}

structure Routed (client : Client T) (calls : List CacheCall) (table : Bytes)
    (partition : Partition) : Prop where
  wellFormed : ∀ call ∈ calls, call.region.WellFormed
  reached : runCalls (KeyRegionCache.new T) calls = .ok client.regions
  regular : client.clientType = .regionClient
  notMeta : table ≠ metaTableName
  fits : table.length ≤ 32764
  ascending : partition.regions.Pairwise fun region next => region.startKey < next.startKey
  cached : ∀ region ∈ partition.regions,
    fullyQualifiedTable region = table ∧ client.regions.Cached region

theorem Routed.region_of_row (routed : Routed client calls table partition) {region : RegionInfo}
    {row : Bytes} (member : region ∈ partition.regions) (contains : region.HasRow row) :
    client.getRegionFromCache table row = .ok (some region) := by
  rcases getRegionFromCache_exact calls routed.wellFormed client routed.reached routed.regular
    table row routed.notMeta routed.fits with ⟨⟨found, looked, exactly, _⟩, _⟩
  rcases routed.cached region member with ⟨same, cached⟩
  rw [looked, (exactly region).mpr ⟨cached, same, contains⟩]

/-- A reversed scan without start row and stop row visits the regions of the table in
descending order exactly if the table has one region. -/
theorem full_reversed_scan_iff (client : Client T) (calls : List CacheCall) (table : Bytes)
    (partition : Partition) (routed : Routed client calls table partition)
    (numberOfRows : UInt32) (closeScanner allowPartialResults : Bool)
    (plans : Nat → Bytes → RegionPlan) (served : ∀ k row, (plans k row).Serves)
    (located : ∀ k row, client.getRegionFromCache table row = .ok (some (plans k row).region)) :
    (∃ final, Rounds (planClient plans)
        (openScan (reversedScan [] [] numberOfRows closeScanner allowPartialResults)) final ∧
      (openRows final.sent).map (client.getRegionFromCache table) =
        partition.regions.reverse.map fun region => .ok (some region)) ↔
    partition.regions.length = 1 := by
  rcases partition.covers [] with ⟨first, member, contains⟩
  have lowest : first.startKey = [] := (le_nil_bytes _).mp contains.1
  have route := routed.region_of_row member contains
  have only : (plans 0 []).region = first := by
    have same := (located 0 []).symm.trans route
    cases same
    rfl
  have stops : (reversedScan [] [] numberOfRows closeScanner allowPartialResults).stopsAfter
      first = true := (stopsAfter_reversed rfl first).mpr (.inl lowest)
  rcases rounds_single stops rfl (served 0 []) only with ⟨final, rounds, opened⟩
  constructor
  · rintro ⟨other, others, visited⟩
    rw [← rounds.unique _ others, opened, List.map_singleton] at visited
    have size := congrArg List.length visited
    simpa using size.symm
  · intro single
    refine ⟨final, rounds, ?_⟩
    rcases List.length_eq_one_iff.mp single with ⟨region, regions⟩
    rw [regions, List.mem_singleton] at member
    rw [opened, regions, ← member, List.map_singleton]
    exact congrArg (fun found => [found]) route

end Routed

theorem heartbeatPlan_serves (region : RegionInfo) : (heartbeatPlan 7 0 region []).Serves where
  identified := ⟨7, _, [], rfl, rfl, by decide⟩
  flagged := heartbeatPlan_flagged 7 0 region []

def wholePartition : Partition where
  regions := [sampleRegion 0 1 [] []]
  nonempty := by decide
  covers row := ⟨sampleRegion 0 1 [] [], List.mem_singleton_self _, nil_le_bytes row, .inl rfl⟩
  apart region member other otherMember _ _ _ :=
    (List.mem_singleton.mp member).trans (List.mem_singleton.mp otherMember).symm

def wholeClient : Client (reference Bytes RegionInfo compare) where
  clientType := .regionClient
  adminRegionInfo := none
  metaRegionInfo := none
  regions := ⟨[([116, 44, 44, 49], sampleRegion 0 1 [] [])], []⟩

theorem wholeClient_routed :
    Routed wholeClient [.put (sampleRegion 0 1 [] [])] [116] wholePartition where
  wellFormed call member := by
    rw [List.mem_singleton.mp member]
    exact sampleRegion_wellFormed _ _ _ _ (by decide) (by decide)
  reached := rfl
  regular := rfl
  notMeta := by decide
  fits := by decide
  ascending := List.pairwise_singleton _ _
  cached region member := by
    rw [List.mem_singleton.mp member]
    exact ⟨rfl, _, List.mem_singleton_self _⟩

theorem full_reversed_scan_iff_whole :
    (∃ final, Rounds (planClient fun _ _ => heartbeatPlan 7 0 (sampleRegion 0 1 [] []) [])
        (openScan (reversedScan [] [] 10 false false)) final ∧
      (openRows final.sent).map (wholeClient.getRegionFromCache [116]) =
        wholePartition.regions.reverse.map fun region => .ok (some region)) ↔
    wholePartition.regions.length = 1 :=
  full_reversed_scan_iff wholeClient _ [116] wholePartition wholeClient_routed 10 false false
    (fun _ _ => heartbeatPlan 7 0 (sampleRegion 0 1 [] []) [])
    (fun _ _ => heartbeatPlan_serves _)
    (fun _ row => wholeClient_routed.region_of_row (List.mem_singleton_self _)
      ⟨nil_le_bytes row, .inl rfl⟩)

def halfClient : Client (reference Bytes RegionInfo compare) where
  clientType := .regionClient
  adminRegionInfo := none
  metaRegionInfo := none
  regions := ⟨[([116, 44, 44, 49], sampleRegion 0 1 [] [99]),
    ([116, 44, 99, 44, 49], sampleRegion 1 1 [99] [])], []⟩

theorem halfClient_routed : Routed halfClient
    [.put (sampleRegion 0 1 [] [99]), .put (sampleRegion 1 1 [99] [])] [116] halfPartition where
  wellFormed call member := by
    rcases List.mem_pair.mp member with rfl | rfl
    · exact sampleRegion_wellFormed _ _ _ _ (by decide) (by decide)
    · exact sampleRegion_wellFormed _ _ _ _ (by decide) (by decide)
  reached := rfl
  regular := rfl
  notMeta := by decide
  fits := by decide
  ascending := by decide
  cached region member := by
    rcases List.mem_pair.mp member with rfl | rfl
    · exact ⟨rfl, _, List.mem_cons_self⟩
    · exact ⟨rfl, _, List.mem_cons_of_mem _ List.mem_cons_self⟩

/-- A table of two regions: the scan opens the first one and then ends. -/
theorem full_reversed_scan_visits_first :
    Routed halfClient [.put (sampleRegion 0 1 [] [99]), .put (sampleRegion 1 1 [99] [])] [116]
      halfPartition ∧
    (∀ row, halfClient.getRegionFromCache [116] row = .ok (some (halves row))) ∧
    (∀ row, (heartbeatPlan 7 0 (halves row) []).Serves) ∧
    halfPartition.regions.reverse = [sampleRegion 1 1 [99] [], sampleRegion 0 1 [] [99]] ∧
    ∃ final, Rounds (planClient fun _ row => heartbeatPlan 7 0 (halves row) [])
        (openScan (reversedScan [] [] 10 false false)) final ∧
      (openRows final.sent).map (halfClient.getRegionFromCache [116]) =
        [.ok (some (sampleRegion 0 1 [] [99]))] := by
  have located (row : Bytes) : halfClient.getRegionFromCache [116] row = .ok (some (halves row)) :=
    halfClient_routed.region_of_row (halves_member row) (halves_hasRow row)
  refine ⟨halfClient_routed, located, fun row => heartbeatPlan_serves _, rfl, ?_⟩
  have single : ∃ final, Rounds (planClient fun _ row => heartbeatPlan 7 0 (halves row) [])
      (openScan (reversedScan [] [] 10 false false)) final ∧ openRows final.sent = [[]] :=
    rounds_single rfl rfl (heartbeatPlan_serves _) rfl
  rcases single with ⟨final, rounds, opened⟩
  refine ⟨final, rounds, ?_⟩
  rw [opened, List.map_singleton]
  exact congrArg (fun found => [found]) (located [])

end GoHBase
