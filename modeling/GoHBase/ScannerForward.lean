import GoHBase.ScannerRows

/-!
Forward scans. The regions that answer may come from changing layouts; each of
them contains the row at which it was opened.
-/

namespace GoHBase

open ByteString Runtime Buffer

def ForwardRange (start stop key : Bytes) : Prop := start ≤ key ∧ (stop = [] ∨ key < stop)

instance (start stop : Bytes) : DecidablePred (ForwardRange start stop) := fun key =>
  inferInstanceAs (Decidable (start ≤ key ∧ (stop = [] ∨ key < stop)))

def RowsAfter (region : RegionInfo) (stop key : Bytes) : Prop :=
  region.stopKey ≠ [] ∧ ForwardRange region.stopKey stop key

instance (region : RegionInfo) (stop : Bytes) : DecidablePred (RowsAfter region stop) := fun key =>
  inferInstanceAs (Decidable (region.stopKey ≠ [] ∧ ForwardRange region.stopKey stop key))

structure ForwardAnswer (table : RowSet) (stop row : Bytes) (plan : RegionPlan) : Prop where
  contains : plan.region.HasRow row
  identified : ∃ id first rest, plan.responses = first :: rest ∧ first.scannerId = some id
  content : plan.responses.flatMap ScanResponse.results =
    table.select fun key => ForwardRange row stop key ∧ plan.region.HasRow key
  flagged : Flagged plan.responses
  truthful : Truthful (table.select (RowsAfter plan.region stop)) plan.responses

def forwardScan (start stop : Bytes) (numberOfRows : UInt32) (closeScanner : Bool) : Scan :=
  { newScanRange start stop with
    numberOfRows := numberOfRows
    closeScanner := closeScanner
    allowPartialResults := true }

theorem stopsAfter_forward {rpc : Scan} (forward : rpc.reversed = false) (region : RegionInfo) :
    rpc.stopsAfter region = true ↔
      region.stopKey = [] ∨ rpc.stopRow ≠ [] ∧ rpc.stopRow ≤ region.stopKey := by
  simp only [Scan.stopsAfter, forward]
  by_cases last : region.stopKey = []
  · simp [last]
  · simp [last]

theorem content_forward (table : RowSet) (stop : Bytes) {row : Bytes} {region : RegionInfo}
    (contains : region.HasRow row) :
    (table.select fun key => ForwardRange row stop key ∧ region.HasRow key) ++
      table.select (RowsAfter region stop) =
      table.select (ForwardRange row stop) := by
  obtain ⟨started, bounded⟩ := contains
  by_cases last : region.stopKey = []
  · have nothing : table.select (RowsAfter region stop) = [] :=
      table.select_nil fun key after => after.1 last
    rw [nothing, List.append_nil]
    refine table.select_congr fun row _ => ?_
    exact ⟨And.left, fun range => ⟨range, started.trans range.1, .inl last⟩⟩
  · have inside : row < region.stopKey := bounded.resolve_left last
    rw [table.select_split (ForwardRange row stop) region.stopKey]
    congr 1
    · refine table.select_congr fun row _ => ?_
      refine and_congr_right fun range => ?_
      exact ⟨fun has => has.2.resolve_left last, fun below => ⟨started.trans range.1, .inr below⟩⟩
    · refine table.select_congr fun row _ => ?_
      constructor
      · rintro ⟨_, reached, before⟩
        exact ⟨⟨inside.le.trans reached, before⟩, reached⟩
      · rintro ⟨⟨_, before⟩, reached⟩
        exact ⟨last, reached, before⟩

section Forward

variable {rpc : Scan} (forward : rpc.reversed = false)

include forward

theorem nextStartRow_forward (region : RegionInfo) : rpc.nextStartRow region = region.stopKey := by
  simp [Scan.nextStartRow, forward]

theorem lt_stopKey {row : Bytes} {region : RegionInfo} (contains : region.HasRow row)
    (further : rpc.stopsAfter region = false) : row < region.stopKey := by
  have notLast : region.stopKey ≠ [] := fun last => by
    simp [(stopsAfter_forward forward region).mpr (.inl last)] at further
  exact contains.2.resolve_left notLast

theorem beyond_forward (table : RowSet) (region : RegionInfo) :
    beyond rpc (fun row => table.select (ForwardRange row rpc.stopRow)) region =
      table.select (RowsAfter region rpc.stopRow) := by
  unfold beyond
  by_cases stops : rpc.stopsAfter region = true
  · rw [if_pos stops]
    refine (table.select_nil fun key after => ?_).symm
    obtain ⟨more, reached, bounded⟩ := after
    obtain last | ⟨stopped, before⟩ := (stopsAfter_forward forward region).mp stops
    · exact more last
    · exact absurd (bounded.resolve_left stopped) (not_lt.mpr (before.trans reached))
  · rw [if_neg stops, nextStartRow_forward forward]
    rw [stopsAfter_forward forward, not_or] at stops
    refine table.select_congr fun row _ => ?_
    exact ⟨fun range => ⟨stops.1, range⟩, fun after => after.2⟩

def crossings (boundaries : List Bytes) (row : Bytes) : Nat :=
  (boundaries.toFinset.filter fun bound => row < bound).card

omit forward in
theorem crossings_lt {boundaries : List Bytes} {row bound : Bytes} (known : bound ∈ boundaries)
    (crossed : row < bound) : crossings boundaries bound < crossings boundaries row :=
  card_filter_lt (fun _ ahead => crossed.trans ahead) known crossed (lt_irrefl bound)

theorem ForwardAnswer.visit {table : RowSet} {row : Bytes} {plan : RegionPlan}
    {boundaries : List Bytes} (answer : ForwardAnswer table rpc.stopRow row plan)
    (usable : plan.Usable) (known : plan.region.stopKey ∈ boundaries) :
    Visit rpc (fun row => table.select (ForwardRange row rpc.stopRow)) (crossings boundaries)
      row plan where
  opened := by
    obtain ⟨id, first, rest, responses, issued⟩ := answer.identified
    refine ⟨id, first, rest, responses, issued, ?_⟩
    rintro rfl
    exact usable first rest responses issued
  flagged := answer.flagged
  truthful := by
    rw [beyond_forward forward]
    exact answer.truthful
  content := by
    rw [beyond_forward forward, answer.content]
    exact content_forward table rpc.stopRow answer.contains
  advances := by
    intro further
    rw [nextStartRow_forward forward]
    exact crossings_lt known (lt_stopKey forward answer.contains further)

end Forward

/-- The results are the rows of the range, and every region scan starts above the one before. -/
theorem forward_scan_exact (table : RowSet) (start stop : Bytes) (numberOfRows : UInt32)
    (closeScanner : Bool) (boundaries : List Bytes) (plans : Nat → Bytes → RegionPlan)
    (answers : ∀ k row, ForwardAnswer table stop row (plans k row))
    (usable : ∀ k row, (plans k row).Usable)
    (known : ∀ k row, (plans k row).region.stopKey ∈ boundaries) :
    ∃ final, Returns (planClient plans)
      (openScan (forwardScan start stop numberOfRows closeScanner))
      ((table.select (ForwardRange start stop)).map toLocalResult) final ∧
      (openRows final.sent).Pairwise (· < ·) := by
  have visits : ∀ k row, Visit (forwardScan start stop numberOfRows closeScanner)
      (fun row => table.select (ForwardRange row stop)) (crossings boundaries) row (plans k row) :=
    fun k row => (answers k row).visit rfl (usable k row) (known k row)
  obtain ⟨final, more, drains, opened, tail, _, chain⟩ :=
    ends_visits rfl (fun _ _ _ => .inl rfl) visits 0 start none []
  refine ⟨final, drains.returns, ?_⟩
  have increases : ∀ row later,
      Follows (forwardScan start stop numberOfRows closeScanner) plans row later → row < later := by
    rintro row later ⟨k, further, rfl⟩
    rw [nextStartRow_forward rfl]
    exact lt_stopKey rfl (answers k row).contains further
  rw [opened]
  exact List.isChain_iff_pairwise.mp (chain.imp increases)

def forwardPlan (id : UInt64) (heartbeats : Nat) (table : RowSet) (stop row : Bytes)
    (region : RegionInfo) : RegionPlan :=
  heartbeatPlan id heartbeats region
    (table.select fun key => ForwardRange row stop key ∧ region.HasRow key)

theorem forwardPlan_answers (id : UInt64) (heartbeats : Nat) (table : RowSet) (stop : Bytes)
    {row : Bytes} {region : RegionInfo} (contains : region.HasRow row) :
    ForwardAnswer table stop row (forwardPlan id heartbeats table stop row region) where
  contains := contains
  identified := by
    obtain ⟨first, rest, responses, issued⟩ := heartbeatPlan_first id heartbeats region _
    exact ⟨id, first, rest, responses, issued⟩
  content := heartbeatPlan_content id heartbeats region _
  flagged := heartbeatPlan_flagged id heartbeats region _
  truthful := heartbeatPlan_truthful id heartbeats region _ _

theorem halves_boundary (row : Bytes) : (halves row).stopKey ∈ [[99], []] := by
  unfold halves
  split <;> simp [sampleRegion]

theorem forward_scan_exact_halves : ∃ final,
    Returns (planClient fun k row => forwardPlan 7 k sampleTable [] row (halves row))
      (openScan (forwardScan [97] [] 10 false))
      ((sampleTable.select (ForwardRange [97] [])).map toLocalResult) final ∧
    (openRows final.sent).Pairwise (· < ·) :=
  forward_scan_exact sampleTable [97] [] 10 false [[99], []]
    (fun k row => forwardPlan 7 k sampleTable [] row (halves row))
    (fun k row => forwardPlan_answers 7 k sampleTable [] (halves_hasRow row))
    (fun k row => heartbeatPlan_usable 7 k _ _ (by decide))
    (fun _ row => halves_boundary row)

def sliver (row : Bytes) : RegionInfo := sampleRegion 0 1 row (row ++ [0])

theorem sliver_hasRow (row : Bytes) : (sliver row).HasRow row := by
  refine ⟨le_refl row, .inr ?_⟩
  have less := (append_lt_append_left row [] [0]).mpr (by decide)
  rwa [List.append_nil] at less

def sliverPlans (_ : Nat) (row : Bytes) : RegionPlan :=
  forwardPlan 7 0 sampleTable [] row (sliver row)

theorem sliver_empty (row : Bytes) : sampleTable.select (fun key =>
    ForwardRange (97 :: row) [] key ∧ (sliver (97 :: row)).HasRow key) = [] := by
  have below (last : UInt8) (above : 97 < last) : 97 :: (row ++ [0]) ≤ [last] :=
    ((cons_lt_cons _ _ _ _).mpr (.inl above)).le
  refine List.map_eq_nil_iff.mpr (List.filter_eq_nil_iff.mpr ?_)
  simp [sampleTable, sliver, sampleRegion, RegionInfo.HasRow, below 98 (by decide),
    below 100 (by decide)]

theorem fetch_slivers (fuel k : Nat) (row : Bytes)
    (current : Option (RegionInfo × UInt64 × List ScanResponse)) (sent : List Scan) :
    fetch (planClient sliverPlans) fuel
      (idleState (forwardScan [97] [] 10 false) k (97 :: row) current sent) = .ok none := by
  induction fuel generalizing k row current sent with
  | zero => rfl
  | succ fuel ih =>
      let st := idleState (forwardScan [97] [] 10 false) k (97 :: row) current sent
      let resp : ScanResponse := ⟨[], some 7, none, [], [], some false⟩
      have answered : (planClient sliverPlans).sendRPC st.server st.scanner.request =
          (⟨k + 1, some (sliver (97 :: row), 7, [])⟩, .ok (resp, sliver (97 :: row))) := by
        simp [st, resp, planClient, sliverPlans, forwardPlan, heartbeatPlan, sliver_empty,
          idleState, Scanner.request, Scanner.isRegionScannerClosed, forwardScan, newScanRange]
      have noted : st.scanner.noteScannerId resp =
          .ok ⟨forwardScan [97] [] 10 false, 7, 97 :: row, [], false⟩ := rfl
      obtain ⟨st', step, _, shapes⟩ := fetchStep_response _ answered noted (by decide)
      have further : (forwardScan [97] [] 10 false).stopsAfter (sliver (97 :: row)) = false := by
        simp [Scan.stopsAfter, forwardScan, newScanRange, sliver, sampleRegion]
      have shape : st' = ⟨⟨forwardScan [97] [] 10 false, noScannerID,
          (forwardScan [97] [] 10 false).nextStartRow (sliver (97 :: row)), [], false⟩,
          ⟨k + 1, some (sliver (97 :: row), 7, [])⟩, st'.sent⟩ := by
        simpa [resp, further] using shapes
      rw [fetch, step, ok_bind, shape]
      exact ih (k + 1) (row ++ [0]) _ _

/-- A region scan that is numbered like none at all is over after its first response, and
regions that get ever smaller keep the scan going for good. -/
theorem forward_scan_incomplete :
    ((∀ row, ForwardAnswer sampleTable [] row
        (forwardPlan noScannerID 1 sampleTable [] row (sampleRegion 0 1 [] []))) ∧
      ∃ final, Returns
        (planClient fun _ row =>
          forwardPlan noScannerID 1 sampleTable [] row (sampleRegion 0 1 [] []))
        (openScan (forwardScan [97] [] 10 false)) [] final ∧
        sampleTable.select (ForwardRange [97] []) ≠ []) ∧
    (∀ k row, ForwardAnswer sampleTable [] row (sliverPlans k row) ∧ (sliverPlans k row).Usable) ∧
      ∀ results final, ¬Returns (planClient sliverPlans) (openScan (forwardScan [97] [] 10 false))
        results final := by
  refine ⟨⟨fun row => ?_, ?_⟩, fun k row => ⟨?_, ?_⟩, ?_⟩
  · exact forwardPlan_answers _ _ _ _ ⟨nil_le_bytes row, .inl rfl⟩
  · refine ⟨_, Drains.returns _ (.eof 1 rfl), by decide⟩
  · exact forwardPlan_answers _ _ _ _ (sliver_hasRow row)
  · exact heartbeatPlan_usable _ _ _ _ (by decide)
  · rintro results final ⟨enough, ran⟩
    obtain ⟨calls, done⟩ := ran enough le_rfl
    have stuck : next (planClient sliverPlans) enough none
        (openScan (forwardScan [97] [] 10 false)) = .ok none := by
      have peeked : peek (planClient sliverPlans) enough (openScan (forwardScan [97] [] 10 false)) =
          fetch (planClient sliverPlans) enough (openScan (forwardScan [97] [] 10 false)) >>=
            keepFetched := rfl
      have fetched : fetch (planClient sliverPlans) enough
          (openScan (forwardScan [97] [] 10 false)) = .ok none := fetch_slivers enough 0 [] none []
      rw [fetched] at peeked
      simp only [next, peeked]
      rfl
    cases calls with
    | zero => cases done
    | succ calls =>
        rw [drain, stuck] at done
        cases done

end GoHBase
