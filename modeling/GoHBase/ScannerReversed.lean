import GoHBase.ScannerRows

/-!
Reversed scans. The row from which the next region is scanned is computed from
the start key of the last one, and is not always the nearest row below it.
-/

namespace GoHBase

open ByteString Runtime Buffer

section RowBefore

theorem rowBefore_concat (front : Bytes) (last : UInt8) : rowBefore (front ++ [last]) =
    front ++ if last = 0 then [] else (last - 1) :: rowPadding := by
  simp only [rowBefore, List.getLast?_append_of_ne_nil _ (List.cons_ne_nil last []),
    List.getLast?_singleton, List.dropLast_concat]
  split
  · simp
  · simp

theorem rowBefore_append (front : Bytes) {key : Bytes} (nonempty : key ≠ []) :
    rowBefore (front ++ key) = front ++ rowBefore key := by
  obtain ⟨start, last, rfl⟩ := (List.eq_nil_or_concat' key).resolve_left nonempty
  rw [← List.append_assoc, rowBefore_concat, rowBefore_concat, List.append_assoc]

theorem toNat_pred {last : UInt8} (positive : last ≠ 0) : (last - 1).toNat + 1 = last.toNat := by
  have reached : 1 ≤ last.toNat := by
    rw [Nat.one_le_iff_ne_zero]
    exact fun zero => positive (UInt8.toNat_inj.mp zero)
  have step : (last - 1).toNat = last.toNat - 1 :=
    UInt8.toNat_sub_of_le last 1 (UInt8.le_iff_toNat_le.mpr reached)
  omega

theorem pred_lt {last : UInt8} (positive : last ≠ 0) : last - 1 < last := by
  rw [UInt8.lt_iff_toNat_lt]
  have step := toNat_pred positive
  omega

theorem rowBefore_lt {key : Bytes} (nonempty : key ≠ []) : rowBefore key < key := by
  obtain ⟨front, last, rfl⟩ := (List.eq_nil_or_concat' key).resolve_left nonempty
  rw [rowBefore_concat]
  split
  · exact (append_lt_append_left _ _ _).mpr (by simp)
  · rename_i positive
    exact (append_lt_append_left _ _ _).mpr ((cons_lt_cons _ _ _ _).mpr (.inl (pred_lt positive)))

theorem between_append {front low high row : Bytes} (above : front ++ low < row)
    (below : row < front ++ high) : ∃ rest, row = front ++ rest ∧ low < rest ∧ rest < high := by
  induction front generalizing row with
  | nil => exact ⟨row, rfl, above, below⟩
  | cons first front ih =>
      cases row with
      | nil => simp at above
      | cons next row =>
          rw [List.cons_append, cons_lt_cons] at above below
          have same : first = next := by
            obtain less | ⟨same, _⟩ := above
            · obtain greater | ⟨same, _⟩ := below
              · exact absurd greater (lt_asymm less)
              · exact same.symm
            · exact same
          subst next
          obtain ⟨rest, rfl, parts⟩ := ih (above.resolve_left (lt_irrefl _)).2
            (below.resolve_left (lt_irrefl _)).2
          exact ⟨rest, rfl, parts⟩

theorem above_padding {count : Nat} {row : Bytes} (above : List.replicate count 0xff < row) :
    ∃ rest, rest ≠ [] ∧ row = List.replicate count 0xff ++ rest := by
  induction count generalizing row with
  | zero => exact ⟨row, above.ne', rfl⟩
  | succ count ih =>
      cases row with
      | nil => simp at above
      | cons first row =>
          rw [List.replicate_succ, cons_lt_cons] at above
          obtain less | ⟨rfl, above⟩ := above
          · have bound := UInt8.toNat_lt first
            rw [UInt8.lt_iff_toNat_lt] at less
            have top : (0xff : UInt8).toNat = 255 := rfl
            omega
          · obtain ⟨rest, nonempty, rfl⟩ := ih above
            exact ⟨rest, nonempty, rfl⟩

/-- A row that a reversed scan passes over on its way below `key`: the last byte of the key
is lowered, and eight bytes of padding are not enough. -/
def PastPadding (key row : Bytes) : Prop :=
  ∃ front last rest, key = front ++ [last] ∧ last ≠ 0 ∧ rest ≠ [] ∧
    row = front ++ (last - 1) :: (rowPadding ++ rest)

theorem between_rowBefore_iff (key row : Bytes) :
    rowBefore key < row ∧ row < key ↔ PastPadding key row := by
  constructor
  · rintro ⟨above, below⟩
    have nonempty : key ≠ [] := by
      rintro rfl
      exact absurd below (List.not_lt_nil row)
    obtain ⟨front, last, rfl⟩ := (List.eq_nil_or_concat' key).resolve_left nonempty
    rw [rowBefore_concat] at above
    obtain ⟨rest, rfl, more, less⟩ := between_append above below
    cases rest with
    | nil => exact absurd more (List.not_lt_nil _)
    | cons first rest =>
        have smaller : first < last := by
          rw [cons_lt_cons] at less
          exact less.resolve_right fun ends => absurd ends.2 (List.not_lt_nil _)
        rw [UInt8.lt_iff_toNat_lt] at smaller
        split at more
        · rename_i zero
          subst last
          exact absurd smaller (Nat.not_lt_zero _)
        · rename_i positive
          rw [cons_lt_cons] at more
          have step := toNat_pred positive
          obtain greater | ⟨rfl, more⟩ := more
          · rw [UInt8.lt_iff_toNat_lt] at greater
            omega
          · obtain ⟨extra, longer, rfl⟩ := above_padding more
            exact ⟨front, last, extra, rfl, positive, longer, rfl⟩
  · rintro ⟨front, last, rest, rfl, positive, longer, rfl⟩
    rw [rowBefore_concat, if_neg positive, append_lt_append_left, append_lt_append_left,
      cons_lt_cons, cons_lt_cons]
    refine ⟨.inr ⟨rfl, ?_⟩, .inl (pred_lt positive)⟩
    have further := (append_lt_append_left rowPadding [] rest).mpr
      (lt_of_le_of_ne (nil_le_bytes rest) longer.symm)
    rwa [List.append_nil] at further

theorem rowBefore_skipped {key other : Bytes} (above : rowBefore key < other)
    (below : other < key) : rowBefore key ≤ rowBefore other := by
  obtain ⟨front, last, rest, rfl, positive, longer, rfl⟩ :=
    (between_rowBefore_iff key other).mp ⟨above, below⟩
  have start : rowBefore (front ++ [last]) = front ++ (last - 1) :: rowPadding := by
    rw [rowBefore_concat, if_neg positive]
  have shape : front ++ (last - 1) :: (rowPadding ++ rest) =
      (front ++ (last - 1) :: rowPadding) ++ rest := by simp
  have shared := (append_le_append_left (front ++ (last - 1) :: rowPadding) [] (rowBefore rest)).mpr
    (nil_le_bytes _)
  rw [List.append_nil] at shared
  rwa [start, shape, rowBefore_append _ longer]

end RowBefore

structure Partition where
  regions : List RegionInfo
  nonempty : ∀ region ∈ regions, region.startKey < region.stopKey ∨ region.stopKey = []
  covers : ∀ row, ∃ region ∈ regions, region.HasRow row
  apart : ∀ region ∈ regions, ∀ other ∈ regions, ∀ row,
    region.HasRow row → other.HasRow row → region = other

/-- The last start key at or before a row is that of its region. -/
theorem Partition.startKey_le (partition : Partition) {region other : RegionInfo} {row : Bytes}
    (member : region ∈ partition.regions) (contains : region.HasRow row)
    (otherMember : other ∈ partition.regions) (started : other.startKey ≤ row) :
    other.startKey ≤ region.startKey := by
  by_contra later
  have inside : region.HasRow other.startKey :=
    ⟨(not_le.mp later).le, contains.2.imp_right fun below => started.trans_lt below⟩
  have own : other.HasRow other.startKey :=
    ⟨le_rfl, (partition.nonempty other otherMember).symm⟩
  have same := partition.apart region member other otherMember _ inside own
  exact later (le_of_eq (by rw [same]))

def ReversedRange (start stop key : Bytes) : Prop := key ≤ start ∧ (stop = [] ∨ stop < key)

instance (start stop : Bytes) : DecidablePred (ReversedRange start stop) := fun key =>
  inferInstanceAs (Decidable (key ≤ start ∧ (stop = [] ∨ stop < key)))

def RowsBefore (region : RegionInfo) (stop key : Bytes) : Prop :=
  key < region.startKey ∧ (stop = [] ∨ stop < key)

instance (region : RegionInfo) (stop : Bytes) : DecidablePred (RowsBefore region stop) := fun key =>
  inferInstanceAs (Decidable (key < region.startKey ∧ (stop = [] ∨ stop < key)))

structure ReversedAnswer (partition : Partition) (table : RowSet) (stop row : Bytes)
    (plan : RegionPlan) : Prop where
  member : plan.region ∈ partition.regions
  contains : plan.region.HasRow row
  identified : ∃ id first rest, plan.responses = first :: rest ∧ first.scannerId = some id
  usable : plan.Usable
  content : plan.responses.flatMap ScanResponse.results =
    (table.select fun key => ReversedRange row stop key ∧ plan.region.HasRow key).reverse
  flagged : Flagged plan.responses
  truthful : Truthful (table.select (RowsBefore plan.region stop)).reverse plan.responses

def Skipped (partition : Partition) (row key : Bytes) : Prop :=
  ∃ region ∈ partition.regions, region.startKey ≤ row ∧
    rowBefore region.startKey < key ∧ key < region.startKey

instance (partition : Partition) (row : Bytes) : DecidablePred (Skipped partition row) := fun key =>
  inferInstanceAs (Decidable (∃ region ∈ partition.regions, region.startKey ≤ row ∧
    rowBefore region.startKey < key ∧ key < region.startKey))

section Skipping

variable (partition : Partition) {region : RegionInfo} {row : Bytes}
  (member : region ∈ partition.regions) (contains : region.HasRow row)

include member contains

theorem not_skipped_inside {key : Bytes} (inside : region.startKey ≤ key) :
    ¬Skipped partition row key := by
  rintro ⟨other, otherMember, started, _, below⟩
  have earlier := partition.startKey_le member contains otherMember started
  exact absurd (earlier.trans inside) (not_le.mpr below)

theorem not_skipped_below {key : Bytes} (below : key < region.startKey) :
    ¬Skipped partition row key ↔
      key ≤ rowBefore region.startKey ∧ ¬Skipped partition (rowBefore region.startKey) key := by
  have nonempty : region.startKey ≠ [] := by
    intro first
    rw [first] at below
    exact absurd below (List.not_lt_nil key)
  constructor
  · intro kept
    refine ⟨not_lt.mp fun above => kept ⟨region, member, contains.1, above, below⟩, ?_⟩
    rintro ⟨other, otherMember, started, gap⟩
    exact kept ⟨other, otherMember,
      started.trans ((rowBefore_lt nonempty).le.trans contains.1), gap⟩
  · rintro ⟨reached, kept⟩ ⟨other, otherMember, started, above, under⟩
    have earlier := partition.startKey_le member contains otherMember started
    by_cases visited : other.startKey ≤ rowBefore region.startKey
    · exact kept ⟨other, otherMember, visited, above, under⟩
    · obtain less | same := lt_or_eq_of_le earlier
      · have higher := rowBefore_skipped (not_le.mp visited) less
        exact absurd (above.trans_le reached) (not_lt.mpr higher)
      · rw [same] at above
        exact absurd above (not_lt.mpr reached)

end Skipping

def reversedScan (start stop : Bytes) (numberOfRows : UInt32)
    (closeScanner allowPartialResults : Bool) : Scan :=
  { newScanRange start stop with
    numberOfRows := numberOfRows
    reversed := true
    closeScanner := closeScanner
    allowPartialResults := allowPartialResults }

theorem stopsAfter_reversed {rpc : Scan} (backward : rpc.reversed = true) (region : RegionInfo) :
    rpc.stopsAfter region = true ↔
      region.startKey = [] ∨ rpc.stopRow ≠ [] ∧ region.startKey ≤ rpc.stopRow := by
  simp only [Scan.stopsAfter, backward]
  by_cases first : region.startKey = []
  · simp [first]
  · simp [first]

/-- What a reversed scan from `row` returns: the rows that are not skipped on the way. -/
def reached (partition : Partition) (table : RowSet) (stop row : Bytes) : List (Option PbResult) :=
  (table.select fun key => ReversedRange row stop key ∧ ¬Skipped partition row key).reverse

section Reversed

variable {rpc : Scan} (backward : rpc.reversed = true) {partition : Partition} {table : RowSet}
  {row : Bytes} {plan : RegionPlan}
  (answer : ReversedAnswer partition table rpc.stopRow row plan)

include backward

theorem nextStartRow_reversed (region : RegionInfo) :
    rpc.nextStartRow region = rowBefore region.startKey := by
  simp [Scan.nextStartRow, backward]

include answer

theorem beyond_reversed : beyond rpc (reached partition table rpc.stopRow) plan.region =
    (table.select fun key => (ReversedRange row rpc.stopRow key ∧ ¬Skipped partition row key) ∧
      key < plan.region.startKey).reverse := by
  unfold beyond
  by_cases stops : rpc.stopsAfter plan.region = true
  · rw [if_pos stops, eq_comm, List.reverse_eq_nil_iff]
    refine table.select_nil ?_
    rintro key ⟨⟨⟨_, bounded⟩, _⟩, below⟩
    obtain first | ⟨stopped, after⟩ := (stopsAfter_reversed backward plan.region).mp stops
    · rw [first] at below
      exact List.not_lt_nil key below
    · exact absurd (bounded.resolve_left stopped) (not_lt.mpr (below.le.trans after))
  · rw [if_neg stops, nextStartRow_reversed backward, reached]
    rw [stopsAfter_reversed backward, not_or] at stops
    have lower := rowBefore_lt stops.1
    congr 1
    refine table.select_congr fun other _ => ?_
    constructor
    · rintro ⟨⟨under, bounded⟩, kept⟩
      have below := under.trans_lt lower
      have through := (not_skipped_below partition answer.member answer.contains below).mpr
        ⟨under, kept⟩
      exact ⟨⟨⟨below.le.trans answer.contains.1, bounded⟩, through⟩, below⟩
    · rintro ⟨⟨⟨_, bounded⟩, through⟩, below⟩
      have parts := (not_skipped_below partition answer.member answer.contains below).mp through
      exact ⟨⟨parts.1, bounded⟩, parts.2⟩

theorem content_reversed : plan.responses.flatMap ScanResponse.results ++
    beyond rpc (reached partition table rpc.stopRow) plan.region =
      reached partition table rpc.stopRow row := by
  have split := table.select_split (fun key => ReversedRange row rpc.stopRow key ∧
    ¬Skipped partition row key) plan.region.startKey
  rw [beyond_reversed backward answer, answer.content, reached, split, List.reverse_append]
  congr 2
  refine table.select_congr fun other _ => ?_
  constructor
  · rintro ⟨range, started, _⟩
    exact ⟨⟨range, not_skipped_inside partition answer.member answer.contains started⟩, started⟩
  · rintro ⟨⟨range, _⟩, started⟩
    exact ⟨range, started, answer.contains.2.imp_right fun below => range.1.trans_lt below⟩

def regionsBelow (partition : Partition) (row : Bytes) : Nat :=
  ((partition.regions.map RegionInfo.startKey).toFinset.filter fun start => start ≤ row).card

theorem ReversedAnswer.visit : Visit rpc (reached partition table rpc.stopRow)
    (regionsBelow partition) row plan where
  opened := by
    obtain ⟨id, first, rest, responses, issued⟩ := answer.identified
    refine ⟨id, first, rest, responses, issued, ?_⟩
    rintro rfl
    exact answer.usable first rest responses issued
  flagged := answer.flagged
  truthful := by
    refine answer.truthful.imp fun nothing => ?_
    rw [beyond_reversed backward answer, List.reverse_eq_nil_iff]
    rw [List.reverse_eq_nil_iff] at nothing
    refine table.select_nil_imp ?_ nothing
    rintro key ⟨⟨⟨_, bounded⟩, _⟩, below⟩
    exact ⟨below, bounded⟩
  content := content_reversed backward answer
  advances := by
    intro further
    have notFirst : plan.region.startKey ≠ [] := fun first => by
      simp [(stopsAfter_reversed backward plan.region).mpr (.inl first)] at further
    have lower := rowBefore_lt notFirst
    rw [nextStartRow_reversed backward]
    unfold regionsBelow
    refine card_filter_lt ?_ (List.mem_map_of_mem answer.member) answer.contains.1
      (not_le.mpr lower)
    exact fun key under => under.trans (lower.le.trans answer.contains.1)

end Reversed

/-- No row above the stop row is past the padding of a region that starts in the range. -/
def ClearGaps (partition : Partition) (table : RowSet) (start stop : Bytes) : Prop :=
  ∀ region ∈ partition.regions, region.startKey ≤ start → ∀ row ∈ table.rows,
    (stop = [] ∨ stop < row.1) → ¬PastPadding region.startKey row.1

theorem reached_of_clearGaps {partition : Partition} {table : RowSet} {start stop : Bytes}
    (clear : ClearGaps partition table start stop) :
    reached partition table stop start = (table.select (ReversedRange start stop)).reverse := by
  unfold reached
  congr 1
  refine table.select_congr fun row member => ?_
  refine ⟨And.left, fun range => ⟨range, ?_⟩⟩
  rintro ⟨region, regionMember, started, gap⟩
  exact clear region regionMember started row member range.2 ((between_rowBefore_iff _ _).mp gap)

theorem clearGaps_of_length {partition : Partition} {table : RowSet} {start stop : Bytes}
    (same : (reached partition table stop start).length =
      (table.select (ReversedRange start stop)).reverse.length) :
    ClearGaps partition table start stop := by
  rw [reached, List.length_reverse, List.length_reverse] at same
  have all := table.select_length (fun _ => And.left) same
  intro region regionMember started row member bounded past
  have gap := (between_rowBefore_iff _ _).mpr past
  have inRange : ReversedRange start stop row.1 := ⟨gap.2.le.trans started, bounded⟩
  exact (all row member inRange).2 ⟨region, regionMember, started, gap⟩

/-- A reversed scan returns the rows of its range, in descending order, exactly if no row
of the range lies in a gap that the padded start rows leave. -/
theorem reversed_scan_exact_iff (partition : Partition) (table : RowSet) (start stop : Bytes)
    (numberOfRows : UInt32) (closeScanner allowPartialResults : Bool)
    (whole : allowPartialResults = true ∨ ∀ row ∈ table.rows, getPartial (some row.2) = false)
    (plans : Nat → Bytes → RegionPlan)
    (answers : ∀ k row, ReversedAnswer partition table stop row (plans k row)) :
    (∃ final, Returns (planClient plans)
      (openScan (reversedScan start stop numberOfRows closeScanner allowPartialResults))
      ((table.select (ReversedRange start stop)).reverse.map toLocalResult) final) ↔
    ClearGaps partition table start stop := by
  have visits : ∀ k row, Visit
      (reversedScan start stop numberOfRows closeScanner allowPartialResults)
      (reached partition table stop) (regionsBelow partition) row (plans k row) :=
    fun k row => (answers k row).visit rfl
  have hands : ∀ row, ∀ result ∈ reached partition table stop row,
      (reversedScan start stop numberOfRows closeScanner allowPartialResults).HandsOut result := by
    intro row result member
    refine whole.imp_right fun pieces => ?_
    obtain ⟨item, kept, rfl⟩ := List.mem_map.mp (List.mem_reverse.mp member)
    exact pieces item (List.mem_of_mem_filter kept)
  obtain ⟨final, _, drains, _⟩ := ends_visits rfl hands visits 0 start none []
  have returned := drains.returns
  constructor
  · rintro ⟨other, expected⟩
    have same := congrArg List.length (returned.unique _ expected)
    rw [List.length_map, List.length_map] at same
    exact clearGaps_of_length same
  · intro clear
    rw [reached_of_clearGaps clear] at returned
    exact ⟨final, returned⟩

def reversedPlan (id : UInt64) (heartbeats : Nat) (table : RowSet) (stop row : Bytes)
    (region : RegionInfo) : RegionPlan :=
  heartbeatPlan id heartbeats region
    (table.select fun key => ReversedRange row stop key ∧ region.HasRow key).reverse

theorem reversedPlan_answers {id : UInt64} (valid : id ≠ noScannerID) (heartbeats : Nat)
    {partition : Partition} (table : RowSet) (stop : Bytes) {row : Bytes} {region : RegionInfo}
    (member : region ∈ partition.regions) (contains : region.HasRow row) :
    ReversedAnswer partition table stop row
      (reversedPlan id heartbeats table stop row region) where
  member := member
  contains := contains
  identified := by
    obtain ⟨first, rest, responses, issued⟩ := heartbeatPlan_first id heartbeats region _
    exact ⟨id, first, rest, responses, issued⟩
  usable := heartbeatPlan_usable id heartbeats region _ valid
  content := heartbeatPlan_content id heartbeats region _
  flagged := heartbeatPlan_flagged id heartbeats region _
  truthful := heartbeatPlan_truthful id heartbeats region _ _

theorem halves_member (row : Bytes) :
    halves row ∈ [sampleRegion 0 1 [] [99], sampleRegion 1 1 [99] []] := by
  unfold halves
  split <;> simp

def halfPartition : Partition where
  regions := [sampleRegion 0 1 [] [99], sampleRegion 1 1 [99] []]
  nonempty := by decide
  covers row := ⟨halves row, halves_member row, halves_hasRow row⟩
  apart := by
    have disjoint (row : Bytes) (low : (sampleRegion 0 1 [] [99]).HasRow row)
        (high : (sampleRegion 1 1 [99] []).HasRow row) : False :=
      absurd (low.2.resolve_left (by decide)) (not_lt.mpr high.1)
    simp only [List.mem_cons, List.not_mem_nil, or_false]
    rintro region (rfl | rfl) other (rfl | rfl) row first second
    · rfl
    · exact (disjoint row first second).elim
    · exact (disjoint row second first).elim
    · rfl

theorem reversed_scan_exact_iff_halves :
    (∃ final, Returns
      (planClient fun k row => reversedPlan 7 k sampleTable [] row (halves row))
      (openScan (reversedScan [101] [] 10 false false))
      ((sampleTable.select (ReversedRange [101] [])).reverse.map toLocalResult) final) ↔
    ClearGaps halfPartition sampleTable [101] [] :=
  reversed_scan_exact_iff halfPartition sampleTable [101] [] 10 false false (.inr (by decide))
    (fun k row => reversedPlan 7 k sampleTable [] row (halves row))
    (fun k row => reversedPlan_answers (by decide) k sampleTable [] (halves_member row)
      (halves_hasRow row))

def hiddenTable : RowSet where
  rows := [(98 :: List.replicate 9 0xff, ⟨[], none, none, none, none⟩)]
  ascending := by decide

/-- From "c" the scan goes on at "b" and eight bytes 0xff. -/
theorem reversed_scan_skips_row :
    (∀ row, ReversedAnswer halfPartition hiddenTable [] row
      (reversedPlan 7 0 hiddenTable [] row (halves row))) ∧
    ∃ final, Returns
      (planClient fun _ row => reversedPlan 7 0 hiddenTable [] row (halves row))
      (openScan (reversedScan [99] [] 10 false true)) [] final ∧
      hiddenTable.select (ReversedRange [99] []) ≠ [] := by
  refine ⟨fun row => ?_, _, Drains.returns _ (.eof 2 rfl), by decide⟩
  exact reversedPlan_answers (by decide) 0 hiddenTable [] (halves_member row) (halves_hasRow row)

end GoHBase
