import GoHBase.ScannerVisits

/-!
Tables and the regions they are split into, as the servers of a scan see them.
-/

namespace GoHBase

open ByteString Runtime Buffer

theorem filter_append_filter_not {α : Type} (accept : α → Bool) (values : List α)
    (closed : values.Pairwise fun first second => accept second = true → accept first = true) :
    values.filter accept ++ values.filter (fun value => !accept value) = values := by
  induction values with
  | nil => rfl
  | cons value values ih =>
      obtain ⟨first, later⟩ := List.pairwise_cons.mp closed
      cases accepted : accept value with
      | true => simpa [accepted] using ih later
      | false =>
          have others : values.filter accept = [] := by
            rw [List.filter_eq_nil_iff]
            intro other member taken
            exact absurd (first other member taken) (by simp [accepted])
          have all := ih later
          rw [others, List.nil_append] at all
          simp only [List.filter_cons, accepted, Bool.false_eq_true, ↓reduceIte, others,
            Bool.not_false, List.nil_append, all]

structure RowSet where
  rows : List (Bytes × PbResult)
  ascending : rows.Pairwise fun first second => first.1 < second.1

namespace RowSet

variable (table : RowSet)

def select (keep : Bytes → Prop) [DecidablePred keep] : List (Option PbResult) :=
  (table.rows.filter fun row => keep row.1).map fun row => some row.2

theorem select_congr {keep keep' : Bytes → Prop} [DecidablePred keep] [DecidablePred keep']
    (same : ∀ row ∈ table.rows, keep row.1 ↔ keep' row.1) :
    table.select keep = table.select keep' := by
  unfold select
  rw [List.filter_congr fun row member => decide_eq_decide.mpr (same row member)]

theorem select_nil {keep : Bytes → Prop} [DecidablePred keep] (nothing : ∀ key, ¬keep key) :
    table.select keep = [] := by
  simp [select, nothing]

theorem select_nil_imp {keep keep' : Bytes → Prop} [DecidablePred keep] [DecidablePred keep']
    (narrower : ∀ key, keep' key → keep key) (nothing : table.select keep = []) :
    table.select keep' = [] := by
  simp only [select, List.map_eq_nil_iff, List.filter_eq_nil_iff, decide_eq_true_eq] at nothing ⊢
  exact fun row member kept => nothing row member (narrower row.1 kept)

theorem select_length {keep keep' : Bytes → Prop} [DecidablePred keep] [DecidablePred keep']
    (narrower : ∀ key, keep' key → keep key)
    (same : (table.select keep').length = (table.select keep).length) :
    ∀ row ∈ table.rows, keep row.1 → keep' row.1 := by
  simp only [select, List.length_map] at same
  have sublist : (table.rows.filter fun row => keep' row.1).Sublist
      (table.rows.filter fun row => keep row.1) :=
    List.monotone_filter_right _ fun row kept => by
      simpa using narrower row.1 (by simpa using kept)
  have equal := sublist.eq_of_length same
  intro row member kept
  have found : row ∈ table.rows.filter fun row => keep row.1 := by simp [member, kept]
  rw [← equal] at found
  simpa using (List.mem_filter.mp found).2

theorem select_split (keep : Bytes → Prop) [DecidablePred keep] (bound : Bytes) :
    table.select keep = (table.select fun key => keep key ∧ key < bound) ++
      table.select fun key => keep key ∧ bound ≤ key := by
  have sorted : (table.rows.filter fun row => keep row.1).Pairwise fun first second =>
      decide (second.1 < bound) = true → decide (first.1 < bound) = true := by
    refine (table.ascending.filter _).imp fun less below => ?_
    simp only [decide_eq_true_eq] at below ⊢
    exact less.trans below
  have split := filter_append_filter_not (fun row : Bytes × PbResult => row.1 < bound) _ sorted
  simp only [List.filter_filter] at split
  simp only [select, ← List.map_append]
  rw [← split]
  congr 3
  · funext row
    simp [Bool.and_comm]
  · funext row
    simp only [← decide_not, not_lt, Bool.decide_and, Bool.and_comm]

end RowSet

def RegionInfo.HasRow (reg : RegionInfo) (key : Bytes) : Prop :=
  reg.startKey ≤ key ∧ (reg.stopKey = [] ∨ key < reg.stopKey)

instance (reg : RegionInfo) : DecidablePred reg.HasRow := fun key =>
  inferInstanceAs (Decidable (reg.startKey ≤ key ∧ (reg.stopKey = [] ∨ key < reg.stopKey)))

/-- A server identifies region scans by anything but the number that stands for none. -/
def RegionPlan.Usable (plan : RegionPlan) : Prop :=
  ∀ first rest, plan.responses = first :: rest → first.scannerId ≠ some noScannerID

def openScan (rpc : Scan) : ScanState PlanState := ⟨newScanner rpc, ⟨0, none⟩, []⟩

theorem card_filter_lt {keys : List Bytes} {later earlier : Bytes → Prop} [DecidablePred later]
    [DecidablePred earlier] (fewer : ∀ key, later key → earlier key) {passed : Bytes}
    (known : passed ∈ keys) (ahead : earlier passed) (behind : ¬later passed) :
    (keys.toFinset.filter later).card < (keys.toFinset.filter earlier).card := by
  refine Finset.card_lt_card ((Finset.ssubset_iff_of_subset ?_).mpr ⟨passed, ?_, ?_⟩)
  · exact Finset.monotone_filter_right _ fun key _ => fewer key
  · simp [known, ahead]
  · simp [behind]

def heartbeatPlan (id : UInt64) (heartbeats : Nat) (region : RegionInfo)
    (results : List (Option PbResult)) : RegionPlan where
  region := region
  responses := List.replicate heartbeats ⟨[], some id, none, [], [], some true⟩ ++
    [⟨[], some id, none, results, [], some false⟩]

section Heartbeats

variable (id : UInt64) (heartbeats : Nat) (region : RegionInfo) (results : List (Option PbResult))

theorem heartbeatPlan_first : ∃ first rest,
    (heartbeatPlan id heartbeats region results).responses = first :: rest ∧
      first.scannerId = some id := by
  cases heartbeats with
  | zero => exact ⟨_, _, rfl, rfl⟩
  | succ heartbeats => exact ⟨_, _, rfl, rfl⟩

theorem heartbeatPlan_content :
    (heartbeatPlan id heartbeats region results).responses.flatMap ScanResponse.results =
      results := by
  simp [heartbeatPlan, List.flatMap_append, List.flatMap_replicate]

theorem heartbeatPlan_flagged : Flagged (heartbeatPlan id heartbeats region results).responses := by
  induction heartbeats with
  | zero => simp [heartbeatPlan, Flagged]
  | succ heartbeats ih =>
      obtain ⟨first, rest, responses, _⟩ := heartbeatPlan_first id heartbeats region results
      rw [responses] at ih
      have more : (heartbeatPlan id (heartbeats + 1) region results).responses =
          ⟨[], some id, none, [], [], some true⟩ :: first :: rest := by
        rw [← responses]
        rfl
      rw [more]
      exact ⟨rfl, ih⟩

theorem heartbeatPlan_truthful (beyond : List (Option PbResult)) :
    Truthful beyond (heartbeatPlan id heartbeats region results).responses := by
  induction heartbeats with
  | zero => simp [heartbeatPlan, Truthful]
  | succ heartbeats ih => exact ⟨fun ended => absurd ended (by simp), ih⟩

theorem heartbeatPlan_usable (valid : id ≠ noScannerID) :
    (heartbeatPlan id heartbeats region results).Usable := by
  intro other rest responses reserved
  obtain ⟨first, _, same, issued⟩ := heartbeatPlan_first id heartbeats region results
  rw [same] at responses
  cases responses
  rw [issued] at reserved
  exact valid (Option.some.inj reserved)

end Heartbeats

def sampleTable : RowSet where
  rows := [([98], ⟨[], none, none, none, none⟩), ([100], ⟨[], none, none, none, none⟩)]
  ascending := by decide

def halves (row : Bytes) : RegionInfo :=
  if row < [99] then sampleRegion 0 1 [] [99] else sampleRegion 1 1 [99] []

theorem halves_hasRow (row : Bytes) : (halves row).HasRow row := by
  unfold halves
  split
  · rename_i below
    exact ⟨nil_le_bytes row, .inr below⟩
  · rename_i above
    exact ⟨not_lt.mp above, .inl rfl⟩

end GoHBase
