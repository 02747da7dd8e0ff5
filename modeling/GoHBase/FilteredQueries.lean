import GoHBase.FilterRoundTrip
import GoHBase.QueryRequests

/-! A query has the filter of its last `Filters` option, and a server reads that filter from the
request. -/

namespace GoHBase.Hrpc

open ByteString Runtime RangeLoop

/-- `Filters`, once the constructors of its argument have returned. -/
def filtersOf (lib : Filters.FilterProtobuf) (f : Filters.Filter) : Go CallOption := do
  let built ← f.constructPBFilter lib
  pure (.filters built)

theorem filtersOf_constructed {lib : Filters.FilterProtobuf} {f : Filters.Filter}
    {built : Except String PbFilter} (constructed : f.constructPBFilter lib = .ok built) :
    filtersOf lib f = .ok (.filters built) := by
  rw [filtersOf, constructed]
  rfl

def CallOption.filter? : CallOption → Option PbFilter
  | .filters (.ok pb) => some pb
  | _ => none

def lastFilter (options : List CallOption) (before : Option PbFilter) : Option PbFilter :=
  options.foldl (fun found option => option.filter?.or found) before

structure Kind.Holds {α : Type} (kind : Kind α) (held : α → BaseQuery) : Prop where
  query : ∀ change, kind.query = some change → ∀ set call call', change set call = .ok call' →
    set (held call) = .ok (held call')
  batchable : ∀ change, kind.batchable = some change → ∀ v call, held (change v call) = held call
  scan : ∀ change, kind.scan = some change → ∀ set,
    (∀ s s' : ScanCall, set s = .ok s' → s'.query = s.query) →
    ∀ call call', change set call = .ok call' → held call' = held call

theorem getKind_holds : getKind.Holds GetCall.query where
  query := by
    rintro _ ⟨⟩ set call call' ran
    obtain ⟨query, changed, finished⟩ := (bind_ok_iff _ _ _).mp ran
    cases finished
    exact changed
  batchable := by
    rintro _ ⟨⟩ v call
    rfl
  scan := by rintro _ ⟨⟩

theorem scanKind_holds : scanKind.Holds ScanCall.query where
  query := by
    rintro _ ⟨⟩ set call call' ran
    obtain ⟨query, changed, finished⟩ := (bind_ok_iff _ _ _).mp ran
    cases finished
    exact changed
  batchable := by rintro _ ⟨⟩
  scan := by
    rintro _ ⟨⟩ set kept call call' ran
    exact kept call call' ran

section Options

variable {α : Type} {kind : Kind α} {query : α → BaseQuery} {call call' : α}

theorem queryOption_query (holds : kind.Holds query) {text : String}
    {set : BaseQuery → Except String BaseQuery}
    (ran : queryOption kind text set call = .ok call') : set (query call) = .ok (query call') := by
  unfold queryOption at ran
  split at ran
  · rename_i change has
    exact holds.query change has set call call' ran
  · cases ran

theorem scanOption_query (holds : kind.Holds query) {text : String}
    {set : ScanCall → Except String ScanCall}
    (kept : ∀ s s' : ScanCall, set s = .ok s' → s'.query = s.query)
    (ran : scanOption kind text set call = .ok call') : query call' = query call := by
  unfold scanOption at ran
  split at ran
  · rename_i change has
    exact holds.scan change has set kept call call' ran
  · cases ran

theorem queryOption_filter (holds : kind.Holds query) {text : String}
    {set : BaseQuery → Except String BaseQuery}
    (kept : ∀ q q', set q = .ok q' → q'.filter = q.filter)
    (ran : queryOption kind text set call = .ok call') :
    (query call').filter = (query call).filter :=
  kept _ _ (queryOption_query holds ran)

theorem of_checked {β : Type} {refused : Prop} [Decidable refused] {text : String}
    {value result : β}
    (checked : (if refused then .error text else .ok value) = (.ok result : Except String β)) :
    result = value := by
  split at checked
  · cases checked
  · exact (Except.ok.inj checked).symm

theorem timeRangeUint64_filter (holds : kind.Holds query) {lower upper : UInt64}
    (ran : timeRangeUint64 kind lower upper call = .ok call') :
    (query call').filter = (query call).filter := by
  refine queryOption_filter holds ?_ ran
  intro q q' set
  rw [of_checked set]

theorem CallOption.apply_filter (holds : kind.Holds query) (option : CallOption)
    (ran : option.apply kind call = .ok call') :
    (query call').filter = option.filter?.or (query call).filter ∧
      ∀ err, option ≠ .filters (.error err) := by
  cases option with
  | filters built =>
      have set := queryOption_query holds ran
      obtain err | pb := built
      · cases set
      · have changed : query call' = { query call with filter := some pb } :=
          (Except.ok.inj set).symm
        rw [changed]
        exact ⟨rfl, by simp⟩
  | timeRange lower upper => exact ⟨timeRangeUint64_filter holds ran, by simp⟩
  | timeRangeUint64 lower upper => exact ⟨timeRangeUint64_filter holds ran, by simp⟩
  | maxVersions _ | maxResultsPerColumnFamily _ | resultOffset _ =>
      refine ⟨queryOption_filter holds ?_ ran, by simp⟩
      intro q q' set
      rw [of_checked set]
  | families _ | cacheBlocks _ | consistency _ =>
      refine ⟨queryOption_filter holds ?_ ran, by simp⟩
      rintro q _ ⟨⟩
      rfl
  | skipBatch =>
      refine ⟨?_, by simp⟩
      simp only [apply, Hrpc.skipBatch] at ran
      split at ran
      · rename_i change has
        cases ran
        rw [holds.batchable change has]
        rfl
      · cases ran
  -- the other options are those of a scan
  | maxResultSize n =>
      refine ⟨congrArg BaseQuery.filter (scanOption_query holds ?_ ran), by simp⟩
      intro s s' set
      rw [of_checked set]
  | scannerID _ | closeScanner | numberOfRows _ | allowPartialResults | reversed =>
      refine ⟨congrArg BaseQuery.filter (scanOption_query holds ?_ ran), by simp⟩
      rintro s _ ⟨⟩
      rfl
  | foreign error => cases ran

theorem applyOptions_filter (holds : kind.Holds query) {options : List CallOption}
    (ran : applyOptions kind options call = .ok call') :
    (query call').filter = lastFilter options (query call).filter ∧
      ∀ err, CallOption.filters (.error err) ∉ options := by
  induction options generalizing call with
  | nil =>
      cases ran
      exact ⟨rfl, by simp⟩
  | cons option options ih =>
      obtain ⟨next, first, rest⟩ := (bind_ok_iff _ _ _).mp ran
      obtain ⟨changed, fine⟩ := option.apply_filter holds first
      obtain ⟨later, others⟩ := ih rest
      refine ⟨?_, fun err member => ?_⟩
      · rw [later, changed]
        rfl
      · obtain same | member := List.mem_cons.mp member
        · exact fine err same.symm
        · exact others err member

end Options

theorem lastFilter_of_later {back : List CallOption} (later : ∀ o ∈ back, o.filter? = none)
    (before : Option PbFilter) : lastFilter back before = before := by
  induction back with
  | nil => rfl
  | cons option back ih =>
      obtain ⟨first, others⟩ := List.forall_mem_cons.mp later
      rw [lastFilter, List.foldl_cons, first]
      exact ih others

theorem lastFilter_append {front back : List CallOption} {pb : PbFilter}
    (later : ∀ o ∈ back, o.filter? = none) (before : Option PbFilter) :
    lastFilter (front ++ .filters (.ok pb) :: back) before = some pb := by
  rw [lastFilter, List.foldl_append, List.foldl_cons]
  exact lastFilter_of_later later (some pb)

section Filtered

variable {lib : Filters.FilterProtobuf} {f : Filters.Filter} {option : CallOption}
  (evaluated : filtersOf lib f = .ok option)

include evaluated

theorem filtersOf_built (fine : ∀ err, option ≠ .filters (.error err)) :
    ∃ pb, f.constructPBFilter lib = .ok (.ok pb) ∧ option = .filters (.ok pb) := by
  obtain ⟨built, constructed, finished⟩ := (bind_ok_iff _ _ _).mp evaluated
  cases finished
  obtain err | pb := built
  · exact absurd rfl (fine err)
  · exact ⟨pb, constructed, rfl⟩

theorem applyOptions_filtersOf {α : Type} {kind : Kind α} {query : α → BaseQuery} {call call' : α}
    (holds : kind.Holds query) {front back : List CallOption}
    (later : ∀ o ∈ back, o.filter? = none)
    (ran : applyOptions kind (front ++ option :: back) call = .ok call') :
    ∃ pb, f.constructPBFilter lib = .ok (.ok pb) ∧ (query call').filter = some pb := by
  obtain ⟨left, fine⟩ := applyOptions_filter holds ran
  have listed : option ∈ front ++ option :: back :=
    List.mem_append_right front List.mem_cons_self
  obtain ⟨pb, constructed, rfl⟩ := filtersOf_built evaluated fun err same =>
    fine err (same ▸ listed)
  exact ⟨pb, constructed, left.trans (lastFilter_append later _)⟩

end Filtered

end GoHBase.Hrpc
