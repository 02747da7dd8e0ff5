import GoHBase.QueryCore

/-! What the constructors guarantee of a call whatever options they are given, what a server reads
from the request of such a call, and the requests that a scanner builds from its query. -/

namespace GoHBase.Hrpc

open ByteString Runtime Buffer RangeLoop

structure BaseQuery.Valid (q : BaseQuery) : Prop where
  timeRange : q.fromTimestamp < q.toTimestamp
  maxVersions : q.maxVersions ≤ maxInt32
  storeLimit : q.storeLimit ≤ maxInt32
  storeOffset : q.storeOffset ≤ maxInt32

structure GetCall.From (start g : GetCall) : Prop where
  query : g.query.Valid
  table : g.table = start.table
  key : g.key = start.key
  existsOnly : g.existsOnly = start.existsOnly
  options : g.options = start.options

structure ScanCall.From (start s : ScanCall) : Prop where
  query : s.query.Valid
  maxResultSize : s.maxResultSize ≠ 0
  table : s.table = start.table
  key : s.key = start.key
  options : s.options = start.options
  startRow : s.scan.startRow = start.scan.startRow
  stopRow : s.scan.stopRow = start.scan.stopRow

theorem newBaseQuery_valid : newBaseQuery.Valid where
  timeRange := by decide
  maxVersions := by decide
  storeLimit := by decide
  storeOffset := by decide

structure Kind.Keeps {α : Type} (kind : Kind α) (valid : α → Prop) : Prop where
  query : ∀ change, kind.query = some change → ∀ set,
    (∀ q q', q.Valid → set q = .ok q' → q'.Valid) →
    ∀ call call', valid call → change set call = .ok call' → valid call'
  batchable : ∀ change, kind.batchable = some change → ∀ v call, valid call → valid (change v call)
  scan : ∀ change, kind.scan = some change → ∀ set,
    (∀ start s s' : ScanCall, start.From s → set s = .ok s' → start.From s') →
    ∀ call call', valid call → change set call = .ok call' → valid call'

theorem getKind_keeps (start : GetCall) : getKind.Keeps start.From where
  query := by
    rintro _ ⟨⟩ set kept call call' before ran
    obtain ⟨query, set, finished⟩ := (bind_ok_iff _ _ _).mp ran
    cases finished
    exact { before with query := kept _ _ before.query set }
  batchable := by
    rintro _ ⟨⟩ v call before
    exact { before with }
  scan := by rintro _ ⟨⟩

theorem scanKind_keeps (start : ScanCall) : scanKind.Keeps start.From where
  query := by
    rintro _ ⟨⟩ set kept call call' before ran
    obtain ⟨query, set, finished⟩ := (bind_ok_iff _ _ _).mp ran
    cases finished
    exact { before with query := kept _ _ before.query set }
  batchable := by rintro _ ⟨⟩
  scan := by
    rintro _ ⟨⟩ set kept call call' before ran
    exact kept start call call' before ran

section Options

variable {α : Type} {kind : Kind α} {valid : α → Prop} {call call' : α}

theorem queryOption_keeps (keeps : kind.Keeps valid) {text : String}
    {set : BaseQuery → Except String BaseQuery}
    (kept : ∀ q q', q.Valid → set q = .ok q' → q'.Valid) (before : valid call)
    (ran : queryOption kind text set call = .ok call') : valid call' := by
  unfold queryOption at ran
  split at ran
  · rename_i change has
    exact keeps.query change has set kept call call' before ran
  · cases ran

theorem scanOption_keeps (keeps : kind.Keeps valid) {text : String}
    {set : ScanCall → Except String ScanCall}
    (kept : ∀ start s s' : ScanCall, start.From s → set s = .ok s' → start.From s')
    (before : valid call)
    (ran : scanOption kind text set call = .ok call') : valid call' := by
  unfold scanOption at ran
  split at ran
  · rename_i change has
    exact keeps.scan change has set kept call call' before ran
  · cases ran

theorem timeRangeUint64_keeps (keeps : kind.Keeps valid) {lower upper : UInt64}
    (before : valid call) (ran : timeRangeUint64 kind lower upper call = .ok call') :
    valid call' := by
  refine queryOption_keeps keeps ?_ before ran
  intro q q' inside set
  split at set
  · cases set
  · rename_i order
    cases set
    exact { inside with timeRange := UInt64.not_le.mp order }

theorem CallOption.apply_keeps (keeps : kind.Keeps valid) (option : CallOption)
    (before : valid call) (ran : option.apply kind call = .ok call') : valid call' := by
  cases option with
  | families f =>
      refine queryOption_keeps keeps ?_ before ran
      rintro q _ inside ⟨⟩
      exact { inside with }
  | filters built =>
      refine queryOption_keeps keeps ?_ before ran
      intro q q' inside set
      obtain ⟨pbF, _, finished⟩ := (bind_ok_iff _ _ _).mp set
      cases finished
      exact { inside with }
  | timeRange lower upper => exact timeRangeUint64_keeps keeps before ran
  | timeRangeUint64 lower upper => exact timeRangeUint64_keeps keeps before ran
  | maxVersions versions =>
      refine queryOption_keeps keeps ?_ before ran
      intro q q' inside set
      split at set
      · cases set
      · rename_i bound
        cases set
        exact { inside with maxVersions := UInt32.not_lt.mp bound }
  | maxResultsPerColumnFamily maxresults =>
      refine queryOption_keeps keeps ?_ before ran
      intro q q' inside set
      split at set
      · cases set
      · rename_i bound
        cases set
        exact { inside with storeLimit := UInt32.not_lt.mp bound }
  | resultOffset offset =>
      refine queryOption_keeps keeps ?_ before ran
      intro q q' inside set
      split at set
      · cases set
      · rename_i bound
        cases set
        exact { inside with storeOffset := UInt32.not_lt.mp bound }
  | cacheBlocks blocks =>
      refine queryOption_keeps keeps ?_ before ran
      rintro q _ inside ⟨⟩
      exact { inside with }
  | consistency level =>
      refine queryOption_keeps keeps ?_ before ran
      rintro q _ inside ⟨⟩
      exact { inside with }
  | skipBatch =>
      simp only [apply, Hrpc.skipBatch] at ran
      split at ran
      · rename_i change has
        cases ran
        exact keeps.batchable change has true call before
      · cases ran
  | maxResultSize n =>
      refine scanOption_keeps keeps ?_ before ran
      intro start s s' inside set
      split at set
      · cases set
      · rename_i positive
        cases set
        exact { inside with maxResultSize := positive }
  | scannerID id =>
      refine scanOption_keeps keeps ?_ before ran
      rintro start s _ inside ⟨⟩
      exact { inside with }
  | closeScanner =>
      refine scanOption_keeps keeps ?_ before ran
      rintro start s _ inside ⟨⟩
      exact { inside with }
  | numberOfRows n =>
      refine scanOption_keeps keeps ?_ before ran
      rintro start s _ inside ⟨⟩
      exact { inside with }
  | allowPartialResults =>
      refine scanOption_keeps keeps ?_ before ran
      rintro start s _ inside ⟨⟩
      exact { inside with }
  | reversed =>
      refine scanOption_keeps keeps ?_ before ran
      rintro start s _ inside ⟨⟩
      exact { inside with }
  | foreign error => cases ran

theorem applyOptions_keeps (keeps : kind.Keeps valid) (options : List CallOption)
    (before : valid call) (ran : applyOptions kind options call = .ok call') : valid call' := by
  induction options generalizing call with
  | nil =>
      cases ran
      exact before
  | cons option options ih =>
      obtain ⟨next, first, rest⟩ := (bind_ok_iff _ _ _).mp ran
      exact ih (option.apply_keeps keeps before first) rest

end Options

theorem newGet_from {table key : Bytes} {options : List CallOption} {g : GetCall}
    (built : newGet table key options = .ok g) : (emptyGet table key options).From g := by
  refine applyOptions_keeps (getKind_keeps (emptyGet table key options)) options ?_ built
  exact ⟨newBaseQuery_valid, rfl, rfl, rfl, rfl⟩

theorem baseScan_from {table : Bytes} {options : List CallOption} {s : ScanCall}
    (built : baseScan table options = .ok s) : (emptyScan table options).From s := by
  have positive : defaultMaxResultSize ≠ 0 := by decide
  refine applyOptions_keeps (scanKind_keeps (emptyScan table options)) options ?_ built
  exact ⟨newBaseQuery_valid, positive, rfl, rfl, rfl, rfl, rfl⟩

/-! What the comments and defaults of the protocol's messages say of a field that is left out. -/
namespace Protocol

def maxVersions : UInt32 := 1

def cacheBlocks : Bool := true

def existenceOnly : Bool := false

def reversed : Bool := false

def consistency : Consistency := .strong

/-- `from` and `to` of a TimeRange: 0 and `Long.MAX_VALUE`. -/
def lower : UInt64 := 0

def upper : UInt64 := 0x7fffffffffffffff

def storeOffset : UInt32 := 0

end Protocol

structure Reading where
  columns : List Column
  filter : Option PbFilter
  fromTimestamp : UInt64
  toTimestamp : UInt64
  maxVersions : UInt32
  storeLimit : Option UInt32
  storeOffset : UInt32
  cacheBlocks : Bool
  consistency : Consistency
  deriving DecidableEq, Repr

/-- What a query is meant to ask. The end of all time is `Long.MAX_VALUE` to a server, no limit of
cells is none, and the default consistency is the server's. -/
def BaseQuery.reading (q : BaseQuery) (order : Order (Σ _ : Bytes, List Bytes)) : Reading where
  columns := familiesToColumn order q.families
  filter := q.filter
  fromTimestamp := q.fromTimestamp
  toTimestamp := if q.toTimestamp = maxTimestamp then Protocol.upper else q.toTimestamp
  maxVersions := q.maxVersions
  storeLimit :=
    if q.storeLimit = defaultMaxResultsPerColumnFamily then none else some q.storeLimit
  storeOffset := q.storeOffset
  cacheBlocks := q.cacheBlocks
  consistency := if q.consistency = timelineConsistency then .timeline else .strong

def readGet (get : PbGet) : Reading where
  columns := get.column
  filter := get.filter
  fromTimestamp := get.timeRange.lower.getD Protocol.lower
  toTimestamp := get.timeRange.upper.getD Protocol.upper
  maxVersions := get.maxVersions.getD Protocol.maxVersions
  storeLimit := get.storeLimit
  storeOffset := get.storeOffset.getD Protocol.storeOffset
  cacheBlocks := get.cacheBlocks.getD Protocol.cacheBlocks
  consistency := get.consistency.getD Protocol.consistency

def readScan (scan : PbScan) : Reading where
  columns := scan.column
  filter := scan.filter
  fromTimestamp := scan.timeRange.lower.getD Protocol.lower
  toTimestamp := scan.timeRange.upper.getD Protocol.upper
  maxVersions := scan.maxVersions.getD Protocol.maxVersions
  storeLimit := scan.storeLimit
  storeOffset := scan.storeOffset.getD Protocol.storeOffset
  cacheBlocks := scan.cacheBlocks.getD Protocol.cacheBlocks
  consistency := scan.consistency.getD Protocol.consistency

theorem getD_unless {α : Type} (value default : α) [Decidable (value ≠ default)] :
    (if value ≠ default then some value else none).getD default = value := by
  split
  · rfl
  · rename_i same
    exact (not_not.mp same).symm

theorem getD_when (flag : Bool) : (if flag then some true else none).getD false = flag := by
  cases flag <;> rfl

theorem BaseQuery.getD_upper (q : BaseQuery) :
    (if q.toTimestamp ≠ maxTimestamp then some q.toTimestamp else none).getD Protocol.upper =
      if q.toTimestamp = maxTimestamp then Protocol.upper else q.toTimestamp := by
  by_cases last : q.toTimestamp = maxTimestamp
  · simp [last]
  · simp [last]

def BaseQuery.KnownConsistency (q : BaseQuery) : Prop :=
  q.consistency = defaultConsistency ∨ q.consistency = strongConsistency ∨
    q.consistency = timelineConsistency

theorem consistencyField_known {q : BaseQuery} (known : q.KnownConsistency) :
    ∃ field, consistencyField q.consistency = .ok field ∧ field.getD Protocol.consistency =
      if q.consistency = timelineConsistency then .timeline else .strong := by
  obtain same | same | same := known
  · rw [same]
    exact ⟨none, rfl, rfl⟩
  · rw [same]
    exact ⟨some .strong, rfl, rfl⟩
  · rw [same]
    exact ⟨some .timeline, rfl, rfl⟩

theorem consistencyField_unknown {q : BaseQuery} (unknown : ¬q.KnownConsistency) :
    consistencyField q.consistency = .error (.panic "invalid value for ConsistencyType") := by
  simp only [BaseQuery.KnownConsistency, not_or] at unknown
  obtain ⟨notDefault, notStrong, notTimeline⟩ := unknown
  rw [consistencyField, if_pos notDefault, ConsistencyType.toProto, if_neg notTimeline,
    if_neg notStrong, if_neg notDefault]
  rfl

theorem get_read (g : GetCall) (region : RegionInfo) (order : Order (Σ _ : Bytes, List Bytes))
    (known : g.query.KnownConsistency) :
    ∃ request, (g.get (some region)).toProto order = .ok request ∧
      request.region = ⟨region.name⟩ ∧ request.get.row = g.key ∧
      request.get.existenceOnly.getD Protocol.existenceOnly = g.existsOnly ∧
      readGet request.get = g.query.reading order := by
  obtain ⟨field, made, level⟩ := consistencyField_known known
  simp only [Get.toProto, GetCall.get, regionSpecifier, ok_bind, made]
  refine ⟨_, rfl, rfl, rfl, getD_when g.existsOnly, ?_⟩
  simp only [readGet, BaseQuery.reading, level]
  congr 1
  · exact getD_unless _ minTimestamp
  · exact g.query.getD_upper
  · exact getD_unless _ defaultMaxVersions
  · exact ite_not _ _ _
  · exact getD_unless _ 0
  · exact getD_unless _ defaultCacheBlocks

theorem get_unread (g : GetCall) (region : RegionInfo) (order : Order (Σ _ : Bytes, List Bytes))
    (unknown : ¬g.query.KnownConsistency) :
    (g.get (some region)).toProto order =
      .error (.panic "invalid value for ConsistencyType") := by
  simp only [Get.toProto, GetCall.get, regionSpecifier, ok_bind, consistencyField_unknown unknown]
  rfl

theorem scan_read (s : ScanCall) (region : RegionInfo) (order : Order (Σ _ : Bytes, List Bytes))
    (opens : s.scan.scannerID = noScannerID) (known : s.query.KnownConsistency) :
    ∃ request scan, s.toProto (some region) order = .ok request ∧ request.scan = some scan ∧
      request.scannerId = none ∧ request.region = ⟨region.name⟩ ∧
      request.numberOfRows = s.scan.numberOfRows ∧ request.closeScanner = s.scan.closeScanner ∧
      scan.startRow = s.scan.startRow ∧ scan.stopRow = s.scan.stopRow ∧
      scan.maxResultSize = s.maxResultSize ∧
      scan.reversed.getD Protocol.reversed = s.scan.reversed ∧
      readScan scan = s.query.reading order := by
  obtain ⟨field, made, level⟩ := consistencyField_known known
  have absent : ¬s.scan.scannerID ≠ noScannerID := not_not.mpr opens
  simp only [ScanCall.toProto, regionSpecifier, ok_bind, if_neg absent, made]
  refine ⟨_, _, rfl, rfl, rfl, rfl, rfl, rfl, rfl, rfl, rfl, getD_when s.scan.reversed, ?_⟩
  simp only [readScan, BaseQuery.reading, level]
  congr 1
  · exact getD_unless _ minTimestamp
  · exact s.query.getD_upper
  · exact getD_unless _ defaultMaxVersions
  · exact ite_not _ _ _
  · exact getD_unless _ 0
  · exact getD_unless _ defaultCacheBlocks

theorem scan_unread (s : ScanCall) (region : RegionInfo) (order : Order (Σ _ : Bytes, List Bytes))
    (opens : s.scan.scannerID = noScannerID) (unknown : ¬s.query.KnownConsistency) :
    s.toProto (some region) order = .error (.panic "invalid value for ConsistencyType") := by
  have absent : ¬s.scan.scannerID ≠ noScannerID := not_not.mpr opens
  simp only [ScanCall.toProto, regionSpecifier, ok_bind, if_neg absent,
    consistencyField_unknown unknown]
  rfl

theorem scan_continued (s : ScanCall) (region : RegionInfo)
    (order : Order (Σ _ : Bytes, List Bytes)) (goesOn : s.scan.scannerID ≠ noScannerID) :
    ∃ request, s.toProto (some region) order = .ok request ∧ request.scan = none ∧
      request.scannerId = some s.scan.scannerID ∧ request.region = ⟨region.name⟩ ∧
      request.numberOfRows = s.scan.numberOfRows ∧ request.closeScanner = s.scan.closeScanner := by
  simp only [ScanCall.toProto, regionSpecifier, ok_bind, if_pos goesOn]
  exact ⟨_, rfl, rfl, rfl, rfl, rfl, rfl⟩

def Reading.families (read : Reading) : List (Σ _ : Bytes, List Bytes) :=
  read.columns.map fun column => ⟨column.family, column.qualifier⟩

theorem BaseQuery.families_read (q : BaseQuery) (order : Order (Σ _ : Bytes, List Bytes)) :
    (q.reading order).families.Perm q.families.entries := by
  have same : (q.reading order).families = order.visit q.families.entries := by
    rw [Reading.families, BaseQuery.reading, familiesToColumn, List.map_map]
    exact List.map_id _
  rw [same]
  exact order.perm _

/-- Whatever its options are, a Get or a Scan that its constructor returns is within the limits that
the options check, and a server reads from its request the query that was built. A request for an
open scanner carries its ID and no query. Two limits are not checked: with a consistency that has no
name there is no request, and any number of rows is sent. -/
theorem built_queries_read_back (region : RegionInfo)
    (order : Order (Σ _ : Bytes, List Bytes)) :
    (∀ table key options g, newGet table key options = .ok g → g.query.Valid ∧
      (g.query.KnownConsistency → ∃ request, (g.get (some region)).toProto order = .ok request ∧
        request.region = ⟨region.name⟩ ∧ request.get.row = key ∧
        request.get.existenceOnly.getD Protocol.existenceOnly = g.existsOnly ∧
        readGet request.get = g.query.reading order ∧
        (readGet request.get).families.Perm g.query.families.entries) ∧
      (¬g.query.KnownConsistency → (g.get (some region)).toProto order =
        .error (.panic "invalid value for ConsistencyType"))) ∧
    (∀ table startRow stopRow options s, newScanRange table startRow stopRow options = .ok s →
      s.query.Valid ∧ s.maxResultSize ≠ 0 ∧
      (s.scan.scannerID ≠ noScannerID → ∃ request, s.toProto (some region) order = .ok request ∧
        request.region = ⟨region.name⟩ ∧ request.numberOfRows = s.scan.numberOfRows ∧
        request.closeScanner = s.scan.closeScanner ∧ request.scan = none ∧
        request.scannerId = some s.scan.scannerID) ∧
      (s.scan.scannerID = noScannerID → s.query.KnownConsistency → ∃ request scan,
        s.toProto (some region) order = .ok request ∧ request.region = ⟨region.name⟩ ∧
        request.numberOfRows = s.scan.numberOfRows ∧ request.closeScanner = s.scan.closeScanner ∧
        request.scannerId = none ∧ request.scan = some scan ∧ scan.startRow = startRow ∧
        scan.stopRow = stopRow ∧ scan.maxResultSize = s.maxResultSize ∧
        scan.reversed.getD Protocol.reversed = s.scan.reversed ∧
        readScan scan = s.query.reading order ∧
        (readScan scan).families.Perm s.query.families.entries) ∧
      (s.scan.scannerID = noScannerID → ¬s.query.KnownConsistency →
        s.toProto (some region) order = .error (.panic "invalid value for ConsistencyType"))) ∧
    ∀ table startRow stopRow n, ∃ s,
      newScanRange table startRow stopRow [.numberOfRows n] = .ok s ∧ s.scan.numberOfRows = n := by
  refine ⟨?_, ?_, fun table startRow stopRow n => ⟨_, rfl, rfl⟩⟩
  · intro table key options g built
    have start := newGet_from built
    refine ⟨start.query, fun known => ?_, get_unread g region order⟩
    obtain ⟨request, encoded, specified, row, existing, read⟩ := get_read g region order known
    refine ⟨request, encoded, specified, row.trans start.key, existing, read, ?_⟩
    rw [read]
    exact g.query.families_read order
  · intro table startRow stopRow options s built
    obtain ⟨base, applied, finished⟩ := (bind_ok_iff _ _ _).mp built
    have start := baseScan_from applied
    have rows : s.scan.startRow = startRow ∧ s.scan.stopRow = stopRow ∧ s.query.Valid ∧
        s.maxResultSize ≠ 0 := by
      cases finished
      exact ⟨rfl, rfl, start.query, start.maxResultSize⟩
    refine ⟨rows.2.2.1, rows.2.2.2, fun goesOn => ?_, fun opens known => ?_,
      scan_unread s region order⟩
    · obtain ⟨request, encoded, unscanned, id, specified, count, closes⟩ :=
        scan_continued s region order goesOn
      exact ⟨request, encoded, specified, count, closes, unscanned, id⟩
    · obtain ⟨request, scan, encoded, has, absent, specified, count, closes, first, last, size,
        reversed, read⟩ := scan_read s region order opens known
      refine ⟨request, scan, encoded, specified, count, closes, absent, has, first.trans rows.1,
        last.trans rows.2.1, size, reversed, read, ?_⟩
      rw [read]
      exact s.query.families_read order

theorem built_queries_read_back_reversed :
    ∃ s, newScanRange [116] [97] [122] [.families (AList.singleton [102] [[113]]),
        .maxVersions 3, .reversed] = .ok s ∧ s.scan.reversed ∧ s.query.maxVersions = 3 ∧
      ∃ request scan, s.toProto (some (sampleRegion 0 1 [] [])) (.stored _) = .ok request ∧
        request.scan = some scan ∧ (readScan scan).maxVersions = 3 := by
  obtain ⟨s, built, opens, known, reversed, versions⟩ : ∃ s,
      newScanRange [116] [97] [122] [.families (AList.singleton [102] [[113]]),
        .maxVersions 3, .reversed] = .ok s ∧ s.scan.scannerID = noScannerID ∧
        s.query.KnownConsistency ∧ s.scan.reversed ∧ s.query.maxVersions = 3 :=
    ⟨_, rfl, rfl, .inl rfl, rfl, rfl⟩
  obtain ⟨_, _, _, opened, _⟩ :=
    (built_queries_read_back (sampleRegion 0 1 [] []) (.stored _)).2.1 _ _ _ _ s built
  obtain ⟨request, scan, encoded, _, _, _, _, has, _, _, _, _, read, _⟩ := opened opens known
  refine ⟨s, built, reversed, versions, request, scan, encoded, has, ?_⟩
  rw [read]
  exact versions

def ScanCall.nextRequest (query : ScanCall) (s : Scanner) : Except String ScanCall :=
  if s.isRegionScannerClosed then
    newScanRange query.table s.startRow query.scan.stopRow query.options
  else
    newScanRange query.table s.startRow []
      [.scannerID s.curRegionScannerID, .numberOfRows query.scan.numberOfRows]

def ScanCall.closeRequest (query : ScanCall) (s : Scanner) : Except String ScanCall :=
  newScanRange query.table s.startRow []
    [.scannerID s.curRegionScannerID, .closeScanner, .numberOfRows 0]

def ScanCall.movedTo (query : ScanCall) (row : Bytes) : ScanCall :=
  { query with key := row, scan := { query.scan with startRow := row } }

theorem newScanRange_moved {table startRow stopRow : Bytes} {options : List CallOption}
    {query : ScanCall} (built : newScanRange table startRow stopRow options = .ok query)
    (row : Bytes) :
    newScanRange query.table row query.scan.stopRow query.options = .ok (query.movedTo row) := by
  obtain ⟨base, applied, finished⟩ := (bind_ok_iff _ _ _).mp built
  have start := baseScan_from applied
  have sameTable : query.table = table := by
    cases finished
    exact start.table
  have sameOptions : query.options = options := by
    cases finished
    exact start.options
  rw [sameTable, sameOptions, newScanRange, applied]
  cases finished
  rfl

/-- The requests of a scanner built from options are those of the model of the scanner, and building
them never fails: the panic of `closeRegionScanner` is out of reach. Each region is asked the whole
query again, whatever options it was built with. -/
theorem scanner_requests_built {table startRow stopRow : Bytes} {options : List CallOption}
    {query : ScanCall} (built : newScanRange table startRow stopRow options = .ok query)
    (s : Scanner) (own : s.rpc = query.scan) :
    (∃ rpc, query.nextRequest s = .ok rpc ∧ rpc.scan = s.request ∧ rpc.table = query.table ∧
      rpc.key = s.startRow ∧
      (s.isRegionScannerClosed → rpc.query = query.query ∧
        rpc.maxResultSize = query.maxResultSize ∧ rpc.options = query.options)) ∧
    ∃ rpc, query.closeRequest s = .ok rpc ∧ rpc.table = query.table ∧ rpc.key = s.startRow ∧
      s.closeRegionScanner.2 =
        if s.isRegionScannerClosed ∨ query.scan.closeScanner then [] else [rpc.scan] := by
  constructor
  · by_cases shut : s.isRegionScannerClosed
    · refine ⟨query.movedTo s.startRow, ?_, ?_, rfl, rfl, fun _ => ⟨rfl, rfl, rfl⟩⟩
      · rw [ScanCall.nextRequest, if_pos shut]
        exact newScanRange_moved built s.startRow
      · rw [Scanner.request, if_pos shut, own]
        rfl
    · refine ⟨_, if_neg shut, ?_, rfl, rfl, fun again => absurd again shut⟩
      rw [Scanner.request, if_neg shut, own]
      rfl
  · refine ⟨_, rfl, rfl, rfl, ?_⟩
    rw [Scanner.closeRegionScanner, own]
    by_cases shut : s.isRegionScannerClosed
    · rw [if_pos shut, if_pos (Or.inl shut)]
    · rw [if_neg shut]
      by_cases closing : query.scan.closeScanner
      · rw [if_pos closing, if_pos (Or.inr closing)]
      · rw [if_neg closing, if_neg (not_or.mpr ⟨shut, closing⟩)]
        rfl

theorem scanner_requests_built_open : ∃ query,
    newScanRange [116] [97] [122] [.maxVersions 3, .numberOfRows 10] = .ok query ∧
    ∃ rpc, query.nextRequest { newScanner query.scan with curRegionScannerID := 7 } = .ok rpc ∧
      rpc.scan.scannerID = 7 ∧ rpc.scan.numberOfRows = 10 := by
  obtain ⟨query, built, rows⟩ : ∃ query,
      newScanRange [116] [97] [122] [.maxVersions 3, .numberOfRows 10] = .ok query ∧
        query.scan.numberOfRows = 10 := ⟨_, rfl, rfl⟩
  obtain ⟨rpc, asked, same, -⟩ := (scanner_requests_built built
    { newScanner query.scan with curRegionScannerID := 7 } rfl).1
  refine ⟨query, built, rpc, asked, ?_, ?_⟩
  · rw [same]
    rfl
  · rw [same]
    exact rows

end GoHBase.Hrpc
