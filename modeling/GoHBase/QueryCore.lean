import GoHBase.MultiCore
import GoHBase.ScannerCore

/-! Get and Scan requests and the options they are made with. An option asks the call for an
interface or for its type and refuses calls of another kind. -/

namespace GoHBase.Hrpc

open ByteString Runtime Buffer RangeLoop

structure BaseQuery where
  families : FamiliesMap
  filter : Option PbFilter
  fromTimestamp : UInt64
  toTimestamp : UInt64
  maxVersions : UInt32
  storeLimit : UInt32
  storeOffset : UInt32
  cacheBlocks : Bool
  consistency : ConsistencyType

def newBaseQuery : BaseQuery where
  families := ∅
  filter := none
  fromTimestamp := minTimestamp
  toTimestamp := maxTimestamp
  maxVersions := defaultMaxVersions
  storeLimit := defaultMaxResultsPerColumnFamily
  storeOffset := 0
  cacheBlocks := defaultCacheBlocks
  consistency := defaultConsistency

/-- Times are nanoseconds since the epoch, and `filters` has what `ConstructPBFilter` returned. The
options of mutations find no call of theirs and return their error. -/
inductive CallOption
  | families (f : FamiliesMap)
  | filters (built : Except String PbFilter)
  | timeRange (lower upper : Int64)
  | timeRangeUint64 (lower upper : UInt64)
  | maxVersions (versions : UInt32)
  | maxResultsPerColumnFamily (maxresults : UInt32)
  | resultOffset (offset : UInt32)
  | cacheBlocks (cacheBlocks : Bool)
  | consistency (consistency : ConsistencyType)
  | skipBatch
  | scannerID (id : UInt64)
  | closeScanner
  | maxResultSize (n : UInt64)
  | numberOfRows (n : UInt32)
  | allowPartialResults
  | reversed
  | foreign (error : String)

structure GetCall where
  table : Bytes
  key : Bytes
  query : BaseQuery
  existsOnly : Bool
  skipbatch : Bool
  options : List CallOption

structure ScanCall where
  table : Bytes
  key : Bytes
  query : BaseQuery
  scan : Scan
  maxResultSize : UInt64
  options : List CallOption

/-- What type assertions on a call find, as ways to change the call. -/
structure Kind (α : Type) where
  query : Option ((BaseQuery → Except String BaseQuery) → α → Except String α)
  batchable : Option (Bool → α → α)
  scan : Option ((ScanCall → Except String ScanCall) → α → Except String α)

def getKind : Kind GetCall where
  query := some fun set g => do
    let query ← set g.query
    pure { g with query := query }
  batchable := some fun v g => { g with skipbatch := v }
  scan := none

def scanKind : Kind ScanCall where
  query := some fun set s => do
    let query ← set s.query
    pure { s with query := query }
  batchable := none
  scan := some fun set s => set s

def maxInt32 : UInt32 := 0x7fffffff

def millis (nanos : Int64) : UInt64 := (nanos / 1000000).toUInt64

section Options

variable {α : Type} (kind : Kind α)

def queryOption (text : String) (set : BaseQuery → Except String BaseQuery) (call : α) :
    Except String α :=
  match kind.query with
  | some change => change set call
  | none => .error text

def scanOption (text : String) (set : ScanCall → Except String ScanCall) (call : α) :
    Except String α :=
  match kind.scan with
  | some change => change set call
  | none => .error text

def families (f : FamiliesMap) : α → Except String α :=
  queryOption kind "'Families' option can only be used with Get or Scan request" fun q =>
    .ok { q with families := f }

def filters (built : Except String PbFilter) : α → Except String α :=
  queryOption kind "'Filters' option can only be used with Get or Scan request" fun q => do
    let pbF ← built
    pure { q with filter := some pbF }

def timeRangeUint64 (lower upper : UInt64) : α → Except String α :=
  queryOption kind "'TimeRange' option can only be used with Get or Scan request" fun q =>
    if lower ≥ upper then .error "'from' timestamp is greater or equal to 'to' timestamp"
    else .ok { q with fromTimestamp := lower, toTimestamp := upper }

def timeRange (lower upper : Int64) : α → Except String α :=
  timeRangeUint64 kind (millis lower) (millis upper)

def maxVersions (versions : UInt32) : α → Except String α :=
  queryOption kind "'MaxVersions' option can only be used with Get or Scan request" fun q =>
    if versions > maxInt32 then .error "'MaxVersions' exceeds supported number of versions"
    else .ok { q with maxVersions := versions }

def maxResultsPerColumnFamily (maxresults : UInt32) : α → Except String α :=
  queryOption kind
    "'MaxResultsPerColumnFamily' option can only be used with Get or Scan request" fun q =>
    if maxresults > maxInt32 then
      .error "'MaxResultsPerColumnFamily' exceeds supported number of value results"
    else .ok { q with storeLimit := maxresults }

def resultOffset (offset : UInt32) : α → Except String α :=
  queryOption kind "'ResultOffset' option can only be used with Get or Scan request" fun q =>
    if offset > maxInt32 then .error "'ResultOffset' exceeds supported offset value"
    else .ok { q with storeOffset := offset }

def cacheBlocks (cacheBlocks : Bool) : α → Except String α :=
  queryOption kind "'CacheBlocks' option can only be used with Get or Scan request" fun q =>
    .ok { q with cacheBlocks := cacheBlocks }

def consistency (consistency : ConsistencyType) : α → Except String α :=
  queryOption kind "'Consistency' option can only be used with Get or Scan requests" fun q =>
    .ok { q with consistency := consistency }

def skipBatch (call : α) : Except String α :=
  match kind.batchable with
  | some setSkipBatch => .ok (setSkipBatch true call)
  | none => .error "'SkipBatch' option only works with Get and Mutate requests"

def scannerID (id : UInt64) : α → Except String α :=
  scanOption kind "'ScannerID' option can only be used with Scan queries" fun s =>
    .ok { s with scan := { s.scan with scannerID := id } }

def closeScanner : α → Except String α :=
  scanOption kind "'Close' option can only be used with Scan queries" fun s =>
    .ok { s with scan := { s.scan with closeScanner := true } }

def maxResultSize (n : UInt64) : α → Except String α :=
  scanOption kind "'MaxResultSize' option can only be used with Scan queries" fun s =>
    if n = 0 then .error "'MaxResultSize' option must be greater than 0"
    else .ok { s with maxResultSize := n }

def numberOfRows (n : UInt32) : α → Except String α :=
  scanOption kind "'NumberOfRows' option can only be used with Scan queries" fun s =>
    .ok { s with scan := { s.scan with numberOfRows := n } }

def allowPartialResults : α → Except String α :=
  scanOption kind "'AllowPartialResults' option can only be used with Scan queries" fun s =>
    .ok { s with scan := { s.scan with allowPartialResults := true } }

def reversed : α → Except String α :=
  scanOption kind "'Reversed' option can only be used with Scan queries" fun s =>
    .ok { s with scan := { s.scan with reversed := true } }

def CallOption.apply : CallOption → α → Except String α
  | .families f => Hrpc.families kind f
  | .filters built => Hrpc.filters kind built
  | .timeRange lower upper => Hrpc.timeRange kind lower upper
  | .timeRangeUint64 lower upper => Hrpc.timeRangeUint64 kind lower upper
  | .maxVersions versions => Hrpc.maxVersions kind versions
  | .maxResultsPerColumnFamily maxresults => Hrpc.maxResultsPerColumnFamily kind maxresults
  | .resultOffset offset => Hrpc.resultOffset kind offset
  | .cacheBlocks blocks => Hrpc.cacheBlocks kind blocks
  | .consistency level => Hrpc.consistency kind level
  | .skipBatch => Hrpc.skipBatch kind
  | .scannerID id => Hrpc.scannerID kind id
  | .closeScanner => Hrpc.closeScanner kind
  | .maxResultSize n => Hrpc.maxResultSize kind n
  | .numberOfRows n => Hrpc.numberOfRows kind n
  | .allowPartialResults => Hrpc.allowPartialResults kind
  | .reversed => Hrpc.reversed kind
  | .foreign error => fun _ => .error error

def applyOptions : List CallOption → α → Except String α
  | [], call => .ok call
  | option :: options, call => do
      let call ← option.apply kind call
      applyOptions options call

end Options

def emptyGet (table key : Bytes) (options : List CallOption) : GetCall where
  table := table
  key := key
  query := newBaseQuery
  existsOnly := false
  skipbatch := false
  options := options

def newGet (table key : Bytes) (options : List CallOption) : Except String GetCall :=
  applyOptions getKind options (emptyGet table key options)

def GetCall.setExistsOnly (g : GetCall) : GetCall := { g with existsOnly := true }

def defaultMaxResultSize : UInt64 := 2097152

def emptyScan (table : Bytes) (options : List CallOption) : ScanCall where
  table := table
  key := []
  query := newBaseQuery
  scan := GoHBase.newScanRange [] []
  maxResultSize := defaultMaxResultSize
  options := options

def baseScan (table : Bytes) (options : List CallOption) : Except String ScanCall :=
  applyOptions scanKind options (emptyScan table options)

def newScan (table : Bytes) (options : List CallOption) : Except String ScanCall :=
  baseScan table options

def newScanRange (table startRow stopRow : Bytes) (options : List CallOption) :
    Except String ScanCall := do
  let s ← baseScan table options
  pure { s with scan := { s.scan with startRow := startRow, stopRow := stopRow }, key := startRow }

def GetCall.get (g : GetCall) (region : Option RegionInfo) : Get where
  key := g.key
  region := region
  families := g.query.families
  filter := g.query.filter
  fromTimestamp := g.query.fromTimestamp
  toTimestamp := g.query.toTimestamp
  maxVersions := g.query.maxVersions
  storeLimit := g.query.storeLimit
  storeOffset := g.query.storeOffset
  cacheBlocks := g.query.cacheBlocks
  consistency := g.query.consistency
  existsOnly := g.existsOnly

structure PbScan where
  column : List Column
  startRow : Bytes
  stopRow : Bytes
  filter : Option PbFilter
  timeRange : TimeRange
  maxVersions : Option UInt32
  cacheBlocks : Option Bool
  maxResultSize : UInt64
  storeLimit : Option UInt32
  storeOffset : Option UInt32
  reversed : Option Bool
  consistency : Option Consistency
  deriving DecidableEq, Repr

structure ScanRequest where
  region : RegionSpecifier
  scan : Option PbScan
  scannerId : Option UInt64
  numberOfRows : UInt32
  closeScanner : Bool
  clientHandlesPartials : Bool
  clientHandlesHeartbeats : Bool
  deriving DecidableEq, Repr

/-- A request that goes on with an open scanner says nothing about the query. -/
def ScanCall.toProto (s : ScanCall) (region : Option RegionInfo)
    (order : Order (Σ _ : Bytes, List Bytes)) : Go ScanRequest := do
  let region ← regionSpecifier region
  let scan : ScanRequest := {
    region := region
    scan := none
    scannerId := none
    numberOfRows := s.scan.numberOfRows
    closeScanner := s.scan.closeScanner
    clientHandlesPartials := true
    clientHandlesHeartbeats := true
  }
  if s.scan.scannerID ≠ noScannerID then pure { scan with scannerId := some s.scan.scannerID }
  else do
    let q := s.query
    let consistency ← consistencyField q.consistency
    pure { scan with scan := some {
      column := familiesToColumn order q.families
      startRow := s.scan.startRow
      stopRow := s.scan.stopRow
      filter := q.filter
      timeRange := {
        lower := if q.fromTimestamp ≠ minTimestamp then some q.fromTimestamp else none
        upper := if q.toTimestamp ≠ maxTimestamp then some q.toTimestamp else none
      }
      maxVersions := if q.maxVersions ≠ defaultMaxVersions then some q.maxVersions else none
      cacheBlocks := if q.cacheBlocks ≠ defaultCacheBlocks then some q.cacheBlocks else none
      maxResultSize := s.maxResultSize
      storeLimit :=
        if q.storeLimit ≠ defaultMaxResultsPerColumnFamily then some q.storeLimit else none
      storeOffset := if q.storeOffset ≠ 0 then some q.storeOffset else none
      reversed := if s.scan.reversed then some true else none
      consistency := consistency
    } }

end GoHBase.Hrpc
