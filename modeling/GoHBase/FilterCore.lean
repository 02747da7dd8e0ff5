import GoHBase.RequestCore

/-!
Filters and comparators, and the messages that are made of them. The constructor of a filter turns
the filters and comparators inside of it into messages at once and panics where that fails; the
filter itself is marshalled by whoever uses it. The protobuf library is a parameter. Strings are
valid UTF-8; slices may be nil, pointers are not.
-/

namespace GoHBase.Filters

open ByteString Runtime

/-! ## Comparators -/

/-- A comparator is its own message. The `comparable` of four of them is a message around its
value. -/
inductive Comparator
  | binary (comparable : Option Bytes)
  | long (comparable : Option Bytes)
  | binaryPrefix (comparable : Option Bytes)
  | bit (bitwiseOp : Int32) (comparable : Option Bytes)
  | null
  | regexString (pattern : String) (patternFlags : Int32) (charset engine : String)
  | substring (substr : String)
  deriving DecidableEq, Repr

inductive ComparatorClass
  | binary
  | long
  | binaryPrefix
  | bit
  | null
  | regexString
  | substring
  deriving DecidableEq, Repr

def comparatorPath : String := "org.apache.hadoop.hbase.filter."

def ComparatorClass.simpleName : ComparatorClass → String
  | .binary => "BinaryComparator"
  | .long => "LongComparator"
  | .binaryPrefix => "BinaryPrefixComparator"
  | .bit => "BitComparator"
  | .null => "NullComparator"
  | .regexString => "RegexStringComparator"
  | .substring => "SubstringComparator"

namespace Comparator

def kind : Comparator → ComparatorClass
  | .binary _ => .binary
  | .long _ => .long
  | .binaryPrefix _ => .binaryPrefix
  | .bit _ _ => .bit
  | .null => .null
  | .regexString _ _ _ _ => .regexString
  | .substring _ => .substring

/-- `isValid` of a `BitComparatorBitwiseOp`. -/
def bitwiseOpValid (op : Int32) : Bool := 1 ≤ op ∧ op ≤ 3

def valid : Comparator → Bool
  | .bit bitwiseOp _ => bitwiseOpValid bitwiseOp
  | _ => true

end Comparator

/-! ## Filters -/

structure CompareFilter (C : Type) where
  compareOp : Int32
  comparator : C
  deriving DecidableEq, Repr

structure SingleColumnValueFilter (C : Type) where
  columnFamily : Option Bytes
  columnQualifier : Option Bytes
  compareOp : Int32
  comparator : C
  filterIfMissing : Bool
  latestVersionOnly : Bool
  deriving DecidableEq, Repr

structure RowRange where
  startRow : Option Bytes
  stopRow : Option Bytes
  startRowInclusive : Bool
  stopRowInclusive : Bool
  deriving DecidableEq, Repr

/-- Filters that have nothing but a CompareFilter, or are one. -/
inductive Comparing
  | compare
  | family
  | qualifier
  | row
  | value
  deriving DecidableEq, Repr

inductive SingleColumn
  | value
  | valueExclude
  deriving DecidableEq, Repr

inductive Wrapping
  | wrapper
  | skip
  | whileMatch
  deriving DecidableEq, Repr

inductive Marking
  | firstKeyOnly
  | all
  deriving DecidableEq, Repr

inductive Listing
  | firstKeyValueMatchingQualifiers
  | multipleColumnPrefix
  deriving DecidableEq, Repr

inductive Bounding
  | inclusiveStop
  | rowPrefix
  deriving DecidableEq, Repr

/-- Filters with neither a filter nor a comparator inside, which are their own messages. The chance
of a random row is given by its bits. -/
inductive Plain
  | columnCountGet (limit : Int32)
  | columnPagination (limit offset : Int32) (columnOffset : Option Bytes)
  | columnPrefix (start : Option Bytes)
  | columnRange (minColumn maxColumn : Option Bytes) (minColumnInclusive maxColumnInclusive : Bool)
  | marking (kind : Marking)
  | listing (kind : Listing) (names : List Bytes)
  | fuzzyRow (pairs : List (Option Bytes × Option Bytes))
  | bounding (kind : Bounding) (bound : Option Bytes)
  | keyOnly (lenAsVal : Bool)
  | page (pageSize : Int64)
  | randomRow (chance : UInt32)
  | timestamps (timestamps : List Int64)
  | rowRange (range : RowRange)
  | multiRowRange (ranges : List RowRange)
  deriving DecidableEq, Repr

inductive Filter
  | plain (filter : Plain)
  | comparing (kind : Comparing) (filter : CompareFilter Comparator)
  | dependentColumn (filter : CompareFilter Comparator)
      (columnFamily columnQualifier : Option Bytes) (dropDependentColumn : Bool)
  | singleColumnValue (kind : SingleColumn) (filter : SingleColumnValueFilter Comparator)
  | list (operator : Int32) (filters : List Filter)
  | wrapping (kind : Wrapping) (inner : Filter)

inductive FilterMessage
  | plain (filter : Plain)
  | comparing (kind : Comparing) (filter : CompareFilter GoHBase.Comparator)
  | dependentColumn (filter : CompareFilter GoHBase.Comparator)
      (columnFamily columnQualifier : Option Bytes) (dropDependentColumn : Bool)
  | singleColumnValue (kind : SingleColumn) (filter : SingleColumnValueFilter GoHBase.Comparator)
  | list (operator : Int32) (filters : List PbFilter)
  | wrapping (kind : Wrapping) (filter : PbFilter)
  deriving DecidableEq, Repr

inductive FilterClass
  | filterList
  | columnCountGet
  | columnPagination
  | columnPrefix
  | columnRange
  | dependentColumn
  | comparing (kind : Comparing)
  | wrapping (kind : Wrapping)
  | marking (kind : Marking)
  | listing (kind : Listing)
  | fuzzyRow
  | bounding (kind : Bounding)
  | keyOnly
  | page
  | randomRow
  | singleColumnValue (kind : SingleColumn)
  | timestamps
  | rowRange
  | multiRowRange
  deriving DecidableEq, Repr

def filterPath : String := "org.apache.hadoop.hbase.filter."

def FilterClass.simpleName : FilterClass → String
  | .filterList => "FilterList"
  | .columnCountGet => "ColumnCountGetFilter"
  | .columnPagination => "ColumnPaginationFilter"
  | .columnPrefix => "ColumnPrefixFilter"
  | .columnRange => "ColumnRangeFilter"
  | .dependentColumn => "DependentColumnFilter"
  | .comparing .compare => "CompareFilter"
  | .comparing .family => "FamilyFilter"
  | .comparing .qualifier => "QualifierFilter"
  | .comparing .row => "RowFilter"
  | .comparing .value => "ValueFilter"
  | .wrapping .wrapper => "FilterWrapper"
  | .wrapping .skip => "SkipFilter"
  | .wrapping .whileMatch => "WhileMatchFilter"
  | .marking .firstKeyOnly => "FirstKeyOnlyFilter"
  | .marking .all => "FilterAllFilter"
  | .listing .firstKeyValueMatchingQualifiers => "FirstKeyValueMatchingQualifiersFilter"
  | .listing .multipleColumnPrefix => "MultipleColumnPrefixFilter"
  | .fuzzyRow => "FuzzyRowFilter"
  | .bounding .inclusiveStop => "InclusiveStopFilter"
  | .bounding .rowPrefix => "PrefixFilter"
  | .keyOnly => "KeyOnlyFilter"
  | .page => "PageFilter"
  | .randomRow => "RandomRowFilter"
  | .singleColumnValue .value => "SingleColumnValueFilter"
  | .singleColumnValue .valueExclude => "SingleColumnValueExcludeFilter"
  | .timestamps => "TimestampsFilter"
  | .rowRange => "RowRange"
  | .multiRowRange => "MultiRowRangeFilter"

def Plain.kind : Plain → FilterClass
  | .columnCountGet _ => .columnCountGet
  | .columnPagination _ _ _ => .columnPagination
  | .columnPrefix _ => .columnPrefix
  | .columnRange _ _ _ _ => .columnRange
  | .marking kind => .marking kind
  | .listing kind _ => .listing kind
  | .fuzzyRow _ => .fuzzyRow
  | .bounding kind _ => .bounding kind
  | .keyOnly _ => .keyOnly
  | .page _ => .page
  | .randomRow _ => .randomRow
  | .timestamps _ => .timestamps
  | .rowRange _ => .rowRange
  | .multiRowRange _ => .multiRowRange

def FilterMessage.kind : FilterMessage → FilterClass
  | .plain filter => filter.kind
  | .comparing kind _ => .comparing kind
  | .dependentColumn _ _ _ _ => .dependentColumn
  | .singleColumnValue kind _ => .singleColumnValue kind
  | .list _ _ => .filterList
  | .wrapping kind _ => .wrapping kind

/-- `isValid` of a `CompareType`, which only `ConstructPB` asks. -/
def compareTypeValid (op : Int32) : Bool := 0 ≤ op ∧ op ≤ 6

def listOperatorValid (operator : Int32) : Bool := 1 ≤ operator ∧ operator ≤ 2

/-- `proto.Marshal` for the messages of filters and comparators, and what a server reads of them by
the class that they are sent with. Messages of `limit` bytes are too long for it. -/
structure FilterProtobuf where
  marshal : FilterMessage → Except String Bytes
  unmarshal : FilterClass → Bytes → Option FilterMessage
  marshalComparator : Comparator → Except String Bytes
  unmarshalComparator : ComparatorClass → Bytes → Option Comparator
  limit : Nat

variable (lib : FilterProtobuf)

def Comparator.constructPBComparator (c : Comparator) : Except String GoHBase.Comparator :=
  if c.valid then do
    let serializedComparator ← lib.marshalComparator c
    pure ⟨comparatorPath ++ c.kind.simpleName, serializedComparator⟩
  else .error "Invalid bitwise operator specified"

/-- `panic(err)` where a constructor has no error to return. -/
def must {α : Type} : Except String α → Go α
  | .ok a => pure a
  | .error err => .error (.panic err)

def FilterMessage.marshalled (m : FilterMessage) : Except String PbFilter := do
  let serializedFilter ← lib.marshal m
  pure ⟨filterPath ++ m.kind.simpleName, serializedFilter⟩

/-- A filter without fields is marshalled by `MustMarshal`. -/
def FilterMessage.constructPBFilter (m : FilterMessage) : Go (Except String PbFilter) :=
  match m with
  | .plain (.marking _) => do
      let filter ← must (m.marshalled lib)
      pure (.ok filter)
  | .list operator _ =>
      if listOperatorValid operator then pure (m.marshalled lib)
      else pure (.error "invalid operator specified")
  | _ => pure (m.marshalled lib)

def newCompareFilter (f : CompareFilter Comparator) : Go (CompareFilter GoHBase.Comparator) := do
  let obj ← must (f.comparator.constructPBComparator lib)
  pure { f with comparator := obj }

def newSingleColumnValueFilter (f : SingleColumnValueFilter Comparator) :
    Go (SingleColumnValueFilter GoHBase.Comparator) := do
  let obj ← must (f.comparator.constructPBComparator lib)
  pure { f with comparator := obj }

def insideFilter (m : FilterMessage) : Go PbFilter := do
  let built ← m.constructPBFilter lib
  must built

mutual

/-- The arguments of a constructor are evaluated before its body, from left to right. -/
def Filter.new : Filter → Go FilterMessage
  | .plain filter => pure (.plain filter)
  | .comparing kind filter => do
      let filter ← newCompareFilter lib filter
      pure (.comparing kind filter)
  | .dependentColumn filter columnFamily columnQualifier dropDependentColumn => do
      let filter ← newCompareFilter lib filter
      pure (.dependentColumn filter columnFamily columnQualifier dropDependentColumn)
  | .singleColumnValue kind filter => do
      let filter ← newSingleColumnValueFilter lib filter
      pure (.singleColumnValue kind filter)
  | .list operator filters => do
      let built ← newAll filters
      let filters ← built.mapM (insideFilter lib)
      pure (.list operator filters)
  | .wrapping kind inner => do
      let built ← inner.new
      let f ← insideFilter lib built
      pure (.wrapping kind f)

def newAll : List Filter → Go (List FilterMessage)
  | [] => pure []
  | f :: filters => do
      let first ← f.new
      let rest ← newAll filters
      pure (first :: rest)

end

def Filter.constructPBFilter (f : Filter) : Go (Except String PbFilter) := do
  let built ← f.new lib
  built.constructPBFilter lib

/-! The constructors under their own names. -/

def newList (operator : Int32) (filters : List Filter) : Filter := .list operator filters

def newColumnCountGetFilter (limit : Int32) : Filter := .plain (.columnCountGet limit)

def newColumnPaginationFilter (limit offset : Int32) (columnOffset : Option Bytes) : Filter :=
  .plain (.columnPagination limit offset columnOffset)

def newColumnPrefixFilter (start : Option Bytes) : Filter := .plain (.columnPrefix start)

def newColumnRangeFilter (minColumn maxColumn : Option Bytes)
    (minColumnInclusive maxColumnInclusive : Bool) : Filter :=
  .plain (.columnRange minColumn maxColumn minColumnInclusive maxColumnInclusive)

def newDependentColumnFilter (compareFilter : CompareFilter Comparator)
    (columnFamily columnQualifier : Option Bytes) (dropDependentColumn : Bool) : Filter :=
  .dependentColumn compareFilter columnFamily columnQualifier dropDependentColumn

def newFamilyFilter : CompareFilter Comparator → Filter := .comparing .family

def newQualifierFilter : CompareFilter Comparator → Filter := .comparing .qualifier

def newRowFilter : CompareFilter Comparator → Filter := .comparing .row

def newValueFilter : CompareFilter Comparator → Filter := .comparing .value

def newWrapper : Filter → Filter := .wrapping .wrapper

def newSkipFilter : Filter → Filter := .wrapping .skip

def newWhileMatchFilter : Filter → Filter := .wrapping .whileMatch

def newFirstKeyOnlyFilter : Filter := .plain (.marking .firstKeyOnly)

def newAllFilter : Filter := .plain (.marking .all)

def newFirstKeyValueMatchingQualifiersFilter (qualifiers : List Bytes) : Filter :=
  .plain (.listing .firstKeyValueMatchingQualifiers qualifiers)

def newMultipleColumnPrefixFilter (sortedPrefixes : List Bytes) : Filter :=
  .plain (.listing .multipleColumnPrefix sortedPrefixes)

def newFuzzyRowFilter (pairs : List (Option Bytes × Option Bytes)) : Filter :=
  .plain (.fuzzyRow pairs)

def newInclusiveStopFilter (stopRowKey : Option Bytes) : Filter :=
  .plain (.bounding .inclusiveStop stopRowKey)

def newPrefixFilter (start : Option Bytes) : Filter := .plain (.bounding .rowPrefix start)

def newKeyOnlyFilter (lenAsVal : Bool) : Filter := .plain (.keyOnly lenAsVal)

def newPageFilter (pageSize : Int64) : Filter := .plain (.page pageSize)

def newRandomRowFilter (chance : UInt32) : Filter := .plain (.randomRow chance)

def newSingleColumnValueExcludeFilter (filter : SingleColumnValueFilter Comparator) : Filter :=
  .singleColumnValue .valueExclude filter

def newTimestampsFilter (timestamps : List Int64) : Filter := .plain (.timestamps timestamps)

def newRowRange (range : RowRange) : Filter := .plain (.rowRange range)

def newMultiRowRangeFilter (rowRangeList : List RowRange) : Filter :=
  .plain (.multiRowRange rowRangeList)

end GoHBase.Filters
