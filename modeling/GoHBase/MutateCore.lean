import GoHBase.Lib.RangeLoop
import GoHBase.RegionNameCore
import GoHBase.CellblockCore

/-! Mutations and their two request encodings: column values inside the
protobuf message, or cells behind it. Go strings are byte strings; a nil
qualifier map is `none`. -/

namespace GoHBase

open ByteString Runtime Buffer RangeLoop

structure RegionSpecifier where
  value : Bytes
  deriving DecidableEq, Repr

/-- `regionSpecifier` of a call whose region was never set dereferences nil. -/
def regionSpecifier : Option RegionInfo → Go RegionSpecifier
  | none => .error (.panic "invalid memory address or nil pointer dereference")
  | some region => .ok ⟨region.name⟩

inductive MutationType
  | append
  | increment
  | put
  | delete
  deriving DecidableEq, Repr

inductive DeleteType
  | oneVersion
  | multipleVersions
  | family
  | familyVersion
  deriving DecidableEq, Repr

inductive Durability
  | useDefault
  | skipWal
  | asyncWal
  | syncWal
  | fsyncWal
  deriving DecidableEq, Repr

abbrev QualifierMap := AList fun _ : Bytes => Bytes

abbrev ValuesMap := AList fun _ : Bytes => Option QualifierMap

structure Mutate where
  key : Bytes
  region : Option RegionInfo
  mutationType : MutationType
  values : ValuesMap
  ttl : Bytes
  timestamp : UInt64
  durability : Int32
  deleteOneVersion : Bool

structure ValuesOrder where
  families : Order (Σ _ : Bytes, Option QualifierMap)
  qualifiers : Bytes → Order (Σ _ : Bytes, Bytes)

structure MutateOrders where
  proto : ValuesOrder
  measuring : ValuesOrder
  writing : ValuesOrder

structure QualifierValue where
  qualifier : Bytes
  value : Bytes
  timestamp : Option UInt64
  deleteType : Option DeleteType
  deriving DecidableEq, Repr

structure ColumnValue where
  family : Bytes
  qualifierValue : List QualifierValue
  deriving DecidableEq, Repr

structure NameBytesPair where
  name : String
  value : Bytes
  deriving DecidableEq, Repr

structure MutationProto where
  row : Bytes
  mutateType : MutationType
  columnValue : List ColumnValue
  timestamp : Option UInt64
  attributes : List NameBytesPair
  durability : Durability
  associatedCellCount : Option Int32
  deriving DecidableEq, Repr

structure MutateRequest where
  region : RegionSpecifier
  mutation : MutationProto
  deriving DecidableEq, Repr

def attributeNameTTL : String := "_ttl"

def maxTimestamp : UInt64 := 0xffffffffffffffff

/-- Java's `Long.MAX_VALUE`, which HBase reads as the latest timestamp. -/
def maxInt64 : UInt64 := 0x7fffffffffffffff

def putType : UInt8 := 4

def deleteType : UInt8 := 8

def deleteFamilyVersionType : UInt8 := 10

def deleteColumnType : UInt8 := 12

def deleteFamilyType : UInt8 := 14

def emptyQualifier : QualifierMap := AList.singleton [] []

def orEmpty (v : Option QualifierMap) : QualifierMap := v.getD ∅

namespace Mutate

/-- The delete type of a family in `valuesToProto`, and the qualifiers it lists. -/
def protoQualifiers (m : Mutate) (v : Option QualifierMap) : Option DeleteType × QualifierMap :=
  if m.mutationType = .delete then
    if (orEmpty v).entries.length = 0 then
      (some (if m.deleteOneVersion then .familyVersion else .family), v.getD emptyQualifier)
    else
      (some (if m.deleteOneVersion then .oneVersion else .multipleVersions), orEmpty v)
  else (none, orEmpty v)

def valuesToProto (m : Mutate) (order : ValuesOrder) (ts : Option UInt64) : List ColumnValue :=
  (order.families.visit m.values.entries).map fun ⟨family, v⟩ =>
    let (dt, v) := m.protoQualifiers v
    { family := family
      qualifierValue := ((order.qualifiers family).visit v.entries).map fun ⟨k1, v1⟩ =>
        { qualifier := k1, value := v1, timestamp := ts, deleteType := dt } }

/-- The first pass of `valuesToCellblocks`: the bytes and the cells to expect. -/
def measureValues (m : Mutate) (order : ValuesOrder) : Nat × Nat :=
  (order.families.visit m.values.entries).foldl (fun (cbsLen, count) ⟨family, v⟩ =>
    let v := v.getD emptyQualifier
    (((order.qualifiers family).visit v.entries).foldl (fun cbsLen ⟨k1, v1⟩ =>
        cbsLen + cellblockLen m.key.length family.length k1.length v1.length) cbsLen,
      count + v.entries.length)) (0, 0)

def cellQualifiers (m : Mutate) (v : Option QualifierMap) : UInt8 × QualifierMap :=
  if m.mutationType = .delete then
    if (orEmpty v).entries.length = 0 then
      (if m.deleteOneVersion then deleteFamilyVersionType else deleteFamilyType,
        v.getD emptyQualifier)
    else
      (if m.deleteOneVersion then deleteType else deleteColumnType, orEmpty v)
  else (putType, orEmpty v)

/-- The second pass of `valuesToCellblocks`. -/
def writeValues (m : Mutate) (order : ValuesOrder) (ts : UInt64) (cbs : Bytes) : Go Bytes :=
  (order.families.visit m.values.entries).foldlM (fun cbs ⟨family, v⟩ =>
    let (mt, v) := m.cellQualifiers v
    ((order.qualifiers family).visit v.entries).foldlM (fun cbs ⟨k1, v1⟩ =>
      appendCellblock m.key family k1 v1 ts mt cbs) cbs) cbs

def valuesToCellblocks (m : Mutate) (measuring writing : ValuesOrder) :
    Go (Bytes × Int32 × UInt32) :=
  if m.values.entries.length = 0 then
    pure ([], 0, 0)
  else do
    let (cbsLen, count) := m.measureValues measuring
    let ts := if m.timestamp = maxTimestamp then maxInt64 else m.timestamp
    let cbs ← m.writeValues writing ts []
    if cbs.length ≠ cbsLen then
      .error (.panic "cellblocks len mismatch")
    else
      pure (cbs, Int32.ofNat count, UInt32.ofNat cbs.length)

def durabilities : List Durability := [.useDefault, .skipWal, .asyncWal, .syncWal, .fsyncWal]

def durabilityOf (durability : Int32) : Go Durability :=
  if durability.toInt < 0 then .error (.panic "index out of range")
  else index durabilities durability.toInt.toNat

def addValues (m : Mutate) (isCellblocks : Bool) (orders : MutateOrders) (mProto : MutationProto)
    (cbs : List Bytes) : Go (MutationProto × List Bytes × UInt32) :=
  if isCellblocks then do
    let (cellblocks, count, size) ← m.valuesToCellblocks orders.measuring orders.writing
    pure ({ mProto with associatedCellCount := some count },
      if 0 < size then cbs ++ [cellblocks] else cbs, size)
  else
    pure ({ mProto with columnValue := m.valuesToProto orders.proto mProto.timestamp }, cbs, 0)

def toProto (m : Mutate) (isCellblocks : Bool) (orders : MutateOrders) (cbs : List Bytes) :
    Go (MutateRequest × List Bytes × UInt32) := do
  let ts := if m.timestamp ≠ maxTimestamp then some m.timestamp else none
  let durability ← durabilityOf m.durability
  let mProto : MutationProto := {
    row := m.key
    mutateType := m.mutationType
    columnValue := []
    timestamp := ts
    attributes := []
    durability := durability
    associatedCellCount := none
  }
  let (mProto, cbs, size) ← m.addValues isCellblocks orders mProto cbs
  let attributes :=
    if 0 < m.ttl.length then mProto.attributes ++ [⟨attributeNameTTL, m.ttl⟩]
    else mProto.attributes
  let region ← regionSpecifier m.region
  pure ({ region := region, mutation := { mProto with attributes := attributes } }, cbs, size)

def toProtoMessage (m : Mutate) (orders : MutateOrders) : Go MutateRequest := do
  let (request, _, _) ← m.toProto false orders []
  pure request

def serializeCellBlocks (m : Mutate) (orders : MutateOrders) (cbs : List Bytes) :
    Go (MutateRequest × List Bytes × UInt32) :=
  m.toProto true orders cbs

end Mutate

end GoHBase
