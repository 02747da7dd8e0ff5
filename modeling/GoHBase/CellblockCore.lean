import GoHBase.Lib.Buffer

/-! Cells outside the protobuf message: `appendCellblock` writes one cell,
`cellFromCellBlock` reads one back, and the responses of a scan are filled in
from a run of cells. Slices have no spare capacity and a nil slice is an empty
one. -/

namespace GoHBase

open ByteString Runtime Buffer

structure Cell where
  row : Bytes
  family : Bytes
  qualifier : Bytes
  timestamp : UInt64
  cellType : UInt8
  value : Bytes
  deriving DecidableEq, Repr

def bufferTooSmall (expected got : Nat) : String :=
  s!"buffer is too small: expected {expected}, got {got}"

def cellFromCellBlock (b : Bytes) : Go (Except String (Cell × UInt32)) :=
  if b.length < 4 then
    pure (.error (bufferTooSmall 4 b.length))
  else do
    let kvLen := UInt32.ofNat (fromBigEndian (← slice b 0 4))
    if b.length < kvLen.toNat + 4 then
      pure (.error (bufferTooSmall (kvLen.toNat + 4) b.length))
    else do
      let rowKeyLen := UInt32.ofNat (fromBigEndian (← slice b 4 8))
      let valueLen := UInt32.ofNat (fromBigEndian (← slice b 8 12))
      let keyLen := UInt16.ofNat (fromBigEndian (← slice b 12 14))
      let b ← sliceFrom b 14
      let key ← sliceTo b keyLen.toNat
      let b ← sliceFrom b keyLen.toNat
      let familyLen ← index b 0
      let b ← sliceFrom b 1
      let family ← sliceTo b familyLen.toNat
      let b ← sliceFrom b familyLen.toNat
      let qualifierLen := rowKeyLen - keyLen.toUInt32 - familyLen.toUInt32 - 2 - 1 - 8 - 1
      let total := 4 + 4 + 2 + keyLen.toUInt32 + 1 + familyLen.toUInt32 + qualifierLen +
        8 + 1 + valueLen
      if total ≠ kvLen then
        pure (.error s!"HBase has lied about KeyValue length: expected {kvLen}, got {total}")
      else do
        let qualifier ← sliceTo b qualifierLen.toNat
        let b ← sliceFrom b qualifierLen.toNat
        let timestamp := UInt64.ofNat (fromBigEndian (← sliceTo b 8))
        let b ← sliceFrom b 8
        let cellType ← index b 0
        let b ← sliceFrom b 1
        let value ← sliceTo b valueLen.toNat
        pure (.ok (⟨key, family, qualifier, timestamp, cellType, value⟩, kvLen + 4))

/-- The loop of `deserializeCellBlocks` with `remaining` cells to go. An error
carries the length read before it. -/
def readCells (b : Bytes) :
    Nat → UInt32 → List Cell → Go (Except (UInt32 × String) (List Cell × UInt32))
  | 0, readLen, cells => pure (.ok (cells, readLen))
  | remaining + 1, readLen, cells => do
      let rest ← sliceFrom b readLen.toNat
      match ← cellFromCellBlock rest with
      | .error err => pure (.error (readLen, err))
      | .ok (cell, len) => readCells b remaining (readLen + len) (cells ++ [cell])

def deserializeCellBlocks (b : Bytes) (cellsLen : UInt32) :
    Go (Except (UInt32 × String) (List Cell × UInt32)) :=
  readCells b cellsLen.toNat 0 []

structure PbResult where
  cell : List Cell
  associatedCellCount : Option Int32
  existence : Option Bool
  stale : Option Bool
  isPartial : Option Bool
  deriving DecidableEq, Repr

structure ScanResponse where
  cellsPerResult : List UInt32
  scannerId : Option UInt64
  moreResults : Option Bool
  results : List (Option PbResult)
  partialFlagPerResult : List Bool
  moreResultsInRegion : Option Bool
  deriving DecidableEq, Repr

def fillResults (b : Bytes) (resp : ScanResponse) :
    Nat → List UInt32 → UInt32 → Go (ScanResponse × Except String UInt32)
  | _, [], readLen => pure (resp, .ok readLen)
  | i, numCells :: counts, readLen => do
      let rest ← sliceFrom b readLen.toNat
      match ← deserializeCellBlocks rest numCells with
      | .error (_, err) => pure (resp, .error err)
      | .ok (cells, len) => do
          let isPartial ← index resp.partialFlagPerResult i
          let _ ← index resp.results i
          let result : PbResult := ⟨cells, none, none, none, some isPartial⟩
          fillResults b { resp with results := resp.results.set i (some result) } (i + 1) counts
            (readLen + len)

/-- `Scan.DeserializeCellBlocks`: the message with its results filled in, and
the length read. -/
def Scan.deserializeCellBlocks (scanResp : ScanResponse) (b : Bytes) :
    Go (ScanResponse × Except String UInt32) :=
  fillResults b
    { scanResp with results := List.replicate scanResp.partialFlagPerResult.length none } 0
    scanResp.cellsPerResult 0

def cellblockLen (rowLen familyLen qualifierLen valueLen : Nat) : Nat :=
  let keyLength := 2 + rowLen + 1 + familyLen + qualifierLen + 8 + 1
  let keyValueLength := 4 + 4 + keyLength + valueLen
  4 + keyValueLength

def appendCellblock (row family qualifier value : Bytes) (ts : UInt64) (typ : UInt8)
    (cbs : Bytes) : Go Bytes := do
  let keyLength := 2 + row.length + 1 + family.length + qualifier.length + 8 + 1
  let valueLength := value.length
  let keyValueLength := 4 + 4 + keyLength + valueLength
  let i := cbs.length
  let cbs := cbs ++ zeros (cellblockLen row.length family.length qualifier.length value.length)
  let cbs ← storeAt cbs i (bigEndian 4 keyValueLength)
  let i := i + 4
  let cbs ← storeAt cbs i (bigEndian 4 keyLength)
  let i := i + 4
  let cbs ← storeAt cbs i (bigEndian 4 valueLength)
  let i := i + 4
  let cbs ← storeAt cbs i (bigEndian 2 row.length)
  let i := i + 2
  let (cbs, copied) ← copyAt cbs i row
  let i := i + copied
  let cbs ← storeAt cbs i [UInt8.ofNat family.length]
  let i := i + 1
  let (cbs, copied) ← copyAt cbs i family
  let i := i + copied
  let (cbs, copied) ← copyAt cbs i qualifier
  let i := i + copied
  let cbs ← storeAt cbs i (bigEndian 8 ts.toNat)
  let i := i + 8
  let cbs ← storeAt cbs i [typ]
  let i := i + 1
  let (cbs, _) ← copyAt cbs i value
  pure cbs

end GoHBase
