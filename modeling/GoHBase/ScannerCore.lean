import GoHBase.RegionNameCore
import GoHBase.CellblockCore

/-! The scanner: a chain of region scans behind `Next`. Loops that wait for the
server carry fuel; running out of it is `none` and not an outcome of the code. -/

namespace GoHBase

open ByteString Runtime Buffer

def noScannerID : UInt64 := 0xffffffffffffffff

def rowPadding : Bytes := List.replicate 8 0xff

structure Scan where
  startRow : Bytes
  stopRow : Bytes
  scannerID : UInt64
  numberOfRows : UInt32
  reversed : Bool
  closeScanner : Bool
  allowPartialResults : Bool
  deriving DecidableEq, Repr

def defaultNumberOfRows : UInt32 := 0x7fffffff

def newScanRange (startRow stopRow : Bytes) : Scan where
  startRow := startRow
  stopRow := stopRow
  scannerID := noScannerID
  numberOfRows := defaultNumberOfRows
  reversed := false
  closeScanner := false
  allowPartialResults := false

inductive ScanError (ε : Type)
  | eof
  | failed (err : ε)
  deriving DecidableEq, Repr

structure Scanner where
  rpc : Scan
  curRegionScannerID : UInt64
  startRow : Bytes
  results : List (Option PbResult)
  closed : Bool
  deriving DecidableEq, Repr

def newScanner (rpc : Scan) : Scanner where
  rpc := rpc
  curRegionScannerID := noScannerID
  startRow := rpc.startRow
  results := []
  closed := false

def rowBefore (rsk : Bytes) : Bytes :=
  match rsk.getLast? with
  | none => rsk
  | some last =>
      if last = 0 then rsk.dropLast
      else rsk.dropLast ++ [last - 1] ++ rowPadding

def Scan.nextStartRow (rpc : Scan) (region : RegionInfo) : Bytes :=
  if !rpc.reversed then region.stopKey else rowBefore region.startKey

namespace Scanner

def isRegionScannerClosed (s : Scanner) : Bool := s.curRegionScannerID = noScannerID

def openRegionScanner (s : Scanner) (scannerId : UInt64) : Go Scanner :=
  if s.isRegionScannerClosed then .ok { s with curRegionScannerID := scannerId }
  else .error (.panic "should not happen: previous region scanner was not closed")

/-- The second component is the close request that is sent in the background. -/
def closeRegionScanner (s : Scanner) : Scanner × List Scan :=
  if s.isRegionScannerClosed then (s, [])
  else
    ({ s with curRegionScannerID := noScannerID },
      if s.rpc.closeScanner then []
      else [{ newScanRange s.startRow [] with
        scannerID := s.curRegionScannerID
        closeScanner := true
        numberOfRows := 0 }])

def close (s : Scanner) : Scanner × List Scan :=
  if s.closed then (s, []) else { s with closed := true }.closeRegionScanner

/-- The request that `request` sends. A new region scan repeats the options of the query. -/
def request (s : Scanner) : Scan :=
  if s.isRegionScannerClosed then { s.rpc with startRow := s.startRow }
  else
    { newScanRange s.startRow [] with
      scannerID := s.curRegionScannerID
      numberOfRows := s.rpc.numberOfRows }

def noteScannerId (s : Scanner) (resp : ScanResponse) : Go Scanner :=
  match resp.scannerId with
  | some id => if s.isRegionScannerClosed then s.openRegionScanner id else pure s
  | none => pure s

def update (s : Scanner) (resp : ScanResponse) (region : RegionInfo) :
    Go (Scanner × List Scan) := do
  let s ← s.noteScannerId resp
  if resp.moreResultsInRegion.getD false then
    pure (s, [])
  else
    let (s, requests) := s.closeRegionScanner
    pure ({ s with startRow := s.rpc.nextStartRow region }, requests)

def isDone (s : Scanner) (resp : ScanResponse) (region : RegionInfo) : Bool :=
  if resp.moreResults = some false then true
  else if !s.isRegionScannerClosed then false
  else if region.stopKey.length = 0 ∧ !s.rpc.reversed then true
  else if s.rpc.reversed ∧ region.startKey.length = 0 then true
  else if !s.rpc.reversed then
    s.rpc.stopRow.length ≠ 0 && decide (bytesCompare s.rpc.stopRow region.stopKey ≤ 0)
  else s.rpc.stopRow.length ≠ 0 && decide (bytesCompare s.rpc.stopRow region.startKey ≥ 0)

def shift (s : Scanner) : Scanner := { s with results := s.results.tail }

end Scanner

/-- What answers the requests: the response and the region that served it. -/
structure RPCClient (σ ε : Type) where
  sendRPC : σ → Scan → σ × Except (ScanError ε) (ScanResponse × RegionInfo)

structure ScanState (σ : Type) where
  scanner : Scanner
  server : σ
  sent : List Scan

section Loops

variable {σ ε : Type} (client : RPCClient σ ε)

/-- One round of the loop in `fetch`; `none` is another round. -/
def fetchStep (st : ScanState σ) :
    Go (ScanState σ × Option (Except (ScanError ε) (List (Option PbResult)))) :=
  let rpc := st.scanner.request
  let (server, answer) := client.sendRPC st.server rpc
  match answer with
  | .error err =>
      let (s, requests) := st.scanner.close
      pure (⟨s, server, st.sent ++ [rpc] ++ requests⟩, some (.error err))
  | .ok (resp, region) => do
      let (s, requests) ← st.scanner.update resp region
      let (s, closing) := if s.isDone resp region then s.close else (s, [])
      pure (⟨s, server, st.sent ++ [rpc] ++ requests ++ closing⟩,
        if 0 < resp.results.length then some (.ok resp.results)
        else if s.closed then some (.error .eof)
        else none)

def fetch : Nat → ScanState σ →
    Go (Option (ScanState σ × Except (ScanError ε) (List (Option PbResult))))
  | 0, _ => pure none
  | fuel + 1, st => do
      match ← fetchStep client st with
      | (st, some outcome) => pure (some (st, outcome))
      | (st, none) => fetch fuel st

def setResults (st : ScanState σ) (results : List (Option PbResult)) : ScanState σ :=
  { st with scanner := { st.scanner with results := results } }

def keepFetched : Option (ScanState σ × Except (ScanError ε) (List (Option PbResult))) →
    Go (Option (ScanState σ × Except (ScanError ε) (Option PbResult)))
  | none => pure none
  | some (st, .error err) => pure (some (st, .error err))
  | some (st, .ok rs) => do
      let result ← index rs 0
      pure (some (setResults st rs, .ok result))

def peek (fuel : Nat) (st : ScanState σ) :
    Go (Option (ScanState σ × Except (ScanError ε) (Option PbResult))) :=
  match st.scanner.results with
  | result :: _ => pure (some (st, .ok result))
  | [] =>
      if st.scanner.closed then pure (some (st, .error .eof))
      else fetch client fuel st >>= keepFetched

end Loops

structure LocalResult where
  cells : List Cell
  stale : Bool
  isPartial : Bool
  existence : Option Bool
  deriving DecidableEq, Repr

def toLocalResult (r : Option PbResult) : Option LocalResult :=
  r.map fun r => ⟨r.cell, r.stale.getD false, r.isPartial.getD false, r.existence⟩

def getPartial (r : Option PbResult) : Bool :=
  match r with
  | none => false
  | some r => r.isPartial.getD false

/-- `coalesce`. Only cells of a nil result are read through a nil pointer. -/
def coalesce (result item : Option PbResult) : Go (Option PbResult × Bool) :=
  match result with
  | none => pure (item, true)
  | some result =>
      if !(result.isPartial.getD false) then pure (some result, false)
      else
        match item with
        | none => .error (.panic "invalid memory address or nil pointer dereference")
        | some item =>
            match item.cell with
            | [] =>
                pure (some { result with
                  stale := if item.stale.getD false then some true else result.stale }, true)
            | cell :: cells => do
                let first ← index result.cell 0
                if first.row ≠ cell.row then
                  pure (some { result with isPartial := some false }, false)
                else
                  pure (some { result with
                    cell := result.cell ++ cell :: cells
                    stale := if item.stale.getD false then some true else result.stale }, true)

section Next

variable {σ ε : Type} (client : RPCClient σ ε)

def shiftState (st : ScanState σ) : ScanState σ := { st with scanner := st.scanner.shift }

def nextRow (fuel : Nat) : Nat → Option PbResult → ScanState σ →
    Go (Option (ScanState σ × Option LocalResult × Option (ScanError ε)))
  | 0, _, _ => pure none
  | rounds + 1, result, st => do
      match ← peek client fuel st with
      | none => pure none
      | some (st, .error .eof) =>
          match result with
          | none => pure (some (st, none, some .eof))
          | some result =>
              pure (some (st, toLocalResult (some { result with isPartial := some false }), none))
      | some (st, .error err) => pure (some (st, toLocalResult result, some err))
      | some (st, .ok item) => do
          let (result, done) ← coalesce result item
          let st := if done then shiftState st else st
          if !getPartial result then pure (some (st, toLocalResult result, none))
          else nextRow fuel rounds result st

/-- `Next`. `cancelled` is the error of the context when it is done already. -/
def next (fuel : Nat) (cancelled : Option ε) (st : ScanState σ) :
    Go (Option (ScanState σ × Option LocalResult × Option (ScanError ε))) :=
  match cancelled with
  | some err =>
      let (s, requests) := st.scanner.close
      pure (some ({ st with scanner := s, sent := st.sent ++ requests }, none, some (.failed err)))
  | none =>
      if st.scanner.rpc.allowPartialResults then do
        match ← peek client fuel st with
        | none => pure none
        | some (st, .error err) => pure (some (st, none, some err))
        | some (st, .ok result) => pure (some (shiftState st, toLocalResult result, none))
      else nextRow client fuel fuel none st

def drain (fuel : Nat) : Nat → ScanState σ →
    Go (Option (ScanState σ × List (Option LocalResult) × ScanError ε))
  | 0, _ => pure none
  | calls + 1, st => do
      match ← next client fuel none st with
      | none => pure none
      | some (st, _, some err) => pure (some (st, [], err))
      | some (st, result, none) => do
          match ← drain fuel calls st with
          | none => pure none
          | some (st, later, err) => pure (some (st, result :: later, err))

end Next

end GoHBase
