import GoHBase.MetaRow
import GoHBase.QueryCore
import GoHBase.SendRpc

/-!
`lookupRegion`: the region of a row from a reversed scan of hbase:meta, or the address of a region
that ZooKeeper knows, tried again after every error that may pass.
-/

namespace GoHBase

open ByteString Runtime Retry

/-- The errors of a lookup. `other` are those that no caller compares with anything. -/
inductive LookupError
  | tableNotFound
  | clientClosed
  | parse (err : MetaError)
  | wrongTable (table key : Bytes) (reg : RegionInfo)
  | wrongRegion (table key : Bytes) (reg : RegionInfo)
  | other (text : String)
  deriving DecidableEq, Repr

def infoFamily : AList fun _ : Bytes => List Bytes := AList.singleton [105, 110, 102, 111] []

/-- The region of hbase:meta, which is one region: "hbase:meta,,1". -/
def metaRegionInfo (ref : Nat) : RegionInfo where
  ref := ref
  id := 0
  nspace := some [104, 98, 97, 115, 101]
  table := [109, 101, 116, 97]
  name := [104, 98, 97, 115, 101, 58, 109, 101, 116, 97, 44, 44, 49]
  startKey := []
  stopKey := []

abbrev Located := Except LookupError (RegionInfo × Bytes)

def checkMeta (table key : Bytes) (reg : RegionInfo) (addr : Bytes) : Located :=
  if table ≠ fullyQualifiedTable reg then .error (.wrongTable table key reg)
  else if reg.stopKey.length ≠ 0 ∧ bytesCompare key reg.stopKey ≥ 0 then
    .error (.wrongRegion table key reg)
  else .ok (reg, addr)

def checkParsed (table key : Bytes) : Except MetaError (RegionInfo × Bytes) → Located
  | .error err => .error (.parse err)
  | .ok (reg, addr) => checkMeta table key reg addr

section Meta

variable {σ : Type} (decode : PbDecoder) (client : RPCClient σ LookupError)

/-- `metaLookup` after the scanner has returned. -/
def finishMeta (ref : Nat) (table key : Bytes) :
    Option (ScanState σ × Option LocalResult × Option (ScanError LookupError)) →
      Go (Option (σ × Located))
  | none => pure none
  | some (st, _, some .eof) => pure (some (st.server, .error .tableNotFound))
  | some (st, _, some (.failed err)) => pure (some (st.server, .error err))
  | some (st, resp, none) => do
      let resp ← deref resp
      let parsed ← parseRegionInfo decode ref resp.cells
      pure (some (st.server, checkParsed table key parsed))

/-- `metaLookup`. `cancelled` is the error of the context when it is done already. -/
def metaLookup (fuel ref : Nat) (cancelled : Option LookupError) (server : σ)
    (table key : Bytes) : Go (Option (σ × Located)) := do
  let metaKey ← createRegionSearchKey table key
  match Hrpc.newScanRange metaTableName metaKey table
      [.families infoFamily, .reversed, .closeScanner, .numberOfRows 1] with
  | .error text => pure (some (server, .error (.other text)))
  | .ok rpc =>
      next client fuel cancelled ⟨newScanner rpc.scan, server, []⟩ >>=
        finishMeta decode ref table key

end Meta

inductive ZkResource
  | metaRegionServer
  | master
  deriving DecidableEq, Repr

/-- What lookups rely on. `ref` numbers the region objects that are made. -/
structure LookupWorld (σ : Type) where
  decode : PbDecoder
  ref : σ → Nat
  scan : RPCClient σ LookupError
  cancelled : σ → Option LookupError
  zkLookup : ZkResource → σ → σ × Except LookupError Bytes
  sleep : Nat → σ → σ × Option String

section Loop

variable {σ : Type} (w : LookupWorld σ) (setup : Setup) (fuel : Nat) (table key : Bytes)

def judgeLookup : Located → Judgement Located String
  | .ok found => .final (.ok found)
  | .error _ => .pause fun cause => .error (.other cause)

def judgeMeta : Located → Judgement Located String
  | .error .tableNotFound => .final (.error .tableNotFound)
  | .error .clientClosed => .final (.error .clientClosed)
  | located => judgeLookup located

def lookupSpecial (resource : ZkResource) (s : σ) : Go (Option (σ × Judgement Located String)) :=
  let (s, answer) := w.zkLookup resource s
  pure (some (s, judgeLookup (answer.map fun addr => (setup.special, addr))))

/-- The body of the loop of `lookupRegion`. -/
def lookupAttempt (s : σ) : Go (Option (σ × Judgement Located String)) :=
  if setup.clientType = .masterClient then lookupSpecial w setup .master s
  else if table = metaTableName then lookupSpecial w setup .metaRegionServer s
  else do
    match ← metaLookup w.decode w.scan fuel (w.ref s) (w.cancelled s) s table key with
    | none => pure none
    | some (s, located) => pure (some (s, judgeMeta located))

def lookupLoop : Loop σ Located String where
  attempt := lookupAttempt w setup fuel table key
  sleep := sleepBackoff w.sleep
  next := increaseBackoff

/-- `lookupRegion`, with the backoffs that it slept. -/
def lookupRegion (rounds : Nat) (s : σ) : Go (Option (σ × Located × List Nat)) :=
  (lookupLoop w setup fuel table key).run rounds backoffStart s

end Loop

end GoHBase
