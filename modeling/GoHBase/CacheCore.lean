import GoHBase.Lib.OrderedTree
import GoHBase.RegionNameCore

/-!
The cache from row keys to regions and the lookup of a row in it. `dead` records
the regions whose context has been cancelled, in the order of the cancellations.
-/

namespace GoHBase

open ByteString Runtime OrderedTree

def isRegionOverlap (regA regB : RegionInfo) : Bool :=
  regA.nspace.getD [] == regB.nspace.getD [] && regA.table == regB.table &&
    (regB.stopKey.length == 0 || decide (bytesCompare regA.startKey regB.stopKey < 0)) &&
    (regA.stopKey.length == 0 || decide (0 < bytesCompare regA.stopKey regB.startKey))

/-- The region cache over some implementation `T` of the ordered tree. -/
structure KeyRegionCache (T : Tree Bytes RegionInfo compare) where
  regions : T.Carrier
  dead : List RegionInfo

variable {T : Tree Bytes RegionInfo compare}

namespace KeyRegionCache

def new (T : Tree Bytes RegionInfo compare) : KeyRegionCache T :=
  { regions := T.new, dead := [] }

def get (cache : KeyRegionCache T) (key : Bytes) : Go (Option (Bytes × RegionInfo)) := do
  let (enum, ok) ← T.seek cache.regions key
  if ok then .error (.fatal "WTF: got exact match for region search key %q")
  else pure (T.prev enum).1

def overlapRun (reg : RegionInfo) :
    Nat → Option (Bytes × RegionInfo) → T.Enumerator → List RegionInfo
  | fuel + 1, some (_, v), enum =>
      if isRegionOverlap v reg then v :: overlapRun reg fuel (T.next enum).1 (T.next enum).2
      else []
  | _, _, _ => []

/-- From where the search key landed back to the region before it, or to the
first region when the enumerator has run off the beginning of the tree. -/
def rewind (cache : KeyRegionCache T) (enum : T.Enumerator) : Go T.Enumerator :=
  let (item, stepped) := T.next (T.prev enum).2
  match item, T.seekFirst cache.regions with
  | some _, _ => pure stepped
  | none, some first => pure first
  | none, none =>
      .error (.fatal "error seeking first region when getting overlaps for region %v: %v")

def getOverlaps (cache : KeyRegionCache T) (reg : RegionInfo) : Go (List RegionInfo) :=
  if T.len cache.regions = 0 then pure []
  else do
    let key ← createRegionSearchKey (fullyQualifiedTable reg) reg.startKey
    let (enum, ok) ← T.seek cache.regions key
    if ok then .error (.fatal "WTF: found a region with exact name as the search key %q")
    else
      let enum ← cache.rewind enum
      match (T.next enum).1 with
      | none =>
          .error (.fatal "error accessing first region when getting overlaps for region %v: %v")
      | some (_, v) =>
          let enum := (T.next enum).2
          let rest := overlapRun reg (T.len cache.regions) (T.next enum).1 (T.next enum).2
          pure (if isRegionOverlap v reg then v :: rest else rest)

/-- The updater passed to the tree: an existing region or a younger overlap wins. -/
def update (cache : KeyRegionCache T) (reg : RegionInfo) :
    Option RegionInfo → Go (Option RegionInfo × List RegionInfo × Bool)
  | some v => pure (none, [v], false)
  | none => do
      let overlaps ← cache.getOverlaps reg
      if overlaps.any fun o => decide (o.id > reg.id) then pure (none, overlaps, false)
      else pure (some reg, overlaps, true)

def deleteOverlaps : List RegionInfo → KeyRegionCache T → Go (KeyRegionCache T)
  | [], cache => pure cache
  | o :: overlaps, cache => do
      let (regions, _) ← T.delete cache.regions o.name
      deleteOverlaps overlaps { regions := regions, dead := cache.dead ++ [o] }

def put (cache : KeyRegionCache T) (reg : RegionInfo) :
    Go (KeyRegionCache T × List RegionInfo × Bool) := do
  let (regions, overlaps, replaced) ← T.put cache.regions reg.name (cache.update reg)
  let stored := { cache with regions := regions }
  if replaced then
    let cleaned ← deleteOverlaps overlaps stored
    pure (cleaned, overlaps, replaced)
  else pure (stored, overlaps, replaced)

def del (cache : KeyRegionCache T) (reg : RegionInfo) : Go (KeyRegionCache T × Bool) := do
  let (regions, success) ← T.delete cache.regions reg.name
  pure ({ regions := regions, dead := cache.dead ++ [reg] }, success)

end KeyRegionCache

inductive CacheCall
  | put (reg : RegionInfo)
  | del (reg : RegionInfo)

def CacheCall.region : CacheCall → RegionInfo
  | .put reg => reg
  | .del reg => reg

def CacheCall.run (cache : KeyRegionCache T) : CacheCall → Go (KeyRegionCache T)
  | .put reg => (·.1) <$> cache.put reg
  | .del reg => (·.1) <$> cache.del reg

def runCalls (cache : KeyRegionCache T) : List CacheCall → Go (KeyRegionCache T)
  | [] => pure cache
  | call :: calls => do
      let next ← call.run cache
      runCalls next calls

inductive ClientType
  | regionClient
  | masterClient
  deriving DecidableEq, Repr

structure Client (T : Tree Bytes RegionInfo compare) where
  clientType : ClientType
  adminRegionInfo : Option RegionInfo
  metaRegionInfo : Option RegionInfo
  regions : KeyRegionCache T

/-- "hbase:meta" -/
def metaTableName : Bytes := [104, 98, 97, 115, 101, 58, 109, 101, 116, 97]

/-- The checks on the region found before the search key: it must be of the
same table, and the row must not lie behind it. -/
def acceptRegion (table key : Bytes) : Option (Bytes × RegionInfo) → Option RegionInfo
  | none => none
  | some (_, region) =>
      if fullyQualifiedTable region ≠ table then none
      else if region.stopKey.length ≠ 0 ∧ 0 ≤ bytesCompare key region.stopKey then none
      else some region

def Client.getRegionFromCache (c : Client T) (table key : Bytes) : Go (Option RegionInfo) :=
  if c.clientType = .masterClient then pure c.adminRegionInfo
  else if table = metaTableName then pure c.metaRegionInfo
  else do
    let regionName ← createRegionSearchKey table key
    let found ← c.regions.get regionName
    pure (acceptRegion table key found)

end GoHBase
