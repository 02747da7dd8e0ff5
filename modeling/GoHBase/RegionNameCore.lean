import GoHBase.Lib.ByteString
import GoHBase.Lib.Runtime

/-!
Region infos, their names, and the comparator that orders the region cache.
-/

namespace GoHBase

open ByteString Runtime

def comma : UInt8 := 44

def colon : UInt8 := 58

/-- The immutable part of a region. `ref` is the identity of the object, which
Go compares when it compares region pointers. -/
structure RegionInfo where
  ref : Nat
  id : UInt64
  nspace : Option Bytes
  table : Bytes
  name : Bytes
  startKey : Bytes
  stopKey : Bytes
  deriving DecidableEq, Repr

def fullyQualifiedTable (reg : RegionInfo) : Bytes :=
  match reg.nspace with
  | none => reg.table
  | some nspace => nspace ++ colon :: reg.table

def byteDiff (ai bi : UInt8) : Int := (ai.toNat : Int) - (bi.toNat : Int)

/-- The loop over the table names. It ends with a verdict at the first
difference, or with the index at which both names have their first comma. -/
def compareTables : Nat → Bytes → Bytes → Int ⊕ Nat
  | i, ai :: a, bi :: b =>
      if ai ≠ bi then
        if ai = comma then .inl (-1001)
        else if bi = comma then .inl 1001
        else .inl (byteDiff ai bi)
      else if ai = comma then .inr i
      else compareTables (i + 1) a b
  | i, _, _ => .inr i

def findCommaBelow (b : Bytes) (offset : Nat) : Nat → Go Nat
  | 0 => .error (.panic "no comma found in %q after offset %d")
  | i + 1 =>
      if offset < i then
        if b.getD i 0 = comma then .ok i else findCommaBelow b offset i
      else .error (.panic "no comma found in %q after offset %d")

def findCommaFromEnd (b : Bytes) (offset : Nat) : Go Nat :=
  findCommaBelow b offset b.length

def compareRun : Nat → Bytes → Bytes → Option Int
  | count + 1, ai :: a, bi :: b =>
      if ai ≠ bi then some (byteDiff ai bi) else compareRun count a b
  | _, _, _ => none

def compareRest (a b : Bytes) (i : Nat) : Int :=
  match compareRun (min a.length b.length - i) (a.drop i) (b.drop i) with
  | some verdict => verdict
  | none => (a.length : Int) - (b.length : Int)

def compare (a b : Bytes) : Go Int :=
  match compareTables 0 a b with
  | .inl verdict => .ok verdict
  | .inr i => do
      let aComma ← findCommaFromEnd a i
      let bComma ← findCommaFromEnd b i
      let i := i + 1
      let firstComma := min aComma bComma
      match compareRun (firstComma - i) (a.drop i) (b.drop i) with
      | some verdict => .ok verdict
      | none =>
          if aComma < bComma then .ok (-1002)
          else if bComma < aComma then .ok 1002
          else .ok (compareRest a b (max i firstComma))

def maxInt16 : Int := 32767

/-- The key to look for in order to locate the region of a row. The row is cut
so that the search key has at most `maxInt16` bytes. -/
def createRegionSearchKey (table key : Bytes) : Go Bytes :=
  let room := maxInt16 - (table.length : Int) - 3
  let keylen := if (key.length : Int) < room then (key.length : Int) else room
  if keylen < 0 then .error (.panic "slice bounds out of range")
  else .ok (table ++ comma :: (key.take keylen.toNat ++ [comma, colon]))

def joinName (table key suffix : Bytes) : Bytes :=
  table ++ comma :: (key ++ comma :: suffix)

/-- What hbase:meta supplies about a region, with the suffix of its name. -/
structure RegionInfo.NamedWith (reg : RegionInfo) (suffix : Bytes) : Prop where
  named : reg.name = joinName (fullyQualifiedTable reg) reg.startKey suffix
  nspaceNonempty : reg.nspace ≠ some []
  nspacePlain : ∀ nspace, reg.nspace = some nspace → comma ∉ nspace ∧ colon ∉ nspace
  tablePlain : comma ∉ reg.table ∧ colon ∉ reg.table
  suffixPlain : comma ∉ suffix
  suffixDigit : ∃ digit rest, suffix = digit :: rest ∧ 48 ≤ digit ∧ digit ≤ 57
  nameBound : reg.name.length ≤ 32767
  rangeNonempty : reg.startKey < reg.stopKey ∨ reg.stopKey = []

def RegionInfo.WellFormed (reg : RegionInfo) : Prop := ∃ suffix, reg.NamedWith suffix

/-- The row range of a region of some table; an empty stop key is infinity. -/
def RegionInfo.Contains (reg : RegionInfo) (table key : Bytes) : Prop :=
  fullyQualifiedTable reg = table ∧ reg.startKey ≤ key ∧
    (reg.stopKey = [] ∨ key < reg.stopKey)

def sampleRegion (ref : Nat) (id : UInt64) (startKey stopKey : Bytes) : RegionInfo where
  ref := ref
  id := id
  nspace := none
  table := [116]
  name := joinName [116] startKey [49]
  startKey := startKey
  stopKey := stopKey

end GoHBase
