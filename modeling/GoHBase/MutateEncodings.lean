import GoHBase.MutateCore
import GoHBase.CellblockRoundTrip

/-! Both encodings of a mutation carry the same cells. -/

namespace GoHBase

open ByteString Runtime Buffer RangeLoop

namespace Mutate

variable (m : Mutate)

theorem kinds_share_qualifiers (v : Option QualifierMap) :
    (m.protoQualifiers v).2 = (m.cellQualifiers v).2 := by
  unfold protoQualifiers cellQualifiers
  split
  · split <;> rfl
  · rfl

def familyCells (ts : UInt64) (order : ValuesOrder) (family : Bytes) (v : Option QualifierMap) :
    List Cell :=
  ((order.qualifiers family).visit (m.cellQualifiers v).2.entries).map fun entry =>
    ⟨m.key, family, entry.1, ts, (m.cellQualifiers v).1, entry.2⟩

def writtenCells (ts : UInt64) (order : ValuesOrder) : List Cell :=
  (order.families.visit m.values.entries).flatMap fun entry =>
    m.familyCells ts order entry.1 entry.2

theorem writeValues_eq (order : ValuesOrder) (ts : UInt64) (cbs : Bytes) :
    m.writeValues order ts cbs = .ok (cbs ++ encodeCells (m.writtenCells ts order)) := by
  have inner (family : Bytes) (mt : UInt8) (entries : List (Σ _ : Bytes, Bytes)) (cbs : Bytes) :
      entries.foldlM (fun cbs entry => appendCellblock m.key family entry.1 entry.2 ts mt cbs) cbs =
        .ok (cbs ++ encodeCells (entries.map fun entry =>
          ⟨m.key, family, entry.1, ts, mt, entry.2⟩)) := by
    have cells := foldlM_append (entries.map fun entry =>
      ⟨m.key, family, entry.1, ts, mt, entry.2⟩) cbs
    rw [List.foldlM_map] at cells
    exact cells
  unfold writeValues writtenCells
  induction order.families.visit m.values.entries generalizing cbs with
  | nil => simp [pure, Except.pure]
  | cons entry entries ih =>
      have family : (m.cellQualifiers entry.2 |>.2.entries |>
          (order.qualifiers entry.1).visit).foldlM (fun cbs qualifier =>
            appendCellblock m.key entry.1 qualifier.1 qualifier.2 ts (m.cellQualifiers entry.2).1
              cbs) cbs =
            .ok (cbs ++ encodeCells (m.familyCells ts order entry.1 entry.2)) := inner ..
      rw [List.foldlM_cons, List.flatMap_cons, encodeCells_append, ← List.append_assoc, ← ih]
      exact congrArg (· >>= fun cbs => List.foldlM _ cbs entries) family

def expectedCells (ts : UInt64) (order : ValuesOrder) (family : Bytes)
    (v : Option QualifierMap) : List Cell :=
  ((order.qualifiers family).visit (v.getD emptyQualifier).entries).map fun entry =>
    ⟨m.key, family, entry.1, ts, (m.cellQualifiers v).1, entry.2⟩

/-- What the first pass counts: a nil map stands for one empty qualifier. -/
def measuredCells (ts : UInt64) (order : ValuesOrder) : List Cell :=
  (order.families.visit m.values.entries).flatMap fun entry =>
    m.expectedCells ts order entry.1 entry.2

theorem measureValues_eq (order : ValuesOrder) (ts : UInt64) :
    m.measureValues order =
      (cellsLen (m.measuredCells ts order), (m.measuredCells ts order).length) := by
  have size (family : Bytes) (v : Option QualifierMap) (start : Nat) :
      ((order.qualifiers family).visit (v.getD emptyQualifier).entries).foldl
        (fun cbsLen entry => cbsLen +
          cellblockLen m.key.length family.length entry.1.length entry.2.length) start =
        start + cellsLen (m.expectedCells ts order family v) := by
    rw [foldl_add_eq_sum, cellsLen, expectedCells, List.map_map]
    rfl
  have count (family : Bytes) (v : Option QualifierMap) :
      (m.expectedCells ts order family v).length = (v.getD emptyQualifier).entries.length := by
    simp [expectedCells]
  have folded (entries : List (Σ _ : Bytes, Option QualifierMap)) (cbsLen cells : Nat) :
      entries.foldl (fun total entry =>
        (((order.qualifiers entry.1).visit (entry.2.getD emptyQualifier).entries).foldl
            (fun cbsLen cell => cbsLen +
              cellblockLen m.key.length entry.1.length cell.1.length cell.2.length) total.1,
          total.2 + (entry.2.getD emptyQualifier).entries.length)) (cbsLen, cells) =
        (cbsLen + cellsLen (entries.flatMap fun entry => m.expectedCells ts order entry.1 entry.2),
          cells + (entries.flatMap fun entry =>
            m.expectedCells ts order entry.1 entry.2).length) := by
    induction entries generalizing cbsLen cells with
    | nil => simp
    | cons entry entries ih =>
        rw [List.foldl_cons]
        refine (ih _ _).trans ?_
        rw [List.flatMap_cons, cellsLen_append, List.length_append, count, ← Nat.add_assoc,
          ← Nat.add_assoc, ← size]
  have whole := folded (order.families.visit m.values.entries) 0 0
  rw [Nat.zero_add, Nat.zero_add] at whole
  exact whole

theorem cellQualifiers_cases (v : Option QualifierMap) :
    (m.cellQualifiers v).2 = v.getD emptyQualifier ∨ (m.cellQualifiers v).2 = ∅ := by
  cases v with
  | none =>
      unfold cellQualifiers
      split
      · exact .inl rfl
      · exact .inr rfl
  | some v =>
      unfold cellQualifiers
      split
      · split <;> exact .inl rfl
      · exact .inl rfl

theorem writtenCells_sublist (order : ValuesOrder) (ts : UInt64) :
    (m.writtenCells ts order).Sublist (m.measuredCells ts order) := by
  refine List.Sublist.flatMap_right _ fun entry _ => ?_
  unfold familyCells expectedCells
  cases m.cellQualifiers_cases entry.2 with
  | inl same => rw [same]
  | inr none => simp [none]

theorem writtenCells_perm (first second : ValuesOrder) (ts : UInt64) :
    (m.writtenCells ts first).Perm (m.writtenCells ts second) :=
  first.families.flatMap_perm second.families _ _ _ fun _ _ =>
    (first.qualifiers _).map_perm (second.qualifiers _) _ _

theorem cellsLen_perm {first second : List Cell} (perm : first.Perm second) :
    cellsLen first = cellsLen second :=
  (perm.map Cell.blockLen).sum_eq

theorem cellsLen_le_of_sublist {small large : List Cell} (sublist : small.Sublist large) :
    cellsLen small ≤ cellsLen large := by
  induction sublist with
  | slnil => exact Nat.le_refl _
  | cons cell sublist ih =>
      simp only [cellsLen_cons]
      omega
  | cons_cons cell sublist ih =>
      simp only [cellsLen_cons]
      omega

theorem eq_of_sublist_of_cellsLen {small large : List Cell} (sublist : small.Sublist large)
    (same : cellsLen small = cellsLen large) : small = large := by
  induction sublist with
  | slnil => rfl
  | cons cell sublist ih =>
      have bound := cellsLen_le_of_sublist sublist
      have positive := length_le_cellsLen [cell]
      simp only [cellsLen_cons, List.length_cons, List.length_nil, cellsLen_nil] at same positive
      omega
  | cons_cons cell sublist ih =>
      simp only [cellsLen_cons] at same
      rw [ih (by omega)]

def cellTimestamp : UInt64 := if m.timestamp = maxTimestamp then maxInt64 else m.timestamp

/-- When the two passes agree on the size they also agree on the cells. -/
theorem valuesToCellblocks_ok {measuring writing : ValuesOrder} {cbs : Bytes} {count : Int32}
    {size : UInt32} (returned : m.valuesToCellblocks measuring writing = .ok (cbs, count, size)) :
    cbs = encodeCells (m.writtenCells m.cellTimestamp writing) ∧
      count = Int32.ofNat (m.writtenCells m.cellTimestamp writing).length ∧
      size = UInt32.ofNat cbs.length ∧ cbs.length = (m.measureValues measuring).1 := by
  unfold valuesToCellblocks at returned
  split at returned
  · rename_i empty
    cases returned
    have nothing : m.values.entries = [] := List.length_eq_zero_iff.mp empty
    simp [writtenCells, measureValues, nothing]
  · have stamp : (if m.timestamp = maxTimestamp then maxInt64 else m.timestamp) =
        m.cellTimestamp := rfl
    simp only [m.measureValues_eq measuring m.cellTimestamp, writeValues_eq, ok_bind,
      List.nil_append, stamp] at returned
    split at returned
    · cases returned
    · rename_i matched
      rw [ne_eq, not_not] at matched
      cases returned
      have perm := m.writtenCells_perm writing measuring m.cellTimestamp
      have same : m.writtenCells m.cellTimestamp measuring =
          m.measuredCells m.cellTimestamp measuring := by
        apply eq_of_sublist_of_cellsLen (m.writtenCells_sublist measuring m.cellTimestamp)
        rw [← cellsLen_perm perm, ← length_encodeCells]
        exact matched
      refine ⟨rfl, ?_, rfl, ?_⟩
      · rw [← same, perm.length_eq]
      · rw [m.measureValues_eq measuring m.cellTimestamp]
        exact matched

end Mutate

structure MutationEntry where
  family : Bytes
  qualifier : Bytes
  value : Bytes
  timestamp : UInt64
  kind : UInt8
  deriving DecidableEq, Repr

def Cell.entry (cell : Cell) : MutationEntry :=
  ⟨cell.family, cell.qualifier, cell.value, cell.timestamp, cell.cellType⟩

def kindCode : Option DeleteType → UInt8
  | none => 4
  | some .oneVersion => 8
  | some .familyVersion => 10
  | some .multipleVersions => 12
  | some .family => 14

def ColumnValue.entries (cv : ColumnValue) : List MutationEntry :=
  cv.qualifierValue.map fun qv =>
    ⟨cv.family, qv.qualifier, qv.value, qv.timestamp.getD 0x7fffffffffffffff,
      kindCode qv.deleteType⟩

namespace Mutate

variable (m : Mutate)

def protoTimestamp : Option UInt64 :=
  if m.timestamp ≠ maxTimestamp then some m.timestamp else none

theorem protoTimestamp_getD : m.protoTimestamp.getD 0x7fffffffffffffff = m.cellTimestamp := by
  by_cases latest : m.timestamp = maxTimestamp
  · simp [protoTimestamp, cellTimestamp, latest, maxInt64]
  · simp [protoTimestamp, cellTimestamp, latest]

theorem kindCode_protoQualifiers (v : Option QualifierMap) :
    kindCode (m.protoQualifiers v).1 = (m.cellQualifiers v).1 := by
  unfold protoQualifiers cellQualifiers
  cases m.deleteOneVersion <;> split <;> try split
  all_goals rfl

theorem written_perm_proto (protoOrder writing : ValuesOrder) :
    ((m.writtenCells m.cellTimestamp writing).map Cell.entry).Perm
      ((m.valuesToProto protoOrder m.protoTimestamp).flatMap ColumnValue.entries) := by
  unfold writtenCells valuesToProto
  rw [List.map_flatMap, List.flatMap_map]
  apply Order.flatMap_perm
  intro entry _
  simp only [familyCells, ColumnValue.entries, List.map_map, Function.comp_def, Cell.entry,
    protoTimestamp_getD, kindCode_protoQualifiers, kinds_share_qualifiers]
  exact Order.map_perm _ _ _ _

theorem writtenCells_fields (writing : ValuesOrder) (ts : UInt64) (cell : Cell)
    (member : cell ∈ m.writtenCells ts writing) :
    cell.row = m.key ∧ cell.family ∈ m.values.keys := by
  simp only [writtenCells, familyCells, List.mem_flatMap, List.mem_map] at member
  obtain ⟨entry, visited, qualifier, _, rfl⟩ := member
  exact ⟨rfl, List.mem_keys_of_mem ((Order.mem_visit _ _ _).mp visited)⟩

theorem writtenCells_encodable (writing : ValuesOrder) (row : m.key.length < 2 ^ 16)
    (families : ∀ family ∈ m.values.keys, family.length < 2 ^ 8) (ts : UInt64)
    (total : cellsLen (m.writtenCells ts writing) < 2 ^ 31) :
    EncodableCells (m.writtenCells ts writing) := by
  refine ⟨?_, ?_, total⟩
  · intro cell member
    rw [(m.writtenCells_fields writing ts cell member).1]
    exact row
  · intro cell member
    exact families _ (m.writtenCells_fields writing ts cell member).2

theorem appended_flatten (cells : List Cell) (small : cellsLen cells < 2 ^ 32) :
    (if 0 < UInt32.ofNat (encodeCells cells).length then [encodeCells cells] else []).flatten =
      encodeCells cells := by
  have size : (UInt32.ofNat (encodeCells cells).length).toNat = cellsLen cells := by
    rw [length_encodeCells]
    exact UInt32.toNat_ofNat_of_lt' small
  split
  · exact List.flatten_singleton
  · rename_i empty
    rw [UInt32.lt_iff_toNat_lt, size, UInt32.toNat_zero] at empty
    have empty : (encodeCells cells).length = 0 := by
      rw [length_encodeCells]
      omega
    rw [List.length_eq_zero_iff.mp empty]
    rfl

def sharedProto (durability : Durability) : MutationProto where
  row := m.key
  mutateType := m.mutationType
  columnValue := []
  timestamp := m.protoTimestamp
  attributes := if 0 < m.ttl.length then [⟨attributeNameTTL, m.ttl⟩] else []
  durability := durability
  associatedCellCount := none

theorem serializeCellBlocks_ok {orders : MutateOrders} {cbs cbs' : List Bytes}
    {request : MutateRequest} {size : UInt32}
    (returned : m.serializeCellBlocks orders cbs = .ok (request, cbs', size)) :
    ∃ region durability cellblocks count, m.region = some region ∧
      durabilityOf m.durability = .ok durability ∧
      m.valuesToCellblocks orders.measuring orders.writing = .ok (cellblocks, count, size) ∧
      cbs' = (if 0 < size then cbs ++ [cellblocks] else cbs) ∧
      request = ⟨⟨region.name⟩,
        { m.sharedProto durability with associatedCellCount := some count }⟩ := by
  unfold serializeCellBlocks toProto addValues at returned
  simp only [bind_ok_iff, ↓reduceIte] at returned
  obtain ⟨durability, indexed, ⟨mProto, cbsOut, sizeOut⟩, ⟨⟨cellblocks, count, sizeIn⟩, encoded,
    packed⟩, specifier, located, finished⟩ := returned
  cases packed
  cases finished
  cases assigned : m.region with
  | none =>
      rw [assigned] at located
      cases located
  | some region =>
      rw [assigned] at located
      cases located
      exact ⟨region, durability, cellblocks, count, rfl, indexed, encoded, rfl, rfl⟩

theorem toProtoMessage_eq (orders : MutateOrders) {region : RegionInfo} {durability : Durability}
    (assigned : m.region = some region) (indexed : durabilityOf m.durability = .ok durability) :
    m.toProtoMessage orders = .ok ⟨⟨region.name⟩, { m.sharedProto durability with
      columnValue := m.valuesToProto orders.proto m.protoTimestamp }⟩ := by
  simp only [toProtoMessage, toProto, addValues, indexed, assigned, regionSpecifier, ok_bind]
  rfl

end Mutate

theorem mutate_encodings_agree (m : Mutate) (orders protoOrders : MutateOrders)
    (cbs cbs' : List Bytes) (request : MutateRequest) (size : UInt32)
    (row : m.key.length < 2 ^ 16) (families : ∀ family ∈ m.values.keys, family.length < 2 ^ 8)
    (total : (m.measureValues orders.measuring).1 < 2 ^ 31)
    (returned : m.serializeCellBlocks orders cbs = .ok (request, cbs', size)) :
    ∃ proto appended cells count, m.toProtoMessage protoOrders = .ok proto ∧
      cbs' = cbs ++ appended ∧ size.toNat = appended.flatten.length ∧
      request.mutation.associatedCellCount = some count ∧ count.toInt = cells.length ∧
      deserializeCellBlocks appended.flatten (UInt32.ofNat cells.length) =
        .ok (.ok (cells, size)) ∧
      (∀ cell ∈ cells, cell.row = m.key) ∧
      (cells.map Cell.entry).Perm (proto.mutation.columnValue.flatMap ColumnValue.entries) ∧
      request.region = proto.region ∧
      { request.mutation with columnValue := [], associatedCellCount := none } =
        { proto.mutation with columnValue := [], associatedCellCount := none } := by
  obtain ⟨region, durability, cellblocks, count, assigned, indexed, encoded, rfl, rfl⟩ :=
    m.serializeCellBlocks_ok returned
  obtain ⟨rfl, rfl, rfl, measured⟩ := m.valuesToCellblocks_ok encoded
  have small : cellsLen (m.writtenCells m.cellTimestamp orders.writing) < 2 ^ 31 := by
    rw [← length_encodeCells, measured]
    exact total
  have encodable := m.writtenCells_encodable orders.writing row families m.cellTimestamp small
  have few := length_le_cellsLen (m.writtenCells m.cellTimestamp orders.writing)
  have flattened := Mutate.appended_flatten _ (small.trans (by decide))
  have decoded := deserializeCellBlocks_encodeCells _ encodable.fits (small.trans (by decide)) []
  rw [List.append_nil] at decoded
  refine ⟨_, if 0 < UInt32.ofNat (encodeCells
    (m.writtenCells m.cellTimestamp orders.writing)).length then
      [encodeCells (m.writtenCells m.cellTimestamp orders.writing)] else [],
    m.writtenCells m.cellTimestamp orders.writing, _,
    m.toProtoMessage_eq protoOrders assigned indexed, ?_, ?_, rfl, ?_, ?_, ?_, ?_, rfl, rfl⟩
  · split
    · rfl
    · rw [List.append_nil]
  · rw [flattened, length_encodeCells]
    exact UInt32.toNat_ofNat_of_lt' (small.trans (by decide))
  · exact Int32.toInt_ofNat_of_lt (by omega)
  · rw [flattened, decoded, length_encodeCells]
  · intro cell member
    exact (m.writtenCells_fields orders.writing m.cellTimestamp cell member).1
  · exact m.written_perm_proto protoOrders.proto orders.writing

def storedOrder : ValuesOrder := ⟨.stored _, fun _ => .stored _⟩

def reversedOrder : ValuesOrder := ⟨.reversed _, fun _ => .reversed _⟩

def sampleDelete : Mutate where
  key := [114]
  region := some (sampleRegion 0 1 [] [])
  mutationType := .delete
  values := (AList.singleton [97] none).insert [98] (some (AList.singleton [113] []))
  ttl := []
  timestamp := maxTimestamp
  durability := 0
  deleteOneVersion := false

theorem mutate_encodings_agree_delete :
    ∃ request cbs' size,
      sampleDelete.serializeCellBlocks ⟨storedOrder, storedOrder, reversedOrder⟩ [[7]] =
        .ok (request, cbs', size) ∧
      ∃ proto appended cells count,
        sampleDelete.toProtoMessage ⟨reversedOrder, storedOrder, storedOrder⟩ = .ok proto ∧
        cbs' = [[7]] ++ appended ∧ size.toNat = appended.flatten.length ∧
        request.mutation.associatedCellCount = some count ∧ count.toInt = cells.length ∧
        deserializeCellBlocks appended.flatten (UInt32.ofNat cells.length) =
          .ok (.ok (cells, size)) ∧
        (∀ cell ∈ cells, cell.row = sampleDelete.key) ∧
        (cells.map Cell.entry).Perm (proto.mutation.columnValue.flatMap ColumnValue.entries) ∧
        request.region = proto.region ∧
        { request.mutation with columnValue := [], associatedCellCount := none } =
          { proto.mutation with columnValue := [], associatedCellCount := none } :=
  ⟨_, _, _, rfl, mutate_encodings_agree sampleDelete ⟨storedOrder, storedOrder, reversedOrder⟩
    ⟨reversedOrder, storedOrder, storedOrder⟩ [[7]] _ _ _ (by decide) (by decide) (by decide) rfl⟩

end GoHBase
