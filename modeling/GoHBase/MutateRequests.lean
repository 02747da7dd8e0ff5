import GoHBase.MutateEncodings

/-!
How mutations are made, and what their encodings keep of the map they are made from. A nil
qualifier map stands for a whole family in a delete, and an empty one does not.
-/

namespace GoHBase

open ByteString Runtime Buffer RangeLoop

/-- An option as a mutation takes it. Durations and times are in nanoseconds. -/
inductive MutateOption
  | ttl (t : Int64)
  | timestamp (unixNano : Int64)
  | timestampUint64 (ts : UInt64)
  | durability (d : Int32)
  | deleteOneVersion
  | skipBatch
  | foreign (error : String)

def MutateOption.run (m : Mutate) : MutateOption → Except String Mutate
  | .ttl t => .ok { m with ttl := bigEndian 8 (t / 1000000).toUInt64.toNat }
  | .timestamp unixNano => .ok { m with timestamp := (unixNano / 1000000).toUInt64 }
  | .timestampUint64 ts => .ok { m with timestamp := ts }
  | .durability d =>
      if d < 0 ∨ d > 4 then .error "invalid durability value" else .ok { m with durability := d }
  | .deleteOneVersion => .ok { m with deleteOneVersion := true }
  -- only the queue of a region client reads the flag
  | .skipBatch => .ok m
  -- options of other calls find no call of theirs and return their error
  | .foreign error => .error error

def applyOptions (m : Mutate) (options : List MutateOption) : Except String Mutate :=
  options.foldlM MutateOption.run m

/-- The mutation type is the zero value until a constructor fills it in. -/
def baseMutate (key : Bytes) (values : ValuesMap) (options : List MutateOption) :
    Except String Mutate :=
  applyOptions {
    key := key
    region := none
    mutationType := .append
    values := values
    ttl := []
    timestamp := maxTimestamp
    durability := 0
    deleteOneVersion := false
  } options

def newMutate (mutationType : MutationType) (key : Bytes) (values : ValuesMap)
    (options : List MutateOption) : Except String Mutate := do
  let m ← baseMutate key values options
  pure { m with mutationType := mutationType }

def newPut : Bytes → ValuesMap → List MutateOption → Except String Mutate := newMutate .put

def newApp : Bytes → ValuesMap → List MutateOption → Except String Mutate := newMutate .append

def newInc : Bytes → ValuesMap → List MutateOption → Except String Mutate := newMutate .increment

def newDel (key : Bytes) (values : ValuesMap) (options : List MutateOption) :
    Except String Mutate := do
  let m ← baseMutate key values options
  if m.values.entries.length = 0 ∧ m.deleteOneVersion then
    .error "'DeleteOneVersion' option cannot be specified for delete entire row request"
  else pure { m with mutationType := .delete }

def newOf : MutationType → Bytes → ValuesMap → List MutateOption → Except String Mutate
  | .append => newApp
  | .increment => newInc
  | .put => newPut
  | .delete => newDel

def Mutate.setRegion (m : Mutate) (region : RegionInfo) : Mutate :=
  { m with region := some region }

structure Mutate.Holds (m : Mutate) (key : Bytes) (values : ValuesMap) : Prop where
  key : m.key = key
  values : m.values = values
  durable : 0 ≤ m.durability.toInt ∧ m.durability.toInt ≤ 4

theorem MutateOption.run_holds {m next : Mutate} {key : Bytes} {values : ValuesMap}
    {option : MutateOption} (holds : m.Holds key values) (ran : option.run m = .ok next) :
    next.Holds key values := by
  obtain ⟨keyKept, valuesKept, durable⟩ := holds
  cases option with
  | durability d =>
      simp only [MutateOption.run] at ran
      split at ran
      · cases ran
      · rename_i inside
        cases ran
        simp only [not_or, gt_iff_lt, Int32.not_lt, Int32.le_iff_toInt_le] at inside
        exact ⟨keyKept, valuesKept, inside⟩
  | foreign error => cases ran
  | ttl t =>
      cases ran
      exact ⟨keyKept, valuesKept, durable⟩
  | timestamp unixNano =>
      cases ran
      exact ⟨keyKept, valuesKept, durable⟩
  | timestampUint64 ts =>
      cases ran
      exact ⟨keyKept, valuesKept, durable⟩
  | deleteOneVersion =>
      cases ran
      exact ⟨keyKept, valuesKept, durable⟩
  | skipBatch =>
      cases ran
      exact ⟨keyKept, valuesKept, durable⟩

theorem applyOptions_holds {m next : Mutate} {key : Bytes} {values : ValuesMap}
    {options : List MutateOption} (holds : m.Holds key values)
    (applied : applyOptions m options = .ok next) : next.Holds key values := by
  induction options generalizing m with
  | nil =>
      cases applied
      exact holds
  | cons option options ih =>
      simp only [applyOptions, List.foldlM_cons] at applied
      cases ran : option.run m with
      | error message =>
          rw [ran] at applied
          cases applied
      | ok changed =>
          rw [ran] at applied
          exact ih (MutateOption.run_holds holds ran) applied

theorem newOf_holds {mutationType : MutationType} {key : Bytes} {values : ValuesMap}
    {options : List MutateOption} {m : Mutate}
    (made : newOf mutationType key values options = .ok m) :
    m.Holds key values ∧ m.mutationType = mutationType := by
  have base : ∀ start, baseMutate key values options = .ok start → start.Holds key values := by
    intro start applied
    refine applyOptions_holds ?_ applied
    have default : 0 ≤ (0 : Int32).toInt ∧ (0 : Int32).toInt ≤ 4 := by decide
    exact ⟨rfl, rfl, default⟩
  have plain : newMutate mutationType key values options = .ok m →
      m.Holds key values ∧ m.mutationType = mutationType := by
    intro made
    simp only [newMutate] at made
    cases applied : baseMutate key values options with
    | error message =>
        rw [applied] at made
        cases made
    | ok start =>
        rw [applied] at made
        cases made
        obtain ⟨keyKept, valuesKept, durable⟩ := base start applied
        exact ⟨⟨keyKept, valuesKept, durable⟩, rfl⟩
  cases mutationType with
  | append => exact plain made
  | increment => exact plain made
  | put => exact plain made
  | delete =>
      simp only [newOf, newDel] at made
      cases applied : baseMutate key values options with
      | error message =>
          rw [applied] at made
          cases made
      | ok start =>
          rw [applied] at made
          obtain ⟨keyKept, valuesKept, durable⟩ := base start applied
          dsimp only [bind, Except.bind] at made
          split at made
          · cases made
          · cases made
            exact ⟨⟨keyKept, valuesKept, durable⟩, rfl⟩

theorem Mutate.Holds.durabilityOf {m : Mutate} {key : Bytes} {values : ValuesMap}
    (holds : m.Holds key values) :
    ∃ durability, Mutate.durabilityOf m.durability = .ok durability := by
  obtain ⟨_, _, lower, upper⟩ := holds
  have inside : m.durability.toInt.toNat < Mutate.durabilities.length := by
    change m.durability.toInt.toNat < 5
    omega
  rw [Mutate.durabilityOf, if_neg (by omega), index, List.getElem?_eq_getElem inside]
  exact ⟨_, rfl⟩

namespace Mutate

variable (m : Mutate)

theorem cellQualifiers_snd {v : Option QualifierMap} (kept : m.mutationType = .delete ∨ v ≠ none) :
    (m.cellQualifiers v).2 = v.getD emptyQualifier := by
  unfold cellQualifiers
  cases v with
  | none =>
      have delete : m.mutationType = .delete := kept.resolve_right (by simp)
      simp [delete, orEmpty]
  | some v =>
      split
      · split
        · rfl
        · rfl
      · rfl

theorem writtenCells_eq_measuredCells (ts : UInt64) (order : ValuesOrder)
    (kept : m.mutationType = .delete ∨ ∀ family, m.values.lookup family ≠ some none) :
    m.writtenCells ts order = m.measuredCells ts order := by
  unfold writtenCells measuredCells
  refine List.flatMap_congr ?_
  intro entry visited
  have stored : m.values.lookup entry.1 = some entry.2 :=
    AList.mem_lookup_iff.mpr ((Order.mem_visit _ _ _).mp visited)
  have same : (m.cellQualifiers entry.2).2 = entry.2.getD emptyQualifier := by
    apply m.cellQualifiers_snd
    refine kept.imp_right ?_
    intro named whole
    exact named entry.1 (by rw [stored, whole])
  rw [familyCells, expectedCells, same]

theorem writtenCells_ne_measuredCells (ts : UInt64) (order : ValuesOrder) {family : Bytes}
    (other : m.mutationType ≠ .delete) (empty : m.values.lookup family = some none) :
    m.writtenCells ts order ≠ m.measuredCells ts order := by
  intro same
  have counted : ∃ cell ∈ m.measuredCells ts order, cell.family = family := by
    refine ⟨⟨m.key, family, [], ts, (m.cellQualifiers none).1, []⟩, ?_, rfl⟩
    simp only [measuredCells, List.mem_flatMap, expectedCells, List.mem_map]
    refine ⟨⟨family, none⟩, (Order.mem_visit _ _ _).mpr (AList.mem_lookup_iff.mp empty), ⟨[], []⟩,
      ?_, rfl⟩
    rw [Order.mem_visit]
    exact List.mem_singleton.mpr rfl
  obtain ⟨cell, member, named⟩ := counted
  rw [← same] at member
  simp only [writtenCells, List.mem_flatMap, familyCells, List.mem_map] at member
  obtain ⟨⟨stored, v⟩, visited, qualifier, inside, rfl⟩ := member
  obtain rfl : stored = family := named
  have found : m.values.lookup stored = some v :=
    AList.mem_lookup_iff.mpr ((Order.mem_visit _ _ _).mp visited)
  obtain rfl : v = none := Option.some.inj (found.symm.trans empty)
  simp [cellQualifiers, other, orEmpty] at inside

theorem kept_of_sizes {measuring writing : ValuesOrder}
    (sizes : (m.measureValues measuring).1 =
      (encodeCells (m.writtenCells m.cellTimestamp writing)).length) :
    m.mutationType = .delete ∨ ∀ family, m.values.lookup family ≠ some none := by
  by_contra neither
  rw [not_or, not_forall] at neither
  obtain ⟨other, family, named⟩ := neither
  apply m.writtenCells_ne_measuredCells m.cellTimestamp measuring other (not_not.mp named)
  apply eq_of_sublist_of_cellsLen (m.writtenCells_sublist measuring m.cellTimestamp)
  rw [m.measureValues_eq measuring m.cellTimestamp, length_encodeCells] at sizes
  exact (cellsLen_perm (m.writtenCells_perm measuring writing m.cellTimestamp)).trans sizes.symm

theorem measureValues_of_kept (measuring writing : ValuesOrder)
    (kept : m.mutationType = .delete ∨ ∀ family, m.values.lookup family ≠ some none) :
    m.measureValues measuring = ((encodeCells (m.writtenCells m.cellTimestamp writing)).length,
      (m.writtenCells m.cellTimestamp writing).length) := by
  have written := m.writtenCells_perm measuring writing m.cellTimestamp
  rw [m.measureValues_eq measuring m.cellTimestamp, ← m.writtenCells_eq_measuredCells _ _ kept,
    length_encodeCells, cellsLen_perm written, written.length_eq]

theorem valuesToCellblocks_of_sizes {measuring writing : ValuesOrder}
    (sizes : (m.measureValues measuring).1 =
      (encodeCells (m.writtenCells m.cellTimestamp writing)).length)
    (counts : (m.measureValues measuring).2 = (m.writtenCells m.cellTimestamp writing).length) :
    m.valuesToCellblocks measuring writing =
      .ok (encodeCells (m.writtenCells m.cellTimestamp writing),
        Int32.ofNat (m.writtenCells m.cellTimestamp writing).length,
        UInt32.ofNat (encodeCells (m.writtenCells m.cellTimestamp writing)).length) := by
  unfold valuesToCellblocks
  split
  · rename_i empty
    have nothing : m.values.entries = [] := List.length_eq_zero_iff.mp empty
    simp [writtenCells, nothing, pure, Except.pure]
  · have stamp : (if m.timestamp = maxTimestamp then maxInt64 else m.timestamp) =
        m.cellTimestamp := rfl
    simp only [stamp, writeValues_eq, List.nil_append, ok_bind, sizes, counts, ne_eq,
      not_true_eq_false, ↓reduceIte]
    rfl

theorem sizes_of_valuesToCellblocks {measuring writing : ValuesOrder}
    (returned : m.valuesToCellblocks measuring writing ≠
      .error (.panic "cellblocks len mismatch")) :
    (m.measureValues measuring).1 =
      (encodeCells (m.writtenCells m.cellTimestamp writing)).length := by
  by_contra differ
  apply returned
  unfold valuesToCellblocks
  split
  · rename_i empty
    have nothing : m.values.entries = [] := List.length_eq_zero_iff.mp empty
    simp [writtenCells, measureValues, nothing] at differ
  · have stamp : (if m.timestamp = maxTimestamp then maxInt64 else m.timestamp) =
        m.cellTimestamp := rfl
    simp only [stamp, writeValues_eq, List.nil_append, ok_bind, ne_eq, Ne.symm differ,
      not_false_eq_true, ↓reduceIte]

end Mutate

/-- Both passes over the values of a mutation see the same cells, and the sizing does not end in a
panic, if and only if the mutation is a delete or none of its qualifier maps is nil. -/
theorem cellblock_passes_agree_iff {mutationType : MutationType} {key : Bytes} {values : ValuesMap}
    {options : List MutateOption} {m : Mutate}
    (made : newOf mutationType key values options = .ok m) (measuring writing : ValuesOrder) :
    m.writeValues writing m.cellTimestamp [] =
        .ok (encodeCells (m.writtenCells m.cellTimestamp writing)) ∧
    (m.measureValues measuring = ((encodeCells (m.writtenCells m.cellTimestamp writing)).length,
        (m.writtenCells m.cellTimestamp writing).length) ↔
      mutationType = .delete ∨ ∀ family, values.lookup family ≠ some none) ∧
    (m.valuesToCellblocks measuring writing ≠ .error (.panic "cellblocks len mismatch") ↔
      mutationType = .delete ∨ ∀ family, values.lookup family ≠ some none) := by
  obtain ⟨⟨_, rfl, _⟩, rfl⟩ := newOf_holds made
  refine ⟨by rw [Mutate.writeValues_eq, List.nil_append], ⟨?_, ?_⟩, ⟨?_, ?_⟩⟩
  · intro agree
    exact m.kept_of_sizes (congrArg Prod.fst agree)
  · exact m.measureValues_of_kept measuring writing
  · intro returned
    exact m.kept_of_sizes (m.sizes_of_valuesToCellblocks returned)
  · intro kept
    have agree := m.measureValues_of_kept measuring writing kept
    rw [m.valuesToCellblocks_of_sizes (congrArg Prod.fst agree) (congrArg Prod.snd agree)]
    exact nofun

def familyDelete : Mutate where
  key := [114]
  region := none
  mutationType := .delete
  values := AList.singleton [102] none
  ttl := []
  timestamp := maxTimestamp
  durability := 0
  deleteOneVersion := false

theorem cellblock_passes_agree_iff_family :
    newOf .delete [114] (AList.singleton [102] none) [] = .ok familyDelete ∧
      familyDelete.valuesToCellblocks storedOrder reversedOrder ≠
        .error (.panic "cellblocks len mismatch") := by
  have made : newOf .delete [114] (AList.singleton [102] none) [] = .ok familyDelete := rfl
  have agree := cellblock_passes_agree_iff made storedOrder reversedOrder
  exact ⟨made, agree.2.2.mpr (.inl rfl)⟩

theorem put_nil_family_panics :
    ∃ m, newPut [114] (AList.singleton [102] none) [] = .ok m ∧
      m.valuesToCellblocks storedOrder storedOrder =
        .error (.panic "cellblocks len mismatch") :=
  ⟨_, rfl, rfl⟩

namespace Mutate

variable (m : Mutate)

theorem serializeCellBlocks_eq {orders : MutateOrders} (cbs : List Bytes) {region : RegionInfo}
    {durability : Durability} {cellblocks : Bytes} {count : Int32} {size : UInt32}
    (assigned : m.region = some region) (indexed : durabilityOf m.durability = .ok durability)
    (encoded : m.valuesToCellblocks orders.measuring orders.writing =
      .ok (cellblocks, count, size)) :
    m.serializeCellBlocks orders cbs =
      .ok (⟨⟨region.name⟩, { m.sharedProto durability with associatedCellCount := some count }⟩,
        if 0 < size then cbs ++ [cellblocks] else cbs, size) := by
  simp only [serializeCellBlocks, toProto, addValues, indexed, assigned, encoded, regionSpecifier,
    ok_bind, ↓reduceIte]
  rfl

def familyDeleteType : DeleteType := if m.deleteOneVersion then .familyVersion else .family

def familyCellType : UInt8 :=
  if m.deleteOneVersion then deleteFamilyVersionType else deleteFamilyType

/-- Every family of the map is in the message, and a family without qualifiers as one entry that
deletes the family. -/
structure FamiliesListed (columns : List ColumnValue) : Prop where
  listed : ∀ family ∈ m.values, ∃ cv ∈ columns, cv.family = family ∧ cv.qualifierValue ≠ []
  whole : ∀ family v, m.values.lookup family = some v → orEmpty v = ∅ →
    ∀ cv ∈ columns, cv.family = family →
      cv.qualifierValue = [⟨[], [], m.protoTimestamp, some m.familyDeleteType⟩]

/-- The same of the cells that are handed over behind a message, with their number and the number
of their bytes. -/
structure FamiliesHanded (cells : List Cell) (count : Option Int32) (blocks : List Bytes)
    (size : UInt32) : Prop where
  blocks : blocks = [encodeCells cells]
  size : size.toNat = (encodeCells cells).length
  count : ∃ n, count = some n ∧ n.toInt = cells.length
  written : ∀ family ∈ m.values, ∃ cell ∈ cells, cell.family = family
  whole : ∀ family v, m.values.lookup family = some v → orEmpty v = ∅ →
    cells.filter (·.family = family) =
      [⟨m.key, family, [], m.cellTimestamp, m.familyCellType, []⟩]

theorem mem_valuesToProto (order : ValuesOrder) (ts : Option UInt64) (cv : ColumnValue) :
    cv ∈ m.valuesToProto order ts ↔ ∃ family v, m.values.lookup family = some v ∧
      cv = ⟨family, ((order.qualifiers family).visit (m.protoQualifiers v).2.entries).map
        fun entry => ⟨entry.1, entry.2, ts, (m.protoQualifiers v).1⟩⟩ := by
  simp only [valuesToProto, List.mem_map, Order.mem_visit]
  constructor
  · rintro ⟨⟨family, v⟩, stored, rfl⟩
    exact ⟨family, v, AList.mem_lookup_iff.mpr stored, rfl⟩
  · rintro ⟨family, v, stored, rfl⟩
    exact ⟨⟨family, v⟩, AList.mem_lookup_iff.mp stored, rfl⟩

theorem mem_writtenCells (order : ValuesOrder) (ts : UInt64) (cell : Cell) :
    cell ∈ m.writtenCells ts order ↔ ∃ family v, m.values.lookup family = some v ∧
      cell ∈ m.familyCells ts order family v := by
  simp only [writtenCells, List.mem_flatMap, Order.mem_visit]
  constructor
  · rintro ⟨⟨family, v⟩, stored, member⟩
    exact ⟨family, v, AList.mem_lookup_iff.mpr stored, member⟩
  · rintro ⟨family, v, stored, member⟩
    exact ⟨⟨family, v⟩, AList.mem_lookup_iff.mp stored, member⟩

theorem familyCells_family {order : ValuesOrder} {ts : UInt64} {family : Bytes}
    {v : Option QualifierMap} : ∀ cell ∈ m.familyCells ts order family v, cell.family = family := by
  intro cell member
  obtain ⟨_, _, rfl⟩ := List.mem_map.mp member
  rfl

theorem writtenCells_filter (order : ValuesOrder) (ts : UInt64) {family : Bytes}
    {v : Option QualifierMap} (stored : m.values.lookup family = some v) :
    (m.writtenCells ts order).filter (·.family = family) = m.familyCells ts order family v := by
  have distinct : (order.families.visit m.values.entries).NodupKeys :=
    (List.perm_nodupKeys (order.families.perm _)).mpr m.values.nodupKeys
  have visited : (⟨family, v⟩ : Σ _ : Bytes, Option QualifierMap) ∈
      order.families.visit m.values.entries :=
    (Order.mem_visit _ _ _).mpr (AList.mem_lookup_iff.mp stored)
  unfold writtenCells
  generalize order.families.visit m.values.entries = entries at distinct visited
  induction entries with
  | nil => cases visited
  | cons entry entries ih =>
      rw [List.flatMap_cons, List.filter_append]
      have parts := List.nodupKeys_cons.mp distinct
      have others : ∀ other ∈ entries, other.1 ≠ entry.1 := by
        intro other member same
        exact parts.1 (same ▸ List.mem_keys_of_mem member)
      rcases List.mem_cons.mp visited with rfl | later
      · have foreign : (entries.flatMap fun other => m.familyCells ts order other.1 other.2).filter
            (·.family = family) = [] := by
          apply List.filter_eq_nil_iff.mpr
          intro cell member
          obtain ⟨other, inside, fromOther⟩ := List.mem_flatMap.mp member
          rw [m.familyCells_family cell fromOther]
          simpa using others other inside
        rw [foreign, List.append_nil]
        apply List.filter_eq_self.mpr
        intro cell member
        simpa using m.familyCells_family cell member
      · have foreign :
            (m.familyCells ts order entry.1 entry.2).filter (·.family = family) = [] := by
          apply List.filter_eq_nil_iff.mpr
          intro cell member
          rw [m.familyCells_family cell member]
          simpa using Ne.symm (others _ later)
        rw [foreign, List.nil_append]
        exact ih parts.2 later

variable {m}

theorem deleteQualifiers_nonempty (delete : m.mutationType = .delete) {v : Option QualifierMap} :
    (m.cellQualifiers v).2.entries ≠ [] ↔ v ≠ some ∅ := by
  rw [m.cellQualifiers_snd (.inl delete)]
  cases v with
  | none => simp [emptyQualifier, AList.singleton]
  | some v =>
      rw [Option.getD_some, ne_eq, ne_eq, Option.some.injEq, AList.ext_iff]
      rfl

theorem listed_nonempty (delete : m.mutationType = .delete) (order : ValuesOrder)
    (ts : Option UInt64) {family : Bytes} {v : Option QualifierMap}
    (stored : m.values.lookup family = some v) (present : v ≠ some ∅) :
    ∃ cv ∈ m.valuesToProto order ts, cv.family = family ∧ cv.qualifierValue ≠ [] := by
  refine ⟨_, (m.mem_valuesToProto _ _ _).mpr ⟨family, v, stored, rfl⟩, rfl, ?_⟩
  have qualifiers := (deleteQualifiers_nonempty delete).mpr present
  rw [← m.kinds_share_qualifiers] at qualifiers
  intro empty
  have size := congrArg List.length empty
  simp only [List.length_map, Order.length_visit, List.length_nil, List.length_eq_zero_iff] at size
  exact qualifiers size

theorem written_nonempty (delete : m.mutationType = .delete) (order : ValuesOrder) (ts : UInt64)
    {family : Bytes} {v : Option QualifierMap} (stored : m.values.lookup family = some v)
    (present : v ≠ some ∅) : ∃ cell ∈ m.writtenCells ts order, cell.family = family := by
  have qualifiers := (deleteQualifiers_nonempty delete).mpr present
  obtain ⟨entry, inside⟩ := List.exists_mem_of_ne_nil _ qualifiers
  refine ⟨⟨m.key, family, entry.1, ts, (m.cellQualifiers v).1, entry.2⟩, ?_, rfl⟩
  rw [mem_writtenCells]
  refine ⟨family, v, stored, List.mem_map.mpr ⟨entry, ?_, rfl⟩⟩
  exact (Order.mem_visit _ _ _).mpr inside

theorem qualifiers_of_nil (delete : m.mutationType = .delete) :
    m.protoQualifiers none = (some m.familyDeleteType, emptyQualifier) ∧
      m.cellQualifiers none = (m.familyCellType, emptyQualifier) := by
  simp [protoQualifiers, cellQualifiers, delete, orEmpty, familyDeleteType, familyCellType]

theorem listed_of_nil (delete : m.mutationType = .delete) (order : ValuesOrder)
    (ts : Option UInt64) {family : Bytes} (stored : m.values.lookup family = some none)
    {cv : ColumnValue} (member : cv ∈ m.valuesToProto order ts) (same : cv.family = family) :
    cv.qualifierValue = [⟨[], [], ts, some m.familyDeleteType⟩] := by
  obtain ⟨other, v, found, rfl⟩ := (m.mem_valuesToProto _ _ _).mp member
  obtain rfl : other = family := same
  obtain rfl : v = none := Option.some.inj (found.symm.trans stored)
  simp [(qualifiers_of_nil delete).1, emptyQualifier, AList.singleton]

theorem written_of_nil (delete : m.mutationType = .delete) (order : ValuesOrder) (ts : UInt64)
    {family : Bytes} (stored : m.values.lookup family = some none) :
    (m.writtenCells ts order).filter (·.family = family) =
      [⟨m.key, family, [], ts, m.familyCellType, []⟩] := by
  rw [m.writtenCells_filter _ _ stored, familyCells, (qualifiers_of_nil delete).2]
  simp [emptyQualifier, AList.singleton]

theorem written_of_empty (delete : m.mutationType = .delete) (order : ValuesOrder) (ts : UInt64)
    {family : Bytes} (stored : m.values.lookup family = some (some ∅)) :
    (m.writtenCells ts order).filter (·.family = family) = [] := by
  have empty : (m.cellQualifiers (some ∅)).2.entries = [] := by
    by_contra qualifiers
    exact (deleteQualifiers_nonempty delete).mp qualifiers rfl
  rw [m.writtenCells_filter _ _ stored, familyCells, empty]
  simp

theorem stored_of_named (named : ∀ family, m.values.lookup family ≠ some (some ∅))
    {family : Bytes} (member : family ∈ m.values) :
    ∃ v, m.values.lookup family = some v ∧ v ≠ some ∅ := by
  obtain ⟨v, stored⟩ := Option.isSome_iff_exists.mp (AList.lookup_isSome.mpr member)
  exact ⟨v, stored, fun empty => named family (by rw [stored, empty])⟩

theorem nil_of_named (named : ∀ family, m.values.lookup family ≠ some (some ∅)) {family : Bytes}
    {v : Option QualifierMap} (stored : m.values.lookup family = some v) (empty : orEmpty v = ∅) :
    m.values.lookup family = some none := by
  cases v with
  | none => exact stored
  | some v =>
      have same : v = ∅ := empty
      exact absurd (same ▸ stored) (named family)

theorem mem_of_stored {family : Bytes} {v : Option QualifierMap}
    (stored : m.values.lookup family = some v) : family ∈ m.values :=
  AList.lookup_isSome.mp (by rw [stored]; rfl)

theorem familiesListed_iff (delete : m.mutationType = .delete) (order : ValuesOrder) :
    m.FamiliesListed (m.valuesToProto order m.protoTimestamp) ↔
      ∀ family, m.values.lookup family ≠ some (some ∅) := by
  constructor
  · intro kept family stored
    obtain ⟨cv, inside, same, present⟩ := kept.listed family (mem_of_stored stored)
    have whole := kept.whole family (some ∅) stored rfl cv inside same
    obtain ⟨other, v, found, rfl⟩ := (m.mem_valuesToProto _ _ _).mp inside
    obtain rfl : other = family := same
    obtain rfl : v = some ∅ := Option.some.inj (found.symm.trans stored)
    have empty : (m.protoQualifiers (some ∅)).2.entries = [] := by
      rw [m.kinds_share_qualifiers]
      by_contra qualifiers
      exact (deleteQualifiers_nonempty delete).mp qualifiers rfl
    simp [empty] at whole
  · intro named
    constructor
    · intro family member
      obtain ⟨v, stored, present⟩ := stored_of_named named member
      exact listed_nonempty delete _ _ stored present
    · intro family v stored empty cv member same
      exact listed_of_nil delete _ _ (nil_of_named named stored empty) member same

/-- The cells are handed over with their number and size if they take less than 2^32 bytes. -/
theorem handed_of_small {cells : List Cell} (present : cells ≠ [])
    (small : (encodeCells cells).length < 2 ^ 32) :
    0 < UInt32.ofNat (encodeCells cells).length ∧
      (UInt32.ofNat (encodeCells cells).length).toNat = (encodeCells cells).length ∧
      (Int32.ofNat cells.length).toInt = cells.length := by
  have few := length_le_cellsLen cells
  have positive := List.length_pos_iff.mpr present
  rw [length_encodeCells] at small ⊢
  have size := UInt32.toNat_ofNat_of_lt' small
  refine ⟨?_, size, Int32.toInt_ofNat_of_lt (by omega)⟩
  rw [UInt32.lt_iff_toNat_lt, size]
  change 0 < cellsLen cells
  omega

theorem familiesHanded_iff (delete : m.mutationType = .delete) (present : m.values.entries ≠ [])
    (order : ValuesOrder) {cells : List Cell}
    (writes : cells = m.writtenCells m.cellTimestamp order) {blocks : List Bytes}
    (hands : blocks = if 0 < UInt32.ofNat (encodeCells cells).length then [encodeCells cells]
      else []) :
    m.FamiliesHanded cells (some (Int32.ofNat cells.length)) blocks
        (UInt32.ofNat (encodeCells cells).length) ↔
      (∀ family, m.values.lookup family ≠ some (some ∅)) ∧
        (encodeCells cells).length < 2 ^ 32 := by
  subst writes
  constructor
  · intro kept
    refine ⟨fun family stored => ?_, kept.size ▸ UInt32.toNat_lt _⟩
    obtain ⟨cell, inside, named⟩ := kept.written family (mem_of_stored stored)
    have own : cell ∈ (m.writtenCells m.cellTimestamp order).filter (·.family = family) :=
      List.mem_filter.mpr ⟨inside, decide_eq_true named⟩
    rw [written_of_empty delete _ _ stored] at own
    cases own
  · rintro ⟨named, small⟩
    have written : ∀ family ∈ m.values, ∃ cell ∈ m.writtenCells m.cellTimestamp order,
        cell.family = family := by
      intro family member
      obtain ⟨v, stored, present⟩ := stored_of_named named member
      exact written_nonempty delete _ _ stored present
    obtain ⟨entry, member⟩ := List.exists_mem_of_ne_nil _ present
    obtain ⟨cell, inside, _⟩ := written entry.1 (List.mem_keys_of_mem member)
    obtain ⟨positive, size, count⟩ := handed_of_small (List.ne_nil_of_mem inside) small
    rw [if_pos positive] at hands
    refine ⟨hands, size, ⟨_, rfl, count⟩, written, ?_⟩
    intro family v stored empty
    exact written_of_nil delete _ _ (nil_of_named named stored empty)

end Mutate

end GoHBase
