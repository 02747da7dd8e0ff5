import GoHBase.CellblockCore

/-! The layout of an encoded cell, and that decoding undoes encoding. -/

namespace GoHBase

open ByteString Runtime Buffer

def Cell.keyLen (cell : Cell) : Nat :=
  2 + cell.row.length + 1 + cell.family.length + cell.qualifier.length + 8 + 1

def Cell.blockLen (cell : Cell) : Nat :=
  cellblockLen cell.row.length cell.family.length cell.qualifier.length cell.value.length

def Cell.encode (cell : Cell) : Bytes :=
  bigEndian 4 (4 + 4 + cell.keyLen + cell.value.length) ++ (bigEndian 4 cell.keyLen ++
    (bigEndian 4 cell.value.length ++ (bigEndian 2 cell.row.length ++ (cell.row ++
      ([UInt8.ofNat cell.family.length] ++ (cell.family ++ (cell.qualifier ++
        (bigEndian 8 cell.timestamp.toNat ++ ([cell.cellType] ++ cell.value)))))))))

@[simp]
theorem Cell.length_encode (cell : Cell) : cell.encode.length = cell.blockLen := by
  simp only [Cell.encode, Cell.blockLen, cellblockLen, List.length_append, length_bigEndian,
    List.length_cons, List.length_nil]
  omega

def Cell.append (cell : Cell) (cbs : Bytes) : Go Bytes :=
  appendCellblock cell.row cell.family cell.qualifier cell.value cell.timestamp cell.cellType cbs

theorem Cell.append_eq (cell : Cell) (cbs : Bytes) :
    cell.append cbs = .ok (cbs ++ cell.encode) := by
  obtain ⟨row, family, qualifier, ts, typ, value⟩ := cell
  simp (disch := simp only [length_bigEndian, List.length_append, List.length_cons,
    List.length_nil] <;> omega) only
    [Cell.append, appendCellblock, cellblockLen, storeAt_zeros, copyAt_zeros, ok_bind]
  have exhausted (room : Nat) (empty : room = 0) : zeros room = [] := by
    subst empty
    rfl
  rw [exhausted _ (by simp only [length_bigEndian, List.length_cons, List.length_nil]; omega)]
  simp [Cell.encode, Cell.keyLen, pure, Except.pure]

section Layout

variable (row family qualifier value rest : Bytes) (kvLen rowKeyLen valueLen qualifierLen : UInt32)
  (keyLen : UInt16) (familyLen : UInt8) (timestamp : UInt64) (cellType : UInt8)

theorem cellFromCellBlock_layout (rowSize : row.length = keyLen.toNat)
    (familySize : family.length = familyLen.toNat)
    (qualifierSize : qualifier.length = qualifierLen.toNat)
    (valueSize : value.length = valueLen.toNat)
    (keyTruth : rowKeyLen - keyLen.toUInt32 - familyLen.toUInt32 - 2 - 1 - 8 - 1 = qualifierLen)
    (truth : 4 + 4 + 2 + keyLen.toUInt32 + 1 + familyLen.toUInt32 + qualifierLen + 8 + 1 +
      valueLen = kvLen)
    (whole : kvLen.toNat ≤ 20 + row.length + family.length + qualifier.length + value.length) :
    cellFromCellBlock (bigEndian 4 kvLen.toNat ++ (bigEndian 4 rowKeyLen.toNat ++
      (bigEndian 4 valueLen.toNat ++ (bigEndian 2 keyLen.toNat ++ (row ++ ([familyLen] ++
        (family ++ (qualifier ++ (bigEndian 8 timestamp.toNat ++ ([cellType] ++
          (value ++ rest))))))))))) =
      .ok (.ok (⟨row, family, qualifier, timestamp, cellType, value⟩, kvLen + 4)) := by
  have size : 4 + kvLen.toNat ≤ (bigEndian 4 kvLen.toNat ++ (bigEndian 4 rowKeyLen.toNat ++
      (bigEndian 4 valueLen.toNat ++ (bigEndian 2 keyLen.toNat ++ (row ++ ([familyLen] ++
        (family ++ (qualifier ++ (bigEndian 8 timestamp.toNat ++ ([cellType] ++
          (value ++ rest))))))))))).length := by
    simp only [List.length_append, length_bigEndian, List.length_cons, List.length_nil]
    omega
  have header : (bigEndian 4 kvLen.toNat ++ bigEndian 4 rowKeyLen.toNat ++
      bigEndian 4 valueLen.toNat ++ bigEndian 2 keyLen.toNat).length = 14 := by simp
  have body (tail : Bytes) := sliceFrom_append _ tail 14 header
  simp only [List.append_assoc] at body
  rw [cellFromCellBlock, if_neg (by omega), slice_front _ _ 4 (length_bigEndian _ _), ok_bind]
  simp only [word32_bigEndian]
  rw [if_neg (by omega)]
  simp (disch := simp) only [slice_front, slice_skip,
    length_bigEndian, ok_bind, Nat.sub_self, Nat.reduceSub, body, word16_bigEndian,
    word32_bigEndian, sliceTo_append _ _ _ rowSize, sliceFrom_append _ _ _ rowSize]
  simp (disch := simp) only [index_front, sliceFrom_append [familyLen],
    sliceTo_append _ _ _ familySize, sliceFrom_append _ _ _ familySize, ok_bind, keyTruth, truth,
    ne_eq, not_true_eq_false, ↓reduceIte, sliceTo_append _ _ _ qualifierSize,
    sliceFrom_append _ _ _ qualifierSize, sliceTo_append (bigEndian _ _),
    sliceFrom_append (bigEndian _ _), sliceFrom_append [cellType],
    sliceTo_append _ _ _ valueSize, word64_bigEndian]
  rfl

end Layout

structure Cell.Fits (cell : Cell) : Prop where
  row : cell.row.length < 2 ^ 16
  family : cell.family.length < 2 ^ 8
  block : cell.blockLen < 2 ^ 32

theorem cellFromCellBlock_encode (cell : Cell) (fits : cell.Fits) (rest : Bytes) :
    cellFromCellBlock (cell.encode ++ rest) =
      .ok (.ok (cell, UInt32.ofNat cell.blockLen)) := by
  obtain ⟨rowFits, familyFits, blockFits⟩ := fits
  obtain ⟨row, family, qualifier, ts, typ, value⟩ := cell
  simp only [Cell.blockLen, cellblockLen] at *
  have word (number : Nat) (small : number < 2 ^ 32) : (UInt32.ofNat number).toNat = number :=
    UInt32.toNat_ofNat_of_lt' small
  have rowWord : (UInt16.ofNat row.length).toNat = row.length :=
    UInt16.toNat_ofNat_of_lt' (by omega)
  have familyWord : (UInt8.ofNat family.length).toNat = family.length :=
    UInt8.toNat_ofNat_of_lt' (by omega)
  have kvWord := word (4 + 4 + (2 + row.length + 1 + family.length + qualifier.length + 8 + 1) +
    value.length) (by omega)
  have keyWord := word (2 + row.length + 1 + family.length + qualifier.length + 8 + 1) (by omega)
  have valueWord := word value.length (by omega)
  have qualifierWord := word qualifier.length (by omega)
  have decoded := cellFromCellBlock_layout row family qualifier value rest
    (UInt32.ofNat (4 + 4 + (2 + row.length + 1 + family.length + qualifier.length + 8 + 1) +
      value.length))
    (UInt32.ofNat (2 + row.length + 1 + family.length + qualifier.length + 8 + 1))
    (UInt32.ofNat value.length) (UInt32.ofNat qualifier.length) (UInt16.ofNat row.length)
    (UInt8.ofNat family.length) ts typ rowWord.symm familyWord.symm qualifierWord.symm
    valueWord.symm
    (UInt32.toNat_inj.mp (by
      simp only [UInt32.toNat_sub, UInt16.toNat_toUInt32, UInt8.toNat_toUInt32, rowWord,
        familyWord, keyWord, qualifierWord, UInt32.reduceToNat]
      omega))
    (UInt32.toNat_inj.mp (by
      simp only [UInt32.toNat_add, UInt16.toNat_toUInt32, UInt8.toNat_toUInt32, rowWord,
        familyWord, kvWord, qualifierWord, valueWord, UInt32.reduceToNat]
      omega))
    (by omega)
  rw [kvWord, keyWord, valueWord, rowWord] at decoded
  simp only [Cell.encode, Cell.keyLen, List.append_assoc, decoded]
  have lastWord (number : Nat) : UInt32.ofNat number + 4 = UInt32.ofNat (4 + number) := by
    rw [Nat.add_comm, UInt32.ofNat_add]
    rfl
  rw [lastWord]

def encodeCells (cells : List Cell) : Bytes := cells.flatMap Cell.encode

def cellsLen (cells : List Cell) : Nat := (cells.map Cell.blockLen).sum

@[simp]
theorem encodeCells_nil : encodeCells [] = [] := rfl

@[simp]
theorem encodeCells_cons (cell : Cell) (cells : List Cell) :
    encodeCells (cell :: cells) = cell.encode ++ encodeCells cells := rfl

@[simp]
theorem encodeCells_append (front back : List Cell) :
    encodeCells (front ++ back) = encodeCells front ++ encodeCells back :=
  List.flatMap_append

@[simp]
theorem cellsLen_nil : cellsLen [] = 0 := rfl

@[simp]
theorem cellsLen_cons (cell : Cell) (cells : List Cell) :
    cellsLen (cell :: cells) = cell.blockLen + cellsLen cells := rfl

@[simp]
theorem cellsLen_append (front back : List Cell) :
    cellsLen (front ++ back) = cellsLen front + cellsLen back := by
  simp [cellsLen]

@[simp]
theorem length_encodeCells (cells : List Cell) :
    (encodeCells cells).length = cellsLen cells := by
  induction cells with
  | nil => rfl
  | cons cell cells ih => simp [ih]

theorem length_le_cellsLen (cells : List Cell) : 24 * cells.length ≤ cellsLen cells := by
  induction cells with
  | nil => simp
  | cons cell cells ih =>
      have positive : 24 ≤ cell.blockLen := by
        simp only [Cell.blockLen, cellblockLen]
        omega
      simp only [List.length_cons, cellsLen_cons]
      omega

structure EncodableCells (cells : List Cell) : Prop where
  rows : ∀ cell ∈ cells, cell.row.length < 2 ^ 16
  families : ∀ cell ∈ cells, cell.family.length < 2 ^ 8
  total : cellsLen cells < 2 ^ 31

theorem blockLen_le_cellsLen {cell : Cell} {cells : List Cell} (member : cell ∈ cells) :
    cell.blockLen ≤ cellsLen cells :=
  List.le_sum_of_mem (List.mem_map_of_mem member)

theorem fits_of_total {cells : List Cell} (rows : ∀ cell ∈ cells, cell.row.length < 2 ^ 16)
    (families : ∀ cell ∈ cells, cell.family.length < 2 ^ 8) (total : cellsLen cells < 2 ^ 32) :
    ∀ cell ∈ cells, cell.Fits := by
  intro cell member
  have part := blockLen_le_cellsLen member
  exact ⟨rows cell member, families cell member, by omega⟩

theorem EncodableCells.fits {cells : List Cell} (encodable : EncodableCells cells) :
    ∀ cell ∈ cells, cell.Fits :=
  fits_of_total encodable.rows encodable.families (encodable.total.trans (by decide))

theorem EncodableCells.split {front back : List Cell} (encodable : EncodableCells (front ++ back)) :
    EncodableCells front ∧ EncodableCells back := by
  obtain ⟨rows, families, total⟩ := encodable
  simp only [cellsLen_append] at total
  constructor
  · refine ⟨fun cell member => rows cell ?_, fun cell member => families cell ?_, by omega⟩ <;>
      simp [member]
  · refine ⟨fun cell member => rows cell ?_, fun cell member => families cell ?_, by omega⟩ <;>
      simp [member]

theorem sliceFrom_word (front rest : Bytes) (small : front.length < 2 ^ 32) :
    sliceFrom (front ++ rest) (UInt32.ofNat front.length).toNat = .ok rest :=
  sliceFrom_append front rest _ (UInt32.toNat_ofNat_of_lt' small).symm

theorem readCells_encodeCells (cells : List Cell) (fits : ∀ cell ∈ cells, cell.Fits)
    (front rest : Bytes) (acc : List Cell) (small : front.length + cellsLen cells < 2 ^ 32) :
    readCells (front ++ (encodeCells cells ++ rest)) cells.length (UInt32.ofNat front.length) acc =
      .ok (.ok (acc ++ cells, UInt32.ofNat (front.length + cellsLen cells))) := by
  induction cells generalizing front acc with
  | nil => simp [readCells, pure, Except.pure]
  | cons cell cells ih =>
      have later := ih (fun cell member => fits cell (List.mem_cons_of_mem _ member))
        (front ++ cell.encode) (acc ++ [cell])
      simp only [List.length_append, Cell.length_encode, List.append_assoc,
        List.singleton_append, UInt32.ofNat_add] at later
      simp only [cellsLen_cons] at small
      rw [List.length_cons, readCells, sliceFrom_word _ _ (by omega), ok_bind, encodeCells_cons,
        List.append_assoc, cellFromCellBlock_encode cell (fits cell List.mem_cons_self), ok_bind]
      simp only []
      rw [later (by omega), cellsLen_cons]
      simp [UInt32.add_assoc]

theorem deserializeCellBlocks_encodeCells (cells : List Cell) (fits : ∀ cell ∈ cells, cell.Fits)
    (total : cellsLen cells < 2 ^ 32) (rest : Bytes) :
    deserializeCellBlocks (encodeCells cells ++ rest) (UInt32.ofNat cells.length) =
      .ok (.ok (cells, UInt32.ofNat (cellsLen cells))) := by
  have few := length_le_cellsLen cells
  have count : (UInt32.ofNat cells.length).toNat = cells.length :=
    UInt32.toNat_ofNat_of_lt' (by change _ < 2 ^ 32; omega)
  have read := readCells_encodeCells cells fits [] rest [] (by simp; omega)
  simpa [deserializeCellBlocks, count] using read

def scanResult (cells : List Cell) (flag : Bool) : Option PbResult :=
  some ⟨cells, none, none, none, some flag⟩

theorem fillResults_encodeCells (split : List (List Cell)) (flags doneFlags : List Bool)
    (resp : ScanResponse) (filled : List (Option PbResult)) (front rest : Bytes)
    (paired : split.length = flags.length) (encodable : EncodableCells split.flatten)
    (flagged : resp.partialFlagPerResult = doneFlags ++ flags)
    (progress : filled.length = doneFlags.length)
    (pending : resp.results = filled ++ List.replicate flags.length none)
    (small : front.length + cellsLen split.flatten < 2 ^ 32) :
    fillResults (front ++ (encodeCells split.flatten ++ rest)) resp filled.length
        (split.map fun cells => UInt32.ofNat cells.length) (UInt32.ofNat front.length) =
      .ok ({ resp with results := filled ++ List.zipWith scanResult split flags },
        .ok (UInt32.ofNat (front.length + cellsLen split.flatten))) := by
  induction split generalizing flags doneFlags resp filled front with
  | nil =>
      obtain rfl : flags = [] := List.length_eq_zero_iff.mp paired.symm
      obtain ⟨counts, id, more, results, partials, moreInRegion⟩ := resp
      obtain rfl : results = filled := by simpa using pending
      simp [fillResults, pure, Except.pure]
  | cons cells split ih =>
      obtain ⟨flag, flags, rfl⟩ : ∃ flag later, flags = flag :: later :=
        List.exists_cons_of_length_pos (by rw [← paired]; simp)
      rw [List.flatten_cons] at encodable
      obtain ⟨headFits, laterFits⟩ := encodable.split
      simp only [List.flatten_cons, encodeCells_append, cellsLen_append, List.append_assoc] at *
      have flagAt : index resp.partialFlagPerResult filled.length = .ok flag := by
        simp [index, flagged, progress]
      have slotAt : index resp.results filled.length = .ok none := by
        simp [index, pending, List.replicate_succ]
      have stored : resp.results.set filled.length (scanResult cells flag) =
          (filled ++ [scanResult cells flag]) ++ List.replicate flags.length none := by
        simp [pending, List.replicate_succ]
      have later := ih flags (doneFlags ++ [flag])
        { resp with results := resp.results.set filled.length (scanResult cells flag) }
        (filled ++ [scanResult cells flag]) (front ++ encodeCells cells) (by simpa using paired)
        laterFits (by simp [flagged]) (by simp [progress]) stored
      simp only [List.length_append, List.append_assoc, length_encodeCells, UInt32.ofNat_add,
        List.length_cons, List.length_nil] at later
      rw [List.map_cons, fillResults, sliceFrom_word _ _ (by omega), ok_bind,
        deserializeCellBlocks_encodeCells cells headFits.fits (by omega), ok_bind]
      simp only [flagAt, slotAt, ok_bind]
      rw [← scanResult, later (by omega)]
      simp [UInt32.add_assoc]

theorem mapM_append (cells : List Cell) :
    cells.mapM (fun cell => cell.append []) = .ok (cells.map Cell.encode) := by
  induction cells with
  | nil => rfl
  | cons cell cells ih =>
      rw [List.mapM_cons, Cell.append_eq, ok_bind, ih, ok_bind]
      rfl

theorem foldlM_append (cells : List Cell) (cbs : Bytes) :
    cells.foldlM (fun cbs cell => cell.append cbs) cbs = .ok (cbs ++ encodeCells cells) := by
  induction cells generalizing cbs with
  | nil => simp [pure, Except.pure]
  | cons cell cells ih =>
      rw [List.foldlM_cons, Cell.append_eq, ok_bind, ih, encodeCells_cons, List.append_assoc]

/-- Cells encoded one by one, concatenated or appended to one buffer, decode to
themselves whatever follows them, and a scan response gets back its results. -/
theorem cellblocks_round_trip (cells : List Cell) (encodable : EncodableCells cells)
    (trailing : Bytes) :
    ∃ blocks count readLen, cells.mapM (fun cell => cell.append []) = .ok blocks ∧
      cells.foldlM (fun cbs cell => cell.append cbs) [] = .ok blocks.flatten ∧
      count.toNat = cells.length ∧ readLen.toNat = (cells.map Cell.blockLen).sum ∧
      deserializeCellBlocks (blocks.flatten ++ trailing) count = .ok (.ok (cells, readLen)) ∧
      ∀ (split : List (List Cell)) (resp : ScanResponse), split.flatten = cells →
        resp.cellsPerResult = split.map (fun cells => UInt32.ofNat cells.length) →
        resp.partialFlagPerResult.length = split.length →
        (∀ group ∈ split, (UInt32.ofNat group.length).toNat = group.length) ∧
        Scan.deserializeCellBlocks resp (blocks.flatten ++ trailing) =
          .ok ({ resp with results := List.zipWith scanResult split resp.partialFlagPerResult },
            .ok readLen) := by
  have total := encodable.total
  have few := length_le_cellsLen cells
  have word (number : Nat) (small : number < 2 ^ 31) : (UInt32.ofNat number).toNat = number :=
    UInt32.toNat_ofNat_of_lt' (small.trans (by decide))
  have flattened : (cells.map Cell.encode).flatten = encodeCells cells := rfl
  refine ⟨cells.map Cell.encode, UInt32.ofNat cells.length, UInt32.ofNat (cellsLen cells),
    mapM_append cells, ?_, word _ (by omega), word _ total, ?_, ?_⟩
  · rw [foldlM_append, flattened, List.nil_append]
  · rw [flattened, deserializeCellBlocks_encodeCells cells encodable.fits (by omega)]
  · intro split resp splits counts flags
    subst splits
    constructor
    · intro group member
      have part := (List.sublist_flatten_of_mem member).length_le
      exact word _ (by omega)
    · have filled := fillResults_encodeCells split resp.partialFlagPerResult []
        { resp with results := List.replicate resp.partialFlagPerResult.length none } [] []
        trailing flags.symm encodable rfl rfl (by simp) (by simp; omega)
      rw [Scan.deserializeCellBlocks, flattened]
      simpa [counts] using filled

def sampleCell (row value : Bytes) : Cell := ⟨row, [99, 102], [113], 7, 4, value⟩

theorem cellblocks_round_trip_pair :
    ∃ blocks count readLen,
      [sampleCell [97] [1], sampleCell [98] []].mapM (fun cell => cell.append []) = .ok blocks ∧
      [sampleCell [97] [1], sampleCell [98] []].foldlM (fun cbs cell => cell.append cbs) [] =
        .ok blocks.flatten ∧
      count.toNat = 2 ∧
      readLen.toNat = ([sampleCell [97] [1], sampleCell [98] []].map Cell.blockLen).sum ∧
      deserializeCellBlocks (blocks.flatten ++ [0, 0]) count =
        .ok (.ok ([sampleCell [97] [1], sampleCell [98] []], readLen)) ∧
      ∀ (split : List (List Cell)) (resp : ScanResponse),
        split.flatten = [sampleCell [97] [1], sampleCell [98] []] →
        resp.cellsPerResult = split.map (fun cells => UInt32.ofNat cells.length) →
        resp.partialFlagPerResult.length = split.length →
        (∀ group ∈ split, (UInt32.ofNat group.length).toNat = group.length) ∧
        Scan.deserializeCellBlocks resp (blocks.flatten ++ [0, 0]) =
          .ok ({ resp with results := List.zipWith scanResult split resp.partialFlagPerResult },
            .ok readLen) :=
  cellblocks_round_trip [sampleCell [97] [1], sampleCell [98] []]
    ⟨by decide, by decide, by decide⟩ [0, 0]

end GoHBase
