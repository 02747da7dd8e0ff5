import GoHBase.Lib.Returns
import GoHBase.CellblockRoundTrip

/-! What decoding says about bytes that nobody promised to be cells: for which of
them it returns at all, and that whatever it returns is written exactly so. -/

namespace GoHBase

open ByteString Runtime Buffer

/-! The lengths that a block carries, read from their places in it. -/

def kvLenOf (b : Bytes) : UInt32 := UInt32.ofNat (fromBigEndian ((b.take 4).drop 0))

def rowKeyLenOf (b : Bytes) : UInt32 := UInt32.ofNat (fromBigEndian ((b.take 8).drop 4))

def valueLenOf (b : Bytes) : UInt32 := UInt32.ofNat (fromBigEndian ((b.take 12).drop 8))

def rowLenOf (b : Bytes) : UInt16 := UInt16.ofNat (fromBigEndian ((b.take 14).drop 12))

def familyLenOf (b : Bytes) : UInt8 := b[14 + (rowLenOf b).toNat]?.getD 0

/-- The bytes end before the block they announce, or else they hold the row and the family where
the lengths put them, and the key-value length does not agree with the others by wrapping only. -/
def SafeLengths (b : Bytes) : Prop :=
  b.length < 4 ∨ b.length < (kvLenOf b).toNat + 4 ∨
    (15 + (rowLenOf b).toNat + (familyLenOf b).toNat ≤ b.length ∧
      ((8 + (rowKeyLenOf b).toNat + (valueLenOf b).toNat) % 2 ^ 32 = (kvLenOf b).toNat →
        (rowLenOf b).toNat + (familyLenOf b).toNat + 12 ≤ (rowKeyLenOf b).toNat ∧
        8 + (rowKeyLenOf b).toNat + (valueLenOf b).toNat = (kvLenOf b).toNat))

instance (b : Bytes) : Decidable (SafeLengths b) := inferInstanceAs (Decidable (_ ∨ _))

theorem total_eq (rowKeyLen valueLen keyLen familyLen : UInt32) :
    4 + 4 + 2 + keyLen + 1 + familyLen +
      (rowKeyLen - keyLen - familyLen - 2 - 1 - 8 - 1) + 8 + 1 + valueLen =
      8 + rowKeyLen + valueLen := by
  grind

theorem qualifierLen_toNat (rowKeyLen : UInt32) (keyLen : UInt16) (familyLen : UInt8) :
    (rowKeyLen - keyLen.toUInt32 - familyLen.toUInt32 - 2 - 1 - 8 - 1).toNat =
      if keyLen.toNat + familyLen.toNat + 12 ≤ rowKeyLen.toNat then
        rowKeyLen.toNat - (keyLen.toNat + familyLen.toNat + 12)
      else 2 ^ 32 + rowKeyLen.toNat - (keyLen.toNat + familyLen.toNat + 12) := by
  have keyBound := keyLen.toNat_lt
  have familyBound := familyLen.toNat_lt
  have rowKeyBound := rowKeyLen.toNat_lt
  have joined : rowKeyLen - keyLen.toUInt32 - familyLen.toUInt32 - 2 - 1 - 8 - 1 =
      rowKeyLen - (keyLen.toUInt32 + familyLen.toUInt32 + 12) := by grind
  have subtracted : (keyLen.toUInt32 + familyLen.toUInt32 + 12).toNat =
      keyLen.toNat + familyLen.toNat + 12 := by
    simp only [UInt32.toNat_add, UInt16.toNat_toUInt32, UInt8.toNat_toUInt32, UInt32.reduceToNat]
    omega
  rw [joined, UInt32.toNat_sub, subtracted]
  split
  · omega
  · omega

theorem exists_item_iff {α : Type} (items : List α) (position : Nat) (default : α)
    (holds : α → Prop) :
    (∃ item, items[position]? = some item ∧ holds item) ↔
      position < items.length ∧ holds (items[position]?.getD default) := by
  by_cases inside : position < items.length
  · simp [inside]
  · simp [inside]

theorem agreement_iff (kvLen rowKeyLen valueLen : UInt32) :
    8 + rowKeyLen + valueLen = kvLen ↔
      (8 + rowKeyLen.toNat + valueLen.toNat) % 2 ^ 32 = kvLen.toNat := by
  rw [← UInt32.toNat_inj, UInt32.toNat_add, UInt32.toNat_add, Nat.mod_add_mod]
  rfl

def Announced (b : Bytes) : Prop := 4 ≤ b.length ∧ (kvLenOf b).toNat + 4 ≤ b.length

theorem cellFromCellBlock_returns_iff (b : Bytes) {post : Except String (Cell × UInt32) → Prop}
    {failed decoded : Prop} (onError : ∀ err, post (.error err) ↔ failed)
    (onCell : ∀ cell, post (.ok (cell, kvLenOf b + 4)) ↔ decoded) :
    Returns (cellFromCellBlock b) post ↔
      (¬Announced b → failed) ∧
      (Announced b → 15 + (rowLenOf b).toNat + (familyLenOf b).toNat ≤ b.length ∧
        ((8 + (rowKeyLenOf b).toNat + (valueLenOf b).toNat) % 2 ^ 32 ≠ (kvLenOf b).toNat →
          failed) ∧
        ((8 + (rowKeyLenOf b).toNat + (valueLenOf b).toNat) % 2 ^ 32 = (kvLenOf b).toNat →
          24 + (rowLenOf b).toNat + (familyLenOf b).toNat +
            (rowKeyLenOf b - (rowLenOf b).toUInt32 - (familyLenOf b).toUInt32 -
              2 - 1 - 8 - 1).toNat + (valueLenOf b).toNat ≤ b.length ∧ decoded)) := by
  simp only [cellFromCellBlock, returns_ite, returns_bind, returns_pure, returns_slice,
    returns_sliceFrom, returns_sliceTo, returns_index, total_eq]
  simp only [← kvLenOf.eq_1, ← rowKeyLenOf.eq_1, ← valueLenOf.eq_1, ← rowLenOf.eq_1,
    List.getElem?_drop, Nat.add_zero, exists_item_iff b _ 0, ← familyLenOf.eq_1,
    List.length_drop, agreement_iff, onError, onCell, Announced, ne_eq]
  -- only numbers are left: the bounds that the slices need, and what the source has checked
  generalize (rowKeyLenOf b - (rowLenOf b).toUInt32 - (familyLenOf b).toUInt32 -
    2 - 1 - 8 - 1).toNat = qualifierLen
  by_cases short : b.length < 4
  · simp [short]
  by_cases outer : b.length < (kvLenOf b).toNat + 4
  · have word : 0 ≤ 4 ∧ 4 ≤ b.length := by omega
    simp [short, outer, word]
  have announced : 4 ≤ b.length ∧ (kvLenOf b).toNat + 4 ≤ b.length := by omega
  simp only [short, outer, announced, not_false_eq_true, not_true_eq_false, forall_const,
    IsEmpty.forall_iff, true_and, and_self]
  by_cases agree : (8 + (rowKeyLenOf b).toNat + (valueLenOf b).toNat) % 2 ^ 32 = (kvLenOf b).toNat
  · by_cases met : decoded
    · simp only [agree, met, not_true_eq_false, IsEmpty.forall_iff, not_false_eq_true,
        forall_const, true_and, and_true]
      omega
    · simp only [agree, met, not_true_eq_false, not_false_eq_true, forall_const, and_false]
  · by_cases met : failed
    · simp only [agree, met, not_true_eq_false, not_false_eq_true, forall_const,
        IsEmpty.forall_iff, and_true]
      omega
    · simp only [agree, met, not_false_eq_true, forall_const, false_and, and_false]

/-- Decoding returns, with an error or a length inside the bytes, exactly on safe lengths. -/
theorem cell_decoding_total_iff (b : Bytes) (small : b.length < 2 ^ 31) :
    Returns (cellFromCellBlock b) (fun outcome =>
      ∀ cell n, outcome = .ok (cell, n) → n.toNat ≤ b.length) ↔ SafeLengths b := by
  have onCell (cell : Cell) : (∀ (other : Cell) (n : UInt32),
      (Except.ok (cell, kvLenOf b + 4) : Except String (Cell × UInt32)) = .ok (other, n) →
        n.toNat ≤ b.length) ↔ ((kvLenOf b).toNat + 4) % 2 ^ 32 ≤ b.length := by
    constructor
    · exact fun within => within cell _ rfl
    · intro within other n same
      cases same
      exact within
  have qualifier := qualifierLen_toNat (rowKeyLenOf b) (rowLenOf b) (familyLenOf b)
  have onError (err : String) : (∀ (cell : Cell) (n : UInt32),
      (Except.error err : Except String (Cell × UInt32)) = .ok (cell, n) →
        n.toNat ≤ b.length) ↔ True := by simp
  rw [cellFromCellBlock_returns_iff b onError onCell]
  simp only [implies_true, true_and, Announced, SafeLengths]
  generalize (rowKeyLenOf b - (rowLenOf b).toUInt32 - (familyLenOf b).toUInt32 -
    2 - 1 - 8 - 1).toNat = qualifierLen at *
  have rowBound := (rowLenOf b).toNat_lt
  have familyBound := (familyLenOf b).toNat_lt
  split at qualifier
  · omega
  · omega

theorem cell_decoding_total_iff_short :
    Returns (cellFromCellBlock ((sampleCell [97] [1]).encode.take 28)) (fun outcome =>
      ∀ cell n, outcome = .ok (cell, n) →
        n.toNat ≤ ((sampleCell [97] [1]).encode.take 28).length) :=
  (cell_decoding_total_iff _ (by decide)).mpr (by decide)

/-- Four zero bytes announce an empty block, and the lengths inside it are read all the same. -/
theorem cell_decoding_panics : cellFromCellBlock [0, 0, 0, 0] = .error outOfRange := rfl

/-- Where the qualifier and the value fit, no length can have wrapped. -/
theorem lengths_unwrapped {kvLen rowKeyLen valueLen : UInt32} {keyLen : UInt16} {familyLen : UInt8}
    {qualifierSize : Nat}
    (qualifier : qualifierSize =
      (rowKeyLen - keyLen.toUInt32 - familyLen.toUInt32 - 2 - 1 - 8 - 1).toNat)
    (agree : 8 + rowKeyLen + valueLen = kvLen)
    (small : keyLen.toNat + familyLen.toNat + qualifierSize + valueLen.toNat + 24 < 2 ^ 32) :
    rowKeyLen.toNat = 2 + keyLen.toNat + 1 + familyLen.toNat + qualifierSize + 8 + 1 ∧
      kvLen.toNat = 4 + 4 + rowKeyLen.toNat + valueLen.toNat := by
  have keyBound := keyLen.toNat_lt
  have familyBound := familyLen.toNat_lt
  rw [qualifierLen_toNat] at qualifier
  have sum : kvLen.toNat = (8 + rowKeyLen.toNat + valueLen.toNat) % 2 ^ 32 := by
    rw [← agree, UInt32.toNat_add, UInt32.toNat_add, Nat.mod_add_mod]
    rfl
  split at qualifier
  · omega
  · omega

theorem header_join {b kv rowKey value row rest : Bytes} (first : slice b 0 4 = .ok kv)
    (second : slice b 4 8 = .ok rowKey) (third : slice b 8 12 = .ok value)
    (fourth : slice b 12 14 = .ok row) (after : sliceFrom b 14 = .ok rest) :
    b = kv ++ (rowKey ++ (value ++ (row ++ rest))) := by
  have header := slice_append (slice_append (slice_append first second) third) fourth
  rw [slice_zero] at header
  simpa only [List.append_assoc] using (slices_join header after).1

/-- A decoded cell stands at the front of the bytes, written as the encoder writes it. -/
theorem cellFromCellBlock_sound {b : Bytes} {cell : Cell} {n : UInt32} (small : b.length < 2 ^ 32)
    (decoded : cellFromCellBlock b = .ok (.ok (cell, n))) :
    n.toNat = cell.blockLen ∧ cell.Fits ∧ ∃ rest, b = cell.encode ++ rest := by
  unfold cellFromCellBlock at decoded
  split at decoded
  · cases decoded
  obtain ⟨kv, kvRead, decoded⟩ := (bind_ok_iff _ _ _).mp decoded
  dsimp only at decoded
  split at decoded
  · cases decoded
  rename_i outer
  obtain ⟨rowKeyWord, rowKeyRead, decoded⟩ := (bind_ok_iff _ _ _).mp decoded
  obtain ⟨valueWord, valueRead, decoded⟩ := (bind_ok_iff _ _ _).mp decoded
  obtain ⟨rowWord, rowRead, decoded⟩ := (bind_ok_iff _ _ _).mp decoded
  obtain ⟨body, bodyRead, decoded⟩ := (bind_ok_iff _ _ _).mp decoded
  obtain ⟨row, rowTaken, decoded⟩ := (bind_ok_iff _ _ _).mp decoded
  obtain ⟨afterRow, rowLeft, decoded⟩ := (bind_ok_iff _ _ _).mp decoded
  obtain ⟨familyLen, familyRead, decoded⟩ := (bind_ok_iff _ _ _).mp decoded
  obtain ⟨afterLen, lenLeft, decoded⟩ := (bind_ok_iff _ _ _).mp decoded
  obtain ⟨family, familyTaken, decoded⟩ := (bind_ok_iff _ _ _).mp decoded
  obtain ⟨afterFamily, familyLeft, decoded⟩ := (bind_ok_iff _ _ _).mp decoded
  split at decoded
  · cases decoded
  rename_i truthful
  obtain ⟨qualifier, qualifierTaken, decoded⟩ := (bind_ok_iff _ _ _).mp decoded
  obtain ⟨afterQualifier, qualifierLeft, decoded⟩ := (bind_ok_iff _ _ _).mp decoded
  obtain ⟨stamp, stampTaken, decoded⟩ := (bind_ok_iff _ _ _).mp decoded
  obtain ⟨afterStamp, stampLeft, decoded⟩ := (bind_ok_iff _ _ _).mp decoded
  obtain ⟨cellType, typeRead, decoded⟩ := (bind_ok_iff _ _ _).mp decoded
  obtain ⟨afterType, typeLeft, decoded⟩ := (bind_ok_iff _ _ _).mp decoded
  obtain ⟨value, valueTaken, decoded⟩ := (bind_ok_iff _ _ _).mp decoded
  cases decoded
  obtain ⟨rest, valueJoin, valueSize⟩ := sliceTo_front valueTaken
  obtain ⟨rowJoin, rowSize⟩ := slices_join rowTaken rowLeft
  obtain ⟨familyJoin, familySize⟩ := slices_join familyTaken familyLeft
  obtain ⟨qualifierJoin, qualifierSize⟩ := slices_join qualifierTaken qualifierLeft
  obtain ⟨stampJoin, stampSize⟩ := slices_join stampTaken stampLeft
  have whole := header_join kvRead rowKeyRead valueRead rowRead bodyRead
  rw [rowJoin, index_sliceFrom_join familyRead lenLeft, familyJoin, qualifierJoin, stampJoin,
    index_sliceFrom_join typeRead typeLeft, valueJoin] at whole
  have kvSize := slice_length kvRead
  have rowKeySize := slice_length rowKeyRead
  have valueWordSize := slice_length valueRead
  have rowWordSize := slice_length rowRead
  have size := congrArg List.length whole
  simp only [List.length_append, List.length_cons, List.length_nil] at size
  rw [not_not, total_eq] at truthful
  obtain ⟨rowKeyLen, kvLen⟩ := lengths_unwrapped qualifierSize truthful (by omega)
  have length : (UInt32.ofNat (fromBigEndian kv) + 4).toNat =
      Cell.blockLen ⟨row, family, qualifier, UInt64.ofNat (fromBigEndian stamp), cellType,
        value⟩ := by
    rw [UInt32.toNat_add, kvLen, rowKeyLen]
    simp only [Cell.blockLen, cellblockLen, UInt32.reduceToNat]
    omega
  refine ⟨length, ⟨?_, ?_, length ▸ UInt32.toNat_lt _⟩, rest, ?_⟩
  · exact rowSize ▸ UInt16.toNat_lt _
  · exact familySize ▸ familyLen.toNat_lt
  · rw [Cell.encode, Cell.keyLen]
    simp only [rowSize, familySize, valueSize]
    rw [← rowKeyLen, ← kvLen, word32_read kvSize, word32_read rowKeySize,
      word32_read valueWordSize, word16_read rowWordSize, word64_read stampSize,
      UInt8.ofNat_toNat, whole]
    simp only [List.append_assoc]

theorem readCells_sound {front unread : Bytes} (small : front.length + unread.length < 2 ^ 32)
    (remaining : Nat) {n : UInt32} {acc cells : List Cell}
    (decoded : readCells (front ++ unread) remaining (UInt32.ofNat front.length) acc =
      .ok (.ok (cells, n))) :
    ∃ more rest, cells = acc ++ more ∧ more.length = remaining ∧ (∀ cell ∈ more, cell.Fits) ∧
      unread = encodeCells more ++ rest ∧ n = UInt32.ofNat (front.length + cellsLen more) := by
  induction remaining generalizing front unread acc with
  | zero =>
      cases decoded
      exact ⟨[], unread, by simp⟩
  | succ remaining ih =>
      rw [readCells, sliceFrom_word _ _ (by omega), ok_bind] at decoded
      obtain ⟨outcome, read, later⟩ := (bind_ok_iff _ _ _).mp decoded
      obtain err | ⟨cell, len⟩ := outcome
      · cases later
      obtain ⟨length, fits, behind, rfl⟩ := cellFromCellBlock_sound (by omega) read
      have position : UInt32.ofNat front.length + len =
          UInt32.ofNat (front ++ cell.encode).length := by
        rw [List.length_append, Cell.length_encode, ← length, UInt32.ofNat_add, UInt32.ofNat_toNat]
      rw [List.length_append, Cell.length_encode] at small
      dsimp only at later
      rw [position, ← List.append_assoc] at later
      obtain ⟨more, rest, rfl, count, others, rfl, total⟩ :=
        ih (by rw [List.length_append, Cell.length_encode]; omega) later
      refine ⟨cell :: more, rest, by simp, by simp [count], ?_, by simp, ?_⟩
      · exact List.forall_mem_cons.mpr ⟨fits, others⟩
      · rw [total, List.length_append, Cell.length_encode, cellsLen_cons, Nat.add_assoc]

theorem deserializeCellBlocks_sound {b : Bytes} (small : b.length < 2 ^ 32) {k n : UInt32}
    {cells : List Cell} (decoded : deserializeCellBlocks b k = .ok (.ok (cells, n))) :
    cells.length = k.toNat ∧ (∀ cell ∈ cells, cell.Fits) ∧ n.toNat = cellsLen cells ∧
      ∃ rest, b = encodeCells cells ++ rest := by
  have read : readCells ([] ++ b) k.toNat (UInt32.ofNat ([] : Bytes).length) [] =
      .ok (.ok (cells, n)) := decoded
  obtain ⟨more, rest, rfl, count, fits, rfl, total⟩ :=
    readCells_sound (by simpa using small) k.toNat read
  rw [List.length_append, length_encodeCells] at small
  refine ⟨count, fits, ?_, rest, rfl⟩
  rw [total, List.length_nil, Nat.zero_add]
  exact UInt32.toNat_ofNat_of_lt' (by change cellsLen cells < 2 ^ 32; omega)

/-- Whatever is decoded without an error is written back as exactly the bytes that were read, so
the cells determine them. -/
theorem cell_decoding_faithful (b : Bytes) (small : b.length < 2 ^ 31) (k : UInt32)
    (cells : List Cell) (n : UInt32)
    (decoded : deserializeCellBlocks b k = .ok (.ok (cells, n))) :
    n.toNat ≤ b.length ∧
      cells.foldlM (fun cbs cell => cell.append cbs) [] = .ok (b.take n.toNat) ∧
      ∀ (other : Bytes) (count read : UInt32), other.length < 2 ^ 31 →
        deserializeCellBlocks other count = .ok (.ok (cells, read)) →
        other.take read.toNat = b.take n.toNat ∧ count = k ∧ read = n := by
  obtain ⟨counted, _, length, rest, rfl⟩ := deserializeCellBlocks_sound (by omega) decoded
  have written (bytes : Bytes) :
      (encodeCells cells ++ bytes).take (cellsLen cells) = encodeCells cells :=
    List.take_left' (length_encodeCells cells)
  rw [length, written]
  refine ⟨by rw [List.length_append, length_encodeCells]; omega, ?_, ?_⟩
  · rw [foldlM_append, List.nil_append]
  · intro other count read otherSmall otherDecoded
    obtain ⟨otherCounted, _, otherLength, otherRest, rfl⟩ :=
      deserializeCellBlocks_sound (by omega) otherDecoded
    rw [otherLength, written]
    exact ⟨rfl, UInt32.toNat_inj.mp (otherCounted.symm.trans counted),
      UInt32.toNat_inj.mp (otherLength.trans length.symm)⟩

theorem cell_decoding_faithful_pair :
    cellsLen [sampleCell [97] [1], sampleCell [98] []] ≤
        (encodeCells [sampleCell [97] [1], sampleCell [98] []] ++ [5]).length ∧
      [sampleCell [97] [1], sampleCell [98] []].foldlM (fun cbs cell => cell.append cbs) [] =
        .ok ((encodeCells [sampleCell [97] [1], sampleCell [98] []] ++ [5]).take 57) :=
  have read := cell_decoding_faithful (encodeCells [sampleCell [97] [1], sampleCell [98] []] ++ [5])
    (by decide) 2 [sampleCell [97] [1], sampleCell [98] []] 57 (by decide)
  ⟨read.1, read.2.1⟩

/-! Where decoding ends with an error. -/

/-- The bytes end before the block they announce, or its key-value length does not agree with the
others, row and family being where the lengths put them. -/
def RefusedBlock (b : Bytes) : Prop :=
  b.length < 4 ∨ b.length < (kvLenOf b).toNat + 4 ∨
    (15 + (rowLenOf b).toNat + (familyLenOf b).toNat ≤ b.length ∧
      (8 + (rowKeyLenOf b).toNat + (valueLenOf b).toNat) % 2 ^ 32 ≠ (kvLenOf b).toNat)

def CutCells (count : Nat) (b : Bytes) : Prop :=
  ∃ cells rest, cells.length < count ∧ (∀ cell ∈ cells, cell.Fits) ∧
    b = encodeCells cells ++ rest ∧ RefusedBlock rest

theorem cellFromCellBlock_refuses_iff (b : Bytes) :
    (∃ err, cellFromCellBlock b = .ok (.error err)) ↔ RefusedBlock b := by
  have returned : (∃ err, cellFromCellBlock b = .ok (.error err)) ↔
      Returns (cellFromCellBlock b) (fun outcome => ∃ err, outcome = .error err) := by
    constructor
    · rintro ⟨err, failed⟩
      exact ⟨_, failed, err, rfl⟩
    · rintro ⟨_, failed, err, rfl⟩
      exact ⟨err, failed⟩
  have onError (err : String) : (∃ other, (Except.error err : Except String (Cell × UInt32)) =
      .error other) ↔ True := by simp
  have onCell (cell : Cell) : (∃ err, (Except.ok (cell, kvLenOf b + 4) :
      Except String (Cell × UInt32)) = .error err) ↔ False := by simp
  rw [returned, cellFromCellBlock_returns_iff b onError onCell]
  simp only [Announced, RefusedBlock, and_false, implies_true, true_and, imp_false]
  omega

theorem readCells_error_iff {front unread : Bytes} (small : front.length + unread.length < 2 ^ 32)
    (remaining : Nat) (acc : List Cell) :
    (∃ err, readCells (front ++ unread) remaining (UInt32.ofNat front.length) acc =
      .ok (.error err)) ↔ CutCells remaining unread := by
  induction remaining generalizing front unread acc with
  | zero =>
      constructor
      · rintro ⟨err, failed⟩
        cases failed
      · rintro ⟨cells, rest, few, _⟩
        omega
  | succ remaining ih =>
      have onward {cell : Cell} {rest : Bytes} (fits : cell.Fits)
          (front_eq : unread = cell.encode ++ rest) :
          (∃ err, readCells (front ++ unread) (remaining + 1) (UInt32.ofNat front.length) acc =
            .ok (.error err)) ↔ CutCells remaining rest := by
        subst front_eq
        rw [List.length_append, Cell.length_encode] at small
        have later : (∃ err, readCells ((front ++ cell.encode) ++ rest) remaining
            (UInt32.ofNat (front ++ cell.encode).length) (acc ++ [cell]) = .ok (.error err)) ↔
              CutCells remaining rest :=
          ih (by rw [List.length_append, Cell.length_encode]; omega) (acc ++ [cell])
        rw [← later, readCells, sliceFrom_word _ _ (by omega), ok_bind,
          cellFromCellBlock_encode cell fits, ok_bind]
        simp only [List.length_append, Cell.length_encode, List.append_assoc, UInt32.ofNat_add]
      constructor
      · rintro ⟨err, failed⟩
        have started := failed
        rw [readCells, sliceFrom_word _ _ (by omega), ok_bind] at started
        obtain ⟨outcome, read, _⟩ := (bind_ok_iff _ _ _).mp started
        obtain refused | ⟨cell, len⟩ := outcome
        · have block := (cellFromCellBlock_refuses_iff unread).mp ⟨refused, read⟩
          exact ⟨[], unread, by simp, by simp, rfl, block⟩
        · obtain ⟨_, fits, rest, split⟩ := cellFromCellBlock_sound (by omega) read
          obtain ⟨cells, bad, few, others, rfl, block⟩ := (onward fits split).mp ⟨err, failed⟩
          refine ⟨cell :: cells, bad, by simpa using few, ?_, by simp [split], block⟩
          exact List.forall_mem_cons.mpr ⟨fits, others⟩
      · rintro ⟨cells, bad, few, fits, split, block⟩
        cases cells with
        | nil =>
            obtain ⟨err, refused⟩ := (cellFromCellBlock_refuses_iff bad).mpr block
            rw [split, encodeCells_nil, List.nil_append, readCells, sliceFrom_word _ _ (by omega),
              ok_bind, refused]
            exact ⟨_, rfl⟩
        | cons cell cells =>
            rw [encodeCells_cons, List.append_assoc] at split
            refine (onward (fits cell List.mem_cons_self) split).mpr
              ⟨cells, bad, ?_, ?_, rfl, block⟩
            · simpa using few
            · exact fun other member => fits other (List.mem_cons_of_mem _ member)

theorem deserializeCellBlocks_error_iff {b : Bytes} (small : b.length < 2 ^ 32) (count : UInt32) :
    (∃ err, deserializeCellBlocks b count = .ok (.error err)) ↔ CutCells count.toNat b := by
  have start : (∃ err, readCells ([] ++ b) count.toNat (UInt32.ofNat ([] : Bytes).length) [] =
      .ok (.error err)) ↔ CutCells count.toNat b :=
    readCells_error_iff (by simpa using small) count.toNat []
  exact start

/-! The results of a scan: as many as there are flags, filled for as many counts as there are. -/

def OneResultEach (counts : List UInt32) (results : List (Option PbResult)) : Prop :=
  List.Forall₂ (fun count result => ∃ r, result = some r ∧ r.cell.length = count.toNat)
    counts results

def countSum (counts : List UInt32) : Nat := (counts.map UInt32.toNat).sum

theorem countSum_cons (count : UInt32) (counts : List UInt32) :
    countSum (count :: counts) = count.toNat + countSum counts := by
  simp [countSum]

theorem deserializeCellBlocks_enough {cells : List Cell} {count : UInt32}
    (fits : ∀ cell ∈ cells.take count.toNat, cell.Fits)
    (small : cellsLen (cells.take count.toNat) < 2 ^ 32) (enough : count.toNat ≤ cells.length) :
    deserializeCellBlocks (encodeCells cells) count =
      .ok (.ok (cells.take count.toNat, UInt32.ofNat (cellsLen (cells.take count.toNat)))) := by
  have read := deserializeCellBlocks_encodeCells (cells.take count.toNat) fits small
    (encodeCells (cells.drop count.toNat))
  rwa [← encodeCells_append, List.take_append_drop, List.length_take_of_le enough,
    UInt32.ofNat_toNat] at read

theorem deserializeCellBlocks_exhausted {cells : List Cell} {count : UInt32}
    (fits : ∀ cell ∈ cells, cell.Fits) (small : cellsLen cells < 2 ^ 32)
    (short : cells.length < count.toNat) :
    ∃ err, deserializeCellBlocks (encodeCells cells) count = .ok (.error err) := by
  apply (deserializeCellBlocks_error_iff (by rwa [length_encodeCells]) count).mpr
  exact ⟨cells, [], short, fits, (List.append_nil _).symm, .inl (by simp)⟩

section Rounds

variable {cells : List Cell} (rows : ∀ cell ∈ cells, cell.row.length < 2 ^ 16)
  (families : ∀ cell ∈ cells, cell.family.length < 2 ^ 8) {front : Bytes} {count : UInt32}
  (counts : List UInt32) (resp : ScanResponse) (filled : List (Option PbResult))

include rows families

theorem fillResults_exhausted (small : front.length + cellsLen cells < 2 ^ 32)
    (short : cells.length < count.toNat) :
    ∃ err, fillResults (front ++ encodeCells cells) resp filled.length (count :: counts)
      (UInt32.ofNat front.length) = .ok (resp, .error err) := by
  obtain ⟨⟨_, err⟩, failed⟩ := deserializeCellBlocks_exhausted
    (fits_of_total rows families (by omega)) (by omega) short
  rw [fillResults, sliceFrom_word _ _ (by omega), ok_bind, failed, ok_bind]
  exact ⟨err, rfl⟩

theorem fillResults_decoded
    (small : front.length + cellsLen (cells.take count.toNat) < 2 ^ 32)
    (enough : count.toNat ≤ cells.length) :
    fillResults (front ++ encodeCells cells) resp filled.length (count :: counts)
      (UInt32.ofNat front.length) = (do
        let flag ← index resp.partialFlagPerResult filled.length
        let _ ← index resp.results filled.length
        fillResults (front ++ encodeCells cells)
          { resp with results :=
              resp.results.set filled.length (scanResult (cells.take count.toNat) flag) }
          (filled.length + 1) counts
          (UInt32.ofNat (front.length + cellsLen (cells.take count.toNat)))) := by
  have headFits : ∀ cell ∈ cells.take count.toNat, cell.Fits :=
    fits_of_total (fun cell member => rows cell (List.mem_of_mem_take member))
      (fun cell member => families cell (List.mem_of_mem_take member)) (by omega)
  rw [fillResults, sliceFrom_word _ _ (by omega), ok_bind,
    deserializeCellBlocks_enough headFits (by omega) enough, ok_bind, UInt32.ofNat_add]
  rfl

end Rounds

theorem fillResults_complete_iff (counts done : List UInt32) (flagsLeft : Nat) (cells : List Cell)
    (rows : ∀ cell ∈ cells, cell.row.length < 2 ^ 16)
    (families : ∀ cell ∈ cells, cell.family.length < 2 ^ 8) (front : Bytes)
    (small : front.length + cellsLen (cells.take (countSum counts)) < 2 ^ 32)
    (resp : ScanResponse) (filled : List (Option PbResult))
    (flagged : resp.partialFlagPerResult.length = filled.length + flagsLeft)
    (pending : resp.results = filled ++ List.replicate flagsLeft none)
    (soFar : OneResultEach done filled) :
    Returns (fillResults (front ++ encodeCells cells) resp filled.length counts
        (UInt32.ofNat front.length))
      (fun answer => ∀ n, answer.2 = .ok n → OneResultEach (done ++ counts) answer.1.results) ↔
      counts.length = flagsLeft ∨ cells.length < countSum (counts.take (flagsLeft + 1)) := by
  -- by induction on the counts: what is filled so far answers the counts that are done
  induction counts generalizing done flagsLeft cells front resp filled with
  | nil =>
      rw [fillResults, returns_pure, List.append_nil, pending]
      have paired := soFar.length_eq
      constructor
      · intro complete
        have lengths := (complete _ rfl).length_eq
        rw [List.length_append, List.length_replicate] at lengths
        exact Or.inl (by rw [List.length_nil]; omega)
      · rintro (empty | short) n _
        · rw [← empty]
          simpa using soFar
        · simp [countSum] at short
  | cons count counts ih =>
      rw [countSum_cons] at small
      rw [List.take_succ_cons, countSum_cons]
      by_cases enough : count.toNat ≤ cells.length
      · have split : cells.take (count.toNat + countSum counts) =
            cells.take count.toNat ++ (cells.drop count.toNat).take (countSum counts) :=
          List.take_add
        rw [split, cellsLen_append] at small
        rw [fillResults_decoded rows families counts resp filled (by omega) enough]
        cases flagsLeft with
        | zero =>
            -- more counts than flags: the source reads past the end of the flags
            have missing : index resp.partialFlagPerResult filled.length =
                .error (.panic "index out of range") := by
              rw [index, List.getElem?_eq_none (by omega)]
            rw [missing, returns_bind, returns_error, false_iff, not_or]
            refine ⟨by simp, ?_⟩
            rw [List.take_zero, show countSum [] = 0 from rfl]
            omega
        | succ flagsLeft =>
            obtain ⟨flag, flagAt⟩ : ∃ flag, index resp.partialFlagPerResult filled.length =
                .ok flag := by
              rw [index, List.getElem?_eq_getElem (by omega)]
              exact ⟨_, rfl⟩
            have slotAt : index resp.results filled.length = .ok none := by
              simp [index, pending, List.replicate_succ]
            have stored : resp.results.set filled.length
                (scanResult (cells.take count.toNat) flag) =
                (filled ++ [scanResult (cells.take count.toNat) flag]) ++
                  List.replicate flagsLeft none := by
              simp [pending, List.replicate_succ]
            have filledNow : OneResultEach (done ++ [count])
                (filled ++ [scanResult (cells.take count.toNat) flag]) :=
              List.rel_append soFar
                (.cons ⟨_, rfl, List.length_take_of_le enough⟩ .nil)
            have later := ih (done ++ [count]) flagsLeft (cells.drop count.toNat)
              (fun cell member => rows cell (List.mem_of_mem_drop member))
              (fun cell member => families cell (List.mem_of_mem_drop member))
              (front ++ encodeCells (cells.take count.toNat))
              (by rw [List.length_append, length_encodeCells]; omega)
              { resp with results :=
                  resp.results.set filled.length (scanResult (cells.take count.toNat) flag) }
              (filled ++ [scanResult (cells.take count.toNat) flag])
              (by simp only [List.length_append, List.length_singleton]; omega) stored filledNow
            simp only [List.append_assoc, ← encodeCells_append, List.take_append_drop,
              List.length_append, List.length_singleton, length_encodeCells,
              List.singleton_append, List.length_drop] at later
            rw [flagAt, ok_bind, slotAt, ok_bind, later, List.length_cons]
            omega
      · have all : cells.take (count.toNat + countSum counts) = cells :=
          List.take_of_length_le (by omega)
        rw [all] at small
        obtain ⟨err, failed⟩ := fillResults_exhausted rows families counts resp filled small
          (Nat.lt_of_not_le enough)
        rw [failed, returns_ok]
        constructor
        · exact fun _ => Or.inr (by omega)
        · intro _ n impossible
          cases impossible

def ScanResponse.Decodes (scanResp : ScanResponse) (b : Bytes) : Prop :=
  Returns (Scan.deserializeCellBlocks scanResp b) fun answer =>
    ∀ n, answer.2 = .ok n → OneResultEach scanResp.cellsPerResult answer.1.results

def ScanResponse.Paired (scanResp : ScanResponse) (cells : List Cell) : Prop :=
  scanResp.cellsPerResult.length = scanResp.partialFlagPerResult.length ∨
    cells.length < countSum
      (scanResp.cellsPerResult.take (scanResp.partialFlagPerResult.length + 1))

/-- Behind 2^32 bytes of cells the decoder starts over at the first of them. -/
theorem scan_decoding_complete_iff (scanResp : ScanResponse) (cells : List Cell)
    (rows : ∀ cell ∈ cells, cell.row.length < 2 ^ 16)
    (families : ∀ cell ∈ cells, cell.family.length < 2 ^ 8) :
    (cellsLen (cells.take (countSum scanResp.cellsPerResult)) < 2 ^ 32 ∧ scanResp.Paired cells →
      scanResp.Decodes (encodeCells cells)) ∧
    (cellsLen (cells.take (countSum scanResp.cellsPerResult)) < 2 ^ 32 →
      scanResp.Decodes (encodeCells cells) → scanResp.Paired cells) := by
  have decodes_iff (small : cellsLen (cells.take (countSum scanResp.cellsPerResult)) < 2 ^ 32) :
      scanResp.Decodes (encodeCells cells) ↔ scanResp.Paired cells :=
    fillResults_complete_iff scanResp.cellsPerResult [] scanResp.partialFlagPerResult.length cells
      rows families [] (by simpa using small)
      { scanResp with results := List.replicate scanResp.partialFlagPerResult.length none } []
      (by simp) (by simp) .nil
  constructor
  · rintro ⟨small, paired⟩
    exact (decodes_iff small).mpr paired
  · intro small decodes
    exact (decodes_iff small).mp decodes

def sampleScanResponse (counts : List UInt32) (flags : List Bool) : ScanResponse :=
  ⟨counts, none, none, [], flags, none⟩

theorem scan_decoding_complete_iff_pair :
    (sampleScanResponse [1, 0] [true, false]).Decodes (encodeCells [sampleCell [97] [1]]) :=
  (scan_decoding_complete_iff (sampleScanResponse [1, 0] [true, false]) [sampleCell [97] [1]]
    (by simp [sampleCell]) (by simp [sampleCell])).1 ⟨by decide, .inl rfl⟩

/-- A count without a flag is an index out of range, and a flag without a count a nil result. -/
theorem scan_decoding_unpaired :
    Scan.deserializeCellBlocks (sampleScanResponse [1] []) (encodeCells [sampleCell [97] [1]]) =
        .error (.panic "index out of range") ∧
      Scan.deserializeCellBlocks (sampleScanResponse [] [true])
          (encodeCells [sampleCell [97] [1]]) =
        .ok ({ sampleScanResponse [] [true] with results := [none] }, .ok 0) := by
  decide

end GoHBase
