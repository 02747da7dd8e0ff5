import GoHBase.Lib.ByteString
import GoHBase.Lib.Runtime

/-! Byte buffers without spare capacity: bounds-checked slicing, big-endian
words, and writes at running offsets into a zeroed tail. -/

namespace Buffer

open ByteString Runtime

def outOfRange : Abort := .panic "slice bounds out of range"

def sliceFrom {α : Type} (buffer : List α) (low : Nat) : Go (List α) :=
  if low ≤ buffer.length then .ok (buffer.drop low) else .error outOfRange

def sliceTo {α : Type} (buffer : List α) (high : Nat) : Go (List α) :=
  if high ≤ buffer.length then .ok (buffer.take high) else .error outOfRange

def slice {α : Type} (buffer : List α) (low high : Nat) : Go (List α) :=
  if low ≤ high ∧ high ≤ buffer.length then .ok ((buffer.take high).drop low)
  else .error outOfRange

def index {α : Type} (buffer : List α) (position : Nat) : Go α :=
  match buffer[position]? with
  | some item => .ok item
  | none => .error (.panic "index out of range")

theorem index_front {α : Type} (item : α) (rest : List α) : index ([item] ++ rest) 0 = .ok item :=
  rfl

theorem sliceFrom_append {α : Type} (front rest : List α) (low : Nat)
    (size : front.length = low) : sliceFrom (front ++ rest) low = .ok rest := by
  subst size
  simp [sliceFrom]

theorem sliceTo_append {α : Type} (front rest : List α) (high : Nat)
    (size : front.length = high) : sliceTo (front ++ rest) high = .ok front := by
  subst size
  simp [sliceTo]

theorem slice_front {α : Type} (front rest : List α) (high : Nat) (size : front.length = high) :
    slice (front ++ rest) 0 high = .ok front := by
  subst size
  simp [slice]

theorem slice_skip {α : Type} (front rest : List α) (low high : Nat)
    (past : front.length ≤ low) (ordered : low ≤ high) :
    slice (front ++ rest) low high = slice rest (low - front.length) (high - front.length) := by
  have taken : (front ++ rest).take high = front ++ rest.take (high - front.length) := by
    rw [List.take_append, List.take_of_length_le (by omega)]
  have dropped : (front ++ rest.take (high - front.length)).drop low =
      (rest.take (high - front.length)).drop (low - front.length) := by
    rw [List.drop_append, List.drop_of_length_le past, List.nil_append]
  have bounds : low ≤ high ∧ high ≤ (front ++ rest).length ↔
      low - front.length ≤ high - front.length ∧ high - front.length ≤ rest.length := by
    rw [List.length_append]
    omega
  simp only [slice, bounds, taken, dropped]

section Words

def bigEndian : Nat → Nat → Bytes
  | 0, _ => []
  | width + 1, value => UInt8.ofNat (value / 256 ^ width) :: bigEndian width value

def fromBigEndian (bytes : Bytes) : Nat :=
  bytes.foldl (fun value byte => value * 256 + byte.toNat) 0

@[simp]
theorem length_bigEndian (width value : Nat) : (bigEndian width value).length = width := by
  induction width with
  | zero => rfl
  | succ width ih => simp [bigEndian, ih]

theorem foldl_bigEndian (width value start : Nat) :
    (bigEndian width value).foldl (fun value byte => value * 256 + byte.toNat) start =
      start * 256 ^ width + value % 256 ^ width := by
  induction width generalizing start with
  | zero => simp [bigEndian, Nat.mod_one]
  | succ width ih =>
      have digit : value % 256 ^ (width + 1) =
          256 ^ width * (value / 256 ^ width % 256) + value % 256 ^ width := by
        rw [pow_succ, Nat.mod_mul, Nat.add_comm]
      rw [bigEndian, List.foldl_cons, ih, digit, UInt8.toNat_ofNat']
      ring

theorem fromBigEndian_bigEndian (width value : Nat) (bound : value < 256 ^ width) :
    fromBigEndian (bigEndian width value) = value := by
  rw [fromBigEndian, foldl_bigEndian, Nat.mod_eq_of_lt bound]
  omega

theorem foldl_word (bytes : Bytes) (start : Nat) :
    bytes.foldl (fun value byte => value * 256 + byte.toNat) start =
      start * 256 ^ bytes.length + fromBigEndian bytes := by
  induction bytes generalizing start with
  | nil => simp [fromBigEndian]
  | cons byte bytes ih =>
      rw [fromBigEndian, List.foldl_cons, List.foldl_cons, ih, ih (0 * 256 + byte.toNat),
        List.length_cons]
      ring

theorem fromBigEndian_cons (byte : UInt8) (bytes : Bytes) :
    fromBigEndian (byte :: bytes) = byte.toNat * 256 ^ bytes.length + fromBigEndian bytes := by
  rw [fromBigEndian, List.foldl_cons, foldl_word]
  ring

theorem fromBigEndian_lt (bytes : Bytes) : fromBigEndian bytes < 256 ^ bytes.length := by
  induction bytes with
  | nil => simp [fromBigEndian]
  | cons byte bytes ih =>
      have digit : byte.toNat + 1 ≤ 256 := byte.toNat_lt
      have scaled := Nat.mul_le_mul_right (256 ^ bytes.length) digit
      rw [fromBigEndian_cons, List.length_cons, pow_succ]
      linarith

theorem bigEndian_add_mul (width value multiple : Nat) :
    bigEndian width (multiple * 256 ^ width + value) = bigEndian width value := by
  induction width generalizing multiple with
  | zero => rfl
  | succ width ih =>
      have split : multiple * 256 ^ (width + 1) + value = multiple * 256 * 256 ^ width + value := by
        ring
      have digit : (multiple * 256 * 256 ^ width + value) / 256 ^ width =
          multiple * 256 + value / 256 ^ width := by
        rw [Nat.mul_comm (multiple * 256), Nat.mul_add_div (by positivity)]
      rw [split, bigEndian, bigEndian, ih, digit]
      congr 1
      apply UInt8.toNat_inj.mp
      rw [UInt8.toNat_ofNat', UInt8.toNat_ofNat']
      omega

theorem bigEndian_fromBigEndian (bytes : Bytes) (width : Nat) (size : bytes.length = width) :
    bigEndian width (fromBigEndian bytes) = bytes := by
  subst size
  induction bytes with
  | nil => rfl
  | cons byte bytes ih =>
      have positive : 0 < 256 ^ bytes.length := by positivity
      have digit : (byte.toNat * 256 ^ bytes.length + fromBigEndian bytes) / 256 ^ bytes.length =
          byte.toNat := by
        rw [Nat.mul_comm, Nat.mul_add_div positive, Nat.div_eq_of_lt (fromBigEndian_lt bytes),
          Nat.add_zero]
      rw [fromBigEndian_cons, List.length_cons, bigEndian, digit, bigEndian_add_mul, ih,
        UInt8.ofNat_toNat]

@[simp]
theorem word16_bigEndian (value : UInt16) :
    UInt16.ofNat (fromBigEndian (bigEndian 2 value.toNat)) = value := by
  rw [fromBigEndian_bigEndian 2 value.toNat value.toNat_lt, UInt16.ofNat_toNat]

@[simp]
theorem word32_bigEndian (value : UInt32) :
    UInt32.ofNat (fromBigEndian (bigEndian 4 value.toNat)) = value := by
  rw [fromBigEndian_bigEndian 4 value.toNat value.toNat_lt, UInt32.ofNat_toNat]

@[simp]
theorem word64_bigEndian (value : UInt64) :
    UInt64.ofNat (fromBigEndian (bigEndian 8 value.toNat)) = value := by
  rw [fromBigEndian_bigEndian 8 value.toNat value.toNat_lt, UInt64.ofNat_toNat]

theorem word32_read {bytes : Bytes} (size : bytes.length = 4) :
    bigEndian 4 (UInt32.ofNat (fromBigEndian bytes)).toNat = bytes := by
  have bound := fromBigEndian_lt bytes
  rw [size] at bound
  rw [UInt32.toNat_ofNat_of_lt' bound, bigEndian_fromBigEndian bytes 4 size]

theorem word16_read {bytes : Bytes} (size : bytes.length = 2) :
    bigEndian 2 (UInt16.ofNat (fromBigEndian bytes)).toNat = bytes := by
  have bound := fromBigEndian_lt bytes
  rw [size] at bound
  rw [UInt16.toNat_ofNat_of_lt' bound, bigEndian_fromBigEndian bytes 2 size]

theorem word64_read {bytes : Bytes} (size : bytes.length = 8) :
    bigEndian 8 (UInt64.ofNat (fromBigEndian bytes)).toNat = bytes := by
  have bound := fromBigEndian_lt bytes
  rw [size] at bound
  rw [UInt64.toNat_ofNat_of_lt' bound, bigEndian_fromBigEndian bytes 8 size]

end Words

section Writes

def storeAt (buffer : Bytes) (offset : Nat) (data : Bytes) : Go Bytes :=
  if offset + data.length ≤ buffer.length then
    .ok (buffer.take offset ++ data ++ buffer.drop (offset + data.length))
  else .error outOfRange

/-- As the built-in `copy`: what does not fit is left out. -/
def copyAt (buffer : Bytes) (offset : Nat) (data : Bytes) : Go (Bytes × Nat) := do
  let room ← sliceFrom buffer offset
  let written := data.take room.length
  let stored ← storeAt buffer offset written
  pure (stored, written.length)

def zeros (count : Nat) : Bytes := List.replicate count 0

theorem storeAt_zeros (front data : Bytes) (offset room : Nat) (size : front.length = offset)
    (fits : data.length ≤ room) :
    storeAt (front ++ zeros room) offset data =
      .ok (front ++ data ++ zeros (room - data.length)) := by
  subst size
  have tail : (front ++ zeros room).drop (front.length + data.length) =
      zeros (room - data.length) := by
    rw [← List.drop_drop, List.drop_left' rfl, zeros, List.drop_replicate]
    rfl
  rw [storeAt, if_pos (by simp only [List.length_append, zeros, List.length_replicate]; omega),
    tail, List.take_left' rfl]

theorem copyAt_zeros (front data : Bytes) (offset room : Nat) (size : front.length = offset)
    (fits : data.length ≤ room) :
    copyAt (front ++ zeros room) offset data =
      .ok (front ++ data ++ zeros (room - data.length), data.length) := by
  have whole : data.take (zeros room).length = data :=
    List.take_of_length_le (by simpa [zeros] using fits)
  simp only [copyAt, sliceFrom_append front (zeros room) offset size, ok_bind, whole,
    storeAt_zeros front data offset room size fits]
  rfl

end Writes

end Buffer
