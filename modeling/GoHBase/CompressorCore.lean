import GoHBase.Lib.Capacity

/-! The block stream of compressed cellblocks. `Buffers.read` is `net.Buffers.Read`;
buffers that come from the pool have arbitrary memory. -/

namespace GoHBase

open ByteString Runtime Buffer Capacity

structure Codec where
  encode : Bytes → Slice → Slice × UInt32
  decode : Bytes → Slice → Except String (Slice × UInt32)
  chunkLen : UInt32

namespace Buffers

/-- Cut `count` bytes off the front. Buffers that are used up are dropped, empty ones too. -/
def consume : Nat → List Bytes → List Bytes
  | _, [] => []
  | count, first :: rest =>
      if count < first.length then first.drop count :: rest
      else consume (count - first.length) rest

theorem length_consume_le (count : Nat) (buffers : List Bytes) :
    (consume count buffers).length ≤ buffers.length := by
  induction buffers generalizing count with
  | nil => simp [consume]
  | cons first rest ih =>
      simp only [consume]
      split
      · simp
      · have shorter := ih (count - first.length)
        simp only [List.length_cons]
        omega

def readLoop (room : Nat) (buffers : List Bytes) : Bytes × List Bytes :=
  match buffers with
  | [] => ([], [])
  | first :: rest =>
      if room = 0 then ([], first :: rest)
      else if room < first.length then
        (first.take room, consume room (first :: rest))
      else
        let next := readLoop (room - first.length) (consume first.length (first :: rest))
        (first ++ next.1, next.2)
  termination_by buffers.length
  decreasing_by
    have shorter := length_consume_le 0 rest
    simp only [consume, Nat.lt_irrefl, if_false, Nat.sub_self, List.length_cons]
    omega

structure Read where
  data : Bytes
  rest : List Bytes
  eof : Bool

def read (buffers : List Bytes) (room : Nat) : Read :=
  let (data, rest) := readLoop room buffers
  ⟨data, rest, rest.isEmpty⟩

theorem flatten_consume (count : Nat) (buffers : List Bytes) :
    (consume count buffers).flatten = buffers.flatten.drop count := by
  induction buffers generalizing count with
  | nil => simp [consume]
  | cons first rest ih =>
      simp only [consume, List.flatten_cons]
      split
      · rename_i short
        rw [List.flatten_cons, List.drop_append_of_le_length (by omega)]
      · rename_i long
        have gone : first.drop count = [] := List.drop_of_length_le (by omega)
        rw [ih, List.drop_append, gone, List.nil_append]

theorem readLoop_flatten (room : Nat) (buffers : List Bytes) :
    (readLoop room buffers).1 = buffers.flatten.take room ∧
      (readLoop room buffers).2.flatten = buffers.flatten.drop room := by
  fun_induction readLoop room buffers with
  | case1 => simp
  | case2 => simp_all
  | case3 room first rest nonempty short =>
      rw [flatten_consume, List.flatten_cons]
      exact ⟨(List.take_append_of_le_length (by omega)).symm, rfl⟩
  | case4 room first rest nonempty long next ih =>
      simp only [flatten_consume, List.flatten_cons, List.drop_left' rfl] at ih
      rw [List.flatten_cons, List.take_append, List.take_of_length_le (by omega),
        List.drop_append, List.drop_of_length_le (by omega), List.nil_append]
      exact ⟨by rw [ih.1], ih.2⟩

theorem read_data (buffers : List Bytes) (room : Nat) :
    (read buffers room).data = buffers.flatten.take room :=
  (readLoop_flatten room buffers).1

theorem read_rest (buffers : List Bytes) (room : Nat) :
    (read buffers room).rest.flatten = buffers.flatten.drop room :=
  (readLoop_flatten room buffers).2

end Buffers

variable (growth : Growth)

/-- A buffer of the pool has length 0 there; its capacity and its memory are arbitrary. -/
def newBuffer (pooled : Slice) (size : Nat) : Go Slice :=
  if pooled.cap < size then do
    let b ← pooled.resize 0
    (b.append growth (zeros size)).resize size
  else pooled.resize size

/-- The function `min` of the source. -/
def minUint32 (x y : UInt32) : Nat := if x < y then x.toNat else y.toNat

def growBuffer (b : Slice) (sz : Nat) : Go Slice :=
  let l := b.bytes.length + sz
  if l ≤ b.cap then b.resize l else .ok (b.append growth (zeros sz))

def resizeBufferCap (b : Slice) (capacity : Nat) : Go Slice :=
  if capacity ≤ b.cap then .ok b
  else (b.append growth (zeros (capacity - b.bytes.length))).resize b.bytes.length

def putUint32 (b : Slice) (offset : Nat) (value : UInt32) : Go Slice :=
  b.storeAt offset (bigEndian 4 value.toNat)

namespace Codec

variable (codec : Codec)

def compressLoop (room : Nat) (cbs : List Bytes) (b : Slice) : Go Slice :=
  let n := Buffers.read cbs room
  if _empty : n.data.length = 0 then .ok b
  else do
    let lenOffset := b.bytes.length
    let b ← growBuffer growth b 4
    let (b, chunkLen) := codec.encode n.data b
    let b ← putUint32 b lenOffset chunkLen
    if n.eof then .ok b else compressLoop room n.rest b
  termination_by cbs.flatten.length
  decreasing_by
    have nonempty : (Buffers.read cbs room).data.length ≠ 0 := _empty
    rw [Buffers.read_data, List.length_take] at nonempty
    rw [Buffers.read_rest, List.length_drop]
    omega

def compressCellblocks (pool : Slice × Slice) (cbs : List Bytes) (uncompressedLen : UInt32) :
    Go Slice := do
  let b ← newBuffer growth pool.1 4
  let b ← putUint32 b 0 uncompressedLen
  let uncompressedBuffer ← newBuffer growth pool.2 (minUint32 uncompressedLen codec.chunkLen)
  codec.compressLoop growth uncompressedBuffer.bytes.length cbs b

end Codec

def readN (b : Bytes) (n : Nat) : Go (Except String (Bytes × Bytes)) :=
  if b.length < n then pure (.error s!"short read: want {n} bytes, got {b.length}")
  else do
    let head ← sliceTo b n
    let tail ← sliceFrom b n
    pure (.ok (head, tail))

def readUint32 (b : Bytes) : Go (Except String (UInt32 × Bytes)) := do
  match ← readN b 4 with
  | .error err => pure (.error err)
  | .ok (head, tail) => pure (.ok (UInt32.ofNat (fromBigEndian head), tail))

theorem readN_eq (b : Bytes) (n : Nat) :
    readN b n = .ok (if b.length < n then .error s!"short read: want {n} bytes, got {b.length}"
      else .ok (b.take n, b.drop n)) := by
  rw [readN]
  split
  · rfl
  · rename_i enough
    have inside : n ≤ b.length := Nat.le_of_not_lt enough
    rw [sliceTo, sliceFrom, if_pos inside, if_pos inside]
    rfl

theorem readN_join {b chunk rest : Bytes} {n : Nat} (read : readN b n = .ok (.ok (chunk, rest))) :
    b = chunk ++ rest ∧ chunk.length = n := by
  rw [readN_eq] at read
  split at read
  · cases read
  · rename_i enough
    cases read
    exact ⟨(List.take_append_drop _ _).symm, List.length_take_of_le (Nat.le_of_not_lt enough)⟩

theorem readUint32_join {b rest : Bytes} {value : UInt32}
    (read : readUint32 b = .ok (.ok (value, rest))) : b = bigEndian 4 value.toNat ++ rest := by
  obtain ⟨outcome, header, read⟩ := (bind_ok_iff _ _ _).mp read
  cases outcome with
  | error err => cases read
  | ok parts =>
      cases read
      obtain ⟨join, size⟩ := readN_join header
      rw [word32_read size, join]

theorem readUint32_shorter {b tail : Bytes} {value : UInt32}
    (found : readUint32 b = .ok (.ok (value, tail))) : tail.length < b.length := by
  rw [readUint32_join found, List.length_append, length_bigEndian]
  omega

theorem readN_shorter {b chunk tail : Bytes} {n : Nat}
    (found : readN b n = .ok (.ok (chunk, tail))) : tail.length ≤ b.length := by
  rw [(readN_join found).1, List.length_append]
  omega

namespace Codec

variable (codec : Codec)

/-- The inner loop of `decompressCellblocks`: the rest of the input, the output and
`uncompressedSoFar`. -/
def decompressBlock (uncompressedBlockLen uncompressedSoFar : UInt32) (b : Bytes) (out : Slice) :
    Go (Except String (Bytes × Slice × UInt32)) :=
  if uncompressedSoFar < uncompressedBlockLen then
    match _lengthRead : readUint32 b with
    | .error abort => .error abort
    | .ok (.error err) =>
        .ok (.error ("failed to read compressed chunk block length: " ++ err))
    | .ok (.ok (compressedChunkLen, tail)) =>
        match _chunkRead : readN tail compressedChunkLen.toNat with
        | .error abort => .error abort
        | .ok (.error err) => .ok (.error ("failed to read compressed chunk: " ++ err))
        | .ok (.ok (compressedChunk, rest)) =>
            match codec.decode compressedChunk out with
            | .error err => .ok (.error ("failed to decode compressed chunk: " ++ err))
            | .ok (out, uncompressedChunkLen) =>
                decompressBlock uncompressedBlockLen
                  (uncompressedSoFar + uncompressedChunkLen) rest out
  else .ok (.ok (b, out, uncompressedSoFar))
  termination_by b.length
  decreasing_by
    have first := readUint32_shorter _lengthRead
    have second := readN_shorter _chunkRead
    omega

theorem decompressBlock_shorter (uncompressedBlockLen uncompressedSoFar : UInt32) (b : Bytes)
    (out : Slice) {rest : Bytes} {out' : Slice} {total : UInt32}
    (found : codec.decompressBlock uncompressedBlockLen uncompressedSoFar b out =
      .ok (.ok (rest, out', total))) : rest.length ≤ b.length := by
  fun_induction codec.decompressBlock uncompressedBlockLen uncompressedSoFar b out with
  | case1 => cases found
  | case2 => cases found
  | case3 => cases found
  | case4 => cases found
  | case5 => cases found
  | case6 soFar b out more chunkLen tail lengthRead chunk rest' chunkRead out'' len decoded ih =>
      have first := readUint32_shorter lengthRead
      have second := readN_shorter chunkRead
      have later := ih found
      omega
  | case7 => cases found; exact le_rfl

def tooMuch (expected got : UInt32) : String :=
  s!"uncompressed more than expected: expected {expected}, got {got} so far"

def decompressLoop (b : Bytes) (out : Slice) : Go (Except String Slice) :=
  if b.length = 0 then .ok (.ok out)
  else
    match _lengthRead : readUint32 b with
    | .error abort => .error abort
    | .ok (.error err) => .ok (.error ("failed to read uncompressed block length: " ++ err))
    | .ok (.ok (uncompressedBlockLen, tail)) => do
        let out ← resizeBufferCap growth out (out.bytes.length + uncompressedBlockLen.toNat)
        match _blockRead : codec.decompressBlock uncompressedBlockLen 0 tail out with
        | .error abort => .error abort
        | .ok (.error err) => .ok (.error err)
        | .ok (.ok (rest, out, uncompressedSoFar)) =>
            if uncompressedBlockLen < uncompressedSoFar then
              .ok (.error (tooMuch uncompressedBlockLen uncompressedSoFar))
            else decompressLoop rest out
  termination_by b.length
  decreasing_by
    have first := readUint32_shorter _lengthRead
    have second := codec.decompressBlock_shorter _ _ _ _ _blockRead
    omega

def decompressCellblocks (b : Bytes) : Go (Except String Slice) :=
  codec.decompressLoop growth b ⟨[], []⟩

end Codec

end GoHBase
