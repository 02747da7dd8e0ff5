import GoHBase.CompressorCore

/-! Decompressing what `compressCellblocks` wrote, block after block. -/

namespace GoHBase

open ByteString Runtime Buffer Capacity

/-- What a codec promises of a chunk: both directions append to what is there and report how much,
and the decoder undoes the encoder. -/
structure Codec.Faithful (codec : Codec) : Prop where
  chunked : 0 < codec.chunkLen
  roundTrip : ∀ src dst, src.length ≤ codec.chunkLen.toNat → ∃ chunk,
    (codec.encode src dst).1.bytes = dst.bytes ++ chunk ∧
    (codec.encode src dst).2.toNat = chunk.length ∧
    ∀ out, ∃ grown, codec.decode chunk out = .ok (grown, UInt32.ofNat src.length) ∧
      grown.bytes = out.bytes ++ src

variable (growth : Growth)

theorem newBuffer_ok (pooled : Slice) (size : Nat) :
    ∃ b, newBuffer growth pooled size = .ok b ∧ b.bytes.length = size := by
  by_cases small : pooled.cap < size
  · rcases resize_ok pooled 0 (Nat.zero_le _) with ⟨b, cut, _⟩
    rw [newBuffer, if_pos small, cut, ok_bind]
    apply resize_ok
    simp only [Slice.cap, Slice.append, List.length_append, zeros, List.length_replicate]
    omega
  · rw [newBuffer, if_neg small]
    exact resize_ok pooled size (by omega)

theorem growBuffer_ok (b : Slice) (sz : Nat) :
    ∃ grown gap, growBuffer growth b sz = .ok grown ∧ grown.bytes = b.bytes ++ gap ∧
      gap.length = sz := by
  by_cases fits : b.bytes.length + sz ≤ b.cap
  · rcases resize_beyond b (b.bytes.length + sz) (by omega) fits with ⟨grown, gap, ran, parts, size⟩
    refine ⟨grown, gap, ?_, parts, by omega⟩
    rw [growBuffer, if_pos fits, ran]
  · refine ⟨b.append growth (zeros sz), zeros sz, ?_, rfl, by simp [zeros]⟩
    rw [growBuffer, if_neg fits]

theorem resizeBufferCap_ok (b : Slice) (capacity : Nat) :
    ∃ resized, resizeBufferCap growth b capacity = .ok resized ∧ resized.bytes = b.bytes := by
  by_cases fits : capacity ≤ b.cap
  · exact ⟨b, if_pos fits, rfl⟩
  · rw [resizeBufferCap, if_neg fits]
    exact resize_back growth b _

theorem readN_append (front rest : Bytes) :
    readN (front ++ rest) front.length = .ok (.ok (front, rest)) := by
  have enough : ¬(front ++ rest).length < front.length := by
    rw [List.length_append]
    omega
  rw [readN_eq, if_neg enough, List.take_left' rfl, List.drop_left' rfl]

theorem readUint32_bigEndian (value : UInt32) (rest : Bytes) :
    readUint32 (bigEndian 4 value.toNat ++ rest) = .ok (.ok (value, rest)) := by
  have head := readN_append (bigEndian 4 value.toNat) rest
  rw [length_bigEndian] at head
  rw [readUint32, head]
  change Except.ok (Except.ok _) = _
  rw [word32_bigEndian]

variable {codec : Codec}

inductive Chunks (codec : Codec) : Bytes → Bytes → Prop
  | nil : Chunks codec [] []
  | cons {src chunk stream data : Bytes} {chunkLen : UInt32} (nonempty : 0 < src.length)
      (small : src.length < 2 ^ 32) (length : chunkLen.toNat = chunk.length)
      (decodes : ∀ out, ∃ grown, codec.decode chunk out = .ok (grown, UInt32.ofNat src.length) ∧
        grown.bytes = out.bytes ++ src)
      (later : Chunks codec stream data) :
      Chunks codec (bigEndian 4 chunkLen.toNat ++ chunk ++ stream) (src ++ data)

theorem compressLoop_round (faithful : codec.Faithful) (room : Nat) (cbs : List Bytes)
    (b : Slice) (nonempty : (Buffers.read cbs room).data.length ≠ 0)
    (small : (Buffers.read cbs room).data.length ≤ codec.chunkLen.toNat) :
    ∃ (stored : Slice) (chunk : Bytes) (chunkLen : UInt32),
      codec.compressLoop growth room cbs b =
        (if (Buffers.read cbs room).eof then .ok stored
          else codec.compressLoop growth room (Buffers.read cbs room).rest stored) ∧
      stored.bytes = b.bytes ++ (bigEndian 4 chunkLen.toNat ++ chunk) ∧
      ∀ stream data, Chunks codec stream data →
        Chunks codec (bigEndian 4 chunkLen.toNat ++ chunk ++ stream)
          ((Buffers.read cbs room).data ++ data) := by
  rcases growBuffer_ok growth b 4 with ⟨grown, gap, grew, parts, size⟩
  rcases faithful.roundTrip (Buffers.read cbs room).data grown small with
    ⟨chunk, appended, length, decodes⟩
  rw [parts] at appended
  rcases storeAt_gap _ b.bytes gap chunk (bigEndian 4 _) appended
    ((length_bigEndian _ _).trans size.symm) with ⟨stored, patched, written⟩
  refine ⟨stored, chunk, (codec.encode (Buffers.read cbs room).data grown).2, ?_, ?_, ?_⟩
  · rw [Codec.compressLoop, dif_neg nonempty, grew]
    change (putUint32 _ _ _ >>= _) = _
    rw [putUint32, patched, ok_bind]
  · rw [written, List.append_assoc]
  · intro stream data later
    have bound := codec.chunkLen.toNat_lt
    exact .cons (by omega) (by omega) length decodes later

theorem compressLoop_chunks (faithful : codec.Faithful) (room : Nat) (cbs : List Bytes)
    (b : Slice) (small : room ≤ codec.chunkLen.toNat)
    (positive : cbs.flatten.length = 0 ∨ 0 < room) :
    ∃ result stream, codec.compressLoop growth room cbs b = .ok result ∧
      result.bytes = b.bytes ++ stream ∧ Chunks codec stream cbs.flatten := by
  -- The induction is on the bytes that the buffers still hold.
  induction left : cbs.flatten.length using Nat.strong_induction_on generalizing cbs b with
  | _ left ih =>
    subst left
    have data := Buffers.read_data cbs room
    have rest := Buffers.read_rest cbs room
    by_cases empty : (Buffers.read cbs room).data.length = 0
    · have nothing : cbs.flatten = [] := by
        rw [data, List.length_take] at empty
        apply List.length_eq_zero_iff.mp
        omega
      refine ⟨b, [], ?_, (List.append_nil _).symm, ?_⟩
      · rw [Codec.compressLoop, dif_pos empty]
      · rw [nothing]
        exact .nil
    · have fewer : (Buffers.read cbs room).rest.flatten.length < cbs.flatten.length := by
        rw [data, List.length_take] at empty
        rw [rest, List.length_drop]
        omega
      have taken : (Buffers.read cbs room).data.length ≤ codec.chunkLen.toNat := by
        rw [data, List.length_take]
        omega
      have whole : cbs.flatten =
          (Buffers.read cbs room).data ++ (Buffers.read cbs room).rest.flatten := by
        rw [data, rest, List.take_append_drop]
      rcases compressLoop_round growth faithful room cbs b empty taken with
        ⟨stored, chunk, chunkLen, ran, written, extends_⟩
      by_cases eof : (Buffers.read cbs room).eof = true
      · have used : (Buffers.read cbs room).rest = [] := List.isEmpty_iff.mp eof
        refine ⟨stored, bigEndian 4 chunkLen.toNat ++ chunk ++ [], ?_, ?_, ?_⟩
        · rw [ran, if_pos eof]
        · rw [List.append_nil, written]
        · rw [whole, used]
          exact extends_ [] [] .nil
      · rcases ih _ fewer _ stored (by omega) rfl with
          ⟨result, stream, finished, appended, chunks⟩
        refine ⟨result, bigEndian 4 chunkLen.toNat ++ chunk ++ stream, ?_, ?_, ?_⟩
        · rw [ran, if_neg eof, finished]
        · rw [appended, written, List.append_assoc]
        · rw [whole]
          exact extends_ stream _ chunks

theorem compressCellblocks_chunks (faithful : codec.Faithful) (pool : Slice × Slice)
    (cbs : List Bytes) (small : cbs.flatten.length < 2 ^ 32) :
    ∃ result stream,
      codec.compressCellblocks growth pool cbs (UInt32.ofNat cbs.flatten.length) = .ok result ∧
      result.bytes = bigEndian 4 cbs.flatten.length ++ stream ∧
      Chunks codec stream cbs.flatten := by
  have total : (UInt32.ofNat cbs.flatten.length).toNat = cbs.flatten.length :=
    UInt32.toNat_ofNat_of_lt' small
  rcases newBuffer_ok growth pool.1 4 with ⟨b, allocated, four⟩
  rcases storeAt_gap b [] b.bytes [] (bigEndian 4 cbs.flatten.length) (by simp)
    ((length_bigEndian _ _).trans four.symm) with ⟨stored, patched, written⟩
  rcases newBuffer_ok growth pool.2
    (minUint32 (UInt32.ofNat cbs.flatten.length) codec.chunkLen) with ⟨buffer, made, room⟩
  have chunked : 0 < codec.chunkLen.toNat := UInt32.lt_iff_toNat_lt.mp faithful.chunked
  have positive : cbs.flatten.length = 0 ∨ 0 < buffer.bytes.length := by
    rw [room, minUint32]
    split
    · omega
    · omega
  have within : buffer.bytes.length ≤ codec.chunkLen.toNat := by
    rw [room, minUint32]
    split
    · rename_i less
      exact Nat.le_of_lt (UInt32.lt_iff_toNat_lt.mp less)
    · exact Nat.le_refl _
  rcases compressLoop_chunks growth faithful buffer.bytes.length cbs stored within positive with
    ⟨result, stream, ran, appended, chunks⟩
  refine ⟨result, stream, ?_, ?_, chunks⟩
  · rw [Codec.compressCellblocks, allocated, ok_bind, putUint32, total]
    rw [List.length_nil] at patched
    rw [patched, ok_bind, made, ok_bind, ran]
  · rw [appended, written]
    simp

theorem decompressBlock_round {blockLen soFar chunkLen count : UInt32} {b tail chunk rest : Bytes}
    {out grown : Slice} (more : soFar < blockLen)
    (length : readUint32 b = .ok (.ok (chunkLen, tail)))
    (body : readN tail chunkLen.toNat = .ok (.ok (chunk, rest)))
    (decoded : codec.decode chunk out = .ok (grown, count)) :
    codec.decompressBlock blockLen soFar b out =
      codec.decompressBlock blockLen (soFar + count) rest grown := by
  rw [Codec.decompressBlock, if_pos more]
  split
  · rename_i failed
    rw [length] at failed
    cases failed
  · rename_i failed
    rw [length] at failed
    cases failed
  · rename_i read
    rw [length] at read
    cases read
    split
    · rename_i failed
      rw [body] at failed
      cases failed
    · rename_i failed
      rw [body] at failed
      cases failed
    · rename_i read
      rw [body] at read
      cases read
      rw [decoded]

theorem decompressBlock_chunks {stream data : Bytes} (chunks : Chunks codec stream data)
    (uncompressedBlockLen uncompressedSoFar : UInt32) (rest : Bytes) (out : Slice)
    (left : uncompressedBlockLen.toNat = uncompressedSoFar.toNat + data.length) :
    ∃ grown, codec.decompressBlock uncompressedBlockLen uncompressedSoFar (stream ++ rest) out =
        .ok (.ok (rest, grown, uncompressedBlockLen)) ∧ grown.bytes = out.bytes ++ data := by
  induction chunks generalizing uncompressedSoFar out with
  | nil =>
      have done : uncompressedBlockLen = uncompressedSoFar := UInt32.toNat_inj.mp left
      refine ⟨out, ?_, (List.append_nil _).symm⟩
      rw [Codec.decompressBlock, if_neg (by rw [done]; exact UInt32.lt_irrefl _), done]
      rfl
  | @cons src chunk stream data chunkLen nonempty small length decodes later ih =>
      rw [List.length_append] at left
      have bound := uncompressedBlockLen.toNat_lt
      have more : uncompressedSoFar < uncompressedBlockLen := by
        rw [UInt32.lt_iff_toNat_lt]
        omega
      have added : (uncompressedSoFar + UInt32.ofNat src.length).toNat =
          uncompressedSoFar.toNat + src.length := by
        rw [UInt32.toNat_add, UInt32.toNat_ofNat_of_lt' small]
        omega
      rcases decodes out with ⟨grown, decoded, grownBytes⟩
      rcases ih (uncompressedSoFar + UInt32.ofNat src.length) grown (by omega) with
        ⟨final, ran, finalBytes⟩
      refine ⟨final, ?_, by rw [finalBytes, grownBytes, List.append_assoc]⟩
      rw [List.append_assoc, List.append_assoc]
      have body := readN_append chunk (stream ++ rest)
      rw [← length] at body
      rw [decompressBlock_round more (readUint32_bigEndian chunkLen _) body decoded, ran]

theorem decompressLoop_round {b tail rest : Bytes} {blockLen total : UInt32}
    {out resized grown : Slice} (header : readUint32 b = .ok (.ok (blockLen, tail)))
    (reserved : resizeBufferCap growth out (out.bytes.length + blockLen.toNat) = .ok resized)
    (ran : codec.decompressBlock blockLen 0 tail resized = .ok (.ok (rest, grown, total)))
    (within : ¬blockLen < total) :
    codec.decompressLoop growth b out = codec.decompressLoop growth rest grown := by
  have nonempty : b.length ≠ 0 := by
    have shorter := readUint32_shorter header
    omega
  rw [Codec.decompressLoop, if_neg nonempty]
  split
  · rename_i failed
    rw [header] at failed
    cases failed
  · rename_i failed
    rw [header] at failed
    cases failed
  · rename_i read
    rw [header] at read
    cases read
    rw [reserved, ok_bind]
    split
    · rename_i failed
      rw [ran] at failed
      cases failed
    · rename_i failed
      rw [ran] at failed
      cases failed
    · rename_i read
      rw [ran] at read
      cases read
      rw [if_neg within]

theorem decompressLoop_block {stream data : Bytes} (chunks : Chunks codec stream data)
    (small : data.length < 2 ^ 32) (rest : Bytes) (out : Slice) :
    ∃ grown, codec.decompressLoop growth (bigEndian 4 data.length ++ (stream ++ rest)) out =
        codec.decompressLoop growth rest grown ∧ grown.bytes = out.bytes ++ data := by
  have total : (UInt32.ofNat data.length).toNat = data.length := UInt32.toNat_ofNat_of_lt' small
  have header := readUint32_bigEndian (UInt32.ofNat data.length) (stream ++ rest)
  rw [total] at header
  rcases resizeBufferCap_ok growth out (out.bytes.length + (UInt32.ofNat data.length).toNat) with
    ⟨resized, reserved, kept⟩
  rcases decompressBlock_chunks chunks (UInt32.ofNat data.length) 0 rest resized
    (by rw [total]; simp) with ⟨grown, ran, grownBytes⟩
  refine ⟨grown, ?_, by rw [grownBytes, kept]⟩
  exact decompressLoop_round growth header reserved ran (UInt32.lt_irrefl _)

theorem decompressLoop_blocks (faithful : codec.Faithful)
    (blocks : List ((Slice × Slice) × List Bytes))
    (small : ∀ block ∈ blocks, block.2.flatten.length < 2 ^ 32) (out : Slice) :
    ∃ results grown,
      blocks.mapM (fun block => codec.compressCellblocks growth block.1 block.2
        (UInt32.ofNat block.2.flatten.length)) = .ok results ∧
      codec.decompressLoop growth (results.flatMap Slice.bytes) out = .ok (.ok grown) ∧
      grown.bytes = out.bytes ++ blocks.flatMap fun block => block.2.flatten := by
  induction blocks generalizing out with
  | nil =>
      refine ⟨[], out, rfl, ?_, (List.append_nil _).symm⟩
      rw [List.flatMap_nil, Codec.decompressLoop, if_pos List.length_nil]
  | cons block blocks ih =>
      have fits := small block List.mem_cons_self
      rcases compressCellblocks_chunks growth faithful block.1 block.2 fits with
        ⟨result, stream, compressed, written, chunks⟩
      -- The induction goes on with the output of this block, whatever the later blocks are.
      have later := ih fun block member => small block (List.mem_cons_of_mem _ member)
      rcases later out with ⟨results, _, ran, _, _⟩
      rcases decompressLoop_block growth chunks fits (results.flatMap Slice.bytes) out with
        ⟨grown, read, grownBytes⟩
      rcases later grown with ⟨results', final, ran', decompressed, finalBytes⟩
      obtain rfl : results = results' := Except.ok.inj (ran.symm.trans ran')
      refine ⟨result :: results, final, ?_, ?_, ?_⟩
      · rw [List.mapM_cons, compressed, ok_bind, ran]
        rfl
      · rw [List.flatMap_cons, written, List.append_assoc, read, decompressed]
      · rw [finalBytes, grownBytes, List.flatMap_cons, List.append_assoc]

/-- Blocks that were compressed one by one, each with its own buffers from the pool, are
decompressed to all their bytes in order. -/
theorem compression_round_trip (codec : Codec) (growth : Growth) (faithful : codec.Faithful)
    (blocks : List ((Slice × Slice) × List Bytes))
    (small : ∀ block ∈ blocks, block.2.flatten.length < 2 ^ 32) :
    ∃ results out,
      blocks.mapM (fun block => codec.compressCellblocks growth block.1 block.2
        (UInt32.ofNat block.2.flatten.length)) = .ok results ∧
      codec.decompressCellblocks growth (results.flatMap Slice.bytes) = .ok (.ok out) ∧
      out.bytes = blocks.flatMap fun block => block.2.flatten := by
  rcases decompressLoop_blocks growth faithful blocks small ⟨[], []⟩ with
    ⟨results, out, compressed, decompressed, bytes⟩
  exact ⟨results, out, compressed, decompressed, bytes⟩

def mockCodec : Codec where
  encode src dst := (dst.append (fun _ _ => 0) src, UInt32.ofNat src.length)
  decode src dst := .ok (dst.append (fun _ _ => 0) src, UInt32.ofNat src.length)
  chunkLen := 10

theorem mockCodec_faithful : mockCodec.Faithful := by
  refine ⟨by decide, ?_⟩
  intro src dst short
  have small : src.length < 2 ^ 32 := by
    have bound : mockCodec.chunkLen.toNat < 2 ^ 32 := mockCodec.chunkLen.toNat_lt
    omega
  refine ⟨src, rfl, UInt32.toNat_ofNat_of_lt' small, ?_⟩
  intro out
  exact ⟨_, rfl, rfl⟩

def sampleBlocks : List ((Slice × Slice) × List Bytes) :=
  [((⟨[], [7, 7, 7]⟩, ⟨[], []⟩), [[1, 2, 3, 4, 5, 6], [], [7, 8, 9, 10, 11]]),
    ((⟨[], []⟩, ⟨[], []⟩), [[]]),
    ((⟨[], []⟩, ⟨[], [9]⟩), [[1, 2, 3, 4, 5], [6, 7, 8, 9, 10]])]

theorem compression_round_trip_mock :
    ∃ results out,
      sampleBlocks.mapM (fun block => mockCodec.compressCellblocks (fun _ _ => 2) block.1 block.2
        (UInt32.ofNat block.2.flatten.length)) = .ok results ∧
      mockCodec.decompressCellblocks (fun _ _ => 2) (results.flatMap Slice.bytes) =
        .ok (.ok out) ∧
      out.bytes = [1, 2, 3, 4, 5, 6, 7, 8, 9, 10, 11, 1, 2, 3, 4, 5, 6, 7, 8, 9, 10] :=
  compression_round_trip mockCodec (fun _ _ => 2) mockCodec_faithful sampleBlocks (by decide)

end GoHBase
