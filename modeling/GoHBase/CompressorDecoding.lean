import GoHBase.Lib.Returns
import GoHBase.CompressorRoundTrip

/-! Which byte strings `decompressCellblocks` accepts, whoever wrote them, and
what it makes of them. -/

namespace GoHBase

open ByteString Runtime Buffer Capacity

def Codec.Appends (codec : Codec) (plain : Bytes → Option Bytes) : Prop :=
  ∀ chunk out, match plain chunk with
    | none => ∃ err, codec.decode chunk out = .error err
    | some data => ∃ grown, codec.decode chunk out = .ok (grown, UInt32.ofNat data.length) ∧
        grown.bytes = out.bytes ++ data

def frameChunks (chunks : List Bytes) : Bytes :=
  chunks.flatMap fun chunk => bigEndian 4 chunk.length ++ chunk

structure Chunked (plain : Bytes → Option Bytes) (missing : Nat) (chunks datas : List Bytes) :
    Prop where
  sized : ∀ chunk ∈ chunks, chunk.length < 2 ^ 32
  decoded : List.Forall₂ (fun chunk data => plain chunk = some data) chunks datas
  shortest : ∀ front, front <+: datas → front ≠ datas → front.flatten.length < missing

inductive Blocks (plain : Bytes → Option Bytes) : Bytes → Bytes → Prop
  | nil : Blocks plain [] []
  | cons {blockLen : UInt32} {chunks datas : List Bytes} {stream data : Bytes}
      (chunked : Chunked plain blockLen.toNat chunks datas)
      (exact : datas.flatten.length = blockLen.toNat) (later : Blocks plain stream data) :
      Blocks plain (bigEndian 4 blockLen.toNat ++ (frameChunks chunks ++ stream))
        (datas.flatten ++ data)

/-- The number of bytes decoded by the time some chunk of `b` has been: whole blocks first, then
chunks of the next one. -/
def DecodedLen (plain : Bytes → Option Bytes) (b : Bytes) (len : Nat) : Prop :=
  ∃ front data, ∃ (blockLen : UInt32), ∃ chunks datas rest,
    b = front ++ (bigEndian 4 blockLen.toNat ++ (frameChunks chunks ++ rest)) ∧
    Blocks plain front data ∧ Chunked plain blockLen.toNat chunks datas ∧
    len = data.length + datas.flatten.length

@[simp]
theorem frameChunks_nil : frameChunks [] = [] := rfl

@[simp]
theorem frameChunks_cons (chunk : Bytes) (chunks : List Bytes) :
    frameChunks (chunk :: chunks) = bigEndian 4 chunk.length ++ (chunk ++ frameChunks chunks) := by
  simp [frameChunks]

variable {plain : Bytes → Option Bytes} {codec : Codec}

theorem Chunked.nil (missing : Nat) : Chunked plain missing [] [] := by
  refine ⟨nofun, .nil, ?_⟩
  intro front before proper
  exact absurd (List.prefix_nil.mp before) proper

theorem chunked_cons_iff {missing : Nat} {chunk data : Bytes} {chunks datas : List Bytes} :
    Chunked plain missing (chunk :: chunks) (data :: datas) ↔
      0 < missing ∧ chunk.length < 2 ^ 32 ∧ plain chunk = some data ∧
        Chunked plain (missing - data.length) chunks datas := by
  constructor
  · rintro ⟨sized, decoded, shortest⟩
    obtain ⟨first, later⟩ := List.forall₂_cons.mp decoded
    refine ⟨shortest [] List.nil_prefix (List.cons_ne_nil _ _).symm, sized chunk List.mem_cons_self,
      first, fun chunk member => sized chunk (List.mem_cons_of_mem _ member), later, ?_⟩
    intro front before proper
    have bound := shortest (data :: front) ((List.prefix_cons_inj data).mpr before)
      (by simpa using proper)
    rw [List.flatten_cons, List.length_append] at bound
    omega
  · rintro ⟨positive, fits, first, sized, decoded, shortest⟩
    refine ⟨List.forall_mem_cons.mpr ⟨fits, sized⟩, .cons first decoded, ?_⟩
    intro front before proper
    cases front with
    | nil => exact positive
    | cons head tail =>
        obtain ⟨rfl, inside⟩ := List.cons_prefix_cons.mp before
        have bound := shortest tail inside (by simpa using proper)
        rw [List.flatten_cons, List.length_append]
        omega

theorem decompressBlock_done {blockLen soFar : UInt32} (b : Bytes) (out : Slice)
    (reached : ¬soFar < blockLen) :
    codec.decompressBlock blockLen soFar b out = .ok (.ok (b, out, soFar)) := by
  rw [Codec.decompressBlock, if_neg reached]

/-- Chunks that lie in the stream are decoded, up to where they reach the length of the block. -/
theorem decompressBlock_complete (appends : codec.Appends plain) (blockLen soFar : UInt32)
    {chunks datas : List Bytes}
    (chunked : Chunked plain (blockLen.toNat - soFar.toNat) chunks datas)
    (exact : soFar.toNat + datas.flatten.length = blockLen.toNat) (rest : Bytes) (out : Slice) :
    ∃ grown, codec.decompressBlock blockLen soFar (frameChunks chunks ++ rest) out =
      .ok (.ok (rest, grown, blockLen)) ∧ grown.bytes = out.bytes ++ datas.flatten := by
  induction chunks generalizing datas soFar out with
  | nil =>
      obtain rfl := List.forall₂_nil_left_iff.mp chunked.decoded
      have same : soFar = blockLen := UInt32.toNat_inj.mp (by simpa using exact)
      refine ⟨out, ?_, by simp⟩
      rw [same, decompressBlock_done _ _ (UInt32.lt_irrefl _)]
      rfl
  | cons chunk chunks ih =>
      obtain ⟨data, later, _, _, rfl⟩ := List.forall₂_cons_left_iff.mp chunked.decoded
      obtain ⟨positive, sized, first, more⟩ := chunked_cons_iff.mp chunked
      rw [List.flatten_cons, List.length_append] at exact
      have bound := blockLen.toNat_lt
      have added : (soFar + UInt32.ofNat data.length).toNat = soFar.toNat + data.length := by
        rw [UInt32.toNat_add, UInt32.toNat_ofNat_of_lt' (by change _ < 2 ^ 32; omega)]
        omega
      have decodes := appends chunk out
      rw [first] at decodes
      obtain ⟨next, ran, appended⟩ := decodes
      have length : (UInt32.ofNat chunk.length).toNat = chunk.length :=
        UInt32.toNat_ofNat_of_lt' sized
      have header := readUint32_bigEndian (UInt32.ofNat chunk.length)
        (chunk ++ (frameChunks chunks ++ rest))
      have body := readN_append chunk (frameChunks chunks ++ rest)
      rw [← length] at body
      rw [length] at header
      rw [Nat.sub_sub, ← added] at more
      obtain ⟨grown, finished, bytes⟩ := ih _ more (by omega) next
      refine ⟨grown, ?_, by rw [bytes, appended, List.flatten_cons, List.append_assoc]⟩
      rw [frameChunks_cons, List.append_assoc, List.append_assoc,
        decompressBlock_round (UInt32.lt_iff_toNat_lt.mpr (by omega)) header body ran, finished]

/-- What the inner loop returns was decoded from chunks, and the last of them reached the length
of the block. -/
theorem decompressBlock_sound (appends : codec.Appends plain) (blockLen soFar : UInt32) (b : Bytes)
    (out : Slice) {rest : Bytes} {grown : Slice} {total : UInt32}
    (bounded : ∀ chunks datas rest, b = frameChunks chunks ++ rest →
      Chunked plain (blockLen.toNat - soFar.toNat) chunks datas →
      soFar.toNat + datas.flatten.length < 2 ^ 32)
    (ran : codec.decompressBlock blockLen soFar b out = .ok (.ok (rest, grown, total))) :
    ∃ chunks datas, b = frameChunks chunks ++ rest ∧
      Chunked plain (blockLen.toNat - soFar.toNat) chunks datas ∧
      total.toNat = soFar.toNat + datas.flatten.length ∧ ¬total < blockLen ∧
      grown.bytes = out.bytes ++ datas.flatten := by
  fun_induction codec.decompressBlock blockLen soFar b out with
  | case1 => cases ran
  | case2 => cases ran
  | case3 => cases ran
  | case4 => cases ran
  | case5 => cases ran
  | case6 soFar b out more chunkLen tail lengthRead chunk after chunkRead next len decoded ih =>
      obtain ⟨join, size⟩ := readN_join chunkRead
      have whole : b = bigEndian 4 chunk.length ++ (chunk ++ after) := by
        rw [readUint32_join lengthRead, join, size]
      have decodes := appends chunk out
      cases found : plain chunk with
      | none =>
          rw [found] at decodes
          obtain ⟨err, failed⟩ := decodes
          rw [failed] at decoded
          cases decoded
      | some data =>
          rw [found] at decodes
          obtain ⟨appended, ok, bytes⟩ := decodes
          rw [ok] at decoded
          cases decoded
          have missing := UInt32.lt_iff_toNat_lt.mp more
          have sized : chunk.length < 2 ^ 32 := by
            rw [size]
            exact chunkLen.toNat_lt
          have small := bounded [chunk] [data] after (by rw [whole]; simp)
            (chunked_cons_iff.mpr ⟨by omega, sized, found, .nil _⟩)
          simp only [List.flatten_cons, List.flatten_nil, List.append_nil] at small
          have added : (soFar + UInt32.ofNat data.length).toNat = soFar.toNat + data.length := by
            rw [UInt32.toNat_add, UInt32.toNat_ofNat_of_lt' (by change _ < 2 ^ 32; omega)]
            omega
          rw [added, ← Nat.sub_sub] at ih
          have one {chunks datas} (chunked : Chunked plain
              (blockLen.toNat - soFar.toNat - data.length) chunks datas) :=
            chunked_cons_iff.mpr ⟨by omega, sized, found, chunked⟩
          obtain ⟨chunks, datas, behind, chunked, totalEq, reached, grownBytes⟩ := ih (by
            intro chunks datas rest inside chunked
            have bound := bounded (chunk :: chunks) (data :: datas) rest
              (by rw [whole, inside]; simp) (one chunked)
            rw [List.flatten_cons, List.length_append] at bound
            omega) ran
          refine ⟨chunk :: chunks, data :: datas, by rw [whole, behind]; simp, one chunked, ?_,
            reached, ?_⟩
          · rw [totalEq, List.flatten_cons, List.length_append]
            omega
          · rw [grownBytes, bytes, List.flatten_cons, List.append_assoc]
  | case7 soFar b out reached =>
      cases ran
      exact ⟨[], [], rfl, .nil _, rfl, reached, by simp⟩

variable (growth : Growth)

theorem decompressLoop_complete (appends : codec.Appends plain) {b data : Bytes}
    (blocks : Blocks plain b data) (out : Slice) :
    ∃ grown, codec.decompressLoop growth b out = .ok (.ok grown) ∧
      grown.bytes = out.bytes ++ data := by
  induction blocks generalizing out with
  | nil =>
      refine ⟨out, ?_, (List.append_nil _).symm⟩
      rw [Codec.decompressLoop, if_pos List.length_nil]
  | @cons blockLen chunks datas stream data chunked exact _ ih =>
      obtain ⟨resized, reserved, kept⟩ :=
        resizeBufferCap_ok growth out (out.bytes.length + blockLen.toNat)
      obtain ⟨next, ran, nextBytes⟩ := decompressBlock_complete appends blockLen 0
        (by simpa using chunked) (by simpa using exact) stream resized
      obtain ⟨grown, finished, bytes⟩ := ih next
      refine ⟨grown, ?_, by rw [bytes, nextBytes, kept, List.append_assoc]⟩
      rw [decompressLoop_round growth (readUint32_bigEndian blockLen _) reserved ran
        (UInt32.lt_irrefl _), finished]

theorem Blocks.append {front data stream more : Bytes} (blocks : Blocks plain front data)
    (later : Blocks plain stream more) : Blocks plain (front ++ stream) (data ++ more) := by
  induction blocks with
  | nil => exact later
  | cons chunked exact _ ih =>
      simp only [List.append_assoc]
      exact .cons chunked exact ih

theorem DecodedLen.after {front data b : Bytes} {len : Nat} (blocks : Blocks plain front data)
    (decoded : DecodedLen plain b len) : DecodedLen plain (front ++ b) (data.length + len) := by
  obtain ⟨done, out, blockLen, chunks, datas, rest, rfl, before, chunked, rfl⟩ := decoded
  refine ⟨front ++ done, data ++ out, blockLen, chunks, datas, rest, ?_, blocks.append before,
    chunked, ?_⟩
  · rw [List.append_assoc]
  · rw [List.length_append, Nat.add_assoc]

theorem readUint32_returns (b : Bytes) : ∃ outcome, readUint32 b = .ok outcome := by
  rw [readUint32, readN_eq, ok_bind]
  split
  · exact ⟨_, rfl⟩
  · exact ⟨_, rfl⟩

theorem decompressBlock_returns (blockLen soFar : UInt32) (b : Bytes) (out : Slice) :
    ∃ outcome, codec.decompressBlock blockLen soFar b out = .ok outcome := by
  fun_induction codec.decompressBlock blockLen soFar b out with
  | case1 soFar b out more abort failed =>
      obtain ⟨outcome, read⟩ := readUint32_returns b
      rw [read] at failed
      cases failed
  | case3 soFar b out more chunkLen tail lengthRead abort failed =>
      rw [readN_eq] at failed
      cases failed
  | case6 soFar b out more chunkLen tail lengthRead chunk after chunkRead next len decoded ih =>
      exact ih
  | _ => exact ⟨_, rfl⟩

theorem decompressLoop_cases {b : Bytes} (out : Slice) (nonempty : b.length ≠ 0) :
    (∃ err, codec.decompressLoop growth b out = .ok (.error err)) ∨
      ∃ blockLen tail resized rest grown total, readUint32 b = .ok (.ok (blockLen, tail)) ∧
        resizeBufferCap growth out (out.bytes.length + blockLen.toNat) = .ok resized ∧
        resized.bytes = out.bytes ∧
        codec.decompressBlock blockLen 0 tail resized = .ok (.ok (rest, grown, total)) ∧
        ¬blockLen < total := by
  rw [Codec.decompressLoop, if_neg nonempty]
  split
  · rename_i abort failed
    obtain ⟨outcome, read⟩ := readUint32_returns b
    rw [read] at failed
    cases failed
  · exact Or.inl ⟨_, rfl⟩
  · rename_i blockLen tail header
    obtain ⟨resized, reserved, kept⟩ :=
      resizeBufferCap_ok growth out (out.bytes.length + blockLen.toNat)
    rw [reserved, ok_bind]
    split
    · rename_i abort failed
      obtain ⟨outcome, ran⟩ := @decompressBlock_returns codec blockLen 0 tail resized
      rw [ran] at failed
      cases failed
    · exact Or.inl ⟨_, rfl⟩
    · rename_i rest grown total ran
      split
      · exact Or.inl ⟨_, rfl⟩
      · rename_i within
        exact Or.inr ⟨blockLen, tail, resized, rest, grown, total, header, reserved, kept, ran,
          within⟩

theorem decompressLoop_sound (appends : codec.Appends plain) (b : Bytes) (out : Slice)
    (bounded : ∀ len, DecodedLen plain b len → len < 2 ^ 32) :
    Returns (codec.decompressLoop growth b out) (fun outcome => ∀ grown, outcome = .ok grown →
      ∃ data, Blocks plain b data ∧ grown.bytes = out.bytes ++ data) := by
  -- every round takes at least the length of a block off the input
  induction left : b.length using Nat.strong_induction_on generalizing b out with
  | _ left ih =>
    subst left
    by_cases empty : b.length = 0
    · rw [Codec.decompressLoop, if_pos empty, returns_ok]
      intro grown same
      cases same
      obtain rfl := List.length_eq_zero_iff.mp empty
      exact ⟨[], .nil, (List.append_nil _).symm⟩
    rcases decompressLoop_cases growth out empty with ⟨err, failed⟩ |
      ⟨blockLen, tail, resized, rest, next, total, header, reserved, kept, ran, within⟩
    · rw [failed, returns_ok]
      intro grown impossible
      cases impossible
    · have whole := readUint32_join header
      obtain ⟨chunks, datas, inside, chunked, totalEq, reached, bytes⟩ :=
        decompressBlock_sound appends blockLen 0 tail resized (by
          intro chunks datas rest inside chunked
          apply bounded
          exact ⟨[], [], blockLen, chunks, datas, rest, by rw [whole, inside]; rfl, .nil,
            by simpa using chunked, by simp⟩) ran
      have zero : (0 : UInt32).toNat = 0 := rfl
      rw [zero, Nat.sub_zero] at chunked
      rw [zero, Nat.zero_add] at totalEq
      -- the chunks neither stop short of the length of the block nor go beyond it
      have exact : datas.flatten.length = blockLen.toNat := by
        rw [UInt32.lt_iff_toNat_lt] at reached within
        omega
      have block : Blocks plain (bigEndian 4 blockLen.toNat ++ frameChunks chunks)
          datas.flatten := by
        simpa using Blocks.cons chunked exact .nil
      have split : b = (bigEndian 4 blockLen.toNat ++ frameChunks chunks) ++ rest := by
        rw [whole, inside, List.append_assoc]
      have shorter : rest.length < b.length := by
        rw [split, List.length_append, List.length_append, length_bigEndian]
        omega
      have later := ih rest.length shorter rest next (by
        intro len decoded
        have all := bounded (datas.flatten.length + len) (by rw [split]; exact decoded.after block)
        omega) rfl
      rw [decompressLoop_round growth header reserved ran within]
      apply later.mono
      intro outcome accepted grown same
      obtain ⟨data, blocks, grownBytes⟩ := accepted grown same
      refine ⟨datas.flatten ++ data, by rw [split]; exact block.append blocks, ?_⟩
      rw [grownBytes, bytes, kept, List.append_assoc]

/-- Decompression returns on every input. It succeeds exactly on concatenations of blocks, with
the decoded chunks in order. -/
theorem decompression_exact (codec : Codec) (growth : Growth) (plain : Bytes → Option Bytes)
    (appends : codec.Appends plain) (b : Bytes)
    (bounded : ∀ len, DecodedLen plain b len → len < 2 ^ 32) :
    ∃ outcome, codec.decompressCellblocks growth b = .ok outcome ∧
      ((∃ out, outcome = .ok out) ↔ ∃ data, Blocks plain b data) ∧
      ∀ out data, outcome = .ok out → Blocks plain b data → out.bytes = data := by
  obtain ⟨outcome, ran, sound⟩ := decompressLoop_sound growth appends b ⟨[], []⟩ bounded
  have complete {data : Bytes} (blocks : Blocks plain b data) :
      ∃ out, outcome = .ok out ∧ out.bytes = data := by
    obtain ⟨grown, finished, bytes⟩ := decompressLoop_complete growth appends blocks ⟨[], []⟩
    exact ⟨grown, Except.ok.inj (ran.symm.trans finished), bytes⟩
  refine ⟨outcome, ran, ⟨?_, ?_⟩, ?_⟩
  · rintro ⟨out, same⟩
    obtain ⟨data, blocks, _⟩ := sound out same
    exact ⟨data, blocks⟩
  · rintro ⟨data, blocks⟩
    obtain ⟨out, same, _⟩ := complete blocks
    exact ⟨out, same⟩
  · intro out data same blocks
    obtain ⟨other, otherSame, bytes⟩ := complete blocks
    cases same.symm.trans otherSame
    exact bytes

theorem mockCodec_appends : mockCodec.Appends some := fun _ _ => ⟨_, rfl, rfl⟩

theorem Chunked.length_le {missing : Nat} {chunks datas : List Bytes}
    (chunked : Chunked some missing chunks datas) :
    datas.flatten.length ≤ (frameChunks chunks).length := by
  induction chunks generalizing missing datas with
  | nil =>
      obtain rfl := List.forall₂_nil_left_iff.mp chunked.decoded
      simp
  | cons chunk chunks ih =>
      obtain ⟨data, later, _, _, rfl⟩ := List.forall₂_cons_left_iff.mp chunked.decoded
      obtain ⟨_, _, first, more⟩ := chunked_cons_iff.mp chunked
      cases first
      have shorter := ih more
      simp only [List.flatten_cons, frameChunks_cons, List.length_append]
      omega

theorem Blocks.length_le {b data : Bytes} (blocks : Blocks some b data) :
    data.length ≤ b.length := by
  induction blocks with
  | nil => exact le_rfl
  | cons chunked _ _ ih =>
      have block := chunked.length_le
      simp only [List.length_append]
      omega

theorem decompression_exact_mock :
    ∃ out, mockCodec.decompressCellblocks (fun _ _ => 2)
        [0, 0, 0, 2, 0, 0, 0, 0, 0, 0, 0, 2, 5, 6] = .ok (.ok out) ∧ out.bytes = [5, 6] := by
  have chunked : Chunked some (2 : UInt32).toNat [[], [5, 6]] [[], [5, 6]] :=
    chunked_cons_iff.mpr ⟨by decide, by decide, rfl,
      chunked_cons_iff.mpr ⟨by decide, by decide, rfl, .nil _⟩⟩
  have blocks : Blocks some [0, 0, 0, 2, 0, 0, 0, 0, 0, 0, 0, 2, 5, 6] [5, 6] :=
    Blocks.cons chunked rfl .nil
  obtain ⟨outcome, ran, accepted, bytes⟩ := decompression_exact mockCodec (fun _ _ => 2) some
    mockCodec_appends [0, 0, 0, 2, 0, 0, 0, 0, 0, 0, 0, 2, 5, 6] (by
      rintro len ⟨front, data, blockLen, chunks, datas, rest, whole, before, chunked, rfl⟩
      have size := congrArg List.length whole
      have first := before.length_le
      have second := chunked.length_le
      simp only [List.length_append, List.length_cons, List.length_nil] at size
      omega)
  obtain ⟨out, rfl⟩ := accepted.mpr ⟨_, blocks⟩
  exact ⟨out, ran, bytes out _ rfl blocks⟩

end GoHBase
