import GoHBase.Lib.Varint
import GoHBase.RequestCore
import GoHBase.CompressorRoundTrip
import GoHBase.MultiLayout

/-! A request is its own length and then a header, a message and cells that a reader can
tell apart. -/

namespace GoHBase

open ByteString Runtime Buffer Capacity

/-- Sizes and bytes of the protobuf library agree, and a header can be read back. -/
structure Protobuf.Consistent {P : Type} (protobuf : Protobuf P) : Prop where
  headerSize : ∀ header bytes, protobuf.marshalHeader header = .ok bytes →
    bytes.length = protobuf.sizeHeader header
  requestSize : ∀ request bytes, protobuf.marshalRequest request = .ok bytes →
    bytes.length = protobuf.sizeRequest request
  headerRead : ∀ header bytes, protobuf.marshalHeader header = .ok bytes →
    protobuf.unmarshalHeader bytes = some header

structure RequestFrame where
  header : Bytes
  request : Bytes
  remainder : Bytes

namespace RequestFrame

variable {w : Protowire}

def body (w : Protowire) (frame : RequestFrame) : Bytes :=
  w.delimited frame.header ++ (w.delimited frame.request ++ frame.remainder)

def wire (w : Protowire) (frame : RequestFrame) : Bytes :=
  bigEndian 4 (frame.body w).length ++ frame.body w

theorem length_body (lawful : w.Lawful) (frame : RequestFrame) : (frame.body w).length =
    w.sizeVarint frame.header.length + frame.header.length +
      w.sizeVarint frame.request.length + frame.request.length + frame.remainder.length := by
  simp only [body, List.length_append, Protowire.length_delimited lawful]
  omega

theorem body_inj (lawful : w.Lawful) {first second : RequestFrame}
    (fits : (first.body w).length < 2 ^ 32) (same : first.body w = second.body w) :
    first = second := by
  have firstLength := first.length_body lawful
  have secondLength := second.length_body lawful
  rw [← same] at secondLength
  obtain ⟨header, rest⟩ := Protowire.delimited_append_inj lawful (by omega) (by omega) same
  obtain ⟨request, remainder⟩ := Protowire.delimited_append_inj lawful (by omega) (by omega) rest
  cases first
  cases second
  simp only [mk.injEq]
  exact ⟨header, request, remainder⟩

end RequestFrame

section Sizes

/-- A size that wraps to zero leaves the cells out, so the size always counts what is there. -/
theorem Mutate.serializeCellBlocks_size (m : Mutate) {orders : MutateOrders}
    {request : MutateRequest} {cellblocks : List Bytes} {size : UInt32}
    (returned : m.serializeCellBlocks orders [] = .ok (request, cellblocks, size)) :
    size = UInt32.ofNat cellblocks.flatten.length := by
  rcases m.serializeCellBlocks_ok returned with ⟨_, _, cells, _, _, _, encoded, listed, _⟩
  rcases m.valuesToCellblocks_ok encoded with ⟨_, _, counted, _⟩
  rw [listed]
  by_cases positive : 0 < size
  · rw [if_pos positive, List.nil_append, List.flatten_singleton]
    exact counted
  · have zero : size.toNat = 0 := by
      rw [UInt32.lt_iff_toNat_lt] at positive
      change ¬0 < size.toNat at positive
      omega
    rw [if_neg positive]
    exact UInt32.toNat_inj.mp zero

theorem Call.serialize_size (c : Call) {orders : CallOrders} {msg : Request}
    {cellblocks : List Bytes} {size : UInt32}
    (serialized : c.serialize true orders [] = .ok (msg, cellblocks, size)) :
    size = UInt32.ofNat cellblocks.flatten.length := by
  obtain ⟨ref, rpc⟩ := c
  cases rpc with
  | get g =>
      simp only [serialize, bind_ok_iff] at serialized
      rcases serialized with ⟨request, _, finished⟩
      cases finished
      rfl
  | mutate m =>
      simp only [serialize, ↓reduceIte, bind_ok_iff] at serialized
      rcases serialized with ⟨⟨request, own, size⟩, returned, finished⟩
      cases finished
      exact m.serializeCellBlocks_size returned

theorem aggregate_calls {isCellblocks : Bool} {expired : Nat → Bool} {orders : Nat → CallOrders}
    (i : Nat) (calls : List (Option Call)) (state : Aggregate) {state' : Aggregate}
    (returned : aggregate isCellblocks expired orders i calls state = .ok state') :
    ∃ present : List Call, calls = present.map some := by
  induction calls generalizing i state with
  | nil => exact ⟨[], rfl⟩
  | cons c calls ih =>
      cases c with
      | none => cases returned
      | some c =>
          have later : ∃ present : List Call, calls = present.map some := by
            rw [aggregate] at returned
            split at returned
            · exact ih _ _ returned
            · rcases (bind_ok_iff _ _ _).mp returned with ⟨_, _, rest⟩
              exact ih _ _ rest
          rcases later with ⟨present, rfl⟩
          exact ⟨c :: present, rfl⟩

theorem foldl_sizes (sent : List Sent) (start : UInt32)
    (sizes : ∀ s ∈ sent, s.size = UInt32.ofNat s.cellblocks.flatten.length) :
    sent.foldl (fun size s => size + s.size) start =
      start + UInt32.ofNat (sent.flatMap Sent.cellblocks).flatten.length := by
  induction sent generalizing start with
  | nil => simp
  | cons s sent ih =>
      have later := ih (start + s.size) fun s member => sizes s (List.mem_cons_of_mem _ member)
      rw [List.foldl_cons, later, sizes s List.mem_cons_self, List.flatMap_cons,
        List.flatten_append, List.length_append, UInt32.ofNat_add, UInt32.add_assoc]

theorem Multi.serializeCellBlocks_size (m : Multi) {m' : Multi} {run : MultiRun}
    {request : MultiRequest} {cellblocks : List Bytes} {size : UInt32}
    (returned : m.serializeCellBlocks run [] = .ok (m', request, cellblocks, size)) :
    size = UInt32.ofNat cellblocks.flatten.length := by
  have started := returned
  simp only [serializeCellBlocks, toProto, bind_ok_iff] at started
  rcases started with ⟨state, ran, _⟩
  rcases aggregate_calls 0 m.calls _ ran with ⟨calls, batched⟩
  rcases Multi.toProto_layout batched returned with ⟨sent, regions, layout⟩
  have sizes : ∀ s ∈ sent, s.size = UInt32.ofNat s.cellblocks.flatten.length := by
    intro s member
    exact s.call.serialize_size ((encoded_sent layout.encoded).2 s member)
  have walked : (regions.flatMap fun region => (onRegion sent region).flatMap Sent.cellblocks).Perm
      (sent.flatMap Sent.cellblocks) := by
    rw [← List.flatMap_assoc]
    exact layout.walk_perm.flatMap_right _
  rw [layout.total, foldl_sizes sent 0 sizes, UInt32.zero_add, layout.slices, List.nil_append,
    walked.flatten.length_eq]

theorem Outgoing.serialize_size {P : Type} (rpc : Outgoing P) {run : SendRun}
    {serialized : Serialized P} (prepared : rpc.serialize run = .ok serialized)
    {cellblocks : List Bytes} {size : UInt32}
    (enabled : serialized.cellblocks = some (cellblocks, size)) :
    size = UInt32.ofNat cellblocks.flatten.length := by
  cases rpc with
  | plain call =>
      cases prepared
      cases enabled
  | checkAndPut cp =>
      rcases (bind_ok_iff _ _ _).mp prepared with ⟨_, _, finished⟩
      cases finished
      cases enabled
  | mutate m =>
      rcases (bind_ok_iff _ _ _).mp prepared with ⟨⟨request, blocks, count⟩, returned, finished⟩
      cases finished
      cases enabled
      exact m.serializeCellBlocks_size returned
  | multi m =>
      rcases (bind_ok_iff _ _ _).mp prepared with ⟨⟨m', request, blocks, count⟩, returned, finished⟩
      cases finished
      cases enabled
      exact m.serializeCellBlocks_size returned

end Sizes

section Frames

variable {P : Type} (sender : Sender P)

def Sender.Hands (pool : Slice × Slice) (cellblocks : List Bytes) (size : UInt32)
    (remainder : Bytes) : Prop :=
  match sender.compressor with
  | none => remainder = cellblocks.flatten
  | some codec => ∃ compressed,
      codec.compressCellblocks sender.growth pool cellblocks size = .ok compressed ∧
      remainder = compressed.bytes

def Sender.Carries (pool : Slice × Slice) (cellblocks : List Bytes) (size : UInt32)
    (remainder : Bytes) : Prop :=
  sender.Hands pool cellblocks size remainder ∧ ∀ codec ∈ sender.compressor, ∃ out,
    codec.decompressCellblocks sender.growth remainder = .ok (.ok out) ∧
    out.bytes = cellblocks.flatten

theorem Codec.decompress_compressed {codec : Codec} (growth : Growth) (faithful : codec.Faithful)
    (pool : Slice × Slice) (cellblocks : List Bytes) (small : cellblocks.flatten.length < 2 ^ 32)
    {compressed : Slice} (ran : codec.compressCellblocks growth pool cellblocks
      (UInt32.ofNat cellblocks.flatten.length) = .ok compressed) :
    ∃ out, codec.decompressCellblocks growth compressed.bytes = .ok (.ok out) ∧
      out.bytes = cellblocks.flatten := by
  rcases decompressLoop_blocks growth faithful [(pool, cellblocks)] (by simpa using small) ⟨[], []⟩
    with ⟨results, out, written, read, bytes⟩
  rw [List.mapM_cons, ran] at written
  cases written
  simp only [List.reverse_nil, List.flatMap_cons, List.flatMap_nil, List.append_nil,
    List.nil_append] at read bytes
  exact ⟨out, read, bytes⟩

theorem Sender.tail_plain {pool : Slice × Slice} {blocks : List Bytes} {len : UInt32}
    {field : Option UInt32} (ran : sender.tail pool none = .ok (blocks, len, field)) :
    blocks = [] ∧ len = 0 ∧ field = none := by
  cases ran
  exact ⟨rfl, rfl, rfl⟩

theorem Sender.tail_cells {pool : Slice × Slice} {cellblocks blocks : List Bytes}
    {size len : UInt32} {field : Option UInt32}
    (counted : size = UInt32.ofNat cellblocks.flatten.length)
    (ran : sender.tail pool (some (cellblocks, size)) = .ok (blocks, len, field)) :
    len = UInt32.ofNat blocks.flatten.length ∧ field = some len ∧
      sender.Hands pool cellblocks size blocks.flatten := by
  rcases (bind_ok_iff _ _ _).mp ran with ⟨⟨blocks, len⟩, compressed, finished⟩
  cases finished
  unfold compress at compressed
  unfold Hands
  cases setting : sender.compressor with
  | none =>
      rw [setting] at compressed
      cases compressed
      exact ⟨counted, rfl, rfl⟩
  | some codec =>
      rw [setting] at compressed
      rcases (bind_ok_iff _ _ _).mp compressed with ⟨block, returned, finished⟩
      cases finished
      rw [List.flatten_singleton]
      exact ⟨rfl, rfl, block, returned, rfl⟩

theorem Sender.Hands.carries {sender : Sender P} {pool : Slice × Slice} {cellblocks : List Bytes}
    {size : UInt32} {remainder : Bytes} (hands : sender.Hands pool cellblocks size remainder)
    (counted : size = UInt32.ofNat cellblocks.flatten.length)
    (faithful : ∀ codec ∈ sender.compressor, codec.Faithful)
    (small : sender.compressor ≠ none → cellblocks.flatten.length < 2 ^ 32) :
    sender.Carries pool cellblocks size remainder := by
  refine ⟨hands, fun codec setting => ?_⟩
  obtain setting : sender.compressor = some codec := setting
  unfold Hands at hands
  rw [setting] at hands
  obtain ⟨compressed, ran, rfl⟩ := hands
  rw [counted] at ran
  exact Codec.decompress_compressed sender.growth (faithful codec setting) pool cellblocks
    (small (by simp [setting])) ran

def Sender.numbered (frame : RequestFrame) : Bytes :=
  bigEndian 4 (UInt32.ofNat (frame.body sender.protowire).length).toNat ++
    frame.body sender.protowire

theorem Sender.sendRegistered_eq (registry : Registry P) (id : UInt32) {header : RequestHeader}
    {request : Message P} {cellblocks : List Bytes} {cellblocksLen : UInt32}
    {headerBytes requestBytes : Bytes} (consistent : sender.protobuf.Consistent)
    (lawful : sender.protowire.Lawful)
    (counted : cellblocksLen = UInt32.ofNat cellblocks.flatten.length)
    (marshalled : sender.protobuf.marshalHeader header = .ok headerBytes)
    (encoded : sender.protobuf.marshalRequest request = .ok requestBytes)
    (frame : RequestFrame) (parts : frame = ⟨headerBytes, requestBytes, cellblocks.flatten⟩) :
    sender.sendRegistered registry id header request cellblocks cellblocksLen =
      .ok ⟨registry, id, some (sender.numbered frame), sender.deliver (sender.numbered frame)⟩ := by
  have headerSize := consistent.headerSize header headerBytes marshalled
  have requestSize := consistent.requestSize request requestBytes encoded
  have length := frame.length_body lawful
  subst parts
  have total : UInt32.ofNat (sender.protowire.sizeVarint headerBytes.length + headerBytes.length +
      sender.protowire.sizeVarint requestBytes.length + requestBytes.length) + cellblocksLen =
      UInt32.ofNat ((RequestFrame.mk headerBytes requestBytes cellblocks.flatten).body
        sender.protowire).length := by
    rw [counted, length, UInt32.ofNat_add _ cellblocks.flatten.length]
  have joined (b : Bytes) :
      (if cellblocks.isEmpty then b else (b :: cellblocks).flatten) = b ++ cellblocks.flatten := by
    cases cellblocks with
    | nil => exact (List.append_nil b).symm
    | cons first rest => rfl
  have prefixed (size : Bytes) :
      sender.protowire.appendVarint (sender.protowire.appendVarint size headerBytes.length ++
        headerBytes) requestBytes.length ++ requestBytes =
      size ++ (sender.protowire.delimited headerBytes ++
        sender.protowire.delimited requestBytes) := by
    rw [lawful.appends, lawful.appends size]
    simp only [Protowire.delimited, List.append_assoc]
  unfold sendRegistered
  simp only [marshalled, encoded, ← headerSize, ← requestSize, total, prefixed]
  rw [if_neg ?size, joined, List.append_assoc, List.append_assoc]
  · rfl
  · simp only [List.length_append, length_bigEndian, Protowire.length_delimited lawful]
    omega

theorem Sender.sendRegistered_cases {registry : Registry P} {id : UInt32} {header : RequestHeader}
    {request : Message P} {cellblocks : List Bytes} {cellblocksLen : UInt32}
    {result : SendResult P} (consistent : sender.protobuf.Consistent)
    (lawful : sender.protowire.Lawful)
    (counted : cellblocksLen = UInt32.ofNat cellblocks.flatten.length)
    (returned : sender.sendRegistered registry id header request cellblocks cellblocksLen =
      .ok result) :
    result.registry = registry ∧ result.id = id ∧
      ((result.err ≠ none ∧ result.written = none) ∨ ∃ frame : RequestFrame,
        sender.protobuf.marshalHeader header = .ok frame.header ∧
        sender.protobuf.marshalRequest request = .ok frame.request ∧
        frame.remainder = cellblocks.flatten ∧ result.written = some (sender.numbered frame)) := by
  cases marshalled : sender.protobuf.marshalHeader header with
  | error err =>
      simp only [sendRegistered, marshalled] at returned
      cases returned
      exact ⟨rfl, rfl, .inl ⟨nofun, rfl⟩⟩
  | ok headerBytes =>
      cases encoded : sender.protobuf.marshalRequest request with
      | error err =>
          simp only [sendRegistered, marshalled, encoded] at returned
          cases returned
          exact ⟨rfl, rfl, .inl ⟨nofun, rfl⟩⟩
      | ok requestBytes =>
          rw [sender.sendRegistered_eq registry id consistent lawful counted marshalled encoded _
            rfl] at returned
          cases returned
          exact ⟨rfl, rfl, .inr ⟨_, rfl, rfl, rfl, rfl⟩⟩

/-- What the parts of a request say. Only that the cells can be had back from the remainder needs a
codec that undoes itself and less than `2 ^ 32` bytes to compress. -/
structure Tells (run : SendRun) (serialized : Serialized P) (id : UInt32) (frame : RequestFrame) :
    Prop where
  header : ∃ header, sender.protobuf.unmarshalHeader frame.header = some header ∧
    header.callId = some id ∧ header.methodName = serialized.rpc.name ∧
    header.cellBlockMeta.map UInt32.toNat =
      serialized.cellblocks.map fun _ => frame.remainder.length
  request : ∃ request, serialized.request = some request ∧
    sender.protobuf.marshalRequest request = .ok frame.request
  plain : serialized.cellblocks = none → frame.remainder = []
  remainder : ∀ cellblocks size, serialized.cellblocks = some (cellblocks, size) →
    sender.Hands run.pool cellblocks size frame.remainder ∧
    ((∀ codec ∈ sender.compressor, codec.Faithful) →
      (sender.compressor ≠ none → cellblocks.flatten.length < 2 ^ 32) →
      sender.Carries run.pool cellblocks size frame.remainder)

structure Framed (run : SendRun) (serialized : Serialized P) (result : SendResult P)
    (bytes : Bytes) (frame : RequestFrame) : Prop extends
    Tells sender run serialized result.id frame where
  wire : bytes = frame.wire sender.protowire
  fits : (frame.body sender.protowire).length < 2 ^ 32
  unique : ∀ other : RequestFrame, other.body sender.protowire = frame.body sender.protowire →
    other = frame
  registered : result.registry.sent.lookup result.id = some serialized.rpc

theorem Sender.tail_serialized {rpc : Outgoing P} {run : SendRun} {serialized : Serialized P}
    (prepared : rpc.serialize run = .ok serialized) {blocks : List Bytes} {len : UInt32}
    {field : Option UInt32}
    (tailed : sender.tail run.pool serialized.cellblocks = .ok (blocks, len, field)) :
    len = UInt32.ofNat blocks.flatten.length ∧
      field = serialized.cellblocks.map (fun _ => len) ∧
      (serialized.cellblocks = none → blocks.flatten = []) ∧
      ∀ cellblocks size, serialized.cellblocks = some (cellblocks, size) →
        sender.Hands run.pool cellblocks size blocks.flatten := by
  cases enabled : serialized.cellblocks with
  | none =>
      rw [enabled] at tailed
      rcases sender.tail_plain tailed with ⟨rfl, rfl, rfl⟩
      exact ⟨rfl, rfl, fun _ => rfl, by simp⟩
  | some cells =>
      rw [enabled] at tailed
      obtain ⟨counted, announced, hands⟩ :=
        sender.tail_cells (rpc.serialize_size prepared enabled) tailed
      refine ⟨counted, announced, by simp, ?_⟩
      rintro cellblocks size ⟨⟩
      exact hands

theorem Sender.send_tells {registry : Registry P} {run : SendRun} {rpc : Outgoing P}
    {serialized : Serialized P} {result : SendResult P}
    (consistent : sender.protobuf.Consistent) (lawful : sender.protowire.Lawful)
    (prepared : rpc.serialize run = .ok serialized)
    (returned : sender.send registry run rpc = .ok result) :
    result.id = registry.id + 1 ∧
      result.registry =
        ⟨registry.id + 1, registry.sent.insert (registry.id + 1) serialized.rpc⟩ ∧
      ((result.err ≠ none ∧ result.written = none) ∨ ∃ frame : RequestFrame,
        result.written = some (sender.numbered frame) ∧
        ((frame.body sender.protowire).length < 2 ^ 32 →
          Tells sender run serialized (registry.id + 1) frame)) := by
  rw [send, prepared, ok_bind] at returned
  rcases (bind_ok_iff _ _ _).mp returned with ⟨⟨blocks, len, field⟩, tailed, sent⟩
  obtain ⟨counted, announced, bare, handed⟩ := sender.tail_serialized prepared tailed
  cases made : serialized.request with
  | none =>
      simp only [made] at sent
      cases sent
      exact ⟨rfl, rfl, .inl ⟨nofun, rfl⟩⟩
  | some request =>
      simp only [made, Registry.registerRPC] at sent
      rcases sender.sendRegistered_cases consistent lawful counted sent with
        ⟨kept, numbered, failed | ⟨frame, marshalled, encoded, rest, written⟩⟩
      · exact ⟨numbered, kept, .inl failed⟩
      · refine ⟨numbered, kept, .inr ⟨frame, written, fun fits => ?_⟩⟩
        have inside := frame.length_body lawful
        refine ⟨⟨_, consistent.headerRead _ _ marshalled, rfl, rfl, ?_⟩, ⟨request, made, encoded⟩,
          fun disabled => by rw [rest, bare disabled], fun cellblocks size enabled => ?_⟩
        · rw [announced, Option.map_map, rest]
          have exact_ : len.toNat = blocks.flatten.length := by
            rw [counted]
            exact UInt32.toNat_ofNat_of_lt' (by change _ < 2 ^ 32; rw [← rest]; omega)
          rw [← exact_]
          rfl
        · have hands := handed cellblocks size enabled
          rw [← rest] at hands
          exact ⟨hands, hands.carries (rpc.serialize_size prepared enabled)⟩

theorem Sender.numbered_eq_wire {frame : RequestFrame}
    (short : (sender.numbered frame).length < 2 ^ 32 + 4) :
    (frame.body sender.protowire).length < 2 ^ 32 ∧
      sender.numbered frame = frame.wire sender.protowire := by
  have fits : (frame.body sender.protowire).length < 2 ^ 32 := by
    rw [numbered, List.length_append, length_bigEndian] at short
    omega
  refine ⟨fits, ?_⟩
  rw [numbered, UInt32.toNat_ofNat_of_lt' fits, RequestFrame.wire]

/-- Every request that fits is framed, whatever the call and the compressor are. -/
theorem request_framing (registry : Registry P) (run : SendRun) (rpc : Outgoing P)
    (serialized : Serialized P) (result : SendResult P)
    (consistent : sender.protobuf.Consistent) (lawful : sender.protowire.Lawful)
    (prepared : rpc.serialize run = .ok serialized)
    (returned : sender.send registry run rpc = .ok result) :
    (result.err = none → result.written ≠ none) ∧
      ∀ bytes ∈ result.written, bytes.length < 2 ^ 32 + 4 →
        ∃ frame, Framed sender run serialized result bytes frame := by
  obtain ⟨numbered, kept, ⟨failed, nothing⟩ | ⟨frame, written, tells⟩⟩ :=
    sender.send_tells consistent lawful prepared returned
  · exact ⟨fun noError => absurd noError failed, by simp [nothing]⟩
  · refine ⟨fun _ => by simp [written], fun bytes given short => ?_⟩
    obtain rfl : _ = bytes := Option.some.inj (written.symm.trans given)
    obtain ⟨fits, wire⟩ := sender.numbered_eq_wire short
    refine ⟨frame, { numbered ▸ tells fits with
      wire := wire
      fits := fits
      unique := fun other same => (RequestFrame.body_inj lawful fits same.symm).symm
      registered := ?_ }⟩
    rw [kept, numbered]
    exact AList.lookup_insert _

end Frames

def rowProtobuf (method : String) : Protobuf Empty where
  sizeHeader _ := 8
  marshalHeader header :=
    match header.callId, header.cellBlockMeta with
    | some id, some len =>
        if header.methodName = method ∧ header.requestParam = true then
          .ok (bigEndian 4 id.toNat ++ bigEndian 4 len.toNat)
        else .error "unknown method"
    | _, _ => .error "required field not set"
  unmarshalHeader bytes :=
    some ⟨method, true, some (UInt32.ofNat (fromBigEndian (bytes.take 4))),
      some (UInt32.ofNat (fromBigEndian (bytes.drop 4)))⟩
  sizeRequest
    | .mutate request _ => request.mutation.row.length
    | _ => 0
  marshalRequest
    | .mutate request _ => .ok request.mutation.row
    | _ => .ok []

theorem rowProtobuf_consistent (method : String) : (rowProtobuf method).Consistent := by
  have known (header : RequestHeader) (bytes : Bytes)
      (marshalled : (rowProtobuf method).marshalHeader header = .ok bytes) :
      ∃ id len, header = ⟨method, true, some id, some len⟩ ∧
        bytes = bigEndian 4 id.toNat ++ bigEndian 4 len.toNat := by
    rcases header with ⟨name, param, callId, field⟩
    cases callId with
    | none => cases marshalled
    | some id =>
        cases field with
        | none => cases marshalled
        | some len =>
            simp only [rowProtobuf] at marshalled
            split at marshalled
            · rename_i same
              rcases same with ⟨rfl, rfl⟩
              cases marshalled
              exact ⟨id, len, rfl, rfl⟩
            · cases marshalled
  refine ⟨?_, ?_, ?_⟩
  · intro header bytes marshalled
    rcases known header bytes marshalled with ⟨id, len, rfl, rfl⟩
    rw [List.length_append, length_bigEndian, length_bigEndian]
    rfl
  · intro request bytes marshalled
    cases request with
    | plain message => cases message
    | mutate request condition =>
        cases marshalled
        rfl
    | multi request =>
        cases marshalled
        rfl
  · intro header bytes marshalled
    rcases known header bytes marshalled with ⟨id, len, rfl, rfl⟩
    simp only [rowProtobuf, List.take_left' (length_bigEndian _ _),
      List.drop_left' (length_bigEndian _ _), word32_bigEndian]

def mockSender (method : String) : Sender Empty where
  protobuf := rowProtobuf method
  protowire := Varint.protowire
  compressor := some mockCodec
  growth := fun _ _ => 2
  write := fun _ => none
  inFlightUp := none

def sampleSend : SendRun where
  mutate := ⟨storedOrder, storedOrder, storedOrder⟩
  multi := sampleRun fun _ => false
  pool := (⟨[], []⟩, ⟨[], []⟩)

theorem mockSender_sends {rpc : Outgoing Empty} {serialized : Serialized Empty}
    {request : Message Empty} {cellblocks : List Bytes} {size : UInt32} {compressed : Slice}
    (prepared : rpc.serialize sampleSend = .ok serialized)
    (made : serialized.request = some request)
    (enabled : serialized.cellblocks = some (cellblocks, size))
    (ran : mockCodec.compressCellblocks (fun _ _ => 2) sampleSend.pool cellblocks size =
      .ok compressed) :
    ∃ (result : SendResult Empty) (frame : RequestFrame),
      (mockSender serialized.rpc.name).send ⟨0, ∅⟩ sampleSend rpc = .ok result ∧
      result.err = none ∧
      result.written = some ((mockSender serialized.rpc.name).numbered frame) ∧
      frame.remainder = compressed.bytes ∧ frame.header.length = 8 ∧
      (rowProtobuf serialized.rpc.name).marshalRequest request = .ok frame.request := by
  have marshalled : ∃ requestBytes,
      (rowProtobuf serialized.rpc.name).marshalRequest request = .ok requestBytes := by
    cases request with
    | plain message => cases message
    | mutate request condition => exact ⟨_, rfl⟩
    | multi request => exact ⟨_, rfl⟩
  rcases marshalled with ⟨requestBytes, encoded⟩
  have counted : UInt32.ofNat compressed.bytes.length =
      UInt32.ofNat [compressed.bytes].flatten.length := by
    rw [List.flatten_singleton]
  have header : (rowProtobuf serialized.rpc.name).marshalHeader
      ⟨serialized.rpc.name, true, some 1, some (UInt32.ofNat compressed.bytes.length)⟩ =
      .ok (bigEndian 4 1 ++ bigEndian 4 (UInt32.ofNat compressed.bytes.length).toNat) :=
    if_pos ⟨rfl, rfl⟩
  have sent := (mockSender serialized.rpc.name).sendRegistered_eq
    ⟨1, AList.insert 1 serialized.rpc ∅⟩ 1 (rowProtobuf_consistent _) Varint.protowire_lawful
    counted header encoded _ rfl
  refine ⟨_, ⟨bigEndian 4 1 ++ bigEndian 4 (UInt32.ofNat compressed.bytes.length).toNat,
    requestBytes, [compressed.bytes].flatten⟩, Eq.trans ?_ sent, rfl, rfl, ?_, ?_, encoded⟩
  · rw [Sender.send, prepared, ok_bind, enabled, Sender.tail, Sender.compress]
    simp only [mockSender, ran, ok_bind, made]
    rfl
  · exact List.flatten_singleton
  · rw [List.length_append, length_bigEndian, length_bigEndian]

theorem request_framing_delete :
    ∃ serialized result, (Outgoing.mutate sampleDelete).serialize sampleSend = .ok serialized ∧
      (mockSender "Mutate").send ⟨0, ∅⟩ sampleSend (.mutate sampleDelete) = .ok result ∧
      (result.err = none → result.written ≠ none) ∧
      ∀ bytes ∈ result.written, bytes.length < 2 ^ 32 + 4 →
        ∃ frame, Framed (mockSender "Mutate") sampleSend serialized result bytes frame := by
  obtain ⟨request, cellblocks, size, returned, small⟩ : ∃ request cellblocks size,
      sampleDelete.serializeCellBlocks sampleSend.mutate [] = .ok (request, cellblocks, size) ∧
      cellblocks.flatten.length < 2 ^ 32 := ⟨_, _, _, rfl, by decide⟩
  have prepared : (Outgoing.mutate sampleDelete : Outgoing Empty).serialize sampleSend =
      .ok ⟨.mutate sampleDelete, some (.mutate request none), some (cellblocks, size)⟩ := by
    rw [Outgoing.serialize, returned]
    rfl
  rcases compressCellblocks_chunks (fun _ _ => 2) mockCodec_faithful sampleSend.pool cellblocks
    small with ⟨compressed, _, ran, _⟩
  rw [← sampleDelete.serializeCellBlocks_size returned] at ran
  rcases mockSender_sends prepared rfl rfl ran with ⟨result, frame, sent, _⟩
  exact ⟨_, result, prepared, sent, request_framing (mockSender "Mutate") ⟨0, ∅⟩ sampleSend
    (.mutate sampleDelete) _ result (rowProtobuf_consistent "Mutate") Varint.protowire_lawful
    prepared sent⟩

def columnPut (value : Bytes) : Mutate where
  key := [114]
  region := some (sampleRegion 0 1 [] [])
  mutationType := .put
  values := AList.singleton [97] (some (AList.singleton [113] value))
  ttl := []
  timestamp := maxTimestamp
  durability := 0
  deleteOneVersion := false

theorem columnPut_cellsLen (value : Bytes) :
    cellsLen (columnPut value).cells = 27 + value.length := by
  have one : (columnPut value).cells = [⟨[114], [97], [113], maxInt64, putType, value⟩] := rfl
  rw [one, cellsLen_cons, cellsLen_nil]
  simp only [Cell.blockLen, cellblockLen, List.length_singleton]
  omega

theorem columnPut_serializes (value : Bytes) :
    ∃ output, (columnPut value).serializeCellBlocks sampleSend.mutate [] = .ok output := by
  have measured := (columnPut value).measureValues_eq storedOrder maxInt64
  have written := (columnPut value).writeValues_eq storedOrder maxInt64 []
  have same : (columnPut value).measuredCells maxInt64 storedOrder =
      (columnPut value).writtenCells maxInt64 storedOrder := rfl
  have encoded : ∃ output, (columnPut value).valuesToCellblocks storedOrder storedOrder =
      .ok output := by
    have present : (columnPut value).values.entries.length ≠ 0 := by simp [columnPut]
    have latest : (columnPut value).timestamp = maxTimestamp := rfl
    rw [Mutate.valuesToCellblocks, if_neg present, measured, same]
    simp only [latest, ↓reduceIte, written, ok_bind, List.nil_append, length_encodeCells]
    exact ⟨_, if_neg fun differ => differ rfl⟩
  rcases encoded with ⟨⟨cellblocks, count, size⟩, encoded⟩
  have indexed : Mutate.durabilityOf (columnPut value).durability = .ok .useDefault := rfl
  simp only [Mutate.serializeCellBlocks, Mutate.toProto, Mutate.addValues, indexed, ok_bind,
    ↓reduceIte, sampleSend, encoded]
  exact ⟨_, rfl⟩

def twoPuts (value : Bytes) : List Call :=
  [⟨0, .mutate (columnPut value)⟩, ⟨1, .mutate (columnPut value)⟩]

theorem twoPuts_encode (value : Bytes) (entry : Call × Nat)
    (member : entry ∈ liveCalls sampleSend.multi.expired 0 (twoPuts value)) :
    ∃ sent, encodeCall true sampleSend.multi.orders entry = .ok sent := by
  rcases entry with ⟨call, position⟩
  have put : call.rpc = .mutate (columnPut value) := by
    have found := ((mem_liveCalls _ _ _ _).mp member).1
    have inside := List.mem_of_getElem? found
    simp only [twoPuts, List.mem_cons, List.not_mem_nil, or_false] at inside
    rcases inside with rfl | rfl
    · rfl
    · rfl
  rcases columnPut_serializes value with ⟨output, ran⟩
  have orders : (sampleSend.multi.orders position).mutate = sampleSend.mutate := rfl
  refine ⟨⟨position, call, .mutate output.1, output.2.1, output.2.2⟩, ?_⟩
  simp only [encodeCall, Call.serialize, put, ↓reduceIte, orders, ran, ok_bind]
  rfl

theorem twoPuts_serialize (value : Bytes) (small : 27 + value.length < 2 ^ 32) :
    ∃ m' request cellblocks size, Multi.serializeCellBlocks ⟨2, (twoPuts value).map some, []⟩
        sampleSend.multi [] = .ok (m', request, cellblocks, size) ∧
      cellblocks.flatten.length = 2 * (27 + value.length) := by
  rcases mapM_total _ _ (twoPuts_encode value) with ⟨sent, encoded⟩
  rcases Multi.toProto_total ⟨2, (twoPuts value).map some, []⟩ true sampleSend.multi _ [] rfl sent
    encoded with ⟨⟨m', request, cellblocks, size⟩, returned⟩
  refine ⟨m', request, cellblocks, size, returned, ?_⟩
  rcases Multi.toProto_layout rfl returned with ⟨sent, regions, layout⟩
  rcases encoded_sent layout.encoded with ⟨tags, serialized⟩
  have cells : ∀ s ∈ sent, cellsLen s.call.cells = 27 + value.length := by
    intro s member
    have found := ((mem_liveCalls _ _ _ _).mp (layout.sent_live s member)).1
    have inside := List.mem_of_getElem? found
    simp only [twoPuts, List.mem_cons, List.not_mem_nil, or_false] at inside
    rw [← columnPut_cellsLen]
    rcases inside with same | same
    · rw [same]
      rfl
    · rw [same]
      rfl
  have each : ∀ s ∈ sent, s.cellblocks.flatten.length = 27 + value.length := by
    intro s member
    rcases Call.serialize_cells (serialized s member) (by rw [cells s member]; exact small) s.index
      with ⟨written, perm, flat, _⟩
    rw [flat, length_encodeCells, Mutate.cellsLen_perm perm, cells s member]
  have two : sent.length = 2 := by
    have count := congrArg List.length tags
    rw [List.length_map] at count
    exact count
  rcases List.length_eq_two.mp two with ⟨first, second, rfl⟩
  have walked := layout.walk_perm.flatMap_right Sent.cellblocks
  rw [layout.slices, List.nil_append, ← List.flatMap_assoc, walked.flatten.length_eq]
  simp only [List.flatMap_cons, List.flatMap_nil, List.append_nil, List.flatten_append,
    List.length_append, each first (by simp), each second (by simp)]
  omega

theorem compressCellblocks_zero (codec : Codec) (growth : Growth) (pool : Slice × Slice)
    (cbs : List Bytes) : ∃ compressed, codec.compressCellblocks growth pool cbs 0 = .ok compressed ∧
      compressed.bytes = [0, 0, 0, 0] := by
  rcases newBuffer_ok growth pool.1 4 with ⟨b, allocated, four⟩
  rcases storeAt_gap b [] b.bytes [] (bigEndian 4 0) (by simp)
    ((length_bigEndian _ _).trans four.symm) with ⟨stored, patched, written⟩
  rcases newBuffer_ok growth pool.2 (minUint32 0 codec.chunkLen) with ⟨buffer, made, room⟩
  have nothing : buffer.bytes.length = 0 := by
    rw [room, minUint32]
    split
    · rfl
    · rename_i least
      rw [UInt32.lt_iff_toNat_lt] at least
      change ¬0 < codec.chunkLen.toNat at least
      omega
  refine ⟨stored, ?_, ?_⟩
  · have empty : (Buffers.read cbs 0).data.length = 0 := by
      rw [Buffers.read_data, List.take_zero, List.length_nil]
    rw [List.length_nil] at patched
    rw [Codec.compressCellblocks, allocated, ok_bind, putUint32]
    change (b.storeAt 0 (bigEndian 4 0) >>= _) = _
    rw [patched, ok_bind, made, ok_bind, nothing, Codec.compressLoop, dif_pos empty]
  · rw [written]
    rfl

/-- Two puts of `2 ^ 31` bytes each: their sizes add up to zero, and the compressed block that
is sent for them is empty. -/
theorem request_framing_wraps :
    ∃ (value : Bytes) (serialized : Serialized Empty) (cellblocks : List Bytes) (size : UInt32)
      (result : SendResult Empty) (frame : RequestFrame),
      (Outgoing.multi ⟨2, (twoPuts value).map some, []⟩).serialize sampleSend = .ok serialized ∧
      serialized.cellblocks = some (cellblocks, size) ∧
      (mockSender "Multi").send ⟨0, ∅⟩ sampleSend (.multi ⟨2, (twoPuts value).map some, []⟩) =
        .ok result ∧
      result.err = none ∧ result.written = some (frame.wire Varint.protowire) ∧
      (frame.wire Varint.protowire).length < 2 ^ 32 ∧
      ¬(mockSender "Multi").Carries sampleSend.pool cellblocks size frame.remainder := by
  let value : Bytes := List.replicate (2 ^ 31 - 27) 0
  have long : value.length = 2 ^ 31 - 27 := List.length_replicate
  rcases twoPuts_serialize value (by rw [long]; norm_num) with
    ⟨m', request, cellblocks, size, returned, length⟩
  have total : cellblocks.flatten.length = 2 ^ 32 := by
    rw [length, long]
    norm_num
  have wrapped : size = 0 := by
    rw [Multi.serializeCellBlocks_size _ returned, total]
    rfl
  subst wrapped
  have prepared : (Outgoing.multi ⟨2, (twoPuts value).map some, []⟩ : Outgoing Empty).serialize
      sampleSend = .ok ⟨.multi m', some (.multi request), some (cellblocks, 0)⟩ := by
    rw [Outgoing.serialize, returned]
    rfl
  rcases compressCellblocks_zero mockCodec (fun _ _ => 2) sampleSend.pool cellblocks with
    ⟨compressed, ran, zeros⟩
  rcases mockSender_sends prepared rfl rfl ran with
    ⟨result, frame, sent, noError, written, rest, header, request⟩
  have body : (frame.body Varint.protowire).length = 14 := by
    have empty : frame.request = [] := (Except.ok.inj request).symm
    rw [frame.length_body Varint.protowire_lawful, header, empty, rest, zeros]
    rfl
  refine ⟨value, _, cellblocks, 0, result, frame, prepared, rfl, sent, noError, ?_, ?_, ?_⟩
  · rw [written, Sender.numbered, RequestFrame.wire, body]
    change some (bigEndian 4 (UInt32.ofNat (frame.body Varint.protowire).length).toNat ++ _) = _
    rw [body]
    rfl
  · rw [RequestFrame.wire, List.length_append, length_bigEndian, body]
    norm_num
  · rintro ⟨_, carried⟩
    obtain ⟨out, read, bytes⟩ := carried mockCodec rfl
    rcases decompressLoop_block (fun _ _ => 2) (.nil : Chunks mockCodec [] []) (by simp) []
      ⟨[], []⟩ with ⟨grown, block, empty⟩
    have finished : mockCodec.decompressLoop (fun _ _ => 2) [] grown = .ok (.ok grown) := by
      rw [Codec.decompressLoop, if_pos List.length_nil]
    rw [rest, zeros] at read
    obtain rfl : out = grown :=
      Except.ok.inj (Except.ok.inj (read.symm.trans (block.trans finished)))
    rw [← bytes, empty] at total
    cases total

end GoHBase
