import GoHBase.Conversation
import GoHBase.CacheCore

/-!
What a server reads from a connection: the hello, and then the requests in the order in which they
were written.
-/

namespace GoHBase.Conversation

open ByteString Runtime Buffer Frames Capacity

structure ConnectionHeader where
  effectiveUser : String
  serviceName : String
  cellBlockCodecClass : String
  cellBlockCompressorClass : Option String
  deriving DecidableEq, Repr

def serviceName : ClientType → String
  | .regionClient => "ClientService"
  | .masterClient => "MasterService"

/-- The fields of the client that go into its hello; `compressor` is the class of the codec.
`unmarshal` is what the server reads the hello with. -/
structure Greeter where
  effectiveUser : String
  ctype : ClientType
  compressor : Option String
  marshal : ConnectionHeader → Except String Bytes
  unmarshal : Bytes → Option ConnectionHeader

/-- The text "HBas", the version and the code of simple authentication. -/
def preamble : Bytes := [72, 66, 97, 115, 0, 80]

namespace Greeter

variable (c : Greeter)

def Faithful : Prop :=
  ∀ header data, c.marshal header = .ok data → c.unmarshal data = some header

def connHeader : ConnectionHeader where
  effectiveUser := c.effectiveUser
  serviceName := serviceName c.ctype
  cellBlockCodecClass := "org.apache.hadoop.hbase.codec.KeyValueCodec"
  cellBlockCompressorClass := c.compressor

def sendHello (growth : Growth) : Go (Except String Bytes) :=
  match c.marshal c.connHeader with
  | .error err => pure (.error ("failed to marshal connection header: " ++ err))
  | .ok data => do
      let buf : Slice := ⟨[], zeros (preamble.length + 4 + data.length)⟩
      let buf := buf.append growth preamble
      let buf ← buf.resize (preamble.length + 4)
      let buf ← buf.storeAt 6 (bigEndian 4 (UInt32.ofNat data.length).toNat)
      let buf := buf.append growth data
      pure (.ok buf.bytes)

theorem sendHello_ok (growth : Growth) {data : Bytes}
    (marshalled : c.marshal c.connHeader = .ok data) (small : data.length < 2 ^ 32) :
    c.sendHello growth = .ok (.ok (preamble ++ framed data)) := by
  have fits : preamble.length ≤ (zeros (preamble.length + 4 + data.length)).length := by
    rw [zeros, List.length_replicate]
    omega
  have start :
      (Slice.append growth ⟨[], zeros (preamble.length + 4 + data.length)⟩ preamble).bytes =
        preamble := rfl
  have room : preamble.length + 4 ≤
      (Slice.append growth ⟨[], zeros (preamble.length + 4 + data.length)⟩ preamble).cap := by
    rw [Slice.cap, start, Slice.append, if_pos fits, List.length_drop, zeros,
      List.length_replicate]
    omega
  obtain ⟨resized, gap, resize, bytes, length⟩ := resize_beyond _ _ (by rw [start]; omega) room
  rw [start] at bytes length
  obtain ⟨stored, store, written⟩ := storeAt_gap resized preamble gap []
    (bigEndian 4 (UInt32.ofNat data.length).toNat) (by rw [bytes, List.append_nil])
    (by rw [length_bigEndian, length]; omega)
  rw [List.append_nil, UInt32.toNat_ofNat_of_lt' small] at written
  have joined : (stored.append growth data).bytes = preamble ++ framed data := by
    rw [Slice.append, written, framed, List.append_assoc]
  simp only [sendHello, marshalled, resize, ok_bind]
  rw [show (6 : Nat) = preamble.length from rfl, store, ok_bind, joined]
  rfl

end Greeter

section Reading

variable (w : Protowire)

def readRequest (payload : Bytes) : Option RequestFrame :=
  match w.consumeBytes payload with
  | .error _ => none
  | .ok (header, headerLen) =>
      match w.consumeBytes (payload.drop headerLen) with
      | .error _ => none
      | .ok (request, requestLen) =>
          some ⟨header, request, (payload.drop headerLen).drop requestLen⟩

def readConnection (unmarshal : Bytes → Option ConnectionHeader) (b : Bytes) :
    Option (ConnectionHeader × List RequestFrame) :=
  if b.take preamble.length = preamble then do
    let (data, rest) ← readFrame (b.drop preamble.length)
    let header ← unmarshal data
    let payloads ← readFrames rest.length rest
    let requests ← payloads.mapM (readRequest w)
    pure (header, requests)
  else none

variable {w} (lawful : w.Lawful)

include lawful

theorem readRequest_body {frame : RequestFrame} (small : (frame.body w).length < 2 ^ 32) :
    readRequest w (frame.body w) = some frame := by
  have length := frame.length_body lawful
  have header := Protowire.consumeBytes_append lawful (lawful.reads frame.header (by omega))
    (w.delimited frame.request ++ frame.remainder)
  have request := Protowire.consumeBytes_append lawful (lawful.reads frame.request (by omega))
    frame.remainder
  simp only [readRequest, RequestFrame.body, header, List.drop_left' rfl, request]

theorem mapM_readRequest {requests : List RequestFrame}
    (small : ∀ request ∈ requests, (request.body w).length < 2 ^ 32) :
    (requests.map fun request => request.body w).mapM (readRequest w) = some requests := by
  induction requests with
  | nil => rfl
  | cons request requests ih =>
      obtain ⟨first, others⟩ := List.forall_mem_cons.mp small
      rw [List.map_cons, List.mapM_cons, readRequest_body lawful first, ih others]
      rfl

theorem readConnection_stream {unmarshal : Bytes → Option ConnectionHeader} {data : Bytes}
    {header : ConnectionHeader} (read : unmarshal data = some header)
    (fits : data.length < 2 ^ 32) {requests : List RequestFrame}
    (small : ∀ request ∈ requests, (request.body w).length < 2 ^ 32) :
    readConnection w unmarshal
        (preamble ++ framed data ++ requests.flatMap fun request => request.wire w) =
      some (header, requests) := by
  have stream : (requests.flatMap fun request => request.wire w) =
      (requests.map fun request => request.body w).flatMap framed := by
    rw [List.flatMap_map]
    rfl
  have payloads : ∀ payload ∈ requests.map (fun request => request.body w),
      payload.length < 2 ^ 32 := by
    simpa using small
  rw [readConnection, stream, List.append_assoc, List.take_left' rfl, List.drop_left' rfl,
    if_pos rfl, readFrame_framed fits]
  simp only [Option.bind_eq_bind, Option.bind_some, read, mapM_readRequest lawful small,
    readFrames_stream payloads (length_le_stream _)]
  rfl

end Reading

structure Write (P : Type) where
  registry : Registry P
  run : SendRun
  rpc : Outgoing P
  bytes : Bytes

structure Wrote (sender : Sender P) (w : Write P) : Prop where
  sent : ∃ result, sender.send w.registry w.run w.rpc = .ok result ∧ result.written = some w.bytes
  small : w.bytes.length < 2 ^ 32 + 4

/-- The parts of the request are those of this send: the call ID that it registered, and the method,
the message and the cells of its RPC. -/
structure ReadFor (sender : Sender P) (w : Write P) (request : RequestFrame) : Prop where
  wire : w.bytes = request.wire sender.protowire
  small : (request.body sender.protowire).length < 2 ^ 32
  tells : ∃ serialized, w.rpc.serialize w.run = .ok serialized ∧
    Tells sender w.run serialized (w.registry.id + 1) request

theorem Wrote.readFor {sender : Sender P} (consistent : sender.protobuf.Consistent)
    (lawful : sender.protowire.Lawful) {w : Write P} (wrote : Wrote sender w) :
    ∃ request, ReadFor sender w request := by
  obtain ⟨result, sent, written⟩ := wrote.sent
  obtain ⟨serialized, prepared, _⟩ := (bind_ok_iff _ _ _).mp sent
  obtain ⟨_, _, ⟨_, nothing⟩ | ⟨frame, handed, tells⟩⟩ :=
    sender.send_tells consistent lawful prepared sent
  · rw [nothing] at written
    cases written
  · have same := Option.some.inj (handed.symm.trans written)
    obtain ⟨fits, wire⟩ := sender.numbered_eq_wire (same ▸ wrote.small)
    exact ⟨frame, same ▸ wire, fits, serialized, prepared, tells fits⟩

/-- Whatever goroutines wrote the requests, and in whatever order, the server reads the user and the
service of the hello and behind it these requests and nothing else, if none of them and not the
hello take `2 ^ 32` bytes. -/
theorem connection_read_back (c : Greeter) (faithful : c.Faithful) (growth : Growth) {data : Bytes}
    (marshalled : c.marshal c.connHeader = .ok data) (fits : data.length < 2 ^ 32)
    (sender : Sender P) (consistent : sender.protobuf.Consistent)
    (lawful : sender.protowire.Lawful) (writes : List (Write P))
    (wrote : ∀ w ∈ writes, Wrote sender w) :
    ∃ hello header requests, c.sendHello growth = .ok (.ok hello) ∧
      readConnection sender.protowire c.unmarshal (hello ++ writes.flatMap Write.bytes) =
        some (header, requests) ∧
      header.effectiveUser = c.effectiveUser ∧ header.serviceName = serviceName c.ctype ∧
      header.cellBlockCompressorClass = c.compressor ∧
      List.Forall₂ (ReadFor sender) writes requests := by
  have : Nonempty RequestFrame := ⟨⟨[], [], []⟩⟩
  choose! request reads using fun w (member : w ∈ writes) =>
    (wrote w member).readFor consistent lawful
  have stream : writes.flatMap Write.bytes =
      (writes.map request).flatMap fun request => request.wire sender.protowire := by
    rw [List.flatMap_map]
    exact List.flatMap_congr fun w member => (reads w member).wire
  refine ⟨_, c.connHeader, writes.map request, c.sendHello_ok growth marshalled fits, ?_, rfl, rfl,
    rfl, ?_⟩
  · rw [stream]
    apply readConnection_stream lawful (faithful _ _ marshalled) fits
    intro frame member
    obtain ⟨w, listed, rfl⟩ := List.mem_map.mp member
    exact (reads w listed).small
  · rw [List.forall₂_map_right_iff, List.forall₂_same]
    exact reads

def sampleGreeter : Greeter where
  effectiveUser := "root"
  ctype := .regionClient
  compressor := none
  marshal header :=
    if header =
      ⟨"root", "ClientService", "org.apache.hadoop.hbase.codec.KeyValueCodec", none⟩ then
      .ok [10, 0]
    else .error "unknown user"
  unmarshal _ :=
    some ⟨"root", "ClientService", "org.apache.hadoop.hbase.codec.KeyValueCodec", none⟩

theorem sampleGreeter_faithful : sampleGreeter.Faithful := by
  intro header data marshalled
  simp only [sampleGreeter] at marshalled ⊢
  split at marshalled
  · rename_i known
    rw [known]
  · cases marshalled

def pingWrites : List (Write Unit) :=
  [⟨pingRegistry, sampleSend, ping, (RequestFrame.mk [0, 0, 0, 2] [] []).wire Varint.protowire⟩,
    ⟨⟨0, ∅⟩, sampleSend, ping, pingRequest.wire Varint.protowire⟩]

theorem connection_read_back_pings :
    ∃ hello header requests, sampleGreeter.sendHello (fun _ _ => 0) = .ok (.ok hello) ∧
      readConnection Varint.protowire sampleGreeter.unmarshal
        (hello ++ pingWrites.flatMap Write.bytes) = some (header, requests) ∧
      header.effectiveUser = "root" ∧ header.serviceName = "ClientService" ∧
      header.cellBlockCompressorClass = none ∧
      List.Forall₂ (ReadFor pingParties.sender) pingWrites requests := by
  refine connection_read_back sampleGreeter sampleGreeter_faithful (fun _ _ => 0) rfl (by decide)
    pingParties.sender pingProtobuf_consistent Varint.protowire_lawful pingWrites ?_
  intro w member
  obtain rfl | member := List.mem_cons.mp member
  · exact ⟨⟨_, rfl, rfl⟩, by decide⟩
  · obtain rfl := List.mem_singleton.mp member
    exact ⟨⟨_, rfl, rfl⟩, by decide⟩

end GoHBase.Conversation
