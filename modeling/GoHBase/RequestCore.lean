import GoHBase.Lib.Protowire
import GoHBase.CompressorCore
import GoHBase.MultiCore

/-! One request on the wire: what `send` registers and hands to the connection. The libraries
protobuf and protowire are parameters; the messages of calls without cellblocks are arbitrary. -/

namespace GoHBase

open ByteString Runtime Buffer Capacity

structure Comparator where
  name : String
  serializedComparator : Bytes
  deriving DecidableEq, Repr

inductive CompareType
  | less
  | lessOrEqual
  | equal
  | notEqual
  | greaterOrEqual
  | greater
  | noOp
  deriving DecidableEq, Repr

structure Condition where
  row : Bytes
  family : Bytes
  qualifier : Bytes
  compareType : CompareType
  comparator : Comparator
  deriving DecidableEq, Repr

structure CheckAndPut where
  mutate : Mutate
  family : Bytes
  qualifier : Bytes
  comparator : Comparator

/-- A request message. Only `CheckAndPut` sets the condition of a MutateRequest. -/
inductive Message (P : Type)
  | plain (message : P)
  | mutate (request : MutateRequest) (condition : Option Condition)
  | multi (request : MultiRequest)

def CheckAndPut.toProto {P : Type} (cp : CheckAndPut) (orders : MutateOrders) :
    Go (Message P) := do
  let (mutateRequest, _, _) ← cp.mutate.toProto false orders []
  pure (.mutate mutateRequest (some {
    row := cp.mutate.key
    family := cp.family
    qualifier := cp.qualifier
    compareType := .equal
    comparator := cp.comparator
  }))

/-- A call of any other type. Its `ToProto` may return nil. -/
structure PlainCall (P : Type) where
  name : String
  toProto : Option P

inductive Outgoing (P : Type)
  | plain (call : PlainCall P)
  | mutate (m : Mutate)
  | checkAndPut (cp : CheckAndPut)
  | multi (m : Multi)

def Outgoing.name {P : Type} : Outgoing P → String
  | .plain call => call.name
  | .mutate _ => "Mutate"
  | .checkAndPut _ => "Mutate"
  | .multi _ => "Multi"

structure RequestHeader where
  methodName : String
  requestParam : Bool
  callId : Option UInt32
  cellBlockMeta : Option UInt32
  deriving DecidableEq, Repr

structure Protobuf (P : Type) where
  sizeHeader : RequestHeader → Nat
  marshalHeader : RequestHeader → Except String Bytes
  unmarshalHeader : Bytes → Option RequestHeader
  sizeRequest : Message P → Nat
  marshalRequest : Message P → Except String Bytes

structure SendRun where
  mutate : MutateOrders
  multi : MultiRun
  pool : Slice × Slice

structure Serialized (P : Type) where
  rpc : Outgoing P
  request : Option (Message P)
  cellblocks : Option (List Bytes × UInt32)

section Send

variable {P : Type}

/-- A `CheckAndPut` could be serialized to cellblocks but has them disabled. -/
def Outgoing.serialize (rpc : Outgoing P) (run : SendRun) : Go (Serialized P) :=
  match rpc with
  | .plain call => pure ⟨rpc, call.toProto.map .plain, none⟩
  | .checkAndPut cp => do
      let request ← cp.toProto run.mutate
      pure ⟨rpc, some request, none⟩
  | .mutate m => do
      let (request, cellblocks, cellblocksLen) ← m.serializeCellBlocks run.mutate []
      pure ⟨rpc, some (.mutate request none), some (cellblocks, cellblocksLen)⟩
  | .multi m => do
      let (m, request, cellblocks, cellblocksLen) ← m.serializeCellBlocks run.multi []
      pure ⟨.multi m, some (.multi request), some (cellblocks, cellblocksLen)⟩

structure Registry (P : Type) where
  id : UInt32
  sent : AList fun _ : UInt32 => Outgoing P

def Registry.registerRPC (registry : Registry P) (rpc : Outgoing P) : UInt32 × Registry P :=
  let currID := registry.id + 1
  (currID, ⟨currID, registry.sent.insert currID rpc⟩)

inductive SendError
  | marshal (text : String)
  | server (text : String)
  deriving DecidableEq, Repr

structure SendResult (P : Type) where
  registry : Registry P
  id : UInt32
  written : Option Bytes
  err : Option SendError

structure Sender (P : Type) where
  protobuf : Protobuf P
  protowire : Protowire
  compressor : Option Codec
  growth : Growth
  write : Bytes → Option String
  inFlightUp : Option String

namespace Sender

variable (sender : Sender P)

def compress (pool : Slice × Slice) (cellblocks : List Bytes) (cellblocksLen : UInt32) :
    Go (List Bytes × UInt32) :=
  match sender.compressor with
  | none => pure (cellblocks, cellblocksLen)
  | some codec => do
      let compressed ← codec.compressCellblocks sender.growth pool cellblocks cellblocksLen
      pure ([compressed.bytes], UInt32.ofNat compressed.bytes.length)

/-- The buffers behind the protobuf data, the length added for them and the field of the header. -/
def tail (pool : Slice × Slice) :
    Option (List Bytes × UInt32) → Go (List Bytes × UInt32 × Option UInt32)
  | none => pure ([], 0, none)
  | some (cellblocks, cellblocksLen) => do
      let (cellblocks, cellblocksLen) ← sender.compress pool cellblocks cellblocksLen
      pure (cellblocks, cellblocksLen, some cellblocksLen)

def deliver (written : Bytes) : Option SendError :=
  match sender.write written with
  | some err => some (.server err)
  | none => sender.inFlightUp.map .server

def sendRegistered (registry : Registry P) (id : UInt32) (header : RequestHeader)
    (request : Message P) (cellblocks : List Bytes) (cellblocksLen : UInt32) :
    Go (SendResult P) :=
  let headerSize := sender.protobuf.sizeHeader header
  let requestSize := sender.protobuf.sizeRequest request
  let protobufLen := sender.protowire.sizeVarint headerSize + headerSize +
    sender.protowire.sizeVarint requestSize + requestSize
  let totalLen := UInt32.ofNat protobufLen + cellblocksLen
  let b := sender.protowire.appendVarint (bigEndian 4 totalLen.toNat) headerSize
  match sender.protobuf.marshalHeader header with
  | .error err =>
      pure ⟨registry, id, none, some (.marshal ("failed to marshal request header: " ++ err))⟩
  | .ok headerBytes =>
      let b := sender.protowire.appendVarint (b ++ headerBytes) requestSize
      match sender.protobuf.marshalRequest request with
      | .error err =>
          pure ⟨registry, id, none, some (.marshal ("failed to marshal request: " ++ err))⟩
      | .ok requestBytes =>
          let b := b ++ requestBytes
          if b.length ≠ 4 + protobufLen then
            .error (.panic "size of data sent doesn't match expected")
          else
            let written := if cellblocks.isEmpty then b else (b :: cellblocks).flatten
            pure ⟨registry, id, some written, sender.deliver written⟩

def send (registry : Registry P) (run : SendRun) (rpc : Outgoing P) : Go (SendResult P) := do
  let serialized ← rpc.serialize run
  let (cellblocks, cellblocksLen, cellBlockMeta) ← sender.tail run.pool serialized.cellblocks
  let (id, registry) := registry.registerRPC serialized.rpc
  match serialized.request with
  | none =>
      pure ⟨registry, id, none,
        some (.marshal "failed to marshal request: proto: Marshal called with nil")⟩
  | some request =>
      let header : RequestHeader := {
        methodName := serialized.rpc.name
        requestParam := true
        callId := some id
        cellBlockMeta := cellBlockMeta
      }
      sender.sendRegistered registry id header request cellblocks cellblocksLen

end Sender

end Send

end GoHBase
