import GoHBase.Lib.Returns
import GoHBase.Lib.Protowire
import GoHBase.MultiCore

/-! One response on the wire: what `receive` reads, which RPC it answers and with what. The
libraries protobuf and protowire, the decompressor and what the RPCs do with their cellblocks and
results are parameters. -/

namespace GoHBase

open ByteString Runtime Buffer

structure ExceptionResponse where
  exceptionClassName : Option String
  stackTrace : Option Bytes
  deriving DecidableEq, Repr

structure CellBlockMeta where
  length : Option UInt32
  deriving DecidableEq, Repr

structure ResponseHeader where
  callId : Option UInt32
  exception : Option ExceptionResponse
  cellBlockMeta : Option CellBlockMeta
  deriving DecidableEq, Repr

/-- `cellsLen`; `GetLength` of a missing length is 0. -/
def ResponseHeader.cellsLen (header : ResponseHeader) : UInt32 :=
  match header.cellBlockMeta with
  | none => 0
  | some cellBlockMeta => cellBlockMeta.length.getD 0

/-- The bytes that the server still sends, and what a read reports behind them. -/
structure Reader where
  bytes : Bytes
  failure : String
  deriving DecidableEq, Repr

def Reader.readFull (r : Reader) (count : Nat) : Except String (Bytes × Reader) :=
  if count ≤ r.bytes.length then .ok (r.bytes.take count, { r with bytes := r.bytes.drop count })
  else if r.failure = "EOF" ∧ r.bytes ≠ [] then .error "unexpected EOF"
  else .error r.failure

def serverError (text : String) : RpcError := ⟨.server, text, []⟩

def retryableError (text : String) : RpcError := ⟨.retryable, text, []⟩

structure Reply (M : Type) where
  response : Option M
  err : Option RpcError

/-- `unmarshal` and `deserializeCellBlocks` fill the message that they are given. An RPC without
a cellblock decoder has none. `returnResult` hands out the result of an RPC, to its channel or, for
a batch, to those of its calls. -/
structure Receiver (R M D : Type) where
  protowire : Protowire
  unmarshalHeader : Bytes → Except String ResponseHeader
  newResponse : R → M
  unmarshal : Bytes → M → M × Option String
  decompressCellblocks : Option (Bytes → Except String Bytes)
  deserializeCellBlocks : R → Option (M → Bytes → Go (M × Except String UInt32))
  expired : R → Bool
  returnResult : R → Reply M → Go D

abbrev Outstanding (R : Type) := AList fun _ : UInt32 => R

/-- What `receive` leaves. `cellblocks` is the part of the frame that it took for cellblocks. -/
structure Reception (R M D : Type) where
  err : Option RpcError
  sent : Outstanding R
  returned : List (R × Reply M × D)
  cellblocks : Option Bytes
  reader : Reader

def Reader.readFrame (r : Reader) : Except String (UInt32 × Bytes × Reader) := do
  let (sz, r) ← r.readFull 4
  let size := UInt32.ofNat (fromBigEndian sz)
  let (b, r) ← r.readFull size.toNat
  pure (size, b, r)

namespace Receiver

variable {R M D : Type} (c : Receiver R M D)

def readHeader (b : Bytes) : Except String (ResponseHeader × Nat) :=
  match c.protowire.consumeBytes b with
  | .error err => .error ("failed to decode the response header: " ++ err)
  | .ok (headerBytes, headerLen) =>
      match c.unmarshalHeader headerBytes with
      | .error err => .error ("failed to decode the response header: " ++ err)
      | .ok header => .ok (header, headerLen)

def decompress (b : Bytes) : Except String Bytes :=
  match c.decompressCellblocks with
  | none => .ok b
  | some decompressCellblocks => decompressCellblocks b

def decodeCells (deserialize : M → Bytes → Go (M × Except String UInt32)) (response : M)
    (b : Bytes) : Go (Reply M) :=
  match c.decompress b with
  | .error err =>
      pure ⟨some response, some (retryableError ("failed to decompress the response: " ++ err))⟩
  | .ok b => do
      match ← deserialize response b with
      | (response, .error err) =>
          pure ⟨some response, some (retryableError ("failed to decode the response: " ++ err))⟩
      | (response, .ok nread) =>
          let length := b.length
          if nread.toNat < length then
            pure ⟨some response, some (retryableError
              s!"short read: buffer length {length}, read {nread}")⟩
          else pure ⟨some response, none⟩

/-- `receive` from `cellsLen` on. -/
def answerCells (rpc : R) (header : ResponseHeader) (size : UInt32) (b : Bytes) (response : M) :
    Go (Reply M × Option Bytes) :=
  match c.deserializeCellBlocks rpc with
  | none => pure (⟨some response, none⟩, none)
  | some deserialize =>
      if 0 < header.cellsLen then do
        let cells ← sliceFrom b (size - header.cellsLen).toNat
        let reply ← c.decodeCells deserialize response cells
        pure (reply, some cells)
      else pure (⟨some response, none⟩, none)

/-- `receive` for an RPC that still waits: the arguments of the deferred `returnResult`, and the
cellblocks. -/
def answer (rpc : R) (header : ResponseHeader) (headerLen : Nat) (size : UInt32) (b : Bytes) :
    Go (Reply M × Option Bytes) :=
  match header.exception with
  | some exception => do
      let exceptionClassName ← deref exception.exceptionClassName
      let stackTrace ← deref exception.stackTrace
      pure (⟨none, some (exceptionToError exceptionClassName stackTrace)⟩, none)
  | none => do
      let response := c.newResponse rpc
      match c.protowire.consumeBytes (← sliceFrom b headerLen) with
      | .error err =>
          pure (⟨some response, some (retryableError
            ("failed to decode the response: " ++ err))⟩, none)
      | .ok (responseBytes, _) =>
          match c.unmarshal responseBytes response with
          | (response, some err) =>
              pure (⟨some response, some (retryableError
                ("failed to decode the response: " ++ err))⟩, none)
          | (response, none) => c.answerCells rpc header size b response

/-- The update of the read deadline by `inFlightDown` is taken to succeed. A panic stays one when
the deferred `returnResult` has run. -/
def receive (sent : Outstanding R) (r : Reader) : Go (Reception R M D) :=
  match r.readFrame with
  | .error err => pure ⟨some (serverError err), sent, [], none, { r with bytes := [] }⟩
  | .ok (size, b, r) =>
      match c.readHeader b with
      | .error err => pure ⟨some (serverError err), sent, [], none, r⟩
      | .ok (header, headerLen) =>
          match header.callId with
          | none =>
              pure ⟨some (serverError "got a response with a nonsensical call ID"), sent, [], none,
                r⟩
          | some callID =>
              match sent.lookup callID with
              | none =>
                  pure ⟨some (serverError
                    s!"got a response with an unexpected call ID: {callID}"), sent, [], none, r⟩
              | some rpc =>
                  if c.expired rpc then pure ⟨none, sent.erase callID, [], none, r⟩
                  else do
                    let (reply, cellblocks) ← c.answer rpc header headerLen size b
                    let delivered ← c.returnResult rpc reply
                    pure ⟨reply.err, sent.erase callID, [(rpc, reply, delivered)], cellblocks, r⟩

end Receiver

end GoHBase
