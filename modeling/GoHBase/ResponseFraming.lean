import GoHBase.Lib.Varint
import GoHBase.ResponseCore

/-! Which response frames `receive` survives. The four lengths of a frame, the optional fields of
its header and the results in it come from the server, and nothing checks that they fit together. -/

namespace GoHBase

open ByteString Runtime Buffer

structure ResponseFrame where
  header : ResponseHeader
  headerPart : Bytes
  body : Bytes

def ResponseFrame.bytes (frame : ResponseFrame) : Bytes := frame.headerPart ++ frame.body

def BehindResponse (w : Protowire) (body cellblocks : Bytes) : Prop :=
  ∃ responsePart tail responseBytes, body = responsePart ++ tail ∧
    w.Delimits responsePart responseBytes ∧ cellblocks <:+ tail

section Reading

theorem Reader.readFull_ok_iff (r after : Reader) (count : Nat) (b : Bytes) :
    r.readFull count = .ok (b, after) ↔
      b.length = count ∧ r.bytes = b ++ after.bytes ∧ after.failure = r.failure := by
  unfold Reader.readFull
  constructor
  · intro read
    split at read
    · rename_i enough
      cases read
      exact ⟨List.length_take_of_le enough, (List.take_append_drop _ _).symm, rfl⟩
    · split at read
      · cases read
      · cases read
  · rintro ⟨rfl, cut, kept⟩
    have enough : b.length ≤ r.bytes.length := by
      rw [cut, List.length_append]
      omega
    rw [if_pos enough, cut, List.take_left' rfl, List.drop_left' rfl, ← kept]

theorem Reader.readFrame_ok_iff (r after : Reader) (size : UInt32) (b : Bytes) :
    r.readFrame = .ok (size, b, after) ↔
      b.length = size.toNat ∧ r.bytes = bigEndian 4 b.length ++ b ++ after.bytes ∧
        after.failure = r.failure := by
  constructor
  · intro read
    obtain ⟨⟨sz, middle⟩, first, read⟩ := (bind_ok_iff _ _ _).mp read
    obtain ⟨⟨bytes, rest⟩, second, read⟩ := (bind_ok_iff _ _ _).mp read
    cases read
    obtain ⟨width, front, kept⟩ := (r.readFull_ok_iff _ _ _).mp first
    obtain ⟨length, behind, same⟩ := (middle.readFull_ok_iff _ _ _).mp second
    refine ⟨length, ?_, same.trans kept⟩
    rw [front, behind, length, word32_read width, List.append_assoc]
  · rintro ⟨length, cut, kept⟩
    have first : r.readFull 4 = .ok (bigEndian 4 b.length, ⟨b ++ after.bytes, r.failure⟩) := by
      rw [Reader.readFull_ok_iff]
      exact ⟨length_bigEndian 4 _, by rw [cut, List.append_assoc], rfl⟩
    have word : UInt32.ofNat (fromBigEndian (bigEndian 4 b.length)) = size := by
      rw [length, word32_bigEndian]
    have second : Reader.readFull ⟨b ++ after.bytes, r.failure⟩ size.toNat = .ok (b, after) := by
      rw [Reader.readFull_ok_iff]
      exact ⟨length, rfl, kept⟩
    unfold Reader.readFrame
    simp only [first, bind, Except.bind, word, second, pure, Except.pure]

end Reading

namespace Receiver

variable {R M D : Type} (c : Receiver R M D)

structure Arrives (r : Reader) (frame : ResponseFrame) : Prop where
  small : frame.bytes.length < 2 ^ 32
  front : bigEndian 4 frame.bytes.length ++ frame.bytes <+: r.bytes
  header : ∃ headerBytes, c.protowire.Delimits frame.headerPart headerBytes ∧
    c.unmarshalHeader headerBytes = .ok frame.header

theorem readHeader_ok_iff (lawful : c.protowire.Lawful) (b : Bytes) (header : ResponseHeader)
    (headerLen : Nat) :
    c.readHeader b = .ok (header, headerLen) ↔
      ∃ headerPart body headerBytes, b = headerPart ++ body ∧ headerPart.length = headerLen ∧
        c.protowire.Delimits headerPart headerBytes ∧
        c.unmarshalHeader headerBytes = .ok header := by
  unfold readHeader
  constructor
  · intro read
    split at read
    · cases read
    · rename_i headerBytes taken consumed
      split at read
      · cases read
      · rename_i decoded unmarshalled
        cases read
        obtain ⟨headerPart, body, cut, length, delimits⟩ :=
          Protowire.consumeBytes_split lawful consumed
        exact ⟨headerPart, body, headerBytes, cut, length, delimits, unmarshalled⟩
  · rintro ⟨headerPart, body, headerBytes, rfl, rfl, delimits, unmarshalled⟩
    simp only [Protowire.consumeBytes_append lawful delimits, unmarshalled]

theorem Arrives.read {c : Receiver R M D} (lawful : c.protowire.Lawful) {r : Reader}
    {frame : ResponseFrame} (arrives : c.Arrives r frame) :
    ∃ size after, r.readFrame = .ok (size, frame.bytes, after) ∧
      frame.bytes.length = size.toNat ∧
      c.readHeader frame.bytes = .ok (frame.header, frame.headerPart.length) := by
  obtain ⟨later, cut⟩ := arrives.front
  obtain ⟨headerBytes, delimits, unmarshalled⟩ := arrives.header
  have size : frame.bytes.length = (UInt32.ofNat frame.bytes.length).toNat :=
    (UInt32.toNat_ofNat_of_lt' arrives.small).symm
  refine ⟨UInt32.ofNat frame.bytes.length, ⟨later, r.failure⟩, ?_, size, ?_⟩
  · exact (r.readFrame_ok_iff _ _ _).mpr ⟨size, cut.symm, rfl⟩
  · exact (c.readHeader_ok_iff lawful _ _ _).mpr
      ⟨frame.headerPart, frame.body, headerBytes, rfl, rfl, delimits, unmarshalled⟩

theorem Arrives.unique {c : Receiver R M D} (lawful : c.protowire.Lawful) {r : Reader}
    {frame other : ResponseFrame} (arrives : c.Arrives r frame) (again : c.Arrives r other) :
    frame = other := by
  obtain ⟨size, after, read, _, header⟩ := arrives.read lawful
  obtain ⟨_, _, reread, _, _⟩ := again.read lawful
  rw [read] at reread
  cases frame with
  | mk decoded headerPart body =>
    cases other with
    | mk decoded' headerPart' body' =>
      obtain ⟨headerBytes, delimits, unmarshalled⟩ := arrives.header
      obtain ⟨headerBytes', delimits', unmarshalled'⟩ := again.header
      simp only [Except.ok.injEq, Prod.mk.injEq, ResponseFrame.bytes] at reread
      obtain ⟨rfl, rfl, rfl⟩ := Protowire.Delimits.unique lawful reread.2.1 delimits delimits'
      rw [unmarshalled] at unmarshalled'
      cases unmarshalled'
      rfl

theorem receive_cases (lawful : c.protowire.Lawful) (sent : Outstanding R) (r : Reader) :
    (∃ text after, c.receive sent r = .ok ⟨some (serverError text), sent, [], none, after⟩) ∨
      ∃ frame callID rpc, c.Arrives r frame ∧ frame.header.callId = some callID ∧
        sent.lookup callID = some rpc := by
  unfold receive
  split
  · rename_i err _
    exact .inl ⟨err, _, rfl⟩
  · rename_i size b after framed
    obtain ⟨length, cut, _⟩ := (r.readFrame_ok_iff _ _ _).mp framed
    split
    · rename_i err _
      exact .inl ⟨err, _, rfl⟩
    · rename_i header headerLen read
      obtain ⟨headerPart, body, headerBytes, rfl, _, delimits, unmarshalled⟩ :=
        (c.readHeader_ok_iff lawful _ _ _).mp read
      have arrives : c.Arrives r ⟨header, headerPart, body⟩ :=
        ⟨length ▸ size.toNat_lt, ⟨after.bytes, cut.symm⟩, headerBytes, delimits, unmarshalled⟩
      split
      · exact .inl ⟨_, _, rfl⟩
      · rename_i callID called
        split
        · exact .inl ⟨_, _, rfl⟩
        · rename_i rpc registered
          exact .inr ⟨⟨header, headerPart, body⟩, callID, rpc, arrives, called, registered⟩

theorem receive_arrived (lawful : c.protowire.Lawful) {sent : Outstanding R} {r : Reader}
    {frame : ResponseFrame} {callID : UInt32} {rpc : R} (arrives : c.Arrives r frame)
    (called : frame.header.callId = some callID) (registered : sent.lookup callID = some rpc) :
    ∃ after, c.receive sent r =
      if c.expired rpc then pure ⟨none, sent.erase callID, [], none, after⟩
      else (do
        let (reply, cellblocks) ← c.answer rpc frame.header frame.headerPart.length
          (UInt32.ofNat frame.bytes.length) frame.bytes
        let delivered ← c.returnResult rpc reply
        pure ⟨reply.err, sent.erase callID, [(rpc, reply, delivered)], cellblocks, after⟩) := by
  obtain ⟨size, after, framed, length, read⟩ := arrives.read lawful
  have own : UInt32.ofNat frame.bytes.length = size := by
    rw [length]
    exact UInt32.ofNat_toNat
  refine ⟨after, ?_⟩
  simp only [receive, framed, read, called, registered, own]

section Answers

/-- What the answer to this RPC reads of the frame is there: an exception has its class and its
stack trace, and the cellblocks are no longer than what follows the response. -/
structure Conforms (rpc : R) (frame : ResponseFrame) : Prop where
  exception : ∀ exception, frame.header.exception = some exception →
    exception.exceptionClassName ≠ none ∧ exception.stackTrace ≠ none
  cellblocks : frame.header.exception = none →
    ∀ responsePart tail responseBytes, frame.body = responsePart ++ tail →
      c.protowire.Delimits responsePart responseBytes →
      (c.unmarshal responseBytes (c.newResponse rpc)).2 = none →
      c.deserializeCellBlocks rpc ≠ none → frame.header.cellsLen.toNat ≤ tail.length

def Deliverable (rpc : R) (frame : ResponseFrame) : Prop :=
  ∀ reply cellblocks, c.answer rpc frame.header frame.headerPart.length
      (UInt32.ofNat frame.bytes.length) frame.bytes = .ok (reply, cellblocks) →
    ∃ delivered, c.returnResult rpc reply = .ok delivered

/-- Cellblocks are cut off the end of the frame, so their length decides where they start. The
difference that gives their place wraps when they are longer than the frame. -/
theorem cellblocks_behind_iff {w : Protowire} (lawful : w.Lawful)
    {front responsePart tail responseBytes : Bytes} {size : UInt32} (cellsLen : UInt32)
    (length : (front ++ (responsePart ++ tail)).length = size.toNat)
    (delimits : w.Delimits responsePart responseBytes) :
    ((size - cellsLen).toNat ≤ (front ++ (responsePart ++ tail)).length ∧
        BehindResponse w (responsePart ++ tail)
          ((front ++ (responsePart ++ tail)).drop (size - cellsLen).toNat)) ↔
      cellsLen.toNat ≤ tail.length := by
  have sizeBound := size.toNat_lt
  have cellsBound := cellsLen.toNat_lt
  have low := UInt32.toNat_sub size cellsLen
  simp only [List.length_append] at length
  constructor
  · rintro ⟨inside, part, rest, value, cut, other, suffix⟩
    -- the response can be cut off the body in one way only
    obtain ⟨rfl, rfl, rfl⟩ := Protowire.Delimits.unique lawful cut delimits other
    have short := suffix.length_le
    simp only [List.length_drop, List.length_append] at short inside
    omega
  · intro enough
    refine ⟨?_, responsePart, tail, responseBytes, rfl, delimits, ?_⟩
    · simp only [List.length_append]
      omega
    · have past : (front ++ responsePart).length ≤ (size - cellsLen).toNat := by
        simp only [List.length_append]
        omega
      rw [← List.append_assoc, List.drop_append, List.drop_of_length_le past, List.nil_append]
      exact List.drop_suffix _ _

def Total : Prop :=
  ∀ rpc deserialize, c.deserializeCellBlocks rpc = some deserialize →
    ∀ response b, ∃ filled, deserialize response b = .ok filled

theorem Total.decodeCells {c : Receiver R M D} (total : c.Total) {rpc : R}
    {deserialize : M → Bytes → Go (M × Except String UInt32)}
    (decodes : c.deserializeCellBlocks rpc = some deserialize) (response : M) (b : Bytes) :
    ∃ reply, c.decodeCells deserialize response b = .ok reply := by
  unfold Receiver.decodeCells
  split
  · exact ⟨_, rfl⟩
  · rename_i b' _
    obtain ⟨⟨filled, outcome⟩, ran⟩ := total rpc deserialize decodes response b'
    rw [ran, ok_bind]
    cases outcome with
    | error err => exact ⟨_, rfl⟩
    | ok nread =>
        by_cases short : nread.toNat < b'.length
        · exact ⟨_, if_pos short⟩
        · exact ⟨_, if_neg short⟩

theorem answered_without_cellblocks (frame : ResponseFrame) (reply : Reply M) :
    Returns (pure (reply, none)) (fun answered : Reply M × Option Bytes =>
      ∀ cellblocks ∈ answered.2, BehindResponse c.protowire frame.body cellblocks) := by
  rw [returns_pure]
  intro cellblocks absent
  cases absent

theorem answerCells_returns_iff {c : Receiver R M D} (lawful : c.protowire.Lawful)
    (total : c.Total) {rpc : R} {frame : ResponseFrame} {size : UInt32} {response : M}
    {responsePart tail responseBytes : Bytes} (length : frame.bytes.length = size.toNat)
    (cut : frame.body = responsePart ++ tail)
    (delimits : c.protowire.Delimits responsePart responseBytes) :
    Returns (c.answerCells rpc frame.header size frame.bytes response)
        (fun answered =>
          ∀ cellblocks ∈ answered.2, BehindResponse c.protowire frame.body cellblocks) ↔
      (c.deserializeCellBlocks rpc ≠ none → frame.header.cellsLen.toNat ≤ tail.length) := by
  unfold answerCells
  split
  · rename_i absent
    exact iff_of_true (c.answered_without_cellblocks frame _) fun decodes => absurd absent decodes
  · rename_i deserialize decodes
    have decoder : c.deserializeCellBlocks rpc ≠ none := by simp [decodes]
    rw [forall_prop_of_true decoder]
    by_cases carried : 0 < frame.header.cellsLen
    · simp only [ResponseFrame.bytes, cut] at length
      obtain ⟨reply, answered⟩ := total.decodeCells decodes response
        (frame.bytes.drop (size - frame.header.cellsLen).toNat)
      rw [if_pos carried, returns_bind, returns_sliceFrom, answered, ok_bind, returns_pure]
      simp only [Option.mem_some_iff, forall_eq', ResponseFrame.bytes, cut]
      exact cellblocks_behind_iff lawful frame.header.cellsLen length delimits
    · have absent : frame.header.cellsLen.toNat = 0 := by
        have bound := mt UInt32.lt_iff_toNat_lt.mpr carried
        simp only [UInt32.toNat_zero] at bound
        omega
      rw [if_neg carried]
      exact iff_of_true (c.answered_without_cellblocks frame _) (by omega)

theorem exception_returns_iff {rpc : R} {frame : ResponseFrame} {exception : ExceptionResponse}
    (thrown : frame.header.exception = some exception) (size : UInt32) :
    Returns (c.answer rpc frame.header frame.headerPart.length size frame.bytes)
        (fun answered =>
          ∀ cellblocks ∈ answered.2, BehindResponse c.protowire frame.body cellblocks) ↔
      exception.exceptionClassName ≠ none ∧ exception.stackTrace ≠ none := by
  simp only [answer, thrown, returns_bind, returns_deref, Option.ne_none_iff_exists']
  constructor
  · rintro ⟨name, named, trace, traced, _⟩
    exact ⟨⟨name, named⟩, ⟨trace, traced⟩⟩
  · rintro ⟨⟨name, named⟩, ⟨trace, traced⟩⟩
    exact ⟨name, named, trace, traced, c.answered_without_cellblocks frame _⟩

theorem response_returns_iff {c : Receiver R M D} (lawful : c.protowire.Lawful)
    (total : c.Total) {rpc : R} {frame : ResponseFrame} {size : UInt32}
    (calm : frame.header.exception = none) (length : frame.bytes.length = size.toNat) :
    Returns (c.answer rpc frame.header frame.headerPart.length size frame.bytes)
        (fun answered =>
          ∀ cellblocks ∈ answered.2, BehindResponse c.protowire frame.body cellblocks) ↔
      ∀ responsePart tail responseBytes, frame.body = responsePart ++ tail →
        c.protowire.Delimits responsePart responseBytes →
        (c.unmarshal responseBytes (c.newResponse rpc)).2 = none →
        c.deserializeCellBlocks rpc ≠ none → frame.header.cellsLen.toNat ≤ tail.length := by
  have body : sliceFrom frame.bytes frame.headerPart.length = .ok frame.body :=
    sliceFrom_append _ _ _ rfl
  simp only [answer, calm, body, ok_bind]
  cases consumed : c.protowire.consumeBytes frame.body with
  | error fault =>
      apply iff_of_true (c.answered_without_cellblocks frame _)
      intro responsePart tail responseBytes cut delimits
      rw [cut, Protowire.consumeBytes_append lawful delimits] at consumed
      cases consumed
  | ok read =>
      obtain ⟨responseBytes, responseLen⟩ := read
      obtain ⟨responsePart, tail, cut, _, delimits⟩ := Protowire.consumeBytes_split lawful consumed
      have only {part rest value : Bytes} (other : frame.body = part ++ rest)
          (delimited : c.protowire.Delimits part value) : rest = tail ∧ value = responseBytes :=
        (Protowire.Delimits.unique lawful (other.symm.trans cut) delimited delimits).2
      dsimp only
      cases unmarshalled : c.unmarshal responseBytes (c.newResponse rpc) with
      | mk response failed =>
          cases failed with
          | some err =>
              apply iff_of_true (c.answered_without_cellblocks frame _)
              intro part rest value other delimited decoded
              rw [(only other delimited).2, unmarshalled] at decoded
              cases decoded
          | none =>
              rw [answerCells_returns_iff lawful total length cut delimits]
              constructor
              · intro bounded part rest value other delimited _ decodes
                rw [(only other delimited).1]
                exact bounded decodes
              · intro bounded
                exact bounded responsePart tail responseBytes cut delimits (by rw [unmarshalled])

theorem answer_returns_iff {c : Receiver R M D} (lawful : c.protowire.Lawful) (total : c.Total)
    (rpc : R) (frame : ResponseFrame) {size : UInt32} (length : frame.bytes.length = size.toNat) :
    Returns (c.answer rpc frame.header frame.headerPart.length size frame.bytes)
        (fun answered =>
          ∀ cellblocks ∈ answered.2, BehindResponse c.protowire frame.body cellblocks) ↔
      c.Conforms rpc frame := by
  cases status : frame.header.exception with
  | some exception =>
      rw [c.exception_returns_iff status]
      constructor
      · intro present
        refine ⟨fun other same => ?_, fun calm => ?_⟩
        · rw [status] at same
          cases same
          exact present
        · rw [status] at calm
          cases calm
      · exact fun conforms => conforms.exception exception status
  | none =>
      rw [response_returns_iff lawful total status length]
      constructor
      · intro bounded
        refine ⟨fun exception thrown => ?_, fun _ => bounded⟩
        rw [status] at thrown
        cases thrown
      · exact fun conforms => conforms.cellblocks status

end Answers

/-- The frame is answered to the RPC that is registered under its call ID, and to no other. -/
structure Attributed (sent : Outstanding R) (frame : ResponseFrame) (callID : UInt32) (rpc : R)
    (result : Reception R M D) : Prop where
  called : frame.header.callId = some callID
  registered : sent.lookup callID = some rpc
  unregistered : result.sent = sent.erase callID
  expired : c.expired rpc = true → result.returned = []
  once : c.expired rpc = false → ∃ reply delivered, result.returned = [(rpc, reply, delivered)]
  apart : ∀ cellblocks ∈ result.cellblocks, BehindResponse c.protowire frame.body cellblocks

inductive Handled (sent : Outstanding R) (r : Reader) (result : Reception R M D) : Prop
  | refused (text : String) (failed : result.err = some (serverError text))
      (kept : result.sent = sent) (silent : result.returned = [])
      (unused : result.cellblocks = none)
  | attributed (frame : ResponseFrame) (callID : UInt32) (rpc : R) (arrives : c.Arrives r frame)
      (attributed : c.Attributed sent frame callID rpc result)

theorem delivered_iff {rpc : R} {frame : ResponseFrame} {post : Reply M × Option Bytes → Prop}
    {good : Reception R M D → Prop} (result : Reply M × Option Bytes → D → Reception R M D)
    (meets : ∀ answered delivered, good (result answered delivered) ↔ post answered) :
    Returns (do
        let answered ← c.answer rpc frame.header frame.headerPart.length
          (UInt32.ofNat frame.bytes.length) frame.bytes
        let delivered ← c.returnResult rpc answered.1
        pure (result answered delivered)) good ↔
      Returns (c.answer rpc frame.header frame.headerPart.length
        (UInt32.ofNat frame.bytes.length) frame.bytes) post ∧ c.Deliverable rpc frame := by
  simp only [returns_bind, returns_pure, meets]
  constructor
  · rintro ⟨⟨reply, cellblocks⟩, ran, delivered, handed, met⟩
    refine ⟨⟨_, ran, met⟩, fun reply' cellblocks' again => ?_⟩
    cases ran.symm.trans again
    exact ⟨delivered, handed⟩
  · rintro ⟨⟨⟨reply, cellblocks⟩, ran, met⟩, deliverable⟩
    obtain ⟨delivered, handed⟩ := deliverable reply cellblocks ran
    exact ⟨_, ran, delivered, handed, met⟩

def shortHeader : Bytes → Except String ResponseHeader
  | [8, id, 18, 0] => .ok ⟨some id.toUInt32, some ⟨none, none⟩, none⟩
  | [8, id, 26, 2, 8, length] => .ok ⟨some id.toUInt32, none, some ⟨some length.toUInt32⟩⟩
  | _ => .error "proto: cannot parse invalid wire-format data"

def plainReceiver : Receiver Unit Bytes (Reply Bytes) where
  protowire := Varint.protowire
  unmarshalHeader := shortHeader
  newResponse := fun _ => []
  unmarshal := fun data _ => (data, none)
  decompressCellblocks := none
  deserializeCellBlocks := fun _ => some fun response b =>
    .ok (response ++ b, .ok (UInt32.ofNat b.length))
  expired := fun _ => false
  returnResult := fun _ reply => .ok reply

def oneOutstanding : Outstanding Unit := (∅ : Outstanding Unit).insert 1 ()

theorem plainReceiver_total : plainReceiver.Total := by
  intro rpc deserialize decodes response b
  cases decodes
  exact ⟨_, rfl⟩

def cellsReader : Reader := ⟨[0, 0, 0, 10, 6, 8, 1, 26, 2, 8, 2, 0, 7, 7], "EOF"⟩

end Receiver

end GoHBase
