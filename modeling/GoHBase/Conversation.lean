import GoHBase.Lib.Frames
import GoHBase.RequestFraming
import GoHBase.ResponseFraming

/-!
A region client and its server as two parties with two streams of bytes between them. Goroutines of
the client register and write requests, the server reads them and answers in any order, and the
client reads the answers. While call IDs are not reused too early, each RPC gets the answer to its
own request.
-/

namespace GoHBase.Conversation

open ByteString Runtime Buffer Frames

variable {P M D : Type}

structure Ticket (P : Type) where
  id : UInt32
  rpc : Outgoing P

/-- `unsent` are the RPCs that some goroutine has registered, with what it is about to write unless
marshalling failed. What was written, answered and delivered so far is recorded. -/
structure Link (P M : Type) where
  registry : Registry P
  unsent : List (Ticket P × Option Bytes)
  up : Bytes
  pending : List RequestFrame
  down : Bytes
  written : List (Outgoing P × Bytes)
  answered : List (RequestFrame × ResponseFrame)
  delivered : List (Outgoing P × Reply M)

def Link.new : Link P M := ⟨⟨0, ∅⟩, [], [], [], [], [], [], []⟩

/-- The two parties; `serves` are the answers that the server may give to a request. -/
structure Parties (P M D : Type) where
  sender : Sender P
  receiver : Receiver (Outgoing P) M D
  serves : RequestFrame → ResponseFrame → Prop

inductive Step (parties : Parties P M D) : Link P M → Link P M → Prop
  | register {l : Link P M} {rpc own : Outgoing P} {run : SendRun} {result : SendResult P}
      (fresh : l.registry.sent.lookup (l.registry.id + 1) = none)
      (sent : parties.sender.send l.registry run rpc = .ok result)
      (registered : result.registry.sent.lookup result.id = some own)
      (small : ∀ bytes ∈ result.written, bytes.length < 2 ^ 32 + 4) :
      Step parties l { l with
        registry := result.registry
        unsent := l.unsent ++ [(⟨result.id, own⟩, result.written)] }
  | write {l : Link P M} {before after : List (Ticket P × Option Bytes)} {t : Ticket P}
      {bytes : Bytes} (next : l.unsent = before ++ (t, some bytes) :: after) :
      Step parties l { l with
        unsent := before ++ after
        up := l.up ++ bytes
        written := l.written ++ [(t.rpc, bytes)] }
  | unregister {l : Link P M} {before after : List (Ticket P × Option Bytes)} {t : Ticket P}
      (next : l.unsent = before ++ (t, none) :: after) :
      Step parties l { l with
        registry := { l.registry with sent := l.registry.sent.erase t.id }
        unsent := before ++ after }
  | read {l : Link P M} {request : RequestFrame} {rest : Bytes}
      (small : (request.body parties.sender.protowire).length < 2 ^ 32)
      (front : l.up = request.wire parties.sender.protowire ++ rest) :
      Step parties l { l with up := rest, pending := l.pending ++ [request] }
  | answer {l : Link P M} {before after : List RequestFrame} {request : RequestFrame}
      {response : ResponseFrame} (next : l.pending = before ++ request :: after)
      (serves : parties.serves request response) :
      Step parties l { l with
        pending := before ++ after
        down := l.down ++ framed response.bytes
        answered := l.answered ++ [(request, response)] }
  | receive {l : Link P M} {payload rest : Bytes} {failure : String}
      {result : Reception (Outgoing P) M D} (small : payload.length < 2 ^ 32)
      (front : l.down = framed payload ++ rest)
      (received : parties.receiver.receive l.registry.sent ⟨l.down, failure⟩ = .ok result) :
      Step parties l { l with
        registry := { l.registry with sent := result.sent }
        down := result.reader.bytes
        delivered := l.delivered ++ result.returned.map fun entry => (entry.1, entry.2.1) }

/-- The libraries keep their laws, and the server answers under the call ID of the request with a
frame that the client can read and hand out. -/
structure Parties.Sound (parties : Parties P M D) : Prop where
  protobuf : parties.sender.protobuf.Consistent
  writer : parties.sender.protowire.Lawful
  reader : parties.receiver.protowire.Lawful
  total : parties.receiver.Total
  small : ∀ request response, parties.serves request response → response.bytes.length < 2 ^ 32
  readable : ∀ request response, parties.serves request response →
    ∃ headerBytes, parties.receiver.protowire.Delimits response.headerPart headerBytes ∧
      parties.receiver.unmarshalHeader headerBytes = .ok response.header
  attributed : ∀ request response header, parties.serves request response →
    parties.sender.protobuf.unmarshalHeader request.header = some header →
    response.header.callId = header.callId
  conforms : ∀ request response header rpc, parties.serves request response →
    parties.sender.protobuf.unmarshalHeader request.header = some header →
    header.methodName = Outgoing.name rpc →
    parties.receiver.Conforms rpc response ∧ parties.receiver.Deliverable rpc response

variable {parties : Parties P M D}

/-- A request that was made for the RPC under its call ID. Serializing a batch changes it. -/
structure Asks (sender : Sender P) (t : Ticket P) (request : RequestFrame) : Prop where
  small : (request.body sender.protowire).length < 2 ^ 32
  tells : ∃ rpc run serialized, Outgoing.serialize rpc run = .ok serialized ∧
    serialized.rpc = t.rpc ∧ Tells sender run serialized t.id request

theorem Asks.header {sender : Sender P} {t : Ticket P} {request : RequestFrame}
    (asks : Asks sender t request) :
    ∃ header, sender.protobuf.unmarshalHeader request.header = some header ∧
      header.callId = some t.id ∧ header.methodName = t.rpc.name := by
  obtain ⟨_, _, serialized, _, own, tells⟩ := asks.tells
  obtain ⟨header, read, called, named, _⟩ := tells.header
  exact ⟨header, read, called, own ▸ named⟩

def Decodes (parties : Parties P M D) (rpc : Outgoing P) (response : ResponseFrame)
    (reply : Reply M) : Prop :=
  ∃ size cellblocks, response.bytes.length = size.toNat ∧
    parties.receiver.answer rpc response.header response.headerPart.length size response.bytes =
      .ok (reply, cellblocks)

theorem send_asks {sender : Sender P} (consistent : sender.protobuf.Consistent)
    (lawful : sender.protowire.Lawful) {registry : Registry P} {run : SendRun} {rpc : Outgoing P}
    {result : SendResult P} (sent : sender.send registry run rpc = .ok result) :
    ∃ own, result.id = registry.id + 1 ∧
      result.registry = ⟨registry.id + 1, registry.sent.insert (registry.id + 1) own⟩ ∧
      ∀ bytes ∈ result.written, bytes.length < 2 ^ 32 + 4 →
        ∃ request, bytes = request.wire sender.protowire ∧
          Asks sender ⟨registry.id + 1, own⟩ request := by
  obtain ⟨serialized, prepared, _⟩ := (bind_ok_iff _ _ _).mp sent
  obtain ⟨numbered, kept, ⟨_, nothing⟩ | ⟨frame, written, tells⟩⟩ :=
    sender.send_tells consistent lawful prepared sent
  · refine ⟨serialized.rpc, numbered, kept, ?_⟩
    rw [nothing]
    intro bytes impossible
    cases impossible
  · refine ⟨serialized.rpc, numbered, kept, fun bytes handed short => ?_⟩
    obtain rfl : _ = bytes := Option.some.inj (written.symm.trans handed)
    obtain ⟨fits, wire⟩ := sender.numbered_eq_wire short
    exact ⟨frame, wire, fits, rpc, run, serialized, prepared, rfl, tells fits⟩

structure Received (parties : Parties P M D) (sent : Outstanding (Outgoing P)) (t : Ticket P)
    (response : ResponseFrame) (rest : Bytes) (result : Reception (Outgoing P) M D) : Prop where
  sent : result.sent = sent.erase t.id
  reader : result.reader.bytes = rest
  returned : if parties.receiver.expired t.rpc then result.returned = []
    else ∃ reply delivered, result.returned = [(t.rpc, reply, delivered)] ∧
      Decodes parties t.rpc response reply

theorem receive_front (sound : parties.Sound) {sent : Outstanding (Outgoing P)} {t : Ticket P}
    {request : RequestFrame} {response : ResponseFrame} (asks : Asks parties.sender t request)
    (serves : parties.serves request response) (registered : sent.lookup t.id = some t.rpc)
    (rest : Bytes) (failure : String) :
    ∃ result, parties.receiver.receive sent ⟨framed response.bytes ++ rest, failure⟩ =
        .ok result ∧ Received parties sent t response rest result := by
  obtain ⟨header, read, called, named⟩ := asks.header
  obtain ⟨headerBytes, delimits, unmarshalled⟩ := sound.readable request response serves
  have size : response.bytes.length = (UInt32.ofNat response.bytes.length).toNat :=
    (UInt32.toNat_ofNat_of_lt' (sound.small request response serves)).symm
  have whole : Reader.readFrame ⟨framed response.bytes ++ rest, failure⟩ =
      .ok (UInt32.ofNat response.bytes.length, response.bytes, ⟨rest, failure⟩) :=
    (Reader.readFrame_ok_iff _ _ _ _).mpr ⟨size, rfl, rfl⟩
  have head : parties.receiver.readHeader response.bytes =
      .ok (response.header, response.headerPart.length) :=
    (parties.receiver.readHeader_ok_iff sound.reader _ _ _).mpr
      ⟨response.headerPart, response.body, headerBytes, rfl, rfl, delimits, unmarshalled⟩
  have id : response.header.callId = some t.id :=
    (sound.attributed request response header serves read).trans called
  unfold Receiver.receive
  simp only [whole, head, id, registered]
  by_cases expired : parties.receiver.expired t.rpc = true
  · rw [if_pos expired]
    refine ⟨_, rfl, rfl, rfl, ?_⟩
    rw [if_pos expired]
  · rw [if_neg expired]
    obtain ⟨conforms, deliverable⟩ := sound.conforms request response header t.rpc serves read named
    obtain ⟨⟨reply, cellblocks⟩, answered, _⟩ :=
      (Receiver.answer_returns_iff sound.reader sound.total t.rpc response size).mpr conforms
    obtain ⟨delivered, handed⟩ := deliverable reply cellblocks answered
    simp only [answered, ok_bind, handed]
    refine ⟨_, rfl, rfl, rfl, ?_⟩
    rw [if_neg expired]
    exact ⟨reply, delivered, rfl, _, cellblocks, size, answered⟩

/-- The tickets of all that is under way: requests in the upward stream, requests at the server, and
answers in the downward stream. -/
structure View (P : Type) where
  ups : List (Ticket P × RequestFrame)
  waiting : List (Ticket P × RequestFrame)
  downs : List (Ticket P × RequestFrame × ResponseFrame)

def View.underway (v : View P) : Multiset (Ticket P) :=
  (v.ups.map Prod.fst : Multiset (Ticket P)) + (v.waiting.map Prod.fst : Multiset (Ticket P)) +
    (v.downs.map Prod.fst : Multiset (Ticket P))

def View.tickets (v : View P) (l : Link P M) : Multiset (Ticket P) :=
  (l.unsent.map Prod.fst : Multiset (Ticket P)) + v.underway

def Placed (parties : Parties P M D) (l : Link P M) (t : Ticket P) (request : RequestFrame) :
    Prop :=
  Asks parties.sender t request ∧ (t.rpc, request.wire parties.sender.protowire) ∈ l.written

structure Coherent (parties : Parties P M D) (l : Link P M) (v : View P) : Prop where
  keys : (v.tickets l).map Ticket.id = (l.registry.sent.keys : Multiset UInt32)
  registered : ∀ t ∈ v.tickets l, l.registry.sent.lookup t.id = some t.rpc
  unsent : ∀ t bytes, (t, some bytes) ∈ l.unsent →
    ∃ request, bytes = request.wire parties.sender.protowire ∧ Asks parties.sender t request
  up : l.up = (v.ups.map fun u => u.2.body parties.sender.protowire).flatMap framed
  ups : ∀ u ∈ v.ups, Placed parties l u.1 u.2
  pending : l.pending = v.waiting.map Prod.snd
  waiting : ∀ u ∈ v.waiting, Placed parties l u.1 u.2
  down : l.down = (v.downs.map fun d => d.2.2.bytes).flatMap framed
  downs : ∀ d ∈ v.downs, Placed parties l d.1 d.2.1 ∧ parties.serves d.2.1 d.2.2 ∧
    (d.2.1, d.2.2) ∈ l.answered
  delivered : ∀ rpc reply, (rpc, reply) ∈ l.delivered → ∃ t request response,
    t.rpc = rpc ∧ Placed parties l t request ∧ (request, response) ∈ l.answered ∧
      Decodes parties rpc response reply
  once : (l.delivered.map Prod.fst : Multiset (Outgoing P)) + v.underway.map Ticket.rpc ≤
    (l.written.map Prod.fst : Multiset (Outgoing P))

theorem Coherent.new : Coherent parties (Link.new : Link P M) ⟨[], [], []⟩ where
  keys := rfl
  registered t member := absurd member (Multiset.notMem_zero t)
  unsent := by simp [Link.new]
  up := rfl
  ups := by simp
  pending := rfl
  waiting := by simp
  down := rfl
  downs := by simp
  delivered := by simp [Link.new]
  once := le_rfl

section Tickets

variable {sent : Outstanding (Outgoing P)} {tickets rest : Multiset (Ticket P)} {t : Ticket P}

theorem insert_ticket (keys : tickets.map Ticket.id = (sent.keys : Multiset UInt32))
    (registered : ∀ t ∈ tickets, sent.lookup t.id = some t.rpc)
    (fresh : sent.lookup t.id = none) :
    (t ::ₘ tickets).map Ticket.id = ((sent.insert t.id t.rpc).keys : Multiset UInt32) ∧
      ∀ other ∈ t ::ₘ tickets, (sent.insert t.id t.rpc).lookup other.id = some other.rpc := by
  have absent : t.id ∉ sent.keys := AList.lookup_eq_none.mp fresh
  constructor
  · rw [Multiset.map_cons, keys, AList.keys_insert, List.erase_of_not_mem absent,
      Multiset.cons_coe]
  · intro other member
    rcases Multiset.mem_cons.mp member with rfl | old
    · exact AList.lookup_insert _
    · have differs : other.id ≠ t.id := by
        intro same
        have known := registered other old
        rw [same, fresh] at known
        cases known
      rw [AList.lookup_insert_ne differs]
      exact registered other old

theorem erase_ticket (keys : tickets.map Ticket.id = (sent.keys : Multiset UInt32))
    (registered : ∀ t ∈ tickets, sent.lookup t.id = some t.rpc) (split : tickets = t ::ₘ rest) :
    rest.map Ticket.id = ((sent.erase t.id).keys : Multiset UInt32) ∧
      ∀ other ∈ rest, (sent.erase t.id).lookup other.id = some other.rpc := by
  subst split
  rw [Multiset.map_cons] at keys
  constructor
  · rw [AList.keys_erase, ← Multiset.coe_erase, ← keys, Multiset.erase_cons_head]
  · intro other member
    have nodup : (t.id ::ₘ rest.map Ticket.id).Nodup := by
      rw [keys]
      exact Multiset.coe_nodup.mpr sent.nodupKeys
    have differs : other.id ≠ t.id := by
      intro same
      have inside := Multiset.mem_map_of_mem Ticket.id member
      rw [same] at inside
      exact (Multiset.nodup_cons.mp nodup).1 inside
    rw [AList.lookup_erase_ne differs]
    exact registered other (Multiset.mem_cons_of_mem member)

end Tickets

section Steps

variable {l : Link P M} {v : View P}

theorem Placed.mono {l' : Link P M} {t : Ticket P} {request : RequestFrame}
    (grows : ∀ entry ∈ l.written, entry ∈ l'.written) (placed : Placed parties l t request) :
    Placed parties l' t request :=
  ⟨placed.1, grows _ placed.2⟩

theorem Coherent.register (sound : parties.Sound) (coherent : Coherent parties l v)
    {rpc own : Outgoing P} {run : SendRun} {result : SendResult P}
    (fresh : l.registry.sent.lookup (l.registry.id + 1) = none)
    (sent : parties.sender.send l.registry run rpc = .ok result)
    (registered : result.registry.sent.lookup result.id = some own)
    (small : ∀ bytes ∈ result.written, bytes.length < 2 ^ 32 + 4) :
    Coherent parties { l with
      registry := result.registry
      unsent := l.unsent ++ [(⟨result.id, own⟩, result.written)] } v := by
  obtain ⟨kept, numbered, changed, asks⟩ := send_asks sound.protobuf sound.writer sent
  have same : own = kept := by
    rw [numbered, changed] at registered
    exact Option.some.inj (registered.symm.trans (AList.lookup_insert _))
  subst same
  obtain ⟨keys, all⟩ := insert_ticket (t := ⟨l.registry.id + 1, own⟩) coherent.keys
    coherent.registered fresh
  rw [numbered, changed]
  have more : v.tickets { l with
      registry := ⟨l.registry.id + 1, l.registry.sent.insert (l.registry.id + 1) own⟩
      unsent := l.unsent ++ [(⟨l.registry.id + 1, own⟩, result.written)] } =
        ⟨l.registry.id + 1, own⟩ ::ₘ v.tickets l := by
    simp only [View.tickets, List.map_append, List.map_cons, List.map_nil, ← Multiset.coe_add,
      Multiset.coe_singleton, ← Multiset.singleton_add]
    abel
  refine { coherent with keys := ?_, registered := ?_, unsent := ?_ }
  · rw [more]
    exact keys
  · rw [more]
    exact all
  · intro t bytes member
    rcases List.mem_append.mp member with old | new
    · exact coherent.unsent t bytes old
    · obtain ⟨rfl, handed⟩ := Prod.mk.inj (List.mem_singleton.mp new)
      exact asks bytes handed.symm (small bytes handed.symm)

theorem Coherent.write (coherent : Coherent parties l v)
    {before after : List (Ticket P × Option Bytes)} {t : Ticket P} {bytes : Bytes}
    (next : l.unsent = before ++ (t, some bytes) :: after) :
    ∃ v', Coherent parties { l with
      unsent := before ++ after
      up := l.up ++ bytes
      written := l.written ++ [(t.rpc, bytes)] } v' := by
  have member : (t, some bytes) ∈ l.unsent := by
    rw [next]
    exact List.mem_append_right _ List.mem_cons_self
  obtain ⟨request, rfl, asks⟩ := coherent.unsent t bytes member
  have grows : ∀ entry ∈ l.written,
      entry ∈ l.written ++ [(t.rpc, request.wire parties.sender.protowire)] :=
    fun entry old => List.mem_append_left _ old
  have more : View.underway ⟨v.ups ++ [(t, request)], v.waiting, v.downs⟩ =
      t ::ₘ v.underway := by
    simp only [View.underway, List.map_append, List.map_cons, List.map_nil, ← Multiset.coe_add,
      Multiset.coe_singleton, ← Multiset.singleton_add]
    abel
  have same : View.tickets ⟨v.ups ++ [(t, request)], v.waiting, v.downs⟩ { l with
      unsent := before ++ after
      up := l.up ++ request.wire parties.sender.protowire
      written := l.written ++ [(t.rpc, request.wire parties.sender.protowire)] } = v.tickets l := by
    simp only [View.tickets, more, next, List.map_append, List.map_cons, ← Multiset.coe_add,
      ← Multiset.cons_coe, ← Multiset.singleton_add]
    abel
  refine ⟨⟨v.ups ++ [(t, request)], v.waiting, v.downs⟩, { coherent with
    keys := ?_, registered := ?_, unsent := ?_, up := ?_, ups := ?_, waiting := ?_, downs := ?_,
    delivered := ?_, once := ?_ }⟩
  · rw [same]
    exact coherent.keys
  · rw [same]
    exact coherent.registered
  · intro other bytes inside
    refine coherent.unsent other bytes ?_
    rw [next]
    rcases List.mem_append.mp inside with early | late
    · exact List.mem_append_left _ early
    · exact List.mem_append_right _ (List.mem_cons_of_mem _ late)
  · rw [List.map_append, List.flatMap_append, ← coherent.up]
    exact congrArg (l.up ++ ·) (List.append_nil _).symm
  · intro u inside
    rcases List.mem_append.mp inside with old | new
    · exact (coherent.ups u old).mono grows
    · rw [List.mem_singleton.mp new]
      exact ⟨asks, List.mem_append_right _ List.mem_cons_self⟩
  · exact fun u inside => (coherent.waiting u inside).mono grows
  · intro d inside
    obtain ⟨placed, rest⟩ := coherent.downs d inside
    exact ⟨placed.mono grows, rest⟩
  · intro rpc reply inside
    obtain ⟨own, request, response, same, placed, rest⟩ := coherent.delivered rpc reply inside
    exact ⟨own, request, response, same, placed.mono grows, rest⟩
  · have grown : ((l.written ++ [(t.rpc, request.wire parties.sender.protowire)]).map Prod.fst :
          Multiset (Outgoing P)) =
        t.rpc ::ₘ (l.written.map Prod.fst : Multiset (Outgoing P)) := by
      rw [List.map_append, ← Multiset.coe_add, add_comm]
      rfl
    rw [more, Multiset.map_cons, Multiset.add_cons, grown]
    exact Multiset.cons_le_cons _ coherent.once

theorem Coherent.unregister (coherent : Coherent parties l v)
    {before after : List (Ticket P × Option Bytes)} {t : Ticket P}
    (next : l.unsent = before ++ (t, none) :: after) :
    Coherent parties { l with
      registry := { l.registry with sent := l.registry.sent.erase t.id }
      unsent := before ++ after } v := by
  have split : v.tickets l = t ::ₘ v.tickets { l with
      registry := { l.registry with sent := l.registry.sent.erase t.id }
      unsent := before ++ after } := by
    simp only [View.tickets, next, List.map_append, List.map_cons, ← Multiset.coe_add,
      ← Multiset.cons_coe, ← Multiset.singleton_add]
    abel
  obtain ⟨keys, registered⟩ := erase_ticket coherent.keys coherent.registered split
  refine { coherent with keys := keys, registered := registered, unsent := ?_ }
  intro other bytes inside
  refine coherent.unsent other bytes ?_
  rw [next]
  rcases List.mem_append.mp inside with early | late
  · exact List.mem_append_left _ early
  · exact List.mem_append_right _ (List.mem_cons_of_mem _ late)

theorem Coherent.read (sound : parties.Sound) (coherent : Coherent parties l v)
    {request : RequestFrame} {rest : Bytes}
    (small : (request.body parties.sender.protowire).length < 2 ^ 32)
    (front : l.up = request.wire parties.sender.protowire ++ rest) :
    ∃ v', Coherent parties { l with up := rest, pending := l.pending ++ [request] } v' := by
  have sizes : ∀ body ∈ v.ups.map (fun u => u.2.body parties.sender.protowire),
      body.length < 2 ^ 32 := by
    intro body member
    obtain ⟨u, inside, rfl⟩ := List.mem_map.mp member
    exact (coherent.ups u inside).1.small
  obtain ⟨later, cut, behind⟩ := framed_front sizes small (coherent.up.symm.trans front)
  obtain ⟨u, ups, split, same, rfl⟩ := List.map_eq_cons_iff.mp cut
  have own : u.2 = request := RequestFrame.body_inj sound.writer (same ▸ small) same
  have kept : View.underway ⟨ups, v.waiting ++ [(u.1, request)], v.downs⟩ = v.underway := by
    simp only [View.underway, split, List.map_append, List.map_cons, List.map_nil,
      ← Multiset.coe_add, ← Multiset.cons_coe, ← Multiset.singleton_add]
    abel
  have first : Placed parties l u.1 request := by
    rw [← own]
    exact coherent.ups u (split ▸ List.mem_cons_self)
  refine ⟨⟨ups, v.waiting ++ [(u.1, request)], v.downs⟩, { coherent with
    keys := ?_, registered := ?_, up := behind.symm, ups := ?_, pending := ?_, waiting := ?_,
    once := ?_ }⟩
  · simp only [View.tickets, kept]
    exact coherent.keys
  · simp only [View.tickets, kept]
    exact coherent.registered
  · intro other inside
    exact coherent.ups other (split ▸ List.mem_cons_of_mem _ inside)
  · rw [List.map_append, coherent.pending]
    rfl
  · intro other inside
    rcases List.mem_append.mp inside with old | new
    · exact coherent.waiting other old
    · rw [List.mem_singleton.mp new]
      exact first
  · rw [kept]
    exact coherent.once

theorem Coherent.answer (coherent : Coherent parties l v) {before after : List RequestFrame}
    {request : RequestFrame} {response : ResponseFrame}
    (next : l.pending = before ++ request :: after) (serves : parties.serves request response) :
    ∃ v', Coherent parties { l with
      pending := before ++ after
      down := l.down ++ framed response.bytes
      answered := l.answered ++ [(request, response)] } v' := by
  obtain ⟨early, others, split, rfl, tail⟩ :=
    List.map_eq_append_iff.mp (coherent.pending.symm.trans next)
  obtain ⟨u, late, rfl, rfl, rfl⟩ := List.map_eq_cons_iff.mp tail
  have grows : ∀ entry ∈ l.answered, entry ∈ l.answered ++ [(u.2, response)] :=
    fun entry old => List.mem_append_left _ old
  have kept : View.underway ⟨v.ups, early ++ late, v.downs ++ [(u.1, u.2, response)]⟩ =
      v.underway := by
    simp only [View.underway, split, List.map_append, List.map_cons, List.map_nil,
      ← Multiset.coe_add, ← Multiset.cons_coe, ← Multiset.singleton_add]
    abel
  refine ⟨⟨v.ups, early ++ late, v.downs ++ [(u.1, u.2, response)]⟩, { coherent with
    keys := ?_, registered := ?_, pending := ?_, waiting := ?_, down := ?_, downs := ?_,
    delivered := ?_, once := ?_ }⟩
  · simp only [View.tickets, kept]
    exact coherent.keys
  · simp only [View.tickets, kept]
    exact coherent.registered
  · rw [List.map_append]
  · intro other inside
    refine coherent.waiting other ?_
    rw [split]
    rcases List.mem_append.mp inside with front | back
    · exact List.mem_append_left _ front
    · exact List.mem_append_right _ (List.mem_cons_of_mem _ back)
  · rw [List.map_append, List.flatMap_append, ← coherent.down]
    exact congrArg (l.down ++ ·) (List.append_nil _).symm
  · intro d inside
    rcases List.mem_append.mp inside with old | new
    · obtain ⟨placed, served, answered⟩ := coherent.downs d old
      exact ⟨placed, served, grows _ answered⟩
    · rw [List.mem_singleton.mp new]
      refine ⟨coherent.waiting u ?_, serves, List.mem_append_right _ List.mem_cons_self⟩
      rw [split]
      exact List.mem_append_right _ List.mem_cons_self
  · intro rpc reply inside
    obtain ⟨own, request, answer, same, placed, answered, decodes⟩ :=
      coherent.delivered rpc reply inside
    exact ⟨own, request, answer, same, placed, grows _ answered, decodes⟩
  · rw [kept]
    exact coherent.once

theorem Coherent.front (sound : parties.Sound) (coherent : Coherent parties l v)
    (present : l.down ≠ []) (failure : String) :
    ∃ d downs result, v.downs = d :: downs ∧
      parties.receiver.receive l.registry.sent ⟨l.down, failure⟩ = .ok result ∧
      Received parties l.registry.sent d.1 d.2.2
        ((downs.map fun d => d.2.2.bytes).flatMap framed) result ∧
      l.registry.sent.lookup d.1.id = some d.1.rpc := by
  cases list : v.downs with
  | nil =>
      rw [coherent.down, list] at present
      exact absurd rfl present
  | cons d downs =>
      have first : d ∈ v.downs := list ▸ List.mem_cons_self
      have ticket : d.1 ∈ v.tickets l := by
        refine Multiset.mem_add.mpr (.inr (Multiset.mem_add.mpr (.inr ?_)))
        exact Multiset.mem_coe.mpr (List.mem_map_of_mem first)
      obtain ⟨⟨asks, _⟩, serves, _⟩ := coherent.downs d first
      have registered := coherent.registered d.1 ticket
      obtain ⟨result, received, left⟩ := receive_front sound asks serves registered
        ((downs.map fun d => d.2.2.bytes).flatMap framed) failure
      refine ⟨d, downs, result, rfl, ?_, left, registered⟩
      rw [coherent.down, list, List.map_cons, List.flatMap_cons]
      exact received

theorem Coherent.receive (sound : parties.Sound) (coherent : Coherent parties l v)
    {failure : String} {result : Reception (Outgoing P) M D} (present : l.down ≠ [])
    (received : parties.receiver.receive l.registry.sent ⟨l.down, failure⟩ = .ok result) :
    ∃ v', Coherent parties { l with
      registry := { l.registry with sent := result.sent }
      down := result.reader.bytes
      delivered := l.delivered ++ result.returned.map fun entry => (entry.1, entry.2.1) } v' := by
  obtain ⟨d, downs, again, list, same, left, _⟩ := coherent.front sound present failure
  cases received.symm.trans same
  have taken : v.underway = d.1 ::ₘ View.underway ⟨v.ups, v.waiting, downs⟩ := by
    simp only [View.underway, list, List.map_cons, ← Multiset.cons_coe, ← Multiset.singleton_add]
    abel
  have split : v.tickets l = d.1 ::ₘ View.tickets ⟨v.ups, v.waiting, downs⟩ l := by
    rw [View.tickets, taken, Multiset.add_cons]
    rfl
  have first : d ∈ v.downs := list ▸ List.mem_cons_self
  obtain ⟨placed, _, answered⟩ := coherent.downs d first
  obtain ⟨keys, registered⟩ := erase_ticket coherent.keys coherent.registered split
  have once := coherent.once
  rw [taken, Multiset.map_cons, Multiset.add_cons] at once
  refine ⟨⟨v.ups, v.waiting, downs⟩, { coherent with
    keys := ?_, registered := ?_, down := left.reader, downs := ?_, delivered := ?_, once := ?_ }⟩
  · rw [left.sent]
    exact keys
  · rw [left.sent]
    exact registered
  · exact fun other inside => coherent.downs other (list ▸ List.mem_cons_of_mem _ inside)
  · intro rpc reply inside
    rcases List.mem_append.mp inside with old | new
    · exact coherent.delivered rpc reply old
    · have returned := left.returned
      by_cases expired : parties.receiver.expired d.1.rpc = true
      · rw [if_pos expired] at returned
        rw [returned] at new
        cases new
      · rw [if_neg expired] at returned
        obtain ⟨own, _, only, decodes⟩ := returned
        rw [only] at new
        cases List.mem_singleton.mp new
        exact ⟨d.1, d.2.1, d.2.2, rfl, placed, answered, decodes⟩
  · have returned := left.returned
    by_cases expired : parties.receiver.expired d.1.rpc = true
    · rw [if_pos expired] at returned
      rw [returned, List.map_nil, List.append_nil]
      exact (Multiset.le_cons_self _ _).trans once
    · rw [if_neg expired] at returned
      obtain ⟨own, _, only, _⟩ := returned
      have grown : ((l.delivered ++ [(d.1.rpc, own)]).map Prod.fst : Multiset (Outgoing P)) =
          d.1.rpc ::ₘ (l.delivered.map Prod.fst : Multiset (Outgoing P)) := by
        rw [List.map_append, ← Multiset.coe_add, add_comm]
        rfl
      rw [only, List.map_singleton, grown, Multiset.cons_add]
      exact once

theorem Coherent.kept (sound : parties.Sound) (coherent : Coherent parties l v) {l' : Link P M}
    (step : Step parties l l') : ∃ v', Coherent parties l' v' := by
  cases step with
  | register fresh sent registered small =>
      exact ⟨v, coherent.register sound fresh sent registered small⟩
  | write next => exact coherent.write next
  | unregister next => exact ⟨v, coherent.unregister next⟩
  | read small front => exact coherent.read sound small front
  | answer next serves => exact coherent.answer next serves
  | @receive payload _ _ _ small front received =>
      refine coherent.receive sound ?_ received
      rw [front]
      exact fun empty => framed_ne_nil payload (List.append_eq_nil_iff.mp empty).1

end Steps

def pingProtobuf : Protobuf Unit where
  sizeHeader _ := 4
  marshalHeader header :=
    if header = ⟨"Ping", true, header.callId, none⟩ then
      match header.callId with
      | some id => .ok (bigEndian 4 id.toNat)
      | none => .error "required field not set"
    else .error "unknown method"
  unmarshalHeader bytes := some ⟨"Ping", true, some (UInt32.ofNat (fromBigEndian bytes)), none⟩
  sizeRequest _ := 0
  marshalRequest _ := .ok []

theorem pingProtobuf_marshal {header : RequestHeader} {bytes : Bytes}
    (marshalled : pingProtobuf.marshalHeader header = .ok bytes) :
    ∃ id, header = ⟨"Ping", true, some id, none⟩ ∧ bytes = bigEndian 4 id.toNat := by
  obtain ⟨name, param, callId, field⟩ := header
  simp only [pingProtobuf] at marshalled
  split at marshalled
  · rename_i known
    cases callId with
    | none => cases marshalled
    | some id =>
        cases known
        cases marshalled
        exact ⟨id, rfl, rfl⟩
  · cases marshalled

theorem pingProtobuf_consistent : pingProtobuf.Consistent where
  headerSize := by
    intro header bytes marshalled
    obtain ⟨id, _, rfl⟩ := pingProtobuf_marshal marshalled
    exact length_bigEndian 4 _
  requestSize := by
    rintro request _ ⟨⟩
    rfl
  headerRead := by
    intro header bytes marshalled
    obtain ⟨id, rfl, rfl⟩ := pingProtobuf_marshal marshalled
    simp only [pingProtobuf, word32_bigEndian]

def pong (id : UInt32) : ResponseFrame :=
  ⟨⟨some id, none, none⟩, 4 :: bigEndian 4 id.toNat, [1, 7]⟩

def pingParties : Parties Unit Bytes Unit where
  sender := ⟨pingProtobuf, Varint.protowire, none, fun _ _ => 2, fun _ => none, none⟩
  receiver := {
    protowire := Varint.protowire
    unmarshalHeader := fun bytes => .ok ⟨some (UInt32.ofNat (fromBigEndian bytes)), none, none⟩
    newResponse := fun _ => []
    unmarshal := fun data _ => (data, none)
    decompressCellblocks := none
    deserializeCellBlocks := fun _ => none
    expired := fun _ => false
    returnResult := fun _ _ => .ok ()
  }
  serves request response :=
    ∃ id : UInt32, request.header = bigEndian 4 id.toNat ∧ response = pong id

theorem pingParties_sound : pingParties.Sound where
  protobuf := pingProtobuf_consistent
  writer := Varint.protowire_lawful
  reader := Varint.protowire_lawful
  total := by
    intro rpc deserialize impossible
    cases impossible
  small := by
    rintro request _ ⟨id, _, rfl⟩
    simp [pong, ResponseFrame.bytes]
  readable := by
    rintro request _ ⟨id, _, rfl⟩
    refine ⟨bigEndian 4 id.toNat, rfl, ?_⟩
    simp only [pingParties, word32_bigEndian]
    rfl
  attributed := by
    rintro request _ _ ⟨id, named, rfl⟩ ⟨⟩
    simp only [named, word32_bigEndian]
    rfl
  conforms := by
    rintro request _ header rpc ⟨id, _, rfl⟩ _ _
    refine ⟨⟨?_, fun _ _ _ _ _ _ _ decodes => absurd rfl decodes⟩, fun _ _ _ => ⟨(), rfl⟩⟩
    intro exception impossible
    cases impossible

def ping : Outgoing Unit := .plain ⟨"Ping", some ()⟩

def pingRequest : RequestFrame := ⟨[0, 0, 0, 1], [], []⟩

def pingRegistry : Registry Unit := ⟨1, (∅ : Outstanding (Outgoing Unit)).insert 1 ping⟩

def pinged : Link Unit Bytes where
  registry := ⟨1, pingRegistry.sent.erase 1⟩
  unsent := []
  up := []
  pending := []
  down := []
  written := [(ping, pingRequest.wire Varint.protowire)]
  answered := [(pingRequest, pong 1)]
  delivered := [(ping, ⟨some [7], none⟩)]

end GoHBase.Conversation
