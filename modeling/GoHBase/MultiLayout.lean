import GoHBase.MultiDemux
import GoHBase.MutateEncodings

/-! The cells behind a MultiRequest belong to its mutations in the order of its
actions. -/

namespace GoHBase

open ByteString Runtime Buffer RangeLoop Grouping

def Mutate.cells (m : Mutate) : List Cell := m.writtenCells m.cellTimestamp storedOrder

def Call.cells (c : Call) : List Cell :=
  match c.rpc with
  | .get _ => []
  | .mutate m => m.cells

/-- The first `count` cells of a byte string, each a length and that many bytes. -/
def takeCells : Nat → Bytes → Option (List Bytes × Bytes)
  | 0, b => some ([], b)
  | count + 1, b =>
      let len := 4 + fromBigEndian (b.take 4)
      if b.length < len then none
      else do
        let (cells, rest) ← takeCells count (b.drop len)
        pure (b.take len :: cells, rest)

def Action.cellCount (a : Action) : Nat :=
  match a.mutation with
  | none => 0
  | some mutation =>
      match mutation.associatedCellCount with
      | none => 0
      | some count => count.toInt.toNat

def consumeCells : List Action → Bytes → Option (List (List Bytes) × Bytes)
  | [], b => some ([], b)
  | a :: actions, b => do
      let (cells, b) ← takeCells a.cellCount b
      let (later, b) ← consumeCells actions b
      pure (cells :: later, b)

theorem takeCells_encodeCells (cells : List Cell) (small : cellsLen cells < 2 ^ 32) (rest : Bytes) :
    takeCells cells.length (encodeCells cells ++ rest) = some (cells.map Cell.encode, rest) := by
  induction cells with
  | nil => rfl
  | cons cell cells ih =>
      simp only [cellsLen_cons] at small
      have framed : 4 + fromBigEndian ((cell.encode ++ (encodeCells cells ++ rest)).take 4) =
          cell.blockLen := by
        rw [Cell.encode, List.append_assoc, List.take_left' (length_bigEndian _ _),
          fromBigEndian_bigEndian]
        · rfl
        · simp only [Cell.blockLen, cellblockLen] at small
          simp only [Cell.keyLen]
          omega
      have inside : ¬(cell.encode ++ (encodeCells cells ++ rest)).length < cell.blockLen := by
        rw [List.length_append, Cell.length_encode]
        omega
      rw [List.length_cons, takeCells, encodeCells_cons, List.append_assoc]
      simp only [framed, inside, ↓reduceIte, List.drop_left' cell.length_encode,
        List.take_left' cell.length_encode, ih (by omega)]
      rfl

theorem Call.serialize_cells {c : Call} {orders : CallOrders} {msg : Request} {own : List Bytes}
    {sz : UInt32} (serialized : c.serialize true orders [] = .ok (msg, own, sz))
    (small : cellsLen c.cells < 2 ^ 32) (idx : UInt32) :
    ∃ cells : List Cell, cells.Perm c.cells ∧ own.flatten = encodeCells cells ∧
      sz = UInt32.ofNat (cellsLen cells) ∧ (msg.action idx).cellCount = cells.length := by
  obtain ⟨ref, rpc⟩ := c
  cases rpc with
  | get g =>
      simp only [serialize, bind_ok_iff] at serialized
      obtain ⟨request, _, finished⟩ := serialized
      cases finished
      exact ⟨[], .refl _, rfl, rfl, rfl⟩
  | mutate m =>
      simp only [serialize, ↓reduceIte, bind_ok_iff] at serialized
      obtain ⟨⟨request, own, sz⟩, returned, finished⟩ := serialized
      cases finished
      obtain ⟨region, durability, cellblocks, count, _, _, encoded, rfl, rfl⟩ :=
        m.serializeCellBlocks_ok returned
      obtain ⟨rfl, rfl, rfl, _⟩ := m.valuesToCellblocks_ok encoded
      have perm := m.writtenCells_perm orders.mutate.writing storedOrder m.cellTimestamp
      have fits : cellsLen (m.writtenCells m.cellTimestamp orders.mutate.writing) < 2 ^ 32 := by
        rw [Mutate.cellsLen_perm perm]
        exact small
      have few := length_le_cellsLen (m.writtenCells m.cellTimestamp orders.mutate.writing)
      refine ⟨_, perm, ?_, ?_, ?_⟩
      · exact Mutate.appended_flatten _ fits
      · rw [length_encodeCells]
      · simp only [Request.action, Action.cellCount]
        rw [Int32.toInt_ofNat_of_lt (by omega)]
        rfl

section Walk

variable (cells : Sent → List Cell)

theorem consumeCells_walk (walk : List Sent) (rest : Bytes)
    (small : ∀ s ∈ walk, cellsLen (cells s) < 2 ^ 32)
    (slices : ∀ s ∈ walk, s.cellblocks.flatten = encodeCells (cells s))
    (counts : ∀ s ∈ walk, s.action.cellCount = (cells s).length) :
    consumeCells (walk.map Sent.action) ((walk.flatMap Sent.cellblocks).flatten ++ rest) =
      some (walk.map fun s => (cells s).map Cell.encode, rest) := by
  induction walk with
  | nil => rfl
  | cons s walk ih =>
      have later := ih (fun s member => small s (by simp [member]))
        (fun s member => slices s (by simp [member])) (fun s member => counts s (by simp [member]))
      rw [List.map_cons, consumeCells, List.flatMap_cons, List.flatten_append,
        List.append_assoc, slices s (by simp), counts s (by simp),
        takeCells_encodeCells _ (small s (by simp))]
      simp only [Option.bind_eq_bind, Option.bind_some, later]
      rfl

theorem flatten_walk_length (walk : List Sent)
    (slices : ∀ s ∈ walk, s.cellblocks.flatten = encodeCells (cells s)) :
    (walk.flatMap Sent.cellblocks).flatten.length = (walk.map fun s => cellsLen (cells s)).sum := by
  induction walk with
  | nil => rfl
  | cons s walk ih =>
      rw [List.flatMap_cons, List.flatten_append, List.length_append, slices s (by simp),
        length_encodeCells, ih fun s member => slices s (by simp [member])]
      rfl

theorem foldl_size (walk : List Sent) (start : UInt32)
    (sizes : ∀ s ∈ walk, s.size = UInt32.ofNat (cellsLen (cells s))) :
    walk.foldl (fun size s => size + s.size) start =
      start + UInt32.ofNat (walk.map fun s => cellsLen (cells s)).sum := by
  induction walk generalizing start with
  | nil => simp
  | cons s walk ih =>
      rw [List.foldl_cons, ih _ fun s member => sizes s (by simp [member]), sizes s (by simp),
        List.map_cons, List.sum_cons, UInt32.ofNat_add, UInt32.add_assoc]

end Walk

/-- With fewer than `2 ^ 32` calls and bytes, walking the request hands every live call
its own cells. -/
theorem multi_request_layout (m m' : Multi) (run : MultiRun) (calls : List Call)
    (cbs cbs' : List Bytes) (request : MultiRequest) (size : UInt32)
    (batched : m.calls = calls.map some) (few : calls.length < 2 ^ 32)
    (total : ((liveCalls run.expired 0 calls).map fun entry => cellsLen entry.1.cells).sum < 2 ^ 32)
    (returned : m.serializeCellBlocks run cbs = .ok (m', request, cbs', size)) :
    ∃ appended blocks regions, cbs' = cbs ++ appended ∧ size.toNat = appended.flatten.length ∧
      consumeCells (request.flatMap RegionAction.action) appended.flatten = some (blocks, []) ∧
      List.Forall₂ (fun action cells => ∃ c position msg own sz,
        (c, position) ∈ liveCalls run.expired 0 calls ∧
        c.serialize true (run.orders position) [] = .ok (msg, own, sz) ∧
        action = msg.action (UInt32.ofNat (position + 1)) ∧
        (UInt32.ofNat (position + 1)).toNat = position + 1 ∧
        cells.Perm (c.cells.map Cell.encode)) (request.flatMap RegionAction.action) blocks ∧
      ((request.flatMap RegionAction.action).map Action.index).Perm
        ((liveCalls run.expired 0 calls).map fun entry => some (UInt32.ofNat (entry.2 + 1))) ∧
      m'.regions = regions.map some ∧ regions.Nodup ∧
      List.Forall₂ (fun region ra => ra.region.value = region.name ∧
        ra.action.map Action.index =
          ((liveCalls run.expired 0 calls).filter fun entry =>
            decide (entry.1.region = some region)).map fun entry =>
              some (UInt32.ofNat (entry.2 + 1))) regions request := by
  obtain ⟨sent, regions, layout⟩ := Multi.toProto_layout batched returned
  obtain ⟨tags, serialized⟩ := encoded_sent layout.encoded
  have sum : ((liveCalls run.expired 0 calls).map fun entry => cellsLen entry.1.cells) =
      sent.map fun s => cellsLen s.call.cells := by
    rw [← tags, List.map_map]
    rfl
  rw [sum] at total
  have each : ∀ s ∈ sent, cellsLen s.call.cells < 2 ^ 32 := by
    intro s member
    have summand : cellsLen s.call.cells ∈ sent.map fun s => cellsLen s.call.cells :=
      List.mem_map.mpr ⟨s, member, rfl⟩
    exact Nat.lt_of_le_of_lt (List.le_sum_of_mem summand) total
  choose! cells perm slices sizes counts using fun s (member : s ∈ sent) =>
    Call.serialize_cells (serialized s member) (each s member) s.index
  have small : ∀ s ∈ sent, cellsLen (cells s) = cellsLen s.call.cells := by
    intro s member
    exact Mutate.cellsLen_perm (perm s member)
  have inWalk : ∀ s ∈ regions.flatMap (onRegion sent), s ∈ sent := by
    intro s member
    exact layout.walk_perm.mem_iff.mp member
  have actions : request.flatMap RegionAction.action =
      (regions.flatMap (onRegion sent)).map Sent.action := by
    rw [layout.actions, List.flatMap_map, List.map_flatMap]
  have position : ∀ s ∈ sent, (UInt32.ofNat (s.position + 1)).toNat = s.position + 1 := by
    intro s member
    obtain ⟨found, _⟩ := (mem_liveCalls _ _ _ _).mp (layout.sent_live s member)
    have bound : s.position < calls.length := (List.getElem?_eq_some_iff.mp found).1
    exact UInt32.toNat_ofNat_of_lt' (by change _ < 2 ^ 32; omega)
  have index (s : Sent) : s.action.index = some (UInt32.ofNat (s.position + 1)) := by
    rw [s.action_index, Sent.index, UInt32.ofNat_add]
    rfl
  refine ⟨(regions.flatMap (onRegion sent)).flatMap Sent.cellblocks,
    (regions.flatMap (onRegion sent)).map fun s => (cells s).map Cell.encode, regions,
    ?_, ?_, ?_, ?_, ?_, layout.ordered, layout.distinct, ?_⟩
  · rw [layout.slices, List.flatMap_assoc]
  · have lengths :
        (sent.map fun s => cellsLen (cells s)) = sent.map fun s => cellsLen s.call.cells :=
      List.map_congr_left small
    rw [flatten_walk_length cells _ fun s member => slices s (inWalk s member), layout.total,
      foldl_size cells sent 0 sizes, UInt32.zero_add, (layout.walk_perm.map _).sum_eq, lengths]
    exact UInt32.toNat_ofNat_of_lt' total
  · have consumed := consumeCells_walk cells (regions.flatMap (onRegion sent)) []
      (fun s member => by rw [small s (inWalk s member)]; exact each s (inWalk s member))
      (fun s member => slices s (inWalk s member)) (fun s member => counts s (inWalk s member))
    rw [List.append_nil] at consumed
    rw [actions, consumed]
  · rw [actions, List.forall₂_map_left_iff, List.forall₂_map_right_iff, List.forall₂_same]
    intro s member
    have inside := inWalk s member
    refine ⟨s.call, s.position, s.request, s.cellblocks, s.size, layout.sent_live s inside,
      serialized s inside, ?_, position s inside, (perm s inside).map _⟩
    rw [Sent.action, UInt32.ofNat_add]
    rfl
  · rw [actions, List.map_map, ← tags, List.map_map]
    have indices : (Action.index ∘ Sent.action) =
        fun s => some (UInt32.ofNat (s.position + 1)) := funext index
    rw [indices]
    exact layout.walk_perm.map _
  · rw [layout.actions, List.forall₂_map_right_iff, List.forall₂_same]
    intro region listed
    refine ⟨rfl, ?_⟩
    rw [← tags, List.filter_map, List.map_map, List.map_map]
    exact List.map_congr_left fun s _ => index s

def mixedBatch : List Call :=
  [⟨0, .mutate sampleDelete⟩, sampleGet 1 (sampleRegion 1 2 [109] []), ⟨2, .mutate sampleDelete⟩]

theorem multi_request_layout_mixed :
    ∃ m' request cbs' size,
      Multi.serializeCellBlocks ⟨3, mixedBatch.map some, []⟩ (sampleRun fun i => i == 2) [[7]] =
        .ok (m', request, cbs', size) ∧
      ∃ appended blocks regions, cbs' = [[7]] ++ appended ∧ size.toNat = appended.flatten.length ∧
        consumeCells (request.flatMap RegionAction.action) appended.flatten = some (blocks, []) ∧
        List.Forall₂ (fun action cells => ∃ c position msg own sz,
          (c, position) ∈ liveCalls (fun i => i == 2) 0 mixedBatch ∧
          c.serialize true ((sampleRun fun i => i == 2).orders position) [] = .ok (msg, own, sz) ∧
          action = msg.action (UInt32.ofNat (position + 1)) ∧
          (UInt32.ofNat (position + 1)).toNat = position + 1 ∧
          cells.Perm (c.cells.map Cell.encode)) (request.flatMap RegionAction.action) blocks ∧
        ((request.flatMap RegionAction.action).map Action.index).Perm
          ((liveCalls (fun i => i == 2) 0 mixedBatch).map fun entry =>
            some (UInt32.ofNat (entry.2 + 1))) ∧
        m'.regions = regions.map some ∧ regions.Nodup ∧
        List.Forall₂ (fun region ra => ra.region.value = region.name ∧
          ra.action.map Action.index =
            ((liveCalls (fun i => i == 2) 0 mixedBatch).filter fun entry =>
              decide (entry.1.region = some region)).map fun entry =>
                some (UInt32.ofNat (entry.2 + 1))) regions request :=
  ⟨_, _, _, _, rfl, multi_request_layout ⟨3, mixedBatch.map some, []⟩ _ (sampleRun fun i => i == 2)
    mixedBatch [[7]] _ _ _ rfl (by decide) (by decide) rfl⟩

/-- The last of `2 ^ 32` calls is sent under index zero, which is the index of no call. -/
theorem multi_request_index_wraps :
    ∃ m' request cbs' size,
      Multi.serializeCellBlocks ⟨2, (repeatedGets (2 ^ 32)).map some, []⟩ (sampleRun fun _ => false)
        [] = .ok (m', request, cbs', size) ∧
      ∃ action ∈ request.flatMap RegionAction.action, action.index = some 0 := by
  obtain ⟨m', request, cbs', size, front, last, returned, rfl, position⟩ :=
    toProto_repeated (2 ^ 32 - 1)
  refine ⟨m', _, cbs', size, returned, last.action, by simp, ?_⟩
  rw [last.action_index, Sent.index, position]
  decide

end GoHBase
