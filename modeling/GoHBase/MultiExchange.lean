import GoHBase.MultiLayout
import GoHBase.MultiValidation

/-!
A batch and the region server together. The server reads the calls from the request and from the
cells behind it, and the calls read its answers from the response and from the cells behind that.
-/

namespace GoHBase.Exchange

open ByteString Runtime Buffer RangeLoop Grouping

structure Operation where
  mutation : Option MutationProto
  get : Option PbGet
  cells : List Bytes

inductive Outcome
  | result (r : PbResult) (cells : List Cell)
  | exception (e : NameBytesPair)

/-- A region server may refuse a region, and else it performs the operations in their order. -/
structure Server (σ : Type) where
  refuse : σ → Bytes → Option NameBytesPair
  perform : σ → Bytes → Operation → Outcome × σ

section Execution

variable {σ τ : Type} (server : Server σ)

def execute (region : Bytes) : σ → List (τ × Operation) → List (τ × Outcome) × σ
  | s, [] => ([], s)
  | s, (tag, operation) :: tasks =>
      let (outcome, s) := server.perform s region operation
      let (later, s) := execute region s tasks
      ((tag, outcome) :: later, s)

def executeRegion (s : σ) (group : Bytes × List (τ × Operation)) : List (τ × Outcome) × σ :=
  match server.refuse s group.1 with
  | some e => (group.2.map fun task => (task.1, .exception e), s)
  | none => execute server group.1 s group.2

def executeAll : σ → List (Bytes × List (τ × Operation)) → List (τ × Outcome) × σ
  | s, [] => ([], s)
  | s, group :: groups =>
      let (first, s) := executeRegion server s group
      let (later, s) := executeAll s groups
      (first ++ later, s)

theorem execute_tags (region : Bytes) (s : σ) (tasks : List (τ × Operation)) :
    (execute server region s tasks).1.map Prod.fst = tasks.map Prod.fst := by
  induction tasks generalizing s with
  | nil => rfl
  | cons task tasks ih => exact congrArg (task.1 :: ·) (ih _)

end Execution

def Outcome.answer (index : UInt32) : Outcome → AnsweredAction
  | .result r cells =>
      ⟨⟨some index, some { r with associatedCellCount := some (Int32.ofNat cells.length) }, none⟩,
        cells⟩
  | .exception e => ⟨⟨some index, none, some e⟩, []⟩

def Outcome.resultFor (c : Call) : Outcome → RPCResult
  | .result r cells =>
      .message (c.respond (some { r with
        associatedCellCount := some (Int32.ofNat cells.length)
        cell := r.cell ++ cells }))
  | .exception e => .error (exceptionToError e.name e.value)

section Serving

variable {σ : Type} (server : Server σ)

def serveActions (region : Bytes) :
    σ → List Action → Bytes → Option (List AnsweredAction × Bytes × σ)
  | s, [], b => some ([], b, s)
  | s, a :: actions, b => do
      let (cells, b) ← takeCells a.cellCount b
      let (outcome, s) := server.perform s region ⟨a.mutation, a.get, cells⟩
      let (later, b, s) ← serveActions region s actions b
      pure (outcome.answer (a.index.getD 0) :: later, b, s)

/-- The cells of a region that is refused are skipped. -/
def serveRegion (s : σ) (ra : RegionAction) (b : Bytes) : Option (AnsweredRegion × Bytes × σ) :=
  match server.refuse s ra.region.value with
  | some e => do
      let (_, b) ← consumeCells ra.action b
      pure (⟨[], some e⟩, b, s)
  | none => do
      let (actions, b, s) ← serveActions server ra.region.value s ra.action b
      pure (⟨actions, none⟩, b, s)

def serve : σ → MultiRequest → Bytes → Option (List AnsweredRegion × Bytes × σ)
  | s, [], b => some ([], b, s)
  | s, ra :: request, b => do
      let (first, b, s) ← serveRegion server s ra b
      let (later, b, s) ← serve s request b
      pure (first :: later, b, s)

end Serving

def Asks (c : Call) (operation : Operation) : Prop :=
  operation.cells.Perm (c.cells.map Cell.encode) ∧
    ∃ orders msg own sz, c.serialize true orders [] = .ok (msg, own, sz) ∧
      operation.mutation = (msg.action 0).mutation ∧ operation.get = (msg.action 0).get

def task (cells : Sent → List Cell) (s : Sent) : (Call × Nat) × Operation :=
  ((s.call, s.position), ⟨s.action.mutation, s.action.get, (cells s).map Cell.encode⟩)

def answerTo (done : (Call × Nat) × Outcome) : AnsweredAction :=
  done.2.answer (UInt32.ofNat done.1.2 + 1)

def deliverTo (done : (Call × Nat) × Outcome) : Delivery :=
  (done.1.1, done.2.resultFor done.1.1)

def plan (sent : List Sent) (cells : Sent → List Cell) (regions : List RegionInfo) :
    List (Bytes × List ((Call × Nat) × Operation)) :=
  regions.map fun region => (region.name, (onRegion sent region).map (task cells))

section Answers

variable {σ : Type} (server : Server σ)

def answerRegion (s : σ) (group : Bytes × List ((Call × Nat) × Operation)) : AnsweredRegion :=
  match server.refuse s group.1 with
  | some e => ⟨[], some e⟩
  | none => ⟨(execute server group.1 s group.2).1.map answerTo, none⟩

def answerAll : σ → List (Bytes × List ((Call × Nat) × Operation)) → List AnsweredRegion
  | _, [] => []
  | s, group :: groups =>
      answerRegion server s group :: answerAll (executeRegion server s group).2 groups

end Answers

section Request

variable {σ : Type} (server : Server σ) {cells : Sent → List Cell}

theorem serveActions_walk (region : Bytes) (s : σ) (group : List Sent) (rest : Bytes)
    (small : ∀ t ∈ group, cellsLen (cells t) < 2 ^ 32)
    (slices : ∀ t ∈ group, t.cellblocks.flatten = encodeCells (cells t))
    (counts : ∀ t ∈ group, t.action.cellCount = (cells t).length) :
    serveActions server region s (group.map Sent.action)
        ((group.flatMap Sent.cellblocks).flatten ++ rest) =
      some ((execute server region s (group.map (task cells))).1.map answerTo, rest,
        (execute server region s (group.map (task cells))).2) := by
  induction group generalizing s with
  | nil => rfl
  | cons t group ih =>
      obtain ⟨small, smaller⟩ := List.forall_mem_cons.mp small
      obtain ⟨slice, slices⟩ := List.forall_mem_cons.mp slices
      obtain ⟨count, counts⟩ := List.forall_mem_cons.mp counts
      rw [List.map_cons, serveActions, List.flatMap_cons, List.flatten_append, List.append_assoc,
        slice, count, takeCells_encodeCells _ small]
      simp only [Option.bind_eq_bind, Option.bind_some, ih _ smaller slices counts,
        t.action_index, Option.getD_some]
      rfl

theorem serveRegion_walk (region : RegionInfo) (s : σ) (group : List Sent) (rest : Bytes)
    (small : ∀ t ∈ group, cellsLen (cells t) < 2 ^ 32)
    (slices : ∀ t ∈ group, t.cellblocks.flatten = encodeCells (cells t))
    (counts : ∀ t ∈ group, t.action.cellCount = (cells t).length) :
    serveRegion server s ⟨⟨region.name⟩, group.map Sent.action⟩
        ((group.flatMap Sent.cellblocks).flatten ++ rest) =
      some (answerRegion server s (region.name, group.map (task cells)), rest,
        (executeRegion server s (region.name, group.map (task cells))).2) := by
  unfold serveRegion answerRegion executeRegion
  cases server.refuse s region.name with
  | some e =>
      simp only [consumeCells_walk cells group rest small slices counts]
      rfl
  | none =>
      simp only [serveActions_walk server region.name s group rest small slices counts]
      rfl

theorem serve_walk (sent : List Sent) (s : σ) (regions : List RegionInfo) (rest : Bytes)
    (small : ∀ t ∈ sent, cellsLen (cells t) < 2 ^ 32)
    (slices : ∀ t ∈ sent, t.cellblocks.flatten = encodeCells (cells t))
    (counts : ∀ t ∈ sent, t.action.cellCount = (cells t).length) :
    serve server s (regions.map fun region =>
        ⟨⟨region.name⟩, (onRegion sent region).map Sent.action⟩)
        ((regions.flatMap fun region => (onRegion sent region).flatMap Sent.cellblocks).flatten ++
          rest) =
      some (answerAll server s (plan sent cells regions), rest,
        (executeAll server s (plan sent cells regions)).2) := by
  induction regions generalizing s with
  | nil => rfl
  | cons region regions ih =>
      have inside : ∀ t ∈ onRegion sent region, t ∈ sent := fun t => List.mem_of_mem_filter
      have first := serveRegion_walk server region s (onRegion sent region)
        ((regions.flatMap fun region => (onRegion sent region).flatMap Sent.cellblocks).flatten ++
          rest)
        (fun t member => small t (inside t member)) (fun t member => slices t (inside t member))
        (fun t member => counts t (inside t member))
      rw [List.map_cons, serve, List.flatMap_cons, List.flatten_append, List.append_assoc, first]
      simp only [Option.bind_eq_bind, Option.bind_some, ih]
      rfl

end Request

section Response

variable {σ : Type} (server : Server σ) (cells : Sent → List Cell) {run : MultiRun}
  {calls : List Call} {cbs cbs' : List Bytes} {m : Multi} {request : MultiRequest} {size : UInt32}
  {sent : List Sent} {regions : List RegionInfo}
  (layout : Layout true run calls cbs m request cbs' size sent regions)
  (few : calls.length < 2 ^ 32)

theorem answerTo_filled_index (done : (Call × Nat) × Outcome) :
    (answerTo done).filled.index = some (UInt32.ofNat done.1.2 + 1) := by
  obtain ⟨tag, outcome⟩ := done
  cases outcome with
  | result r cells => rfl
  | exception e => rfl

theorem answerTo_filled_resultFor (done : (Call × Nat) × Outcome) (c : Call) :
    (answerTo done).filled.resultFor c = done.2.resultFor c := by
  obtain ⟨tag, outcome⟩ := done
  cases outcome with
  | result r cells => rfl
  | exception e => rfl

include layout few

theorem returnActions_execute (region : Bytes) (s : σ) (group : List Sent)
    (members : ∀ t ∈ group, t ∈ sent) :
    ((execute server region s (group.map (task cells))).1.map fun done =>
        (answerTo done).filled).mapM m.returnAction =
      .ok ((execute server region s (group.map (task cells))).1.map deliverTo) := by
  induction group generalizing s with
  | nil => rfl
  | cons t group ih =>
      obtain ⟨member, members⟩ := List.forall_mem_cons.mp members
      simp only [List.map_cons, execute, task, List.mapM_cons]
      rw [layout.returnAction_index few t member _ (answerTo_filled_index _), ok_bind,
        ih _ members, ok_bind, answerTo_filled_resultFor]
      rfl

theorem returnRegion_execute (s : σ) (i : Nat) (region : RegionInfo)
    (placed : regions[i]? = some region) :
    m.returnRegion i (answerRegion server s
        (region.name, (onRegion sent region).map (task cells))).filled =
      .ok ((executeRegion server s
        (region.name, (onRegion sent region).map (task cells))).1.map deliverTo) := by
  have listed : index m.regions i = .ok (some region) := by
    simp [index, layout.ordered, placed]
  unfold answerRegion executeRegion
  cases server.refuse s region.name with
  | some e =>
      simp only [Multi.returnRegion, AnsweredRegion.filled, listed, ok_bind,
        layout.failCalls_region, List.map_map]
      rfl
  | none =>
      have returned := returnActions_execute server cells layout few region.name s
        (onRegion sent region) (fun t => List.mem_of_mem_filter)
      simp only [Multi.returnRegion, AnsweredRegion.filled, List.map_map]
      exact returned

theorem returnRegions_execute (s : σ) (i : Nat) (later : List RegionInfo)
    (placed : regions.drop i = later) :
    m.returnRegions i ((answerAll server s (plan sent cells later)).map (·.filled)) =
      .ok ((executeAll server s (plan sent cells later)).1.map deliverTo) := by
  induction later generalizing s i with
  | nil => rfl
  | cons region later ih =>
      have here : regions[i]? = some region := by
        rw [← List.head?_drop, placed, List.head?_cons]
      have next : regions.drop (i + 1) = later := by
        rw [← List.drop_drop, placed, List.drop_one, List.tail_cons]
      have first := returnRegion_execute server cells layout few s i region here
      simp only [plan, List.map_cons, answerAll, executeAll, Multi.returnRegions, List.map_append]
      rw [first, ok_bind, ← plan, ih _ (i + 1) next, ok_bind]
      rfl

theorem answerTo_passes {done : (Call × Nat) × Outcome} {t : Sent}
    (member : t ∈ sent) (tagged : done.1 = (t.call, t.position))
    (fits : ∀ cell ∈ (answerTo done).cells, cell.Fits)
    (total : cellsLen (answerTo done).cells < 2 ^ 32) : (answerTo done).Passes m := by
  obtain ⟨nonzero, stored⟩ := (m.get_ok_iff _ _).mp (layout.get_index few t member)
  obtain ⟨tag, outcome⟩ := done
  cases tagged
  cases outcome with
  | exception e =>
      refine ⟨nonzero, ?_, nofun, nofun, fun _ => rfl, fits⟩
      simp [answerTo, Outcome.answer]
  | result r cells =>
      have short := length_le_cellsLen cells
      change cellsLen cells < 2 ^ 32 at total
      refine ⟨nonzero, ?_, fun _ => ⟨t.call, stored⟩, ?_, nofun, fits⟩
      · simp [answerTo, Outcome.answer]
      · intro r' same
        cases same
        apply toNat_toUInt32_of_toInt
        exact Int32.toInt_ofNat_of_lt (by omega)

theorem answerRegion_passes (s : σ) (region : RegionInfo)
    (fits : ∀ cell ∈ actionCells (answerRegion server s
      (region.name, (onRegion sent region).map (task cells))).actions, cell.Fits)
    (total : cellsLen (actionCells (answerRegion server s
      (region.name, (onRegion sent region).map (task cells))).actions) < 2 ^ 32) :
    (answerRegion server s (region.name, (onRegion sent region).map (task cells))).Passes m := by
  unfold answerRegion at *
  cases refused : server.refuse s region.name with
  | some e => exact ⟨by simp, fun _ => rfl⟩
  | none =>
      simp only [refused] at fits total
      refine ⟨?_, fun thrown => absurd rfl thrown⟩
      intro action member
      obtain ⟨done, inside, rfl⟩ := List.mem_map.mp member
      have own : (answerTo done).cells.Sublist (actionCells
          ((execute server region.name s ((onRegion sent region).map (task cells))).1.map
            answerTo)) := by
        rw [actionCells, List.flatMap_def]
        exact List.sublist_flatten_of_mem (List.mem_map_of_mem member)
      have tagged := List.mem_map_of_mem (f := Prod.fst) inside
      rw [execute_tags, List.map_map] at tagged
      obtain ⟨t, listed, tag⟩ := List.mem_map.mp tagged
      apply answerTo_passes layout few (List.mem_of_mem_filter listed) tag.symm
      · exact fun cell held => fits cell (own.subset held)
      · exact Nat.lt_of_le_of_lt (Mutate.cellsLen_le_of_sublist own) total

theorem answerAll_passes (s : σ) (later : List RegionInfo)
    (fits : ∀ cell ∈ answerCells (answerAll server s (plan sent cells later)), cell.Fits)
    (total : cellsLen (answerCells (answerAll server s (plan sent cells later))) < 2 ^ 32) :
    ∀ answer ∈ answerAll server s (plan sent cells later), answer.Passes m := by
  induction later generalizing s with
  | nil => simp [plan, answerAll]
  | cons region later ih =>
      simp only [plan, List.map_cons, answerAll, answerCells, List.flatMap_cons,
        cellsLen_append] at fits total ⊢
      rw [List.forall_mem_append] at fits
      rw [List.forall_mem_cons]
      constructor
      · exact answerRegion_passes server cells layout few s region fits.1 (by omega)
      · exact ih _ fits.2 (by simp only [plan, answerCells]; omega)

end Response

theorem filled_of_bare {answers : List AnsweredRegion} (bare : answerCells answers = []) :
    answers.map (·.filled) = answers.map (·.sent) := by
  apply List.map_congr_left
  intro answer member
  have empty : ∀ action ∈ answer.actions, action.cells = [] := by
    intro action own
    have nothing := List.flatMap_eq_nil_iff.mp bare answer member
    exact List.flatMap_eq_nil_iff.mp nothing action own
  have same : answer.actions.map (·.filled) = answer.actions.map (·.action) := by
    apply List.map_congr_left
    intro action own
    simp [AnsweredAction.filled, empty action own]
  rw [AnsweredRegion.filled, AnsweredRegion.sent, same]

theorem handleResponse_answers {D : Type} {put : List Delivery → Go D} {w : Protowire}
    {unmarshalHeader : Bytes → Except String ResponseHeader}
    {unmarshal : Bytes → MultiResponse → MultiResponse × Option String} {m : Multi}
    {header : ResponseHeader} {size : UInt32} {front : Bytes} {answers : List AnsweredRegion}
    (passes : ∀ answer ∈ answers, answer.Passes m)
    (length : (front ++ encodeCells (answerCells answers)).length = size.toNat)
    (carried : header.cellsLen.toNat = (encodeCells (answerCells answers)).length) :
    (multiReceiver w unmarshalHeader unmarshal none put).handleResponse m header size
        (front ++ encodeCells (answerCells answers)) (answers.map (·.sent)) =
      m.returnRegions 0 (answers.map (·.filled)) >>= put := by
  have word := header.cellsLen.toNat_lt
  rw [carried, length_encodeCells] at word
  by_cases bare : answerCells answers = []
  · have absent : header.cellsLen = 0 := by
      rw [bare, encodeCells_nil, List.length_nil] at carried
      exact UInt32.toNat_inj.mp carried
    rw [Receiver.handleResponse_bare _ absent, filled_of_bare bare]
  · have decoded := decodes_all (fun _ _ => rfl) answers
      (fun answer member => Multi.region_decodes (passes answer member)) [] []
      (by rw [List.length_nil, Nat.zero_add]; exact word)
    rw [List.append_nil, List.nil_append, List.length_nil, Nat.zero_add] at decoded
    have present : encodeCells (answerCells answers) ≠ [] := by
      have positive := length_le_cellsLen (answerCells answers)
      have nonempty := List.length_pos_iff.mpr bare
      rw [← List.length_pos_iff, length_encodeCells]
      omega
    apply Receiver.handleResponse_accepted length carried present rfl decoded
    rw [length_encodeCells]
    exact Nat.not_lt.mpr (Nat.le_of_eq (UInt32.toNat_ofNat_of_lt' word).symm)

structure Planned (live : List (Call × Nat))
    (plan : List (Bytes × List ((Call × Nat) × Operation))) : Prop where
  grouped : ∀ group ∈ plan, ∃ region : RegionInfo, region.name = group.1 ∧
    group.2.map Prod.fst = live.filter fun entry => decide (entry.1.region = some region)
  complete : (plan.flatMap fun group => group.2.map Prod.fst).Perm live
  asked : ∀ group ∈ plan, ∀ entry ∈ group.2, Asks entry.1.1 entry.2

section Batch

variable {run : MultiRun} {calls : List Call} {m : Multi} {request : MultiRequest}
  {cbs : List Bytes} {size : UInt32} {sent : List Sent} {regions : List RegionInfo}
  (layout : Layout true run calls [] m request cbs size sent regions) {cells : Sent → List Cell}

include layout

theorem plan_planned (perm : ∀ t ∈ sent, (cells t).Perm t.call.cells) :
    Planned (liveCalls run.expired 0 calls) (plan sent cells regions) := by
  obtain ⟨tags, serialized⟩ := encoded_sent layout.encoded
  refine ⟨?_, ?_, ?_⟩
  · intro group member
    obtain ⟨region, _, rfl⟩ := List.mem_map.mp member
    refine ⟨region, rfl, ?_⟩
    rw [← tags, List.filter_map, List.map_map]
    rfl
  · rw [← tags, plan, List.flatMap_map]
    simp only [List.map_map]
    have walk := layout.walk_perm.map fun t => (t.call, t.position)
    rw [List.map_flatMap] at walk
    exact walk
  · intro group member entry inside
    obtain ⟨region, _, rfl⟩ := List.mem_map.mp member
    obtain ⟨t, listed, rfl⟩ := List.mem_map.mp inside
    have own := List.mem_of_mem_filter listed
    refine ⟨(perm t own).map _, _, _, _, _, serialized t own, ?_, ?_⟩
    · simp only [task, Sent.action, Request.action]
      split
      · rfl
      · rfl
    · simp only [task, Sent.action, Request.action]
      split
      · rfl
      · rfl

end Batch

/-- A batch of fewer than `2 ^ 32` calls and bytes whose `SerializeCellBlocks` returns runs, without
a compressor, as if its calls were handed to the server directly, region by region: the server reads
what they ask, and each gets what the server made of its own operation, with the cells that belong
to it. Rows and families of the cells must fit their lengths in a cell, and the frame its own. -/
theorem batch_exchange (m m' : Multi) (run : MultiRun) (calls : List Call) (cbs : List Bytes)
    (request : MultiRequest) (size : UInt32) (batched : m.calls = calls.map some)
    (few : calls.length < 2 ^ 32)
    (total : ((liveCalls run.expired 0 calls).map fun entry => cellsLen entry.1.cells).sum < 2 ^ 32)
    (returned : m.serializeCellBlocks run [] = .ok (m', request, cbs, size)) :
    ∃ plan, Planned (liveCalls run.expired 0 calls) plan ∧
      ∀ (σ : Type) (server : Server σ) (s : σ), ∃ answers,
        serve server s request cbs.flatten = some (answers, [], (executeAll server s plan).2) ∧
        ((∀ cell ∈ answerCells answers, cell.row.length < 2 ^ 16 ∧ cell.family.length < 2 ^ 8) →
          ∀ (D : Type) (put : List Delivery → Go D) w unmarshalHeader unmarshal header frameSize
            front,
            (front ++ encodeCells (answerCells answers)).length = UInt32.toNat frameSize →
            header.cellsLen.toNat = (encodeCells (answerCells answers)).length →
            (multiReceiver w unmarshalHeader unmarshal none put).handleResponse m' header frameSize
                (front ++ encodeCells (answerCells answers)) (answers.map (·.sent)) =
              put ((executeAll server s plan).1.map deliverTo)) := by
  obtain ⟨sent, regions, layout⟩ := Multi.toProto_layout batched returned
  obtain ⟨tags, serialized⟩ := encoded_sent layout.encoded
  rw [← tags, List.map_map] at total
  have each : ∀ t ∈ sent, cellsLen t.call.cells < 2 ^ 32 := by
    intro t member
    have summand := List.le_sum_of_mem (List.mem_map_of_mem (f := fun t : Sent =>
      cellsLen t.call.cells) member)
    exact Nat.lt_of_le_of_lt summand total
  choose! cells perm slices _ counts using fun t (member : t ∈ sent) =>
    Call.serialize_cells (serialized t member) (each t member) t.index
  have small : ∀ t ∈ sent, cellsLen (cells t) < 2 ^ 32 := by
    intro t member
    rw [Mutate.cellsLen_perm (perm t member)]
    exact each t member
  refine ⟨plan sent cells regions, plan_planned layout perm, ?_⟩
  intro σ server s
  have served := serve_walk server sent s regions [] small slices counts
  rw [List.append_nil, ← layout.actions] at served
  rw [layout.slices, List.nil_append]
  refine ⟨_, served, ?_⟩
  intro limits D put w unmarshalHeader unmarshal header frameSize front length carried
  have delivered := returnRegions_execute server cells layout few s 0 regions rfl
  have word := header.cellsLen.toNat_lt
  rw [carried, length_encodeCells] at word
  have fits := fits_of_total (fun cell member => (limits cell member).1)
    (fun cell member => (limits cell member).2) word
  have passes := answerAll_passes server cells layout few s regions fits word
  rw [handleResponse_answers passes length carried, delivered, ok_bind]

def countingServer : Server Nat where
  refuse := fun _ region =>
    if region = (sampleRegion 1 2 [109] []).name then
      some ⟨"org.apache.hadoop.hbase.NotServingRegionException", []⟩
    else none
  perform := fun count _ _ =>
    (.result sampleResult [sampleCell [97] [UInt8.ofNat count]], count + 1)

def countedAnswers : List AnsweredRegion :=
  [⟨[], some ⟨"org.apache.hadoop.hbase.NotServingRegionException", []⟩⟩,
    ⟨[(Outcome.result sampleResult [sampleCell [97] [0]]).answer 1], none⟩]

theorem batch_exchange_mixed :
    ∃ m' request cbs size plan,
      Multi.serializeCellBlocks ⟨3, mixedBatch.map some, []⟩ (sampleRun fun i => i == 2) [] =
        .ok (m', request, cbs, size) ∧
      Planned (liveCalls (fun i => i == 2) 0 mixedBatch) plan ∧
      serve countingServer 0 request cbs.flatten = some (countedAnswers, [], 1) ∧
      (executeAll countingServer 0 plan).2 = 1 ∧
      (multiReceiver Varint.protowire (fun _ => .error "") (fun _ response => (response, none))
          none pure).handleResponse m' ⟨some 1, none, some ⟨some 29⟩⟩ 29
          (encodeCells [sampleCell [97] [0]]) (countedAnswers.map (·.sent)) =
        .ok ((executeAll countingServer 0 plan).1.map deliverTo) := by
  obtain ⟨plan, planned, exchanged⟩ := batch_exchange ⟨3, mixedBatch.map some, []⟩ _
    (sampleRun fun i => i == 2) mixedBatch _ _ _ rfl (by decide) (by decide) rfl
  obtain ⟨answers, served, delivered⟩ := exchanged Nat countingServer 0
  have ran := served
  rw [show serve countingServer 0 _ _ = some (countedAnswers, [], 1) from rfl] at ran
  obtain ⟨rfl, behind⟩ := Prod.mk.inj (Option.some.inj ran)
  refine ⟨_, _, _, _, plan, rfl, planned, rfl, (Prod.mk.inj behind).2.symm, ?_⟩
  exact delivered (by decide) _ pure _ _ _ ⟨some 1, none, some ⟨some 29⟩⟩ 29 [] rfl rfl

end GoHBase.Exchange
