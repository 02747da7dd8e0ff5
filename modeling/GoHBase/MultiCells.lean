import GoHBase.CellblockDecoding
import GoHBase.MultiDemux

/-!
The cells behind a MultiResponse. They stand there in the order of the results, and each result
says how many of them are its own.
-/

namespace GoHBase

open ByteString Runtime Buffer

/-- The common body of the two decoders: the result with its cells, and the length read. -/
def fillResult (result : Option PbResult) (b : Bytes) :
    Go (Option PbResult × Except String UInt32) :=
  match result with
  | none => pure (none, .ok 0)
  | some r => do
      match ← deserializeCellBlocks b (r.associatedCellCount.getD 0).toUInt32 with
      | .error (_, err) => pure (some r, .error err)
      | .ok (cells, read) => pure (some { r with cell := r.cell ++ cells }, .ok read)

def Get.deserializeCellBlocks : Option PbResult → Bytes →
    Go (Option PbResult × Except String UInt32) := fillResult

def Mutate.deserializeCellBlocks : Option PbResult → Bytes →
    Go (Option PbResult × Except String UInt32) := fillResult

def Call.name (c : Call) : String :=
  match c.rpc with
  | .get _ => "Get"
  | .mutate _ => "Mutate"

def Call.deserializeCellBlocks (c : Call) (r : Option PbResult) (b : Bytes) :
    Go (Option PbResult × Except String UInt32) :=
  match c.rpc with
  | .get _ => Get.deserializeCellBlocks r b
  | .mutate _ => Mutate.deserializeCellBlocks r b

/-- The loop over the results of one region. The message is filled in place, so it is returned
with an error too. -/
def Multi.deserializeActions (m : Multi) (b : Bytes) :
    List ResultOrException → UInt32 → Go (List ResultOrException × Except String UInt32)
  | [], nread => pure ([], .ok nread)
  | roe :: rest, nread =>
      let i := roe.index.getD 0
      if i = 0 then
        pure (roe :: rest, .error "no index for result in multi response")
      else
        match roe.result, roe.exception with
        | none, none =>
            pure (roe :: rest, .error "no result or exception for action in multi response")
        | some _, some _ =>
            pure (roe :: rest, .error "got result and exception for action in multi response")
        | none, some _ => do
            let (later, outcome) ← m.deserializeActions b rest nread
            pure (roe :: later, outcome)
        | some r, none => do
            match ← m.get i with
            | none =>
                .error (.panic
                  "interface conversion: interface is nil, not region.canDeserializeCellBlocks")
            | some c => do
                let unread ← sliceFrom b nread.toNat
                let (filled, outcome) ← c.deserializeCellBlocks (some r) unread
                let roe := { roe with result := filled }
                match outcome with
                | .error err =>
                    pure (roe :: rest, .error ("error deserializing cellblocks for \"" ++ c.name ++
                      "\" call as part of MultiResponse: " ++ err))
                | .ok n => do
                    let (later, outcome) ← m.deserializeActions b rest (nread + n)
                    pure (roe :: later, outcome)

def Multi.deserializeRegions (m : Multi) (b : Bytes) :
    MultiResponse → UInt32 → Go (MultiResponse × Except String UInt32)
  | [], nread => pure ([], .ok nread)
  | rar :: rest, nread =>
      match rar.exception with
      | some _ =>
          let l := rar.resultOrException.length
          if l ≠ 0 then
            pure (rar :: rest,
              .error s!"got exception for region, but still have {l} result(s) returned from it")
          else do
            let (later, outcome) ← m.deserializeRegions b rest nread
            pure (rar :: later, outcome)
      | none => do
          let (actions, outcome) ← m.deserializeActions b rar.resultOrException nread
          let rar := { rar with resultOrException := actions }
          match outcome with
          | .error err => pure (rar :: rest, .error err)
          | .ok nread => do
              let (later, outcome) ← m.deserializeRegions b rest nread
              pure (rar :: later, outcome)

def Multi.deserializeCellBlocks (m : Multi) (msg : MultiResponse) (b : Bytes) :
    Go (MultiResponse × Except String UInt32) :=
  m.deserializeRegions b msg 0

/-! What a region server answers: each result together with the cells that it sends for it. -/

structure AnsweredAction where
  action : ResultOrException
  cells : List Cell

structure AnsweredRegion where
  actions : List AnsweredAction
  exception : Option NameBytesPair

def AnsweredAction.filled (answer : AnsweredAction) : ResultOrException :=
  { answer.action with
    result := answer.action.result.map fun r => { r with cell := r.cell ++ answer.cells } }

def AnsweredRegion.sent (answer : AnsweredRegion) : RegionActionResult :=
  ⟨answer.actions.map (·.action), answer.exception⟩

def AnsweredRegion.filled (answer : AnsweredRegion) : RegionActionResult :=
  ⟨answer.actions.map (·.filled), answer.exception⟩

def actionCells (actions : List AnsweredAction) : List Cell := actions.flatMap (·.cells)

def answerCells (answers : List AnsweredRegion) : List Cell :=
  answers.flatMap fun answer => actionCells answer.actions

/-- An action is answered by a result or an exception, under the index of a live call, and a
result says how many cells it has. -/
structure AnsweredAction.Conforms (m : Multi) (answer : AnsweredAction) : Prop where
  indexed : ∃ i c, answer.action.index = some i ∧ i ≠ 0 ∧ m.calls[i.toNat - 1]? = some (some c)
  either : answer.action.exception = none ↔ answer.action.result ≠ none
  counted : ∀ r, answer.action.result = some r →
    (r.associatedCellCount.getD 0).toInt = answer.cells.length
  bare : answer.action.result = none → answer.cells = []

structure AnsweredRegion.Conforms (m : Multi) (answer : AnsweredRegion) : Prop where
  actions : ∀ action ∈ answer.actions, action.Conforms m
  refused : answer.exception ≠ none → answer.actions = []

structure AnsweredAction.Passes (m : Multi) (answer : AnsweredAction) : Prop where
  indexed : answer.action.index.getD 0 ≠ 0
  either : answer.action.exception = none ↔ answer.action.result ≠ none
  called : answer.action.result ≠ none →
    ∃ c, m.calls[(answer.action.index.getD 0).toNat - 1]? = some (some c)
  counted : ∀ r, answer.action.result = some r →
    (r.associatedCellCount.getD 0).toUInt32.toNat = answer.cells.length
  bare : answer.action.result = none → answer.cells = []
  fits : ∀ cell ∈ answer.cells, cell.Fits

structure AnsweredRegion.Passes (m : Multi) (answer : AnsweredRegion) : Prop where
  actions : ∀ action ∈ answer.actions, action.Passes m
  refused : answer.exception ≠ none → answer.actions = []

theorem toNat_toUInt32_of_toInt {count : Int32} {n : Nat} (same : count.toInt = n) :
    count.toUInt32.toNat = n := by
  have word : count.toUInt32 = UInt32.ofNat n := by
    rw [← Int32.ofInt_toInt count, same]
    rfl
  have bound := count.toInt_lt
  rw [word]
  exact UInt32.toNat_ofNat_of_lt' (by change n < 2 ^ 32; omega)

theorem AnsweredAction.Conforms.passes {m : Multi} {answer : AnsweredAction}
    (conforms : answer.Conforms m) (fits : ∀ cell ∈ answer.cells, cell.Fits) :
    answer.Passes m := by
  obtain ⟨i, c, indexed, nonzero, stored⟩ := conforms.indexed
  refine ⟨by rwa [indexed], conforms.either, fun _ => ⟨c, by rwa [indexed]⟩, ?_, conforms.bare,
    fits⟩
  intro r answered
  exact toNat_toUInt32_of_toInt (conforms.counted r answered)

theorem AnsweredRegion.Conforms.passes {m : Multi} {answer : AnsweredRegion}
    (conforms : answer.Conforms m) (fits : ∀ cell ∈ actionCells answer.actions, cell.Fits) :
    answer.Passes m := by
  refine ⟨fun action member => ?_, conforms.refused⟩
  apply (conforms.actions action member).passes
  exact fun cell own => fits cell (List.mem_flatMap_of_mem member own)

theorem index_toNat_pred {i : UInt32} (nonzero : i ≠ 0) : (i - 1).toNat = i.toNat - 1 := by
  have positive : 0 < i.toNat := by
    rw [Nat.pos_iff_ne_zero]
    exact fun zero => nonzero (UInt32.toNat_inj.mp zero)
  rw [UInt32.toNat_sub_of_le]
  · rfl
  · exact UInt32.le_iff_toNat_le.mpr positive

theorem Multi.get_ok_iff (m : Multi) (i : UInt32) (stored : Option Call) :
    m.get i = .ok stored ↔ i ≠ 0 ∧ m.calls[i.toNat - 1]? = some stored := by
  unfold Multi.get
  by_cases zero : i = 0
  · simp [zero]
  · rw [if_neg zero, index, index_toNat_pred zero]
    cases m.calls[i.toNat - 1]? with
    | none => simp
    | some found => simp [zero]

theorem Call.deserializeCellBlocks_eq (c : Call) (r : Option PbResult) (b : Bytes) :
    c.deserializeCellBlocks r b = fillResult r b := by
  unfold Call.deserializeCellBlocks
  split
  · rfl
  · rfl

theorem fillResult_encodeCells {r : PbResult} {cells : List Cell}
    (fits : ∀ cell ∈ cells, cell.Fits) (total : cellsLen cells < 2 ^ 32)
    (counted : (r.associatedCellCount.getD 0).toUInt32.toNat = cells.length) (rest : Bytes) :
    fillResult (some r) (encodeCells cells ++ rest) =
      .ok (some { r with cell := r.cell ++ cells }, .ok (UInt32.ofNat (cellsLen cells))) := by
  have read := deserializeCellBlocks_encodeCells cells fits total rest
  rw [← counted, UInt32.ofNat_toNat] at read
  simp only [fillResult, read, ok_bind]
  rfl

/-! Cells that are cut off: the reader asks for the rest before it looks at it. -/

theorem take_encodeCells_within {cells : List Cell} {k : Nat} (within : k < cellsLen cells)
    (rest : Bytes) : (encodeCells cells ++ rest).take k = (encodeCells cells).take k :=
  List.take_append_of_le_length (by rw [length_encodeCells]; omega)

theorem take_encodeCells_beyond {cells : List Cell} {k : Nat} (beyond : ¬k < cellsLen cells)
    (rest : Bytes) :
    (encodeCells cells ++ rest).take k = encodeCells cells ++ rest.take (k - cellsLen cells) := by
  rw [List.take_append, List.take_of_length_le (by rw [length_encodeCells]; omega),
    length_encodeCells]

theorem cellFromCellBlock_truncated {cell : Cell} (fits : cell.Fits) {k : Nat}
    (short : k < cell.blockLen) :
    ∃ err, cellFromCellBlock (cell.encode.take k) = .ok (.error err) := by
  have size : (cell.encode.take k).length = k := by
    rw [List.length_take, Cell.length_encode]
    omega
  unfold cellFromCellBlock
  by_cases header : k < 4
  · rw [if_pos (by omega)]
    exact ⟨_, rfl⟩
  · have lengths : 4 + 4 + cell.keyLen + cell.value.length + 4 = cell.blockLen := by
      simp only [Cell.keyLen, Cell.blockLen, cellblockLen]
      omega
    have block := fits.block
    have word : (UInt32.ofNat (4 + 4 + cell.keyLen + cell.value.length)).toNat =
        4 + 4 + cell.keyLen + cell.value.length :=
      UInt32.toNat_ofNat_of_lt' (by change _ < 2 ^ 32; omega)
    have first : slice (cell.encode.take k) 0 4 =
        .ok (bigEndian 4 (UInt32.ofNat (4 + 4 + cell.keyLen + cell.value.length)).toNat) := by
      rw [slice, if_pos ⟨by omega, by omega⟩, List.take_take, Nat.min_eq_left (by omega), word]
      rfl
    rw [if_neg (by omega), first, ok_bind]
    simp only [word32_bigEndian]
    rw [if_pos (by omega)]
    exact ⟨_, rfl⟩

theorem cutCells_truncated (cells : List Cell) (fits : ∀ cell ∈ cells, cell.Fits) {k : Nat}
    (short : k < cellsLen cells) : CutCells cells.length ((encodeCells cells).take k) := by
  induction cells generalizing k with
  | nil => simp at short
  | cons cell cells ih =>
      have cellFits := fits cell List.mem_cons_self
      rw [cellsLen_cons] at short
      by_cases whole : k < cell.blockLen
      · have block := (cellFromCellBlock_refuses_iff _).mp
          (cellFromCellBlock_truncated cellFits whole)
        refine ⟨[], cell.encode.take k, by simp, by simp, ?_, block⟩
        rw [encodeCells_cons, List.take_append_of_le_length (by rw [Cell.length_encode]; omega)]
        rfl
      · obtain ⟨front, rest, few, frontFits, cut, block⟩ :=
          ih (fun other member => fits other (List.mem_cons_of_mem _ member))
            (show k - cell.blockLen < cellsLen cells by omega)
        refine ⟨cell :: front, rest, by simpa using few, ?_, ?_, block⟩
        · exact List.forall_mem_cons.mpr ⟨cellFits, frontFits⟩
        · rw [encodeCells_cons, List.take_append,
            List.take_of_length_le (by rw [Cell.length_encode]; omega), Cell.length_encode, cut,
            encodeCells_cons, List.append_assoc]

theorem fillResult_cut {r : PbResult} {unread : Bytes} (small : unread.length < 2 ^ 32)
    (cut : CutCells (r.associatedCellCount.getD 0).toUInt32.toNat unread) :
    ∃ err, fillResult (some r) unread = .ok (some r, .error err) := by
  obtain ⟨⟨readLen, err⟩, failed⟩ := (deserializeCellBlocks_error_iff small _).mpr cut
  simp only [fillResult, failed, ok_bind]
  exact ⟨err, rfl⟩

theorem fillResult_returned {r : PbResult} {unread : Bytes} (small : unread.length < 2 ^ 32)
    {answer : Option PbResult × Except String UInt32}
    (ran : fillResult (some r) unread = .ok answer) :
    CutCells (r.associatedCellCount.getD 0).toUInt32.toNat unread ∨
      ∃ cells rest, (r.associatedCellCount.getD 0).toUInt32.toNat = cells.length ∧
        (∀ cell ∈ cells, cell.Fits) ∧ unread = encodeCells cells ++ rest := by
  obtain ⟨outcome, read, _⟩ := (bind_ok_iff _ _ _).mp ran
  obtain failed | ⟨cells, n⟩ := outcome
  · exact .inl ((deserializeCellBlocks_error_iff small _).mp ⟨failed, read⟩)
  · obtain ⟨counted, fits, _, rest, split⟩ := deserializeCellBlocks_sound small read
    exact .inr ⟨cells, rest, counted.symm, fits, split⟩

/-! A loop that fills its items one after the other, each with its own cells. -/

section Loop

variable {α β : Type} {run : Bytes → List α → UInt32 → Go (List α × Except String UInt32)}

structure Decodes (run : Bytes → List α → UInt32 → Go (List α × Except String UInt32))
    (sent filled : α) (cells : List Cell) : Prop where
  whole : ∀ (front rest : Bytes) (items : List α), front.length + cellsLen cells < 2 ^ 32 →
    run (front ++ (encodeCells cells ++ rest)) (sent :: items) (UInt32.ofNat front.length) =
      (run (front ++ (encodeCells cells ++ rest)) items
        (UInt32.ofNat (front.length + cellsLen cells)) >>= fun later =>
          pure (filled :: later.1, later.2))
  cut : ∀ (front : Bytes) (items : List α) (k : Nat), front.length + cellsLen cells < 2 ^ 32 →
    k < cellsLen cells → ∃ left err,
      run (front ++ (encodeCells cells).take k) (sent :: items) (UInt32.ofNat front.length) =
        .ok (left, .error err)

theorem decodes_front {sent filled : β → α} {cells : β → List Cell} (items : List β)
    (each : ∀ item ∈ items, Decodes run (sent item) (filled item) (cells item))
    (front rest : Bytes) (more : List α)
    (small : front.length + cellsLen (items.flatMap cells) < 2 ^ 32) :
    run (front ++ (encodeCells (items.flatMap cells) ++ rest)) (items.map sent ++ more)
        (UInt32.ofNat front.length) =
      (run (front ++ (encodeCells (items.flatMap cells) ++ rest)) more
        (UInt32.ofNat (front.length + cellsLen (items.flatMap cells))) >>= fun later =>
          pure (items.map filled ++ later.1, later.2)) := by
  induction items generalizing front with
  | nil => simp
  | cons item items ih =>
      rw [List.flatMap_cons, cellsLen_append] at small
      have step := (each item List.mem_cons_self).whole front
        (encodeCells (items.flatMap cells) ++ rest) (items.map sent ++ more) (by omega)
      have later := ih (fun other member => each other (List.mem_cons_of_mem _ member))
        (front ++ encodeCells (cells item)) (by rw [List.length_append, length_encodeCells]; omega)
      simp only [List.length_append, length_encodeCells, List.append_assoc] at later
      rw [List.flatMap_cons, encodeCells_append, cellsLen_append, List.append_assoc, List.map_cons,
        List.cons_append, step, later, bind_assoc, Nat.add_assoc]
      simp only [pure_bind, List.map_cons, List.cons_append]

theorem decodes_all (ends : ∀ b nread, run b [] nread = .ok ([], .ok nread))
    {sent filled : β → α} {cells : β → List Cell} (items : List β)
    (each : ∀ item ∈ items, Decodes run (sent item) (filled item) (cells item))
    (front rest : Bytes) (small : front.length + cellsLen (items.flatMap cells) < 2 ^ 32) :
    run (front ++ (encodeCells (items.flatMap cells) ++ rest)) (items.map sent)
        (UInt32.ofNat front.length) =
      .ok (items.map filled,
        .ok (UInt32.ofNat (front.length + cellsLen (items.flatMap cells)))) := by
  have read := decodes_front items each front rest [] small
  rw [List.append_nil, ends, ok_bind, List.append_nil] at read
  exact read

theorem decodes_cut {sent filled : β → α} {cells : β → List Cell} (items : List β)
    (each : ∀ item ∈ items, Decodes run (sent item) (filled item) (cells item)) (front : Bytes)
    (small : front.length + cellsLen (items.flatMap cells) < 2 ^ 32) {k : Nat}
    (short : k < cellsLen (items.flatMap cells)) :
    ∃ left err, run (front ++ (encodeCells (items.flatMap cells)).take k) (items.map sent)
      (UInt32.ofNat front.length) = .ok (left, .error err) := by
  induction items generalizing front k with
  | nil => simp at short
  | cons item items ih =>
      have own := each item List.mem_cons_self
      rw [List.flatMap_cons, cellsLen_append] at small short
      rw [List.flatMap_cons, encodeCells_append, List.map_cons]
      by_cases within : k < cellsLen (cells item)
      · rw [take_encodeCells_within within]
        exact own.cut front (items.map sent) k (by omega) within
      · have step := own.whole front
          ((encodeCells (items.flatMap cells)).take (k - cellsLen (cells item)))
          (items.map sent) (by omega)
        have later := ih (fun other member => each other (List.mem_cons_of_mem _ member))
          (front ++ encodeCells (cells item))
          (by rw [List.length_append, length_encodeCells]; omega)
          (k := k - cellsLen (cells item)) (by omega)
        simp only [List.length_append, length_encodeCells, List.append_assoc] at later
        obtain ⟨left, err, failed⟩ := later
        rw [take_encodeCells_beyond within, step, failed]
        exact ⟨_, err, rfl⟩

end Loop

namespace Multi

variable {m : Multi}

theorem deserializeActions_exception {answer : AnsweredAction} (passes : answer.Passes m)
    (failed : answer.action.result = none) (b : Bytes) (rest : List ResultOrException)
    (nread : UInt32) :
    m.deserializeActions b (answer.action :: rest) nread =
      (m.deserializeActions b rest nread >>= fun later =>
        pure (answer.filled :: later.1, later.2)) ∧ answer.cells = [] := by
  have exception : ∃ e, answer.action.exception = some e := by
    rw [← Option.ne_none_iff_exists']
    exact fun absent => passes.either.mp absent failed
  obtain ⟨e, exception⟩ := exception
  have same : answer.filled = answer.action := by
    rw [AnsweredAction.filled, failed, Option.map_none, ← failed]
  refine ⟨?_, passes.bare failed⟩
  rw [deserializeActions, same]
  simp only [passes.indexed, ↓reduceIte, failed, exception]

theorem deserializeActions_result {answer : AnsweredAction} (passes : answer.Passes m)
    {r : PbResult} (answered : answer.action.result = some r) (b : Bytes)
    (rest : List ResultOrException) (nread : UInt32) {unread : Bytes}
    (sliced : sliceFrom b nread.toNat = .ok unread) {filled : Option PbResult}
    {outcome : Except String UInt32} (read : fillResult (some r) unread = .ok (filled, outcome)) :
    ∃ err, m.deserializeActions b (answer.action :: rest) nread =
      match outcome with
      | .error _ => .ok ({ answer.action with result := filled } :: rest, .error err)
      | .ok n => m.deserializeActions b rest (nread + n) >>= fun later =>
          pure ({ answer.action with result := filled } :: later.1, later.2) := by
  have present : answer.action.result ≠ none := by simp [answered]
  obtain ⟨c, stored⟩ := passes.called present
  rw [deserializeActions]
  simp only [passes.indexed, ↓reduceIte, answered, passes.either.mpr present,
    (m.get_ok_iff _ _).mpr ⟨passes.indexed, stored⟩, ok_bind, sliced,
    Call.deserializeCellBlocks_eq, read]
  cases outcome with
  | error err => exact ⟨_, rfl⟩
  | ok n => exact ⟨"", rfl⟩

theorem action_decodes {answer : AnsweredAction} (passes : answer.Passes m) :
    Decodes m.deserializeActions answer.action answer.filled answer.cells := by
  cases answered : answer.action.result with
  | none =>
      refine ⟨fun front rest items _ => ?_, fun front items k _ short => ?_⟩
      · obtain ⟨step, empty⟩ := deserializeActions_exception passes answered
          (front ++ (encodeCells answer.cells ++ rest)) items (UInt32.ofNat front.length)
        rw [step, empty, cellsLen_nil, Nat.add_zero]
      · rw [passes.bare answered, cellsLen_nil] at short
        omega
  | some r =>
      have counted := passes.counted r answered
      refine ⟨fun front rest items small => ?_, fun front items k small short => ?_⟩
      · have sliced := sliceFrom_word front (encodeCells answer.cells ++ rest) (by omega)
        have read := fillResult_encodeCells passes.fits (by omega) counted rest
        obtain ⟨_, step⟩ := deserializeActions_result passes answered _ items _ sliced read
        rw [step, AnsweredAction.filled, answered, UInt32.ofNat_add]
        rfl
      · have sliced := sliceFrom_word front ((encodeCells answer.cells).take k) (by omega)
        have cut := cutCells_truncated answer.cells passes.fits short
        rw [← counted] at cut
        obtain ⟨_, read⟩ := fillResult_cut (by rw [List.length_take]; omega) cut
        obtain ⟨err, step⟩ := deserializeActions_result passes answered _ items _ sliced read
        exact ⟨_, err, step⟩

theorem deserializeRegions_refused {answer : AnsweredRegion} (passes : answer.Passes m)
    {e : NameBytesPair} (refused : answer.exception = some e) (b : Bytes) (rest : MultiResponse)
    (nread : UInt32) :
    m.deserializeRegions b (answer.sent :: rest) nread =
      (m.deserializeRegions b rest nread >>= fun later =>
        pure (answer.filled :: later.1, later.2)) ∧ actionCells answer.actions = [] := by
  have empty : answer.actions = [] := passes.refused (by simp [refused])
  have sent : answer.sent = ⟨[], some e⟩ := by
    rw [AnsweredRegion.sent, empty, refused, List.map_nil]
  have filled : answer.filled = ⟨[], some e⟩ := by
    rw [AnsweredRegion.filled, empty, refused, List.map_nil]
  refine ⟨?_, by rw [empty]; rfl⟩
  rw [sent, filled, deserializeRegions]
  simp

theorem deserializeRegions_actions {answer : AnsweredRegion} (served : answer.exception = none)
    (b : Bytes) (rest : MultiResponse) (nread : UInt32) {actions : List ResultOrException}
    {outcome : Except String UInt32}
    (read : m.deserializeActions b (answer.actions.map (·.action)) nread = .ok (actions, outcome)) :
    m.deserializeRegions b (answer.sent :: rest) nread =
      match outcome with
      | .error err => .ok (⟨actions, none⟩ :: rest, .error err)
      | .ok nread => m.deserializeRegions b rest nread >>= fun later =>
          pure (⟨actions, none⟩ :: later.1, later.2) := by
  have sent : answer.sent = ⟨answer.actions.map (·.action), none⟩ := by
    rw [AnsweredRegion.sent, served]
  rw [sent, deserializeRegions]
  simp only [read, ok_bind]
  cases outcome with
  | error err => rfl
  | ok n => rfl

theorem region_decodes {answer : AnsweredRegion} (passes : answer.Passes m) :
    Decodes m.deserializeRegions answer.sent answer.filled (actionCells answer.actions) := by
  have actions : ∀ action ∈ answer.actions,
      Decodes m.deserializeActions action.action action.filled action.cells :=
    fun action member => action_decodes (passes.actions action member)
  cases exception : answer.exception with
  | some e =>
      refine ⟨fun front rest items _ => ?_, fun front items k _ short => ?_⟩
      · obtain ⟨step, empty⟩ := deserializeRegions_refused passes exception
          (front ++ (encodeCells (actionCells answer.actions) ++ rest)) items
          (UInt32.ofNat front.length)
        rw [step, empty, cellsLen_nil, Nat.add_zero]
      · have empty : answer.actions = [] := passes.refused (by simp [exception])
        simp [empty, actionCells] at short
  | none =>
      refine ⟨fun front rest items small => ?_, fun front items k small short => ?_⟩
      · have read := decodes_all (fun _ _ => rfl) answer.actions actions front rest small
        rw [AnsweredRegion.filled, exception]
        exact deserializeRegions_actions exception _ items _ read
      · obtain ⟨_, err, read⟩ := decodes_cut answer.actions actions front small short
        exact ⟨_, err, deserializeRegions_actions exception _ items _ read⟩

end Multi

/-- The cells of a conforming answer of less than 2^32 bytes go to the results they belong to, all
bytes are read, and an answer that is cut off anywhere is an error. -/
theorem multi_cells_exact (m : Multi) (answers : List AnsweredRegion)
    (conforms : ∀ answer ∈ answers, answer.Conforms m)
    (rows : ∀ cell ∈ answerCells answers, cell.row.length < 2 ^ 16)
    (families : ∀ cell ∈ answerCells answers, cell.family.length < 2 ^ 8)
    (total : (encodeCells (answerCells answers)).length < 2 ^ 32) :
    (∃ read, m.deserializeCellBlocks (answers.map (·.sent)) (encodeCells (answerCells answers)) =
        .ok (answers.map (·.filled), .ok read) ∧
      read.toNat = (encodeCells (answerCells answers)).length) ∧
    ∀ bytes, bytes <+: encodeCells (answerCells answers) →
      bytes ≠ encodeCells (answerCells answers) →
      ∃ msg err, m.deserializeCellBlocks (answers.map (·.sent)) bytes = .ok (msg, .error err) := by
  rw [length_encodeCells] at total ⊢
  have fits := fits_of_total rows families total
  have regions : ∀ answer ∈ answers, Decodes m.deserializeRegions answer.sent answer.filled
      (actionCells answer.actions) :=
    fun answer member => Multi.region_decodes ((conforms answer member).passes
      fun cell own => fits cell (List.mem_flatMap_of_mem member own))
  have small : ([] : Bytes).length + cellsLen (answerCells answers) < 2 ^ 32 := by
    rw [List.length_nil, Nat.zero_add]
    exact total
  constructor
  · have read := decodes_all (fun _ _ => rfl) answers regions [] [] small
    rw [List.append_nil, List.nil_append, List.length_nil, Nat.zero_add] at read
    exact ⟨_, read, UInt32.toNat_ofNat_of_lt' total⟩
  · intro bytes cut different
    have shape := List.prefix_iff_eq_take.mp cut
    have short : bytes.length < cellsLen (answerCells answers) := by
      rw [← length_encodeCells]
      refine lt_of_le_of_ne cut.length_le ?_
      exact fun same => different (cut.eq_of_length same)
    rw [shape]
    exact decodes_cut answers regions [] small short

def sampleMulti : Multi := ⟨1, [some (sampleGet 0 (sampleRegion 0 1 [] []))], []⟩

def sampleAnswer (count : Int32) (cells : List Cell) : AnsweredRegion :=
  ⟨[⟨⟨some 1, some ⟨[sampleCell [97] []], some count, none, none, none⟩, none⟩, cells⟩], none⟩

theorem sampleAnswer_conforms {count : Int32} {cells : List Cell}
    (counted : count.toInt = cells.length) : (sampleAnswer count cells).Conforms sampleMulti := by
  refine ⟨?_, nofun⟩
  intro action member
  obtain rfl := List.mem_singleton.mp member
  refine ⟨⟨1, _, rfl, by decide, rfl⟩, ⟨fun _ => nofun, fun _ => rfl⟩, ?_, nofun⟩
  intro r answered
  cases answered
  exact counted

theorem multi_cells_exact_pair :
    ∃ read, sampleMulti.deserializeCellBlocks
        [(sampleAnswer 2 [sampleCell [97] [1], sampleCell [97] []]).sent]
        (encodeCells [sampleCell [97] [1], sampleCell [97] []]) =
      .ok ([(sampleAnswer 2 [sampleCell [97] [1], sampleCell [97] []]).filled], .ok read) ∧
      read.toNat = (encodeCells [sampleCell [97] [1], sampleCell [97] []]).length := by
  have conforms : ∀ answer ∈ [sampleAnswer 2 [sampleCell [97] [1], sampleCell [97] []]],
      answer.Conforms sampleMulti := by
    intro answer member
    obtain rfl := List.mem_singleton.mp member
    exact sampleAnswer_conforms rfl
  exact (multi_cells_exact sampleMulti [sampleAnswer 2 [sampleCell [97] [1], sampleCell [97] []]]
    conforms (by decide) (by decide) (by decide)).1

theorem deserializeCellBlocks_halves {cell : Cell} (fits : cell.Fits)
    (half : cell.blockLen = 2 ^ 31) :
    deserializeCellBlocks (encodeCells [cell, cell]) 2 = .ok (.ok ([cell, cell], 0)) := by
  have first := cellFromCellBlock_encode cell fits cell.encode
  have second := cellFromCellBlock_encode cell fits []
  have size : cell.encode.length = (UInt32.ofNat (2 ^ 31)).toNat := by
    rw [Cell.length_encode, half]
    rfl
  have skip := sliceFrom_append cell.encode cell.encode _ size
  rw [half] at first second
  rw [List.append_nil] at second
  have bytes : encodeCells [cell, cell] = cell.encode ++ cell.encode := by simp
  have start : sliceFrom (cell.encode ++ cell.encode) (0 : UInt32).toNat =
      .ok (cell.encode ++ cell.encode) := by simp [sliceFrom]
  have place : (0 : UInt32) + UInt32.ofNat (2 ^ 31) = UInt32.ofNat (2 ^ 31) := by decide
  have wrapped : UInt32.ofNat (2 ^ 31) + UInt32.ofNat (2 ^ 31) = 0 := by decide
  change readCells _ 2 0 [] = _
  rw [bytes, readCells, start, ok_bind, first, ok_bind]
  simp only [place]
  rw [readCells, skip, ok_bind, second, ok_bind]
  simp only [wrapped]
  rfl

theorem multi_cells_length_wraps :
    ∃ cells : List Cell, (sampleAnswer 2 cells).Conforms sampleMulti ∧
      (∀ cell ∈ cells, cell.Fits) ∧ (encodeCells cells).length = 2 ^ 32 ∧
      sampleMulti.deserializeCellBlocks [(sampleAnswer 2 cells).sent] (encodeCells cells) =
        .ok ([(sampleAnswer 2 cells).filled], .ok 0) := by
  obtain ⟨value, size⟩ : ∃ value : Bytes, value.length = 2 ^ 31 - 28 :=
    ⟨List.replicate (2 ^ 31 - 28) 0, List.length_replicate⟩
  have half : (sampleCell [97] value).blockLen = 2 ^ 31 := by
    simp only [Cell.blockLen, cellblockLen, sampleCell, List.length_cons, List.length_nil, size]
    omega
  have fits : (sampleCell [97] value).Fits :=
    ⟨by simp [sampleCell], by simp [sampleCell], by rw [half]; omega⟩
  have conforms : (sampleAnswer 2 [sampleCell [97] value, sampleCell [97] value]).Conforms
      sampleMulti := sampleAnswer_conforms rfl
  refine ⟨[sampleCell [97] value, sampleCell [97] value], conforms, ?_, ?_, ?_⟩
  · simpa using fits
  · simp only [length_encodeCells, cellsLen_cons, cellsLen_nil, half]
    omega
  · have start (b : Bytes) : sliceFrom b (0 : UInt32).toNat = .ok b := by simp [sliceFrom]
    have read (r : PbResult) (count : r.associatedCellCount = some 2) :
        fillResult (some r) (encodeCells [sampleCell [97] value, sampleCell [97] value]) =
          .ok (some { r with
            cell := r.cell ++ [sampleCell [97] value, sampleCell [97] value] }, .ok 0) := by
      have two : (r.associatedCellCount.getD 0).toUInt32 = 2 := by rw [count]; rfl
      simp only [fillResult, two, deserializeCellBlocks_halves fits half, ok_bind]
      rfl
    obtain ⟨_, step⟩ := Multi.deserializeActions_result
      ((conforms.actions _ List.mem_cons_self).passes (by simpa [sampleAnswer] using fits)) rfl _ []
      0 (start _) (read _ rfl)
    have actions : sampleMulti.deserializeActions
        (encodeCells [sampleCell [97] value, sampleCell [97] value])
        ((sampleAnswer 2 [sampleCell [97] value, sampleCell [97] value]).actions.map (·.action)) 0 =
          .ok ((sampleAnswer 2 [sampleCell [97] value, sampleCell [97] value]).actions.map
            (·.filled), .ok 0) := step
    exact Multi.deserializeRegions_actions rfl _ [] 0 actions

end GoHBase
