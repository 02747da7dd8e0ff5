import GoHBase.Lib.Returns
import GoHBase.RegionNameCore
import GoHBase.CellblockCore

/-! Rows of hbase:meta: the region and the address of its server. The protobuf
decoder is a parameter; it refuses messages that lack a required field. -/

namespace GoHBase

open ByteString Runtime Buffer

/-- `pb.RegionInfo`, without the fields that nothing reads. -/
structure PbRegionInfo where
  regionId : UInt64
  nspace : Bytes
  qualifier : Bytes
  startKey : Bytes
  endKey : Bytes
  offline : Option Bool
  deriving DecidableEq, Repr

abbrev PbDecoder := Bytes → Except String PbRegionInfo

inductive MetaError
  | emptyValue (cell : Cell)
  | unsupportedVersion (version : UInt8) (cell : Cell)
  | invalidMagic (cell : Cell)
  | failedToDecode (cell : Cell) (err : String)
  | offlineRegion (row : Bytes)
  | noRegion (metaRow : List Cell)
  | noServer (metaRow : List Cell)
  deriving DecidableEq, Repr

/-- "default" -/
def defaultNamespace : Bytes := [100, 101, 102, 97, 117, 108, 116]

def letterP : UInt8 := 80

/-- The four bytes "PBUF". -/
def pbufMagic : Nat := 1346524486

/-- `NewInfo` on what was decoded from a cell. A default namespace is none. -/
def newInfo (ref : Nat) (cell : Cell) (regInfo : PbRegionInfo) : RegionInfo where
  ref := ref
  id := regInfo.regionId
  nspace := if regInfo.nspace ≠ defaultNamespace then some regInfo.nspace else none
  table := regInfo.qualifier
  name := cell.row
  startKey := regInfo.startKey
  stopKey := regInfo.endKey

def infoFromCell (decode : PbDecoder) (ref : Nat) (cell : Cell) :
    Go (Except MetaError RegionInfo) :=
  if cell.value.length = 0 then pure (.error (.emptyValue cell))
  else do
    let version ← index cell.value 0
    if version ≠ letterP then pure (.error (.unsupportedVersion version cell))
    else do
      let magic := fromBigEndian (← sliceTo cell.value 4)
      if magic ≠ pbufMagic then pure (.error (.invalidMagic cell))
      else do
        let message ← sliceFrom cell.value 4
        match decode message with
        | .error err => pure (.error (.failedToDecode cell err))
        | .ok regInfo =>
            if regInfo.offline.getD false then pure (.error (.offlineRegion cell.row))
            else pure (.ok (newInfo ref cell regInfo))

def regionInfoQualifier : Bytes := [114, 101, 103, 105, 111, 110, 105, 110, 102, 111]

def serverQualifier : Bytes := [115, 101, 114, 118, 101, 114]

def parseCells (decode : PbDecoder) :
    Nat → List Cell → Option RegionInfo → Bytes → Go (Except MetaError (Option RegionInfo × Bytes))
  | _, [], reg, addr => pure (.ok (reg, addr))
  | ref, cell :: cells, reg, addr =>
      if cell.qualifier = regionInfoQualifier then do
        match ← infoFromCell decode ref cell with
        | .error err => pure (.error err)
        | .ok info => parseCells decode (ref + 1) cells (some info) addr
      else if cell.qualifier = serverQualifier then
        if cell.value.length = 0 then parseCells decode ref cells reg addr
        else parseCells decode ref cells reg cell.value
      else parseCells decode ref cells reg addr

/-- `ParseRegionInfo`. New regions are numbered from `ref` on. -/
def parseRegionInfo (decode : PbDecoder) (ref : Nat) (metaRow : List Cell) :
    Go (Except MetaError (RegionInfo × Bytes)) := do
  match ← parseCells decode ref metaRow none [] with
  | .error err => pure (.error err)
  | .ok (none, _) => pure (.error (.noRegion metaRow))
  | .ok (some reg, addr) =>
      if addr.length = 0 then pure (.error (.noServer metaRow)) else pure (.ok (reg, addr))

/-! What a row says, apart from how it is read. -/

def regionCells (metaRow : List Cell) : List Cell :=
  metaRow.filter fun cell => cell.qualifier = regionInfoQualifier

def serverCells (metaRow : List Cell) : List Cell :=
  metaRow.filter fun cell => cell.qualifier = serverQualifier ∧ cell.value ≠ []

/-- The value of the cell is the magic "PBUF" and the message of a region that is online. -/
def Online (decode : PbDecoder) (cell : Cell) (regInfo : PbRegionInfo) : Prop :=
  cell.value.take 4 = [80, 66, 85, 70] ∧ decode (cell.value.drop 4) = .ok regInfo ∧
    regInfo.offline ≠ some true

def CutMagic (cell : Cell) : Prop :=
  cell.value.head? = some letterP ∧ cell.value.length < 4

instance (cell : Cell) : Decidable (CutMagic cell) := inferInstanceAs (Decidable (_ ∧ _))

theorem magic_iff {bytes : Bytes} (size : bytes.length = 4) :
    fromBigEndian bytes = pbufMagic ↔ bytes = [80, 66, 85, 70] := by
  constructor
  · intro same
    rw [← bigEndian_fromBigEndian bytes 4 size, same]
    decide
  · rintro rfl
    decide

theorem infoFromCell_other {decode : PbDecoder} {ref : Nat} {cell : Cell}
    (other : cell.value.head? ≠ some letterP) :
    ∃ err, infoFromCell decode ref cell = .ok (.error err) := by
  unfold infoFromCell
  cases value : cell.value with
  | nil => exact ⟨_, rfl⟩
  | cons version tail =>
      have letter : version ≠ letterP := by
        rintro rfl
        exact other (by rw [value]; rfl)
      rw [if_neg (by simp), show index (version :: tail) 0 = .ok version from rfl, ok_bind,
        if_pos letter]
      exact ⟨_, rfl⟩

theorem infoFromCell_letter {decode : PbDecoder} {ref : Nat} {cell : Cell}
    (letter : cell.value.head? = some letterP) :
    infoFromCell decode ref cell = (do
      let magic := fromBigEndian (← sliceTo cell.value 4)
      if magic ≠ pbufMagic then pure (.error (.invalidMagic cell))
      else do
        let message ← sliceFrom cell.value 4
        match decode message with
        | .error err => pure (.error (.failedToDecode cell err))
        | .ok regInfo =>
            if regInfo.offline.getD false then pure (.error (.offlineRegion cell.row))
            else pure (.ok (newInfo ref cell regInfo))) := by
  have first : index cell.value 0 = .ok letterP := by
    rw [index, ← List.head?_eq_getElem?, letter]
  have nonempty : cell.value.length ≠ 0 := by
    intro empty
    rw [List.length_eq_zero_iff.mp empty] at letter
    cases letter
  rw [infoFromCell, if_neg nonempty, first, ok_bind, if_neg (not_not.mpr rfl)]

theorem infoFromCell_cases (decode : PbDecoder) (ref : Nat) (cell : Cell) :
    (CutMagic cell ∧ infoFromCell decode ref cell = .error outOfRange) ∨
      (¬CutMagic cell ∧ ∃ regInfo, Online decode cell regInfo ∧
        infoFromCell decode ref cell = .ok (.ok (newInfo ref cell regInfo))) ∨
      (¬CutMagic cell ∧ (∀ regInfo, ¬Online decode cell regInfo) ∧
        ∃ err, infoFromCell decode ref cell = .ok (.error err)) := by
  by_cases letter : cell.value.head? = some letterP
  · rw [infoFromCell_letter letter]
    by_cases short : cell.value.length < 4
    · refine .inl ⟨⟨letter, short⟩, ?_⟩
      rw [sliceTo, if_neg (by omega)]
      rfl
    have whole : ¬CutMagic cell := fun cut => short cut.2
    rw [sliceTo, if_pos (by omega), ok_bind]
    have size : (cell.value.take 4).length = 4 := List.length_take_of_le (by omega)
    by_cases magic : fromBigEndian (cell.value.take 4) ≠ pbufMagic
    · refine .inr (.inr ⟨whole, ?_, .invalidMagic cell, ?_⟩)
      · rintro regInfo ⟨same, -⟩
        exact magic ((magic_iff size).mpr same)
      · rw [if_pos magic]
        rfl
    have bytes := (magic_iff size).mp (not_not.mp magic)
    rw [if_neg magic, sliceFrom, if_pos (by omega), ok_bind]
    cases decoded : decode (cell.value.drop 4) with
    | error err =>
        refine .inr (.inr ⟨whole, ?_, _, rfl⟩)
        rintro regInfo ⟨-, same, -⟩
        rw [decoded] at same
        cases same
    | ok regInfo =>
        dsimp only
        by_cases offline : regInfo.offline.getD false = true
        · rw [if_pos offline]
          refine .inr (.inr ⟨whole, ?_, _, rfl⟩)
          rintro other ⟨-, same, online⟩
          rw [decoded] at same
          cases same
          cases flag : regInfo.offline with
          | none => simp [flag] at offline
          | some down => simp_all
        · rw [if_neg offline]
          refine .inr (.inl ⟨whole, regInfo, ⟨bytes, decoded, ?_⟩, rfl⟩)
          intro down
          exact offline (by rw [down]; rfl)
  · refine .inr (.inr ⟨fun cut => letter cut.1, ?_, infoFromCell_other letter⟩)
    rintro regInfo ⟨magic, -⟩
    apply letter
    cases value : cell.value with
    | nil => simp [value] at magic
    | cons version tail =>
        rw [value, List.take_succ_cons] at magic
        rw [List.head?_cons, (List.cons.inj magic).1]
        rfl

def Guarded (decode : PbDecoder) (metaRow : List Cell) : Prop :=
  ∀ before cell after, metaRow = before ++ cell :: after →
    cell.qualifier = regionInfoQualifier → CutMagic cell →
    ∃ refused ∈ regionCells before, ∀ regInfo, ¬Online decode refused regInfo

theorem guarded_cons_iff {decode : PbDecoder} {cell : Cell} {cells : List Cell} :
    Guarded decode (cell :: cells) ↔
      (cell.qualifier = regionInfoQualifier → ¬CutMagic cell) ∧
        ((cell.qualifier = regionInfoQualifier → ∃ regInfo, Online decode cell regInfo) →
          Guarded decode cells) := by
  constructor
  · intro guarded
    constructor
    · intro here cut
      obtain ⟨refused, member, _⟩ := guarded [] cell cells rfl here cut
      cases member
    · intro online before later after split there cut
      obtain ⟨refused, member, offline⟩ :=
        guarded (cell :: before) later after (by rw [split]; rfl) there cut
      rw [regionCells, List.filter_cons] at member
      split at member
      · rename_i here
        rcases List.mem_cons.mp member with rfl | old
        · obtain ⟨regInfo, described⟩ := online (of_decide_eq_true here)
          exact absurd described (offline regInfo)
        · exact ⟨refused, old, offline⟩
      · exact ⟨refused, member, offline⟩
  · rintro ⟨whole, later⟩ before other after split there cut
    cases before with
    | nil =>
        cases split
        exact absurd cut (whole there)
    | cons first before =>
        cases split
        by_cases online :
            cell.qualifier = regionInfoQualifier → ∃ regInfo, Online decode cell regInfo
        · obtain ⟨refused, member, offline⟩ := later online before other after rfl there cut
          refine ⟨refused, ?_, offline⟩
          rw [regionCells, List.filter_cons]
          split
          · exact List.mem_cons_of_mem _ member
          · exact member
        · obtain ⟨here, refused⟩ := Classical.not_imp.mp online
          refine ⟨cell, ?_, fun regInfo described => refused ⟨regInfo, described⟩⟩
          rw [regionCells, List.filter_cons, if_pos (decide_eq_true here)]
          exact List.mem_cons_self

structure RowTells (decode : PbDecoder) (cells : List Cell) (reg : Option RegionInfo) (addr : Bytes)
    (found : Option RegionInfo) (server : Bytes) : Prop where
  online : ∀ cell ∈ regionCells cells, ∃ regInfo, Online decode cell regInfo
  unchanged : regionCells cells = [] → found = reg
  region : ∀ cell, (regionCells cells).getLast? = some cell →
    ∃ ref regInfo, Online decode cell regInfo ∧ found = some (newInfo ref cell regInfo)
  address : server = ((serverCells cells).getLast?.map Cell.value).getD addr

theorem parseCells_returns_iff (decode : PbDecoder) (ref : Nat) (cells : List Cell)
    (reg : Option RegionInfo) (addr : Bytes) :
    (∃ outcome, parseCells decode ref cells reg addr = .ok outcome) ↔ Guarded decode cells := by
  induction cells generalizing ref reg addr with
  | nil =>
      refine iff_of_true ⟨_, rfl⟩ ?_
      intro before cell after split
      cases before with
      | nil => cases split
      | cons first before => cases split
  | cons cell cells ih =>
      rw [guarded_cons_iff, parseCells]
      by_cases region : cell.qualifier = regionInfoQualifier
      · simp only [region, ↓reduceIte, forall_const]
        rcases infoFromCell_cases decode ref cell with ⟨cut, panics⟩ |
          ⟨whole, regInfo, online, parsed⟩ | ⟨whole, offline, err, refused⟩
        · rw [panics]
          refine iff_of_false ?_ fun both => both.1 cut
          rintro ⟨outcome, ran⟩
          cases ran
        · rw [parsed, ok_bind, ih]
          exact ⟨fun guarded => ⟨whole, fun _ => guarded⟩, fun both => both.2 ⟨regInfo, online⟩⟩
        · rw [refused, ok_bind]
          refine iff_of_true ⟨_, rfl⟩ ⟨whole, ?_⟩
          rintro ⟨regInfo, online⟩
          exact absurd online (offline regInfo)
      · simp only [region, ↓reduceIte, IsEmpty.forall_iff, true_and, forall_const]
        by_cases server : cell.qualifier = serverQualifier
        · rw [if_pos server]
          by_cases empty : cell.value.length = 0
          · rw [if_pos empty, ih]
          · rw [if_neg empty, ih]
        · rw [if_neg server, ih]

section Loop

variable {decode : PbDecoder} {cell : Cell} {cells : List Cell} {reg found : Option RegionInfo}
  {addr server : Bytes}

theorem RowTells.region_cons {ref : Nat} {regInfo : PbRegionInfo}
    (region : cell.qualifier = regionInfoQualifier) (online : Online decode cell regInfo)
    (tells : RowTells decode cells (some (newInfo ref cell regInfo)) addr found server) :
    RowTells decode (cell :: cells) reg addr found server := by
  have cons : regionCells (cell :: cells) = cell :: regionCells cells := by
    rw [regionCells, List.filter_cons, if_pos (decide_eq_true region)]
    rfl
  have other : serverCells (cell :: cells) = serverCells cells := by
    have differs : regionInfoQualifier ≠ serverQualifier := by decide
    simp [serverCells, region, differs]
  refine ⟨?_, ?_, ?_, by rw [other]; exact tells.address⟩
  · rw [cons]
    exact List.forall_mem_cons.mpr ⟨⟨regInfo, online⟩, tells.online⟩
  · rw [cons]
    intro impossible
    cases impossible
  · intro last there
    rw [cons, List.getLast?_cons] at there
    cases final : (regionCells cells).getLast? with
    | none =>
        rw [final] at there
        cases there
        exact ⟨ref, regInfo, online, tells.unchanged (List.getLast?_eq_none_iff.mp final)⟩
    | some later =>
        rw [final] at there
        cases there
        exact tells.region later final

theorem RowTells.other_cons {before : Bytes} (region : cell.qualifier ≠ regionInfoQualifier)
    (tells : RowTells decode cells reg addr found server)
    (address : server = ((serverCells (cell :: cells)).getLast?.map Cell.value).getD before) :
    RowTells decode (cell :: cells) reg before found server := by
  have other : regionCells (cell :: cells) = regionCells cells := by
    rw [regionCells, List.filter_cons, if_neg (by simpa using region)]
    rfl
  exact ⟨by rw [other]; exact tells.online, by rw [other]; exact tells.unchanged,
    by rw [other]; exact tells.region, address⟩

end Loop

theorem parseCells_tells {decode : PbDecoder} {ref : Nat} {cells : List Cell}
    {reg found : Option RegionInfo} {addr server : Bytes}
    (parsed : parseCells decode ref cells reg addr = .ok (.ok (found, server))) :
    RowTells decode cells reg addr found server := by
  induction cells generalizing ref reg addr with
  | nil =>
      cases parsed
      exact ⟨nofun, fun _ => rfl, nofun, rfl⟩
  | cons cell cells ih =>
      rw [parseCells] at parsed
      by_cases region : cell.qualifier = regionInfoQualifier
      · rw [if_pos region] at parsed
        rcases infoFromCell_cases decode ref cell with ⟨_, panics⟩ |
          ⟨_, regInfo, online, read⟩ | ⟨_, _, err, refused⟩
        · rw [panics] at parsed
          cases parsed
        · rw [read, ok_bind] at parsed
          exact (ih parsed).region_cons region online
        · rw [refused, ok_bind] at parsed
          cases parsed
      · rw [if_neg region] at parsed
        by_cases isServer : cell.qualifier = serverQualifier
        · rw [if_pos isServer] at parsed
          by_cases empty : cell.value.length = 0
          · rw [if_pos empty] at parsed
            have skipped : serverCells (cell :: cells) = serverCells cells := by
              simp [serverCells, List.length_eq_zero_iff.mp empty]
            refine (ih parsed).other_cons region ?_
            rw [skipped]
            exact (ih parsed).address
          · rw [if_neg empty] at parsed
            have taken : serverCells (cell :: cells) = cell :: serverCells cells := by
              have nonempty : cell.value ≠ [] := fun gone => empty (by rw [gone]; rfl)
              simp [serverCells, isServer, nonempty]
            refine (ih parsed).other_cons region ?_
            rw [taken, List.getLast?_cons, (ih parsed).address]
            cases (serverCells cells).getLast? with
            | none => rfl
            | some later => rfl
        · rw [if_neg isServer] at parsed
          have skipped : serverCells (cell :: cells) = serverCells cells := by
            simp [serverCells, isServer]
          refine (ih parsed).other_cons region ?_
          rw [skipped]
          exact (ih parsed).address

/-- A row is parsed without a slice out of range exactly when each cell whose magic is cut off
stands behind one that is refused. What it is parsed to then comes from its last cells. -/
theorem meta_row_parsed_iff (decode : PbDecoder) (ref : Nat) (metaRow : List Cell) :
    Returns (parseRegionInfo decode ref metaRow) (fun outcome =>
      ∀ reg addr, outcome = .ok (reg, addr) → addr ≠ [] ∧
        (∃ cell ref regInfo, (regionCells metaRow).getLast? = some cell ∧
          Online decode cell regInfo ∧ reg = newInfo ref cell regInfo) ∧
        (∃ cell, (serverCells metaRow).getLast? = some cell ∧ addr = cell.value) ∧
        ∀ cell ∈ regionCells metaRow, ∃ regInfo, Online decode cell regInfo) ↔
      Guarded decode metaRow := by
  rw [← parseCells_returns_iff decode ref metaRow none []]
  constructor
  · rintro ⟨outcome, ran, _⟩
    obtain ⟨parsed, loop, _⟩ := (bind_ok_iff _ _ _).mp ran
    exact ⟨parsed, loop⟩
  · rintro ⟨parsed, loop⟩
    rw [parseRegionInfo, loop, ok_bind]
    obtain err | ⟨_ | reg, addr⟩ := parsed
    · refine (returns_pure _).mpr ?_
      intro reg addr impossible
      cases impossible
    · refine (returns_pure _).mpr ?_
      intro reg addr impossible
      cases impossible
    · have tells := parseCells_tells loop
      dsimp only
      by_cases empty : addr.length = 0
      · rw [if_pos empty, returns_pure]
        intro reg addr impossible
        cases impossible
      · rw [if_neg empty, returns_pure]
        intro found server same
        cases same
        have nonempty : addr ≠ [] := fun gone => empty (by rw [gone]; rfl)
        refine ⟨nonempty, ?_, ?_, tells.online⟩
        · cases last : (regionCells metaRow).getLast? with
          | none =>
              have kept := tells.unchanged (List.getLast?_eq_none_iff.mp last)
              cases kept
          | some cell =>
              obtain ⟨ref, regInfo, online, same⟩ := tells.region cell last
              exact ⟨cell, ref, regInfo, rfl, online, Option.some.inj same⟩
        · have address := tells.address
          cases last : (serverCells metaRow).getLast? with
          | none =>
              rw [last] at address
              exact absurd address nonempty
          | some cell =>
              rw [last] at address
              exact ⟨cell, rfl, address⟩

def cutRow : List Cell := [⟨[116], [105], regionInfoQualifier, 0, 4, [80]⟩]

theorem meta_row_sliced :
    parseRegionInfo (fun _ => .error "unexpected EOF") 0 cutRow = .error outOfRange := rfl

end GoHBase
