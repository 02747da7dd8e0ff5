import GoHBase.FilterCore
import GoHBase.Lib.Returns

/-! What a server reads from the message of a filter, and which filters can be marshalled. -/

namespace GoHBase.Filters

open ByteString Runtime

/-! ## Reading -/

def ComparatorClass.all : List ComparatorClass :=
  [.binary, .long, .binaryPrefix, .bit, .null, .regexString, .substring]

def ComparatorClass.ofName (name : String) : Option ComparatorClass :=
  all.find? fun c => comparatorPath ++ c.simpleName = name

def FilterClass.all : List FilterClass :=
  [.filterList, .columnCountGet, .columnPagination, .columnPrefix, .columnRange, .dependentColumn,
    .comparing .compare, .comparing .family, .comparing .qualifier, .comparing .row,
    .comparing .value, .wrapping .wrapper, .wrapping .skip, .wrapping .whileMatch,
    .marking .firstKeyOnly, .marking .all, .listing .firstKeyValueMatchingQualifiers,
    .listing .multipleColumnPrefix, .fuzzyRow, .bounding .inclusiveStop, .bounding .rowPrefix,
    .keyOnly, .page, .randomRow, .singleColumnValue .value, .singleColumnValue .valueExclude,
    .timestamps, .rowRange, .multiRowRange]

def FilterClass.ofName (name : String) : Option FilterClass :=
  all.find? fun c => filterPath ++ c.simpleName = name

section Reading

variable (lib : FilterProtobuf)

def readComparator (pb : GoHBase.Comparator) : Option Comparator := do
  let kind ← ComparatorClass.ofName pb.name
  lib.unmarshalComparator kind pb.serializedComparator

def readCompareFilter (f : CompareFilter GoHBase.Comparator) :
    Option (CompareFilter Comparator) := do
  let comparator ← readComparator lib f.comparator
  pure { f with comparator := comparator }

def readSingleColumnValueFilter (f : SingleColumnValueFilter GoHBase.Comparator) :
    Option (SingleColumnValueFilter Comparator) := do
  let comparator ← readComparator lib f.comparator
  pure { f with comparator := comparator }

/-- `child` reads the filters inside of the message. -/
def readMessage (child : PbFilter → Option Filter) : FilterMessage → Option Filter
  | .plain filter => some (.plain filter)
  | .comparing kind filter => (readCompareFilter lib filter).map (.comparing kind)
  | .dependentColumn filter columnFamily columnQualifier dropDependentColumn =>
      (readCompareFilter lib filter).map
        (.dependentColumn · columnFamily columnQualifier dropDependentColumn)
  | .singleColumnValue kind filter =>
      (readSingleColumnValueFilter lib filter).map (.singleColumnValue kind)
  | .list operator filters => (filters.mapM child).map (.list operator)
  | .wrapping kind filter => (child filter).map (.wrapping kind)

def readFilterFrom : Nat → PbFilter → Option Filter
  | 0, _ => none
  | fuel + 1, pb => do
      let kind ← FilterClass.ofName pb.name
      let message ← lib.unmarshal kind pb.serializedFilter
      readMessage lib (readFilterFrom fuel) message

/-- A filter inside of another one has a shorter message. -/
def readFilter (pb : PbFilter) : Option Filter :=
  readFilterFrom lib (pb.serializedFilter.length + 1) pb

end Reading

/-! ## Faults -/

def Plain.complete : Plain → Bool
  | .columnPrefix start => start.isSome
  | .fuzzyRow pairs => pairs.all fun pair => pair.1.isSome && pair.2.isSome
  | _ => true

namespace FilterMessage

def complete : FilterMessage → Bool
  | .plain filter => filter.complete
  | _ => true

def known : FilterMessage → Bool
  | .comparing _ filter => compareTypeValid filter.compareOp
  | .dependentColumn filter _ _ _ => compareTypeValid filter.compareOp
  | .singleColumnValue _ filter => compareTypeValid filter.compareOp
  | .list operator _ => listOperatorValid operator
  | _ => true

def faulty : FilterMessage → Bool
  | .plain filter => !filter.complete
  | .list operator _ => !listOperatorValid operator
  | _ => false

def filters : FilterMessage → List PbFilter
  | .list _ filters => filters
  | .wrapping _ filter => [filter]
  | _ => []

def comparator? : FilterMessage → Option GoHBase.Comparator
  | .comparing _ filter => some filter.comparator
  | .dependentColumn filter _ _ _ => some filter.comparator
  | .singleColumnValue _ filter => some filter.comparator
  | _ => none

end FilterMessage

/-- The laws of the protobuf library. A number outside of its enumeration counts for a server as a
field that is not set, and all operators are required. -/
structure FilterProtobuf.Lawful (lib : FilterProtobuf) : Prop where
  marshals : ∀ m, (∃ b, lib.marshal m = .ok b) ↔ m.complete
  reads : ∀ m b, lib.marshal m = .ok b → b.length < lib.limit →
    lib.unmarshal m.kind b = if m.known then some m else none
  longer : ∀ m b, lib.marshal m = .ok b → ∀ f ∈ m.filters, f.serializedFilter.length < b.length
  holds : ∀ m b, lib.marshal m = .ok b → ∀ c, m.comparator? = some c →
    c.serializedComparator.length < b.length
  marshalsComparator : ∀ c, ∃ b, lib.marshalComparator c = .ok b
  readsComparator : ∀ c b, lib.marshalComparator c = .ok b → c.valid → b.length < lib.limit →
    lib.unmarshalComparator c.kind b = some c

/-- Its own message cannot be made. -/
def Filter.faulty : Filter → Bool
  | .plain filter => !filter.complete
  | .list operator _ => !listOperatorValid operator
  | _ => false

mutual

def Filter.buildable : Filter → Bool
  | .plain _ => true
  | .comparing _ filter => filter.comparator.valid
  | .dependentColumn filter _ _ _ => filter.comparator.valid
  | .singleColumnValue _ filter => filter.comparator.valid
  | .list _ filters => buildableAll filters && filters.all fun f => !f.faulty
  | .wrapping _ inner => inner.buildable && !inner.faulty

def buildableAll : List Filter → Bool
  | [] => true
  | f :: filters => f.buildable && buildableAll filters

end

mutual

def Filter.readable : Filter → Bool
  | .plain _ => true
  | .comparing _ filter => compareTypeValid filter.compareOp
  | .dependentColumn filter _ _ _ => compareTypeValid filter.compareOp
  | .singleColumnValue _ filter => compareTypeValid filter.compareOp
  | .list _ filters => readableAll filters
  | .wrapping _ inner => inner.readable

def readableAll : List Filter → Bool
  | [] => true
  | f :: filters => f.readable && readableAll filters

end

/-! ## Names -/

theorem find?_name {α : Type} {name : α → String} {table : List α}
    (distinct : (table.map name).Nodup) {entry : α} (member : entry ∈ table) :
    table.find? (fun other => name other = name entry) = some entry := by
  induction table with
  | nil => cases member
  | cons first table ih =>
      rw [List.map_cons, List.nodup_cons] at distinct
      obtain rfl | later := List.mem_cons.mp member
      · simp
      · have different : name first ≠ name entry := by
          intro same
          exact distinct.1 (same ▸ List.mem_map_of_mem later)
        rw [List.find?_cons_of_neg (by simpa using different)]
        exact ih distinct.2 later

theorem ComparatorClass.ofName_simpleName (c : ComparatorClass) :
    ofName (comparatorPath ++ c.simpleName) = some c := by
  simp only [ofName, String.append_right_inj]
  refine find?_name (by simp [all, simpleName]) ?_
  cases c <;> simp [all]

theorem FilterClass.mem_all (c : FilterClass) : c ∈ all := by
  cases c with
  | comparing kind => cases kind <;> simp [all]
  | wrapping kind => cases kind <;> simp [all]
  | marking kind => cases kind <;> simp [all]
  | listing kind => cases kind <;> simp [all]
  | bounding kind => cases kind <;> simp [all]
  | singleColumnValue kind => cases kind <;> simp [all]
  | _ => simp [all]

theorem FilterClass.ofName_simpleName (c : FilterClass) :
    ofName (filterPath ++ c.simpleName) = some c := by
  simp only [ofName, String.append_right_inj]
  exact find?_name (by simp [all, simpleName]) c.mem_all

/-! ## Messages -/

section Messages

variable {lib : FilterProtobuf} (lawful : lib.Lawful)

include lawful

theorem construct_comparator (c : Comparator) :
    PanicsUnless c.valid (must (c.constructPBComparator lib)) fun pb =>
      pb.serializedComparator.length < lib.limit → readComparator lib pb = some c := by
  obtain ⟨b, marshalled⟩ := lawful.marshalsComparator c
  cases valid : c.valid with
  | false => exact ⟨_, by rw [Comparator.constructPBComparator, valid]; rfl⟩
  | true =>
      refine ⟨⟨comparatorPath ++ c.kind.simpleName, b⟩, ?_, fun short => ?_⟩
      · rw [Comparator.constructPBComparator, valid, marshalled]
        rfl
      · rw [readComparator, c.kind.ofName_simpleName]
        exact lawful.readsComparator c b marshalled valid short

theorem marshalled_complete {m : FilterMessage} (complete : m.complete) :
    ∃ b, lib.marshal m = .ok b ∧
      m.marshalled lib = .ok ⟨filterPath ++ m.kind.simpleName, b⟩ := by
  obtain ⟨b, marshalled⟩ := (lawful.marshals m).mpr complete
  exact ⟨b, marshalled, by rw [FilterMessage.marshalled, marshalled]; rfl⟩

theorem marshalled_incomplete {m : FilterMessage} (incomplete : m.complete = false) :
    ∃ err, m.marshalled lib = .error err := by
  cases marshalled : lib.marshal m with
  | error err => exact ⟨err, by rw [FilterMessage.marshalled, marshalled]; rfl⟩
  | ok b =>
      have complete := (lawful.marshals m).mp ⟨b, marshalled⟩
      rw [incomplete] at complete
      cases complete

namespace FilterMessage

/-- Only a list with an unknown operator ends otherwise: `MustMarshal` is for complete messages. -/
theorem constructPBFilter_marshalled {m : FilterMessage}
    (operator : ∀ op filters, m = .list op filters → listOperatorValid op) :
    m.constructPBFilter lib = .ok (m.marshalled lib) := by
  unfold constructPBFilter
  split
  · rename_i kind
    obtain ⟨b, -, made⟩ := marshalled_complete (m := .plain (.marking kind)) lawful rfl
    rw [made]
    rfl
  · rename_i op filters
    rw [if_pos (operator op filters rfl)]
    rfl
  · rfl

theorem constructPBFilter_built {m : FilterMessage} (fine : m.faulty = false) :
    ∃ b, lib.marshal m = .ok b ∧
      m.constructPBFilter lib = .ok (.ok ⟨filterPath ++ m.kind.simpleName, b⟩) := by
  have complete : m.complete := by
    cases m <;> simp_all [faulty, FilterMessage.complete]
  have operator : ∀ op filters, m = .list op filters → listOperatorValid op := by
    rintro op filters rfl
    simpa [faulty] using fine
  obtain ⟨b, marshalled, made⟩ := marshalled_complete lawful complete
  exact ⟨b, marshalled, by rw [constructPBFilter_marshalled lawful operator, made]⟩

theorem constructPBFilter_faulty {m : FilterMessage} (fault : m.faulty = true) :
    ∃ err, m.constructPBFilter lib = .ok (.error err) := by
  cases m with
  | plain filter =>
      have incomplete : (FilterMessage.plain filter).complete = false := by
        simpa [faulty, FilterMessage.complete] using fault
      obtain ⟨err, failed⟩ := marshalled_incomplete lawful incomplete
      refine ⟨err, ?_⟩
      rw [constructPBFilter_marshalled lawful (by simp), failed]
  | list operator filters =>
      have invalid : listOperatorValid operator = false := by simpa [faulty] using fault
      exact ⟨_, by rw [constructPBFilter, invalid]; rfl⟩
  | _ => cases fault

theorem insideFilter_built (m : FilterMessage) :
    PanicsUnless (!m.faulty) (insideFilter lib m) fun pb =>
      m.constructPBFilter lib = .ok (.ok pb) := by
  cases fault : m.faulty with
  | true =>
      obtain ⟨err, failed⟩ := constructPBFilter_faulty lawful fault
      exact ⟨err, by rw [insideFilter, failed]; rfl⟩
  | false =>
      obtain ⟨b, -, made⟩ := constructPBFilter_built lawful fault
      exact ⟨_, by rw [insideFilter, made]; rfl, made⟩

end FilterMessage

end Messages

/-! ## Filters inside of filters -/

/-- What a constructor has returned for a filter: the server reads the filter from it, or nothing
where an operation is unknown. -/
structure Filter.Built (lib : FilterProtobuf) (f : Filter) (m : FilterMessage) : Prop where
  faulty : m.faulty = f.faulty
  reads : ∀ pb, m.constructPBFilter lib = .ok (.ok pb) →
    pb.serializedFilter.length < lib.limit → ∀ fuel, pb.serializedFilter.length < fuel →
    readFilterFrom lib fuel pb = if f.readable then some f else none

def Filter.Exact (lib : FilterProtobuf) (f : Filter) : Prop :=
  PanicsUnless f.buildable (f.new lib) (f.Built lib)

section Inside

variable {lib : FilterProtobuf} (lawful : lib.Lawful)

include lawful

/-- It is enough to read the parts of a message that is shorter than the limit. -/
theorem Filter.Built.of_parts {f : Filter} {m : FilterMessage} (faulty : m.faulty = f.faulty)
    (parts : ∀ b fuel, lib.marshal m = .ok b → m.faulty = false → b.length < lib.limit →
      b.length ≤ fuel → (if m.known then readMessage lib (readFilterFrom lib fuel) m else none) =
        if f.readable then some f else none) : f.Built lib m where
  faulty := faulty
  reads := by
    intro pb constructed short fuel enough
    cases fault : m.faulty with
    | true =>
        obtain ⟨err, failed⟩ := FilterMessage.constructPBFilter_faulty lawful fault
        rw [failed] at constructed
        cases constructed
    | false =>
        obtain ⟨b, marshalled, made⟩ := FilterMessage.constructPBFilter_built lawful fault
        rw [made] at constructed
        cases constructed
        obtain ⟨fuel, rfl⟩ := Nat.exists_eq_succ_of_ne_zero (by omega : fuel ≠ 0)
        rw [← parts b fuel marshalled fault short (by simpa [Nat.lt_succ_iff] using enough),
          readFilterFrom, m.kind.ofName_simpleName]
        simp only [Option.bind_eq_bind, Option.bind_some, lawful.reads m b marshalled short]
        cases m.known <;> rfl

theorem exact_plain (filter : Plain) : (Filter.plain filter).Exact lib := by
  refine ⟨.plain filter, by rw [Filter.new]; rfl, .of_parts lawful rfl ?_⟩
  intro b fuel _ _ _ _
  rw [Filter.readable]
  rfl

/-- A filter around a comparator, whichever of the fields of its message holds that one. -/
theorem exact_around {f : Filter} (c : Comparator) (message : GoHBase.Comparator → FilterMessage)
    (new : f.new lib = must (c.constructPBComparator lib) >>= fun pb => pure (message pb))
    (buildable : f.buildable = c.valid) (has : ∀ pb, (message pb).comparator? = some pb)
    (faulty : ∀ pb, (message pb).faulty = f.faulty) (known : ∀ pb, (message pb).known = f.readable)
    (read : ∀ pb child, readComparator lib pb = some c →
      readMessage lib child (message pb) = some f) : f.Exact lib := by
  rw [Filter.Exact, buildable, new]
  refine (construct_comparator lawful c).map fun pb reads => ?_
  refine .of_parts lawful (faulty pb) fun b fuel marshalled _ short _ => ?_
  have within := lawful.holds (message pb) b marshalled pb (has pb)
  rw [known pb, read pb _ (reads (within.trans short))]

theorem exact_comparing (kind : Comparing) (filter : CompareFilter Comparator) :
    (Filter.comparing kind filter).Exact lib := by
  refine exact_around lawful filter.comparator
    (fun pb => .comparing kind { filter with comparator := pb }) ?_ rfl (fun _ => rfl)
    (fun _ => rfl) (fun _ => rfl) fun pb child reads => ?_
  · rw [Filter.new, newCompareFilter, bind_assoc]
    rfl
  · rw [readMessage, readCompareFilter, reads]
    rfl

theorem exact_dependentColumn (filter : CompareFilter Comparator)
    (columnFamily columnQualifier : Option Bytes) (dropDependentColumn : Bool) :
    (Filter.dependentColumn filter columnFamily columnQualifier dropDependentColumn).Exact
      lib := by
  refine exact_around lawful filter.comparator (fun pb => .dependentColumn
    { filter with comparator := pb } columnFamily columnQualifier dropDependentColumn) ?_ rfl
    (fun _ => rfl) (fun _ => rfl) (fun _ => rfl) fun pb child reads => ?_
  · rw [Filter.new, newCompareFilter, bind_assoc]
    rfl
  · rw [readMessage, readCompareFilter, reads]
    rfl

theorem exact_singleColumnValue (kind : SingleColumn)
    (filter : SingleColumnValueFilter Comparator) :
    (Filter.singleColumnValue kind filter).Exact lib := by
  refine exact_around lawful filter.comparator
    (fun pb => .singleColumnValue kind { filter with comparator := pb }) ?_ rfl (fun _ => rfl)
    (fun _ => rfl) (fun _ => rfl) fun pb child reads => ?_
  · rw [Filter.new, newSingleColumnValueFilter, bind_assoc]
    rfl
  · rw [readMessage, readSingleColumnValueFilter, reads]
    rfl

theorem insideFilter_reads {f : Filter} {m : FilterMessage} (built : f.Built lib m) :
    PanicsUnless (!f.faulty) (insideFilter lib m) fun pb =>
      pb.serializedFilter.length < lib.limit → ∀ fuel, pb.serializedFilter.length < fuel →
      readFilterFrom lib fuel pb = if f.readable then some f else none := by
  have made := FilterMessage.insideFilter_built lawful m
  rw [built.faulty] at made
  rw [← bind_pure (insideFilter lib m)]
  exact made.map fun pb constructed => built.reads pb constructed

theorem exact_wrapping (kind : Wrapping) {inner : Filter}
    (exact : inner.Exact lib) : (Filter.wrapping kind inner).Exact lib := by
  rw [Filter.Exact, Filter.buildable, Filter.new]
  refine exact.bind fun m built => (insideFilter_reads lawful built).map fun pb read => ?_
  refine .of_parts lawful rfl fun b fuel marshalled _ short enough => ?_
  have within := lawful.longer _ b marshalled pb (List.mem_singleton_self pb)
  rw [readMessage, Filter.readable, read (within.trans short) fuel (within.trans_le enough)]
  cases inner.readable <;> rfl

omit lawful in
theorem mapM_readable {child : PbFilter → Option Filter} {filters : List Filter}
    {pbs : List PbFilter} (read : List.Forall₂
      (fun f pb => child pb = if f.readable then some f else none) filters pbs) :
    pbs.mapM child = if readableAll filters then some filters else none := by
  induction read with
  | nil =>
      rw [readableAll]
      rfl
  | @cons f pb filters pbs here _ ih =>
      rw [List.mapM_cons, here, ih, readableAll]
      cases f.readable <;> cases readableAll filters <;> rfl

theorem exact_list (operator : Int32) {filters : List Filter}
    (exact : PanicsUnless (buildableAll filters) (newAll lib filters)
      (List.Forall₂ (Filter.Built lib) filters)) :
    (Filter.list operator filters).Exact lib := by
  rw [Filter.Exact, Filter.buildable, Filter.new]
  refine exact.bind fun built made => ?_
  refine (PanicsUnless.mapM made fun f m => insideFilter_reads lawful).map fun pbs read => ?_
  refine .of_parts lawful rfl fun b fuel marshalled fine short enough => ?_
  have inside : List.Forall₂ (fun f pb =>
      readFilterFrom lib fuel pb = if f.readable then some f else none) filters pbs := by
    refine List.forall₂_iff_zip.mpr ⟨read.length_eq, fun {f pb} paired => ?_⟩
    have within := lawful.longer _ b marshalled pb (List.of_mem_zip paired).2
    exact (List.forall₂_zip read paired) (within.trans short) fuel (within.trans_le enough)
  have operated : listOperatorValid operator := by simpa [FilterMessage.faulty] using fine
  rw [FilterMessage.known, readMessage, Filter.readable, mapM_readable inside, operated]
  cases readableAll filters <;> rfl

end Inside

mutual

theorem Filter.exact {lib : FilterProtobuf} (lawful : lib.Lawful) : ∀ f : Filter, f.Exact lib
  | .plain filter => exact_plain lawful filter
  | .comparing kind filter => exact_comparing lawful kind filter
  | .dependentColumn filter family qualifier drop =>
      exact_dependentColumn lawful filter family qualifier drop
  | .singleColumnValue kind filter => exact_singleColumnValue lawful kind filter
  | .list operator filters => exact_list lawful operator (exact_all lawful filters)
  | .wrapping kind inner => exact_wrapping lawful kind (inner.exact lawful)

theorem exact_all {lib : FilterProtobuf} (lawful : lib.Lawful) : ∀ filters : List Filter,
    PanicsUnless (buildableAll filters) (newAll lib filters)
      (List.Forall₂ (Filter.Built lib) filters)
  | [] => by
      rw [buildableAll, newAll]
      exact .returns ((returns_pure _).mpr .nil)
  | f :: filters => by
      rw [buildableAll, newAll]
      refine (f.exact lawful).bind fun m built => ?_
      exact (exact_all lawful filters).map fun ms rest => .cons built rest

end

namespace Filter

variable {lib : FilterProtobuf} (lawful : lib.Lawful) (f : Filter)

include lawful

theorem constructPBFilter_panics (unbuilt : f.buildable = false) :
    ∃ text, f.constructPBFilter lib = .error (.panic text) := by
  have exact := f.exact lawful
  rw [Exact, unbuilt] at exact
  obtain ⟨text, panicked⟩ := exact
  exact ⟨text, by rw [Filter.constructPBFilter, panicked]; rfl⟩

theorem new_built (buildable : f.buildable = true) : Returns (f.new lib) (f.Built lib) := by
  have exact := f.exact lawful
  rwa [Exact, buildable] at exact

theorem constructPBFilter_fails (buildable : f.buildable = true) (fault : f.faulty = true) :
    ∃ err, f.constructPBFilter lib = .ok (.error err) := by
  obtain ⟨m, new, built⟩ := f.new_built lawful buildable
  rw [← built.faulty] at fault
  rw [Filter.constructPBFilter, new]
  exact FilterMessage.constructPBFilter_faulty lawful fault

theorem constructPBFilter_returns (buildable : f.buildable = true) (fine : f.faulty = false) :
    ∃ pb, f.constructPBFilter lib = .ok (.ok pb) := by
  obtain ⟨m, new, built⟩ := f.new_built lawful buildable
  rw [← built.faulty] at fine
  obtain ⟨b, -, made⟩ := FilterMessage.constructPBFilter_built lawful fine
  rw [Filter.constructPBFilter, new]
  exact ⟨_, made⟩

theorem constructPBFilter_reads {pb : PbFilter}
    (constructed : f.constructPBFilter lib = .ok (.ok pb))
    (short : pb.serializedFilter.length < lib.limit) :
    readFilter lib pb = if f.readable then some f else none := by
  cases buildable : f.buildable with
  | false =>
      obtain ⟨text, panicked⟩ := f.constructPBFilter_panics lawful buildable
      rw [panicked] at constructed
      cases constructed
  | true =>
      obtain ⟨m, new, built⟩ := f.new_built lawful buildable
      rw [Filter.constructPBFilter, new] at constructed
      exact built.reads pb constructed short _ (Nat.lt_succ_self _)

end Filter

instance countableChar : Countable Char :=
  Function.Injective.countable (f := Char.toNat) fun _ _ same => Char.toNat_inj.mp same

instance countableString : Countable String :=
  Function.Injective.countable (f := String.toList) fun _ _ same => String.toList_inj.mp same

deriving instance Countable for PbFilter, GoHBase.Comparator, Comparator, CompareFilter,
  SingleColumnValueFilter, RowRange, Comparing, SingleColumn, Wrapping, Marking, Listing, Bounding,
  Plain, FilterMessage

noncomputable def numbering (α : Type) [Countable α] : α → Nat :=
  (Countable.exists_injective_nat α).choose

theorem numbering_injective (α : Type) [Countable α] : Function.Injective (numbering α) :=
  (Countable.exists_injective_nat α).choose_spec

def FilterMessage.size (m : FilterMessage) : Nat :=
  (m.filters.map fun f => f.serializedFilter.length).sum +
    (m.comparator?.map fun c => c.serializedComparator.length).getD 0

noncomputable def FilterMessage.number (m : FilterMessage) : Nat :=
  Nat.pair (numbering FilterMessage m) m.size + 1

theorem FilterMessage.number_injective : Function.Injective FilterMessage.number := by
  intro m m' same
  have pairs : Nat.pair (numbering FilterMessage m) m.size =
      Nat.pair (numbering FilterMessage m') m'.size := Nat.succ_injective same
  exact numbering_injective FilterMessage (Nat.pair_eq_pair.mp pairs).1

theorem FilterMessage.size_lt_number (m : FilterMessage) : m.size < m.number :=
  Nat.lt_succ_of_le (Nat.right_le_pair _ _)

/-- Messages are sent as their numbers, in unary. -/
noncomputable def unary (limit : Nat) : FilterProtobuf where
  marshal m := if m.complete then .ok (List.replicate m.number 0) else .error "required field"
  unmarshal _ b := (Function.partialInv FilterMessage.number b.length).filter FilterMessage.known
  marshalComparator c := .ok (List.replicate (numbering Comparator c) 0)
  unmarshalComparator _ b := Function.partialInv (numbering Comparator) b.length
  limit := limit

theorem unary_marshal {limit : Nat} {m : FilterMessage} {b : Bytes}
    (marshalled : (unary limit).marshal m = .ok b) : m.complete ∧ b.length = m.number := by
  unfold unary at marshalled
  dsimp only at marshalled
  split at marshalled
  · rename_i complete
    cases marshalled
    exact ⟨complete, List.length_replicate⟩
  · cases marshalled

theorem unary_lawful (limit : Nat) : (unary limit).Lawful where
  marshals m := by
    constructor
    · rintro ⟨b, marshalled⟩
      exact (unary_marshal marshalled).1
    · intro complete
      exact ⟨_, if_pos complete⟩
  reads m b marshalled _ := by
    dsimp only [unary]
    rw [(unary_marshal marshalled).2, Function.partialInv_left FilterMessage.number_injective]
    cases known : m.known <;> simp [known]
  longer m b marshalled f member := by
    rw [(unary_marshal marshalled).2]
    refine lt_of_le_of_lt ?_ m.size_lt_number
    have part : f.serializedFilter.length ≤
        (m.filters.map fun f => f.serializedFilter.length).sum :=
      List.single_le_sum (by simp) _ (List.mem_map.mpr ⟨f, member, rfl⟩)
    exact part.trans (Nat.le_add_right _ _)
  holds m b marshalled c has := by
    rw [(unary_marshal marshalled).2]
    refine lt_of_le_of_lt ?_ m.size_lt_number
    rw [FilterMessage.size, has]
    exact Nat.le_add_left _ _
  marshalsComparator c := ⟨_, rfl⟩
  readsComparator c b marshalled _ _ := by
    cases marshalled
    dsimp only [unary]
    rw [List.length_replicate]
    exact Function.partialInv_left (numbering_injective Comparator) c

end GoHBase.Filters
