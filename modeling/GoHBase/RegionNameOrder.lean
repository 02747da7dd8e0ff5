import GoHBase.Lib.OrderedTree
import GoHBase.RegionNameCore

/-!
The comparator orders region names by table, then start key, then suffix. The
search key of a row sorts right behind the regions that start at or before it.
-/

namespace GoHBase

open ByteString Runtime OrderedTree

theorem byteDiff_decides (ai bi : UInt8) : Decides (byteDiff ai bi) ai bi := by
  refine ⟨?_, ?_⟩
  · rw [UInt8.lt_iff_toNat_lt]
    unfold byteDiff
    omega
  · rw [← UInt8.toNat_inj]
    unfold byteDiff
    omega

theorem compareTables_same (i : Nat) (table restA restB : Bytes) (plain : comma ∉ table) :
    compareTables i (table ++ comma :: restA) (table ++ comma :: restB) =
      .inr (i + table.length) := by
  induction table generalizing i with
  | nil => simp [compareTables]
  | cons first table ih =>
      simp only [List.mem_cons, not_or] at plain
      have step : first ≠ comma := Ne.symm plain.1
      simp only [List.cons_append, compareTables, ne_eq, not_true_eq_false, ↓reduceIte, step,
        List.length_cons]
      rw [ih (i + 1) plain.2]
      congr 1
      omega

/-- Different table names get the verdict of their own order: the comma that
ends the shorter one counts as smaller than any byte. -/
theorem compareTables_differ (i : Nat) (tableA tableB restA restB : Bytes)
    (plainA : comma ∉ tableA) (plainB : comma ∉ tableB) (different : tableA ≠ tableB) :
    ∃ verdict,
      compareTables i (tableA ++ comma :: restA) (tableB ++ comma :: restB) = .inl verdict ∧
        Decides verdict tableA tableB := by
  induction tableA generalizing i tableB with
  | nil =>
      cases tableB with
      | nil => exact absurd rfl different
      | cons second tableB =>
          simp only [List.mem_cons, not_or] at plainB
          refine ⟨-1001, ?_, Decides.of_lt (by omega) (by simp)⟩
          simp [compareTables, plainB.1]
  | cons first tableA ih =>
      simp only [List.mem_cons, not_or] at plainA
      cases tableB with
      | nil =>
          refine ⟨1001, ?_, Decides.of_gt (by omega) (by simp)⟩
          simp [compareTables, Ne.symm plainA.1]
      | cons second tableB =>
          simp only [List.mem_cons, not_or] at plainB
          by_cases same : first = second
          · subst second
            have tails : tableA ≠ tableB := fun equal => different (by rw [equal])
            obtain ⟨verdict, computed, decided⟩ := ih (i + 1) tableB plainA.2 plainB.2 tails
            refine ⟨verdict, ?_, ?_⟩
            · simpa [compareTables, Ne.symm plainA.1] using computed
            · simpa [Decides] using decided
          · refine ⟨byteDiff first second, ?_, ?_⟩
            · simp [compareTables, same, Ne.symm plainA.1, Ne.symm plainB.1]
            · have decided := byteDiff_decides first second
              simpa [Decides, cons_lt_cons, same] using decided

theorem findCommaBelow_found (b : Bytes) (offset position i : Nat)
    (beyond : offset < position) (found : b.getD position 0 = comma)
    (later : ∀ index, position < index → index < i → b.getD index 0 ≠ comma)
    (inside : position < i) : findCommaBelow b offset i = .ok position := by
  induction i with
  | zero => omega
  | succ i ih =>
      have above : offset < i := by omega
      simp only [findCommaBelow, above, ↓reduceIte]
      by_cases here : position = i
      · subst i
        simp only [found, ↓reduceIte]
      · have other : b.getD i 0 ≠ comma := later i (by omega) (by omega)
        simp only [other, ↓reduceIte]
        exact ih (fun index low high => later index low (by omega)) (by omega)

theorem findCommaFromEnd_joinName (table key suffix : Bytes) (plain : comma ∉ suffix) :
    findCommaFromEnd (joinName table key suffix) table.length =
      .ok (table.length + 1 + key.length) := by
  have split : joinName table key suffix = (table ++ comma :: key) ++ comma :: suffix := by
    simp [joinName]
  have size : (table ++ comma :: key).length = table.length + 1 + key.length := by
    simp
    omega
  apply findCommaBelow_found
  · omega
  · rw [split, List.getD_append_right _ _ _ _ (by omega), size]
    simp
  · intro index low high found
    rw [split, List.getD_append_right _ _ _ _ (by omega), size] at found
    obtain ⟨place, shift⟩ : ∃ place, index - (table.length + 1 + key.length) = place + 1 :=
      ⟨index - (table.length + 1 + key.length) - 1, by omega⟩
    rw [shift, List.getD_cons_succ] at found
    have bound : place < suffix.length := by
      rw [split, List.length_append, size, List.length_cons] at high
      omega
    rw [List.getD_eq_getElem _ _ bound] at found
    exact plain (found ▸ List.getElem_mem bound)
  · rw [split, List.length_append, size, List.length_cons]
    omega

theorem compareRun_some (left right restA restB : Bytes) (verdict : Int)
    (computed : compareRun (min left.length right.length) (left ++ restA) (right ++ restB) =
      some verdict) : Decides verdict left right ∧ left ≠ right := by
  induction left generalizing right with
  | nil => simp [compareRun] at computed
  | cons first left ih =>
      cases right with
      | nil => simp [compareRun] at computed
      | cons second right =>
          simp only [List.length_cons, Nat.succ_min_succ, List.cons_append, compareRun] at computed
          by_cases same : first = second
          · subst second
            simp only [ne_eq, not_true_eq_false, ↓reduceIte] at computed
            simpa [Decides] using ih right computed
          · simp only [ne_eq, same, not_false_eq_true, ↓reduceIte, Option.some.injEq] at computed
            have decided := byteDiff_decides first second
            rw [computed] at decided
            refine ⟨?_, by simp [same]⟩
            simpa [Decides, cons_lt_cons, same] using decided

theorem compareRun_none (left right restA restB : Bytes)
    (computed : compareRun (min left.length right.length) (left ++ restA) (right ++ restB) =
      none) : Decides ((left.length : Int) - right.length) left right := by
  induction left generalizing right with
  | nil =>
      cases right with
      | nil => exact Decides.of_eq (by simp) rfl
      | cons second right =>
          exact Decides.of_lt (by simp only [List.length_nil, List.length_cons]; omega) (by simp)
  | cons first left ih =>
      cases right with
      | nil =>
          exact Decides.of_gt (by simp only [List.length_nil, List.length_cons]; omega) (by simp)
      | cons second right =>
          simp only [List.length_cons, Nat.succ_min_succ, List.cons_append, compareRun] at computed
          by_cases same : first = second
          · subst second
            simp only [ne_eq, not_true_eq_false, ↓reduceIte] at computed
            simpa [Decides] using ih right computed
          · simp [same] at computed

/-- The order the comparator implements: table first, then key, then suffix. -/
def sortKey (table key suffix : Bytes) : Bytes ×ₗ (Bytes ×ₗ Bytes) :=
  toLex (table, toLex (key, suffix))

theorem sortKey_lt (tableA keyA suffixA tableB keyB suffixB : Bytes) :
    sortKey tableA keyA suffixA < sortKey tableB keyB suffixB ↔
      tableA < tableB ∨ tableA = tableB ∧
        (keyA < keyB ∨ keyA = keyB ∧ suffixA < suffixB) := by
  simp [sortKey, Prod.Lex.toLex_lt_toLex]

theorem sortKey_inj (tableA keyA suffixA tableB keyB suffixB : Bytes) :
    sortKey tableA keyA suffixA = sortKey tableB keyB suffixB ↔
      tableA = tableB ∧ keyA = keyB ∧ suffixA = suffixB := by
  simp [sortKey]

theorem drop_joinName (table key suffix : Bytes) :
    (joinName table key suffix).drop (table.length + 1) = key ++ comma :: suffix := by
  simp [joinName, List.drop_append, List.drop_of_length_le]

theorem drop_joinName_suffix (table key suffix : Bytes) :
    (joinName table key suffix).drop (table.length + 1 + key.length) = comma :: suffix := by
  rw [← List.drop_drop, drop_joinName]
  simp

theorem length_joinName (table key suffix : Bytes) :
    (joinName table key suffix).length = table.length + 1 + key.length + (suffix.length + 1) := by
  simp [joinName]
  omega

theorem compareRest_joinName (table key suffixA suffixB : Bytes) :
    Decides (compareRest (joinName table key suffixA) (joinName table key suffixB)
      (table.length + 1 + key.length)) suffixA suffixB := by
  have count : min (joinName table key suffixA).length (joinName table key suffixB).length -
      (table.length + 1 + key.length) =
        min (comma :: suffixA).length (comma :: suffixB).length := by
    simp only [length_joinName, List.length_cons]
    omega
  have lengths : ((joinName table key suffixA).length : Int) - (joinName table key suffixB).length =
      ((comma :: suffixA).length : Int) - (comma :: suffixB).length := by
    simp only [length_joinName, List.length_cons]
    omega
  simp only [compareRest, drop_joinName_suffix, count, lengths]
  cases run : compareRun (min (comma :: suffixA).length (comma :: suffixB).length)
      (comma :: suffixA) (comma :: suffixB) with
  | some verdict =>
      have decided := (compareRun_some (comma :: suffixA) (comma :: suffixB) [] [] verdict
        (by simpa using run)).1
      simpa [Decides] using decided
  | none =>
      have decided := compareRun_none (comma :: suffixA) (comma :: suffixB) [] []
        (by simpa using run)
      simpa [Decides] using decided

theorem compare_sameTable (table keyA suffixA keyB suffixB : Bytes)
    (tablePlain : comma ∉ table) (plainA : comma ∉ suffixA) (plainB : comma ∉ suffixB) :
    ∃ verdict,
      compare (joinName table keyA suffixA) (joinName table keyB suffixB) = .ok verdict ∧
        Decides verdict (toLex (keyA, suffixA)) (toLex (keyB, suffixB)) := by
  have tables : compareTables 0 (joinName table keyA suffixA) (joinName table keyB suffixB) =
      .inr table.length := by
    simpa [joinName] using compareTables_same 0 table (keyA ++ comma :: suffixA)
      (keyB ++ comma :: suffixB) tablePlain
  have count : min (table.length + 1 + keyA.length) (table.length + 1 + keyB.length) -
      (table.length + 1) = min keyA.length keyB.length := by omega
  simp only [compare, tables, findCommaFromEnd_joinName _ _ _ plainA,
    findCommaFromEnd_joinName _ _ _ plainB, ok_bind, count, drop_joinName]
  cases keys : compareRun (min keyA.length keyB.length) (keyA ++ comma :: suffixA)
      (keyB ++ comma :: suffixB) with
  | some verdict =>
      obtain ⟨decided, different⟩ := compareRun_some _ _ _ _ _ keys
      exact ⟨verdict, rfl, decided.lexLeft different _ _⟩
  | none =>
      have decided := compareRun_none _ _ _ _ keys
      rcases lt_trichotomy keyA.length keyB.length with shorter | equal | longer
      · have less : keyA < keyB := decided.1.mp (by omega)
        refine ⟨-1002, by simp [shorter], ?_⟩
        exact (Decides.of_lt (by omega) less).lexLeft less.ne _ _
      · have same : keyA = keyB := decided.2.mp (by omega)
        subst keyB
        refine ⟨_, by simp, (compareRest_joinName table keyA suffixA suffixB).lexRight keyA⟩
      · have greater : keyB < keyA := decided.pos_iff.mp (by omega)
        refine ⟨1002, by simp [longer, longer.le], ?_⟩
        exact (Decides.of_gt (by omega) greater).lexLeft greater.ne' _ _

theorem compare_joinName (tableA keyA suffixA tableB keyB suffixB : Bytes)
    (tablePlainA : comma ∉ tableA) (tablePlainB : comma ∉ tableB)
    (plainA : comma ∉ suffixA) (plainB : comma ∉ suffixB) :
    ∃ verdict,
      compare (joinName tableA keyA suffixA) (joinName tableB keyB suffixB) = .ok verdict ∧
        Decides verdict (sortKey tableA keyA suffixA) (sortKey tableB keyB suffixB) := by
  by_cases same : tableA = tableB
  · subst tableB
    obtain ⟨verdict, computed, decided⟩ :=
      compare_sameTable tableA keyA suffixA keyB suffixB tablePlainA plainA plainB
    exact ⟨verdict, computed, decided.lexRight tableA⟩
  · obtain ⟨verdict, computed, decided⟩ := compareTables_differ 0 tableA tableB
      (keyA ++ comma :: suffixA) (keyB ++ comma :: suffixB) tablePlainA tablePlainB same
    refine ⟨verdict, ?_, decided.lexLeft same _ _⟩
    simp [compare, joinName, computed]

def nameTable (name : Bytes) : Bytes := name.takeWhile (· ≠ comma)

def nameSuffix (name : Bytes) : Bytes := name.rtakeWhile (· ≠ comma)

def nameKey (name : Bytes) : Bytes :=
  (name.drop ((nameTable name).length + 1)).rdrop ((nameSuffix name).length + 1)

def nameRank (name : Bytes) : Bytes ×ₗ (Bytes ×ₗ Bytes) :=
  sortKey (nameTable name) (nameKey name) (nameSuffix name)

theorem nameRank_joinName (table key suffix : Bytes) (tablePlain : comma ∉ table)
    (suffixPlain : comma ∉ suffix) :
    nameRank (joinName table key suffix) = sortKey table key suffix := by
  have tableEq : nameTable (joinName table key suffix) = table := by
    have all : ∀ byte ∈ table, (byte ≠ comma : Bool) = true := by
      intro byte member
      simpa using fun equal : byte = comma => tablePlain (equal ▸ member)
    rw [nameTable, joinName, List.takeWhile_append_of_pos all]
    simp
  have suffixEq : nameSuffix (joinName table key suffix) = suffix := by
    have all : ∀ byte ∈ suffix.reverse, (byte ≠ comma : Bool) = true := by
      intro byte member
      simpa using fun equal : byte = comma => suffixPlain (equal ▸ List.mem_reverse.mp member)
    have split : joinName table key suffix = (table ++ comma :: key) ++ comma :: suffix := by
      simp [joinName]
    simp only [nameSuffix, List.rtakeWhile, split, List.reverse_append, List.reverse_cons,
      List.append_assoc, List.takeWhile_append_of_pos all]
    simp
  have keyEq : nameKey (joinName table key suffix) = key := by
    simp [nameKey, tableEq, suffixEq, drop_joinName, List.rdrop]
  simp [nameRank, tableEq, suffixEq, keyEq]

def ValidName (name : Bytes) : Prop :=
  ∃ table key suffix, name = joinName table key suffix ∧ comma ∉ table ∧ comma ∉ suffix

theorem compare_lawful : LawfulOn compare ValidName nameRank := by
  constructor
  · rintro a b ⟨tableA, keyA, suffixA, rfl, tablePlainA, plainA⟩
      ⟨tableB, keyB, suffixB, rfl, tablePlainB, plainB⟩
    rw [nameRank_joinName _ _ _ tablePlainA plainA, nameRank_joinName _ _ _ tablePlainB plainB]
    exact compare_joinName _ _ _ _ _ _ tablePlainA tablePlainB plainA plainB
  · rintro a b ⟨tableA, keyA, suffixA, rfl, tablePlainA, plainA⟩
      ⟨tableB, keyB, suffixB, rfl, tablePlainB, plainB⟩ same
    rw [nameRank_joinName _ _ _ tablePlainA plainA, nameRank_joinName _ _ _ tablePlainB plainB,
      sortKey_inj] at same
    rw [same.1, same.2.1, same.2.2]

/-- The comparator orders names by table, then key, then suffix, each as a byte string, which makes
it a total order on them. -/
theorem compare_lexicographic {a b c : Bytes}
    {tableA keyA suffixA tableB keyB suffixB tableC keyC suffixC : Bytes}
    (nameA : a = joinName tableA keyA suffixA) (nameB : b = joinName tableB keyB suffixB)
    (nameC : c = joinName tableC keyC suffixC)
    (tablePlainA : comma ∉ tableA) (tablePlainB : comma ∉ tableB) (tablePlainC : comma ∉ tableC)
    (plainA : comma ∉ suffixA) (plainB : comma ∉ suffixB) (plainC : comma ∉ suffixC) :
    ∃ ab ba bc ac, compare a b = .ok ab ∧ compare b a = .ok ba ∧ compare b c = .ok bc ∧
      compare a c = .ok ac ∧
      (ab < 0 ↔ tableA < tableB ∨ tableA = tableB ∧
        (keyA < keyB ∨ keyA = keyB ∧ suffixA < suffixB)) ∧
      (ab = 0 ↔ tableA = tableB ∧ keyA = keyB ∧ suffixA = suffixB) ∧
      (0 < ab ↔ tableB < tableA ∨ tableB = tableA ∧
        (keyB < keyA ∨ keyB = keyA ∧ suffixB < suffixA)) ∧
      (ab = 0 ↔ a = b) ∧ (ab < 0 ↔ 0 < ba) ∧ (ab ≤ 0 → ba ≤ 0 → a = b) ∧
      (ab ≤ 0 → bc ≤ 0 → ac ≤ 0) := by
  have validA : ValidName a := ⟨_, _, _, nameA, tablePlainA, plainA⟩
  have validB : ValidName b := ⟨_, _, _, nameB, tablePlainB, plainB⟩
  have validC : ValidName c := ⟨_, _, _, nameC, tablePlainC, plainC⟩
  obtain ⟨ab, comparedAB, decidedAB⟩ := compare_lawful.decides a b validA validB
  obtain ⟨ba, comparedBA, decidedBA⟩ := compare_lawful.decides b a validB validA
  obtain ⟨bc, comparedBC, decidedBC⟩ := compare_lawful.decides b c validB validC
  obtain ⟨ac, comparedAC, decidedAC⟩ := compare_lawful.decides a c validA validC
  have rankA : nameRank a = sortKey tableA keyA suffixA := by
    rw [nameA, nameRank_joinName _ _ _ tablePlainA plainA]
  have rankB : nameRank b = sortKey tableB keyB suffixB := by
    rw [nameB, nameRank_joinName _ _ _ tablePlainB plainB]
  have same : ab = 0 ↔ a = b := by
    rw [decidedAB.2]
    exact ⟨compare_lawful.rank_inj a b validA validB, congrArg nameRank⟩
  refine ⟨ab, ba, bc, ac, comparedAB, comparedBA, comparedBC, comparedAC, ?_, ?_, ?_, same, ?_, ?_,
    ?_⟩
  · rw [decidedAB.1, rankA, rankB, sortKey_lt]
  · rw [decidedAB.2, rankA, rankB, sortKey_inj]
  · rw [decidedAB.pos_iff, rankA, rankB, sortKey_lt]
  · rw [decidedAB.1, decidedBA.pos_iff]
  · rw [decidedAB.le_iff, decidedBA.le_iff]
    exact fun forth back => compare_lawful.rank_inj a b validA validB (le_antisymm forth back)
  · rw [decidedAB.le_iff, decidedBC.le_iff, decidedAC.le_iff]
    exact le_trans

theorem compare_lexicographic_commas :
    ∃ verdict, compare [116, 44, 97, 44, 49] [116, 44, 97, 44, 44, 49] = .ok verdict ∧
      verdict < 0 := by
  have first : ([116, 44, 97, 44, 49] : Bytes) = joinName [116] [97] [49] := rfl
  have second : ([116, 44, 97, 44, 44, 49] : Bytes) = joinName [116] [97, 44] [49] := rfl
  obtain ⟨verdict, _, _, _, compared, _, _, _, less, _⟩ := compare_lexicographic first second first
    (by decide) (by decide) (by decide) (by decide) (by decide) (by decide)
  exact ⟨verdict, compared, less.mpr (by decide)⟩

theorem compareTables_inl {i : Nat} {a b : Bytes} {verdict : Int}
    (computed : compareTables i a b = .inl verdict) :
    Decides verdict (nameTable a) (nameTable b) ∧ nameTable a ≠ nameTable b := by
  induction a generalizing i b with
  | nil => simp [compareTables] at computed
  | cons ai a ih =>
      cases b with
      | nil => simp [compareTables] at computed
      | cons bi b =>
          by_cases same : ai = bi
          · subst bi
            by_cases ends : ai = comma
            · simp [compareTables, ends] at computed
            · simp only [compareTables, ne_eq, not_true_eq_false, ↓reduceIte, ends] at computed
              simpa [nameTable, ends, Decides] using ih computed
          · simp only [compareTables, ne_eq, same, not_false_eq_true, ↓reduceIte] at computed
            by_cases endsA : ai = comma
            · have endsB : bi ≠ comma := fun equal => same (endsA.trans equal.symm)
              simp only [endsA, ↓reduceIte, Sum.inl.injEq] at computed
              have less : nameTable (ai :: a) < nameTable (bi :: b) := by
                simp [nameTable, endsA, endsB]
              exact ⟨.of_lt (by omega) less, less.ne⟩
            · simp only [endsA, ↓reduceIte] at computed
              by_cases endsB : bi = comma
              · simp only [endsB, ↓reduceIte, Sum.inl.injEq] at computed
                have greater : nameTable (bi :: b) < nameTable (ai :: a) := by
                  simp [nameTable, endsA, endsB]
                exact ⟨.of_gt (by omega) greater, greater.ne'⟩
              · simp only [endsB, ↓reduceIte, Sum.inl.injEq] at computed
                have decided := byteDiff_decides ai bi
                rw [computed] at decided
                simpa [nameTable, endsA, endsB, Decides, cons_lt_cons, same] using decided

theorem compareTables_inr {i stop : Nat} {a b : Bytes}
    (computed : compareTables i a b = .inr stop) :
    (∃ table restA restB, comma ∉ table ∧ stop = i + table.length ∧
      a = table ++ comma :: restA ∧ b = table ++ comma :: restB) ∨
    stop = i + a.length ∨ stop = i + b.length := by
  induction a generalizing i b with
  | nil =>
      simp only [compareTables, Sum.inr.injEq] at computed
      exact .inr (.inl (by simp [computed]))
  | cons ai a ih =>
      cases b with
      | nil =>
          simp only [compareTables, Sum.inr.injEq] at computed
          exact .inr (.inr (by simp [computed]))
      | cons bi b =>
          by_cases same : ai = bi
          · subst bi
            by_cases ends : ai = comma
            · subst ends
              simp only [compareTables, ne_eq, not_true_eq_false, ↓reduceIte, Sum.inr.injEq]
                at computed
              exact .inl ⟨[], a, b, by simp, by simp [computed], rfl, rfl⟩
            · simp only [compareTables, ne_eq, not_true_eq_false, ↓reduceIte, ends] at computed
              rcases ih computed with ⟨table, restA, restB, plain, place, splitA, splitB⟩ | short
              · refine .inl ⟨ai :: table, restA, restB, ?_, ?_, by simp [splitA], by simp [splitB]⟩
                · simp [plain, Ne.symm ends]
                · rw [List.length_cons]
                  omega
              · simp only [List.length_cons]
                omega
          · simp only [compareTables, ne_eq, same, not_false_eq_true, ↓reduceIte] at computed
            split at computed
            · cases computed
            · split at computed
              · cases computed
              · cases computed

theorem findCommaBelow_ok {b : Bytes} {offset i position : Nat}
    (found : findCommaBelow b offset i = .ok position) :
    offset < position ∧ position < i ∧ b.getD position 0 = comma := by
  induction i with
  | zero => cases found
  | succ i ih =>
      simp only [findCommaBelow] at found
      split at found
      · split at found
        · cases found
          exact ⟨by omega, by omega, by assumption⟩
        · obtain ⟨beyond, inside, byte⟩ := ih found
          exact ⟨beyond, by omega, byte⟩
      · cases found

theorem validName_of_comma {table rest : Bytes} (plain : comma ∉ table) (more : comma ∈ rest) :
    ValidName (table ++ comma :: rest) := by
  obtain ⟨suffix, key, split, absent⟩ := List.eq_append_cons_of_mem (List.mem_reverse.mpr more)
  refine ⟨table, key.reverse, suffix.reverse, ?_, plain, by simpa using absent⟩
  rw [← List.reverse_reverse rest, split]
  simp [joinName]

theorem validName_of_findComma {table rest : Bytes} (plain : comma ∉ table) {position : Nat}
    (found : findCommaFromEnd (table ++ comma :: rest) table.length = .ok position) :
    ValidName (table ++ comma :: rest) := by
  obtain ⟨beyond, inside, byte⟩ := findCommaBelow_ok found
  obtain ⟨place, shift⟩ : ∃ place, position - table.length = place + 1 :=
    ⟨position - table.length - 1, by omega⟩
  rw [List.getD_append_right _ _ _ _ beyond.le, shift, List.getD_cons_succ] at byte
  have bound : place < rest.length := by
    simp only [List.length_append, List.length_cons] at inside
    omega
  rw [List.getD_eq_getElem _ _ bound] at byte
  exact validName_of_comma plain (byte ▸ List.getElem_mem bound)

theorem findCommaFromEnd_short {b : Bytes} {position : Nat} :
    findCommaFromEnd b b.length ≠ .ok position := by
  intro found
  obtain ⟨beyond, inside, _⟩ := findCommaBelow_ok found
  omega

theorem compare_faithful (a b : Bytes) : Faithful compare nameRank a b := by
  intro verdict returned
  have compared := returned
  unfold compare at compared
  cases tables : compareTables 0 a b with
  | inl first =>
      simp only [tables, Except.ok.injEq] at compared
      subst first
      obtain ⟨decided, different⟩ := compareTables_inl tables
      refine ⟨decided.lexLeft different _ _, ?_⟩
      exact fun zero => absurd (decided.2.mp zero) different
  | inr stop =>
      simp only [tables, bind_ok_iff] at compared
      obtain ⟨aComma, foundA, bComma, foundB, _⟩ := compared
      rcases compareTables_inr tables with
        ⟨table, restA, restB, plain, place, rfl, rfl⟩ | shortA | shortB
      · rw [place, Nat.zero_add] at foundA foundB
        exact compare_lawful.faithful (validName_of_findComma plain foundA)
          (validName_of_findComma plain foundB) verdict returned
      · rw [shortA, Nat.zero_add] at foundA
        exact absurd foundA findCommaFromEnd_short
      · rw [shortB, Nat.zero_add] at foundB
        exact absurd foundB findCommaFromEnd_short

theorem fullyQualifiedTable_plain {reg : RegionInfo} {suffix : Bytes}
    (named : reg.NamedWith suffix) : comma ∉ fullyQualifiedTable reg := by
  unfold fullyQualifiedTable
  cases space : reg.nspace with
  | none => exact named.tablePlain.1
  | some nspace =>
      have plain := (named.nspacePlain nspace space).1
      have table := named.tablePlain.1
      simp only [List.mem_append, List.mem_cons, not_or]
      exact ⟨plain, by decide, table⟩

theorem RegionInfo.NamedWith.validName {reg : RegionInfo} {suffix : Bytes}
    (named : reg.NamedWith suffix) : ValidName reg.name :=
  ⟨_, _, _, named.named, fullyQualifiedTable_plain named, named.suffixPlain⟩

theorem RegionInfo.NamedWith.nameRank {reg : RegionInfo} {suffix : Bytes}
    (named : reg.NamedWith suffix) :
    nameRank reg.name = sortKey (fullyQualifiedTable reg) reg.startKey suffix := by
  rw [named.named]
  exact nameRank_joinName _ _ _ (fullyQualifiedTable_plain named) named.suffixPlain

theorem suffix_lt_colon {suffix : Bytes}
    (starts : ∃ digit rest, suffix = digit :: rest ∧ 48 ≤ digit ∧ digit ≤ 57) :
    suffix < [colon] := by
  obtain ⟨digit, rest, split, _, upper⟩ := starts
  have less : digit < colon := lt_of_le_of_lt upper (by decide)
  rw [split, cons_lt_cons]
  exact .inl less

theorem RegionInfo.NamedWith.startKey_fits {reg : RegionInfo} {suffix : Bytes}
    (named : reg.NamedWith suffix) :
    (fullyQualifiedTable reg).length + 3 + reg.startKey.length ≤ 32767 := by
  have bound := named.nameBound
  obtain ⟨digit, rest, split, _, _⟩ := named.suffixDigit
  rw [named.named, length_joinName, split, List.length_cons] at bound
  omega

def searchRoom (table : Bytes) : Nat := 32764 - table.length

theorem createRegionSearchKey_eq (table key : Bytes) (fits : table.length ≤ 32764) :
    createRegionSearchKey table key =
      .ok (joinName table (key.take (searchRoom table)) [colon]) := by
  unfold createRegionSearchKey searchRoom maxInt16 joinName
  by_cases short : (key.length : Int) < 32767 - (table.length : Int) - 3
  · have kept : key.take (32764 - table.length) = key := List.take_of_length_le (by omega)
    simp [short, kept]
  · have room : ¬(32767 - (table.length : Int) - 3) < 0 := by omega
    have size : (32767 - (table.length : Int) - 3).toNat = 32764 - table.length := by omega
    simp [short, room, size]

theorem searchKey_valid (table key : Bytes) :
    ∃ part row, joinName table key [colon] = joinName part row [colon] ∧ comma ∉ part ∧
      (comma ∉ table → part = table ∧ row = key) := by
  by_cases plain : comma ∉ table
  · exact ⟨table, key, rfl, plain, fun _ => ⟨rfl, rfl⟩⟩
  · obtain ⟨part, rest, split, absent⟩ := List.eq_append_cons_of_mem (not_not.mp plain)
    refine ⟨part, rest ++ comma :: key, ?_, absent, fun impossible => absurd impossible plain⟩
    simp [joinName, split]

/-- Where the search key of a row lies among region names. A row that is cut to the room left by the
table keeps its place: the name of a region of that table has no room for a longer start key. -/
theorem sortKey_lt_searchKey {table start suffix : Bytes} (below : suffix < [colon])
    (fits : table.length + 3 + start.length ≤ 32767) (other key : Bytes) (plain : comma ∉ other) :
    sortKey table start suffix < nameRank (joinName other (key.take (searchRoom other)) [colon]) ↔
      table < other ∨ table = other ∧ start ≤ key := by
  rw [nameRank_joinName _ _ _ plain (by decide), sortKey_lt]
  simp only [below, and_true, ← le_iff_lt_or_eq]
  refine or_congr_right (and_congr_right ?_)
  intro same
  apply le_take_iff
  unfold searchRoom
  rw [← same]
  omega

theorem sortKey_ne_searchKey {table start suffix : Bytes} (below : suffix < [colon])
    (other key : Bytes) (plain : comma ∉ other) :
    sortKey table start suffix ≠ nameRank (joinName other key [colon]) := by
  rw [nameRank_joinName _ _ _ plain (by decide), ne_eq, sortKey_inj]
  rintro ⟨-, -, same⟩
  exact below.ne same

theorem rank_lt_searchKey {reg : RegionInfo} {suffix : Bytes} (named : reg.NamedWith suffix)
    (table key : Bytes) (plain : comma ∉ table) :
    nameRank reg.name < nameRank (joinName table (key.take (searchRoom table)) [colon]) ↔
      fullyQualifiedTable reg < table ∨ fullyQualifiedTable reg = table ∧ reg.startKey ≤ key := by
  rw [named.nameRank]
  exact sortKey_lt_searchKey (suffix_lt_colon named.suffixDigit) named.startKey_fits table key plain

theorem rank_ne_searchKey {reg : RegionInfo} {suffix : Bytes} (named : reg.NamedWith suffix)
    (table key : Bytes) (plain : comma ∉ table) :
    nameRank reg.name ≠ nameRank (joinName table key [colon]) := by
  rw [named.nameRank]
  exact sortKey_ne_searchKey (suffix_lt_colon named.suffixDigit) table key plain

/-- The search key of a row stands right behind the names of the regions of its table that start at
or before the row, and fits the limit, however long the row is. -/
theorem search_key_position (table start suffix : Bytes) (tablePlain : comma ∉ table)
    (suffixPlain : comma ∉ suffix)
    (starts : ∃ digit rest, suffix = digit :: rest ∧ 48 ≤ digit ∧ digit ≤ 57)
    (bound : (joinName table start suffix).length ≤ 32767)
    (other key : Bytes) (otherPlain : comma ∉ other) (fits : other.length ≤ 32764) :
    ∃ searchKey verdict, createRegionSearchKey other key = .ok searchKey ∧
      compare (joinName table start suffix) searchKey = .ok verdict ∧ verdict ≠ 0 ∧
      (verdict < 0 ↔ table < other ∨ table = other ∧ start ≤ key) ∧
      searchKey.length ≤ 32767 := by
  have below := suffix_lt_colon starts
  have nameValid : ValidName (joinName table start suffix) :=
    ⟨table, start, suffix, rfl, tablePlain, suffixPlain⟩
  have keyValid : ValidName (joinName other (key.take (searchRoom other)) [colon]) :=
    ⟨other, _, [colon], rfl, otherPlain, by decide⟩
  have room : table.length + 3 + start.length ≤ 32767 := by
    obtain ⟨digit, rest, split, _, _⟩ := starts
    rw [length_joinName, split, List.length_cons] at bound
    omega
  obtain ⟨verdict, computed, decided⟩ := compare_lawful.decides _ _ nameValid keyValid
  rw [nameRank_joinName _ _ _ tablePlain suffixPlain] at decided
  refine ⟨_, verdict, createRegionSearchKey_eq other key fits, computed, ?_, ?_, ?_⟩
  · exact fun zero => sortKey_ne_searchKey below other _ otherPlain (decided.2.mp zero)
  · rw [decided.1, sortKey_lt_searchKey below room other key otherPlain]
  · rw [length_joinName, List.length_take, List.length_singleton]
    unfold searchRoom
    omega

theorem search_key_position_row :
    ∃ searchKey verdict, createRegionSearchKey [116] [98] = .ok searchKey ∧
      compare (joinName [116] [97] [49]) searchKey = .ok verdict ∧ verdict ≠ 0 ∧
      (verdict < 0 ↔ ([116] : Bytes) < [116] ∨ ([116] : Bytes) = [116] ∧ ([97] : Bytes) ≤ [98]) ∧
      searchKey.length ≤ 32767 :=
  search_key_position [116] [97] [49] (by decide) (by decide) ⟨49, [], rfl, by decide, by decide⟩
    (by decide) [116] [98] (by decide) (by decide)

end GoHBase
