import GoHBase.CacheLookup
import GoHBase.LookupCore
import GoHBase.ScannerLifecycle
import GoHBase.ScannerReassembly

/-!
A lookup against hbase:meta. Its server keeps one row for each region under the name of the region,
and leaves rows of regions that were split behind. The row that a lookup gets is the one of the
region that serves the key, as long as regions in use come after those they have replaced.
-/

namespace GoHBase

open ByteString Runtime OrderedTree

def metaRequest (table metaKey : Bytes) : Scan :=
  { newScanRange metaKey table with reversed := true, closeScanner := true, numberOfRows := 1 }

section Scan

variable {σ ε : Type} {client : RPCClient σ ε} {server server' : σ} {resp : ScanResponse}
  {region : RegionInfo} {rpc : Scan}

def freshScan (rpc : Scan) (server : σ) : ScanState σ := ⟨newScanner rpc, server, []⟩

theorem freshScan_request (rpc : Scan) (server : σ) :
    (freshScan rpc server).scanner.request = rpc := rfl

theorem first_round (answered : client.sendRPC server rpc = (server', .ok (resp, region))) :
    ∃ s requests closing st', (newScanner rpc).update resp region = .ok (s, requests) ∧
      closing = (if s.isDone resp region then s.close else (s, [])) ∧
      fetchStep client (freshScan rpc server) = .ok (st',
        if 0 < resp.results.length then some (.ok resp.results)
        else if closing.1.closed then some (.error .eof) else none) ∧
      st'.server = server' ∧ st'.scanner = closing.1 := by
  obtain ⟨⟨st', outcome⟩, step⟩ := fetchStep_ok client (freshScan rpc server)
  obtain ⟨_, err, failed, _⟩ | ⟨now, other, reg, s, requests, closing, sent, updated, done, made,
    verdict⟩ := fetchStep_cases step
  · rw [freshScan_request, freshScan, answered] at failed
    cases failed
  · rw [freshScan_request, freshScan, answered] at sent
    cases sent
    refine ⟨s, requests, closing, st', updated, done, ?_, ?_, ?_⟩
    · rw [step, verdict]
    · rw [made]
    · rw [made]

theorem next_whole (whole : rpc.allowPartialResults = false) (fuel : Nat) :
    next client fuel none (freshScan rpc server) =
      nextRow client fuel fuel none (freshScan rpc server) := by
  have joins : ¬(freshScan rpc server).scanner.rpc.allowPartialResults = true := by
    rw [freshScan, newScanner, whole]
    exact Bool.false_ne_true
  exact if_neg joins

theorem closeRegionScanner_shut (s : Scanner) :
    s.closeRegionScanner.1.isRegionScannerClosed = true := by
  unfold Scanner.closeRegionScanner
  split
  · assumption
  · exact decide_eq_true rfl

theorem update_shut {s s' : Scanner} {requests : List Scan}
    (last : resp.moreResultsInRegion.getD false = false)
    (updated : s.update resp region = .ok (s', requests)) : s'.isRegionScannerClosed = true := by
  obtain ⟨noted, _, rest⟩ := (bind_ok_iff _ _ _).mp updated
  rw [last] at rest
  cases rest
  exact closeRegionScanner_shut noted

theorem next_first_row {r : PbResult} {more : List (Option PbResult)} (fuel : Nat)
    (answered : client.sendRPC server rpc = (server', .ok (resp, region)))
    (whole : rpc.allowPartialResults = false) (result : resp.results = some r :: more)
    (complete : r.isPartial.getD false = false) :
    ∃ st, next client (fuel + 1) none (freshScan rpc server) =
        .ok (some (st, toLocalResult (some r), none)) ∧ st.server = server' := by
  obtain ⟨s, requests, closing, st', _, _, step, served, _⟩ := first_round answered
  have fetched : fetch client (fuel + 1) (freshScan rpc server) =
      .ok (some (st', .ok resp.results)) := by
    rw [fetch, step, ok_bind, result]
    rfl
  have peeked : peek client (fuel + 1) (freshScan rpc server) =
      .ok (some (setResults st' (some r :: more), .ok (some r))) := by
    rw [peek_open rfl rfl, fetched, result]
    rfl
  refine ⟨shiftState (setResults st' (some r :: more)), ?_, served⟩
  rw [next_whole whole, nextRow_round peeked]
  simp only [coalesce, pure_bind, getPartial, complete]
  rfl

theorem next_exhausted (fuel : Nat)
    (answered : client.sendRPC server rpc = (server', .ok (resp, region)))
    (empty : resp.results = [])
    (reversed : rpc.reversed = true) (first : region.startKey = [])
    (ends : resp.moreResults = some false ∨ resp.moreResultsInRegion.getD false = false) :
    ∃ st, next client (fuel + 1) none (freshScan rpc server) = .ok (some (st, none, some .eof)) ∧
      st.server = server' := by
  obtain ⟨s, requests, closing, st', updated, finished, step, served, scanner⟩ :=
    first_round answered
  have done : s.isDone resp region = true := by
    obtain ⟨id, row, kept⟩ := update_eq updated
    have backward : s.rpc.reversed = true := by
      rw [kept]
      exact reversed
    rcases ends with stop | last
    · rw [Scanner.isDone, if_pos stop]
    · rw [Scanner.isDone]
      split
      · rfl
      · simp [update_shut last updated, backward, first]
  have closed : closing.1.closed = true := by
    obtain ⟨id, same⟩ := close_eq s
    rw [finished, if_pos done, same]
  have peeked : peek client (fuel + 1) (freshScan rpc server) =
      .ok (some (st', .error .eof)) := by
    rw [peek_open rfl rfl, fetch, step, ok_bind, empty, closed]
    rfl
  exact ⟨st', next_eof client peeked (by omega), served⟩

end Scan

structure MetaEntry where
  region : RegionInfo
  cells : List Cell

structure MetaTable where
  entries : List MetaEntry

variable (decode : PbDecoder) (ref : Nat)

def MetaEntry.Tells (e : MetaEntry) (reg : RegionInfo) (addr : Bytes) : Prop :=
  parseRegionInfo decode ref e.cells = .ok (.ok (reg, addr))

def MetaEntry.Live (e : MetaEntry) : Prop := ∃ reg addr, e.Tells decode ref reg addr

/-- Rows are sorted by name and describe the region that they are named after. A region in use
shares no key with another region, except with those that are out of use and named before it, as
the parents of a split are. -/
structure MetaTable.Consistent (m : MetaTable) : Prop where
  sorted : m.entries.Pairwise fun first second =>
    nameRank first.region.name < nameRank second.region.name
  wellFormed : ∀ e ∈ m.entries, e.region.WellFormed
  readable : ∀ e ∈ m.entries, Guarded decode e.cells
  truthful : ∀ e ∈ m.entries, ∀ reg addr, e.Tells decode ref reg addr →
    ∃ object, reg = { e.region with ref := object }
  replaced : ∀ e ∈ m.entries, ∀ live ∈ m.entries, live.Live decode ref → e ≠ live →
    Apart e.region live.region ∨
      ¬e.Live decode ref ∧ nameRank e.region.name < nameRank live.region.name

/-- The rows that a reversed scan comes by, the last one first. The stop row of a lookup is the bare
name of a table, which sorts before the names of its regions. -/
def MetaTable.scanned (m : MetaTable) (rpc : Scan) : List MetaEntry :=
  m.entries.filter fun e => nameTable rpc.stopRow ≤ nameTable e.region.name ∧
    nameRank e.region.name ≤ nameRank rpc.startRow

/-- What the server may answer to a request for one row, after which it closes its scanner. -/
inductive MetaTable.Replies (m : MetaTable) (rpc : Scan) (resp : ScanResponse) : Prop
  | row (e : MetaEntry) (r : PbResult) (last : (m.scanned rpc).getLast? = some e)
      (results : resp.results = [some r]) (cells : r.cell = e.cells)
      (complete : r.isPartial.getD false = false)
  | none (empty : m.scanned rpc = []) (results : resp.results = [])
      (ends : resp.moreResults = some false ∨ resp.moreResultsInRegion.getD false = false)

/-- What a lookup of a key finds in the table: a region and its address exactly when a row tells
them and the region contains the key, and no table exactly when none of its regions starts at or
before the key. It never finds the row of another table. -/
structure MetaTable.Decides (m : MetaTable) (table key : Bytes) (located : Located) : Prop where
  found : ∀ reg addr, located = .ok (reg, addr) ↔
    (∃ e ∈ m.entries, e.Tells decode ref reg addr) ∧ reg.Contains table key
  missing : located = .error .tableNotFound ↔
    ∀ e ∈ m.entries, fullyQualifiedTable e.region = table → ¬e.region.startKey ≤ key
  ownTable : ∀ reg, located ≠ .error (.wrongTable table key reg)
  answered : located ≠ .error .clientClosed

section Exact

variable {decode ref} {m : MetaTable} {table key : Bytes}

theorem nameTable_bare (plain : comma ∉ table) : nameTable table = table := by
  refine List.takeWhile_eq_self_iff.mpr fun byte member => ?_
  exact decide_eq_true fun same => plain (same ▸ member)

theorem RegionInfo.WellFormed.nameTable {reg : RegionInfo} (wellFormed : reg.WellFormed) :
    nameTable reg.name = fullyQualifiedTable reg := by
  obtain ⟨suffix, named⟩ := wellFormed
  exact ((sortKey_inj _ _ _ _ _ _).mp named.nameRank).1

theorem mem_scanned_iff (wellFormed : ∀ e ∈ m.entries, e.region.WellFormed)
    (plain : comma ∉ table) (e : MetaEntry) :
    e ∈ m.scanned (metaRequest table (joinName table (key.take (searchRoom table)) [colon])) ↔
      e ∈ m.entries ∧ fullyQualifiedTable e.region = table ∧ e.region.startKey ≤ key := by
  unfold MetaTable.scanned
  rw [List.mem_filter, decide_eq_true_iff]
  refine and_congr_right fun member => ?_
  have formed := wellFormed e member
  obtain ⟨suffix, named⟩ := id formed
  have differs := rank_ne_searchKey named table (key.take (searchRoom table)) plain
  have place := rank_lt_searchKey named table key plain
  change nameTable table ≤ nameTable e.region.name ∧ nameRank e.region.name ≤
    nameRank (joinName table (key.take (searchRoom table)) [colon]) ↔ _
  rw [nameTable_bare plain, formed.nameTable, differs.le_iff_lt, place]
  constructor
  · rintro ⟨above, below | here⟩
    · exact absurd below above.not_gt
    · exact here
  · rintro ⟨same, starts⟩
    exact ⟨same.ge, .inr ⟨same, starts⟩⟩

theorem parseRegionInfo_returns (ref : Nat) {cells : List Cell} (readable : Guarded decode cells) :
    ∃ parsed, parseRegionInfo decode ref cells = .ok parsed := by
  obtain ⟨outcome, ran⟩ := (parseCells_returns_iff decode ref cells none []).mpr readable
  rw [parseRegionInfo, ran, ok_bind]
  obtain err | ⟨_ | reg, addr⟩ := outcome
  · exact ⟨_, rfl⟩
  · exact ⟨_, rfl⟩
  · dsimp only
    split
    · exact ⟨_, rfl⟩
    · exact ⟨_, rfl⟩

theorem checkMeta_ok_iff {reg found : RegionInfo} {addr server : Bytes} :
    checkMeta table key reg addr = .ok (found, server) ↔ (reg = found ∧ addr = server) ∧
      fullyQualifiedTable reg = table ∧ (reg.stopKey = [] ∨ key < reg.stopKey) := by
  unfold checkMeta
  by_cases sameTable : fullyQualifiedTable reg = table
  · by_cases empty : reg.stopKey = []
    · simp [sameTable, empty]
    · by_cases below : key < reg.stopKey
      · simp [sameTable, empty, below, below.not_ge]
      · simp [sameTable, empty, below, not_lt.mp below]
  · simp [sameTable, Ne.symm sameTable]

theorem checkMeta_table {reg other : RegionInfo} {addr : Bytes}
    (same : fullyQualifiedTable reg = table) :
    checkMeta table key reg addr ≠ .error (.wrongTable table key other) := by
  unfold checkMeta
  rw [if_neg (not_not.mpr same.symm)]
  split
  · exact nofun
  · exact nofun

theorem checkMeta_found {reg : RegionInfo} {addr : Bytes} :
    checkMeta table key reg addr ≠ .error .tableNotFound := by
  unfold checkMeta
  split
  · exact nofun
  · split
    · exact nofun
    · exact nofun

theorem MetaTable.Consistent.scanned_sorted (consistent : m.Consistent decode ref) (rpc : Scan) :
    (m.scanned rpc).Pairwise fun first second =>
      nameRank first.region.name < nameRank second.region.name :=
  consistent.sorted.filter _

theorem container_scanned_last (consistent : m.Consistent decode ref) (plain : comma ∉ table)
    {live last : MetaEntry} {reg : RegionInfo} {addr : Bytes} (member : live ∈ m.entries)
    (tells : live.Tells decode ref reg addr) (contains : reg.Contains table key)
    (found : (m.scanned (metaRequest table
      (joinName table (key.take (searchRoom table)) [colon]))).getLast? = some last) :
    last = live := by
  obtain ⟨object, rfl⟩ := consistent.truthful live member reg addr tells
  obtain ⟨sameTable, starts, high⟩ := contains
  have inScan := (mem_scanned_iff consistent.wellFormed plain live).mpr
    ⟨member, sameTable, starts⟩
  obtain ⟨lastMember, lastTable, lastStarts⟩ :=
    (mem_scanned_iff consistent.wellFormed plain last).mp (List.mem_of_getLast? found)
  by_contra differ
  have order : nameRank live.region.name < nameRank last.region.name := by
    obtain ⟨front, split⟩ := List.getLast?_eq_some_iff.mp found
    have sorted := consistent.scanned_sorted
      (metaRequest table (joinName table (key.take (searchRoom table)) [colon]))
    rw [split] at sorted inScan
    rcases List.mem_append.mp inScan with before | here
    · exact (List.pairwise_append.mp sorted).2.2 live before last List.mem_cons_self
    · exact absurd (List.mem_singleton.mp here).symm differ
  rcases consistent.replaced last lastMember live member ⟨_, _, tells⟩ differ with apart | ⟨_, less⟩
  · refine later_region_wins (consistent.wellFormed live member)
      (consistent.wellFormed last lastMember) order apart.symm key ?_ (fun _ => lastStarts)
      ⟨rfl, starts, high⟩
    exact (lastTable.trans sameTable.symm).le
  · exact lt_asymm order less

theorem checkParsed_exact (consistent : m.Consistent decode ref) (plain : comma ∉ table)
    {last : MetaEntry} {parsed : Except MetaError (RegionInfo × Bytes)}
    (read : parseRegionInfo decode ref last.cells = .ok parsed)
    (found : (m.scanned (metaRequest table
      (joinName table (key.take (searchRoom table)) [colon]))).getLast? = some last) :
    (∀ reg addr, checkParsed table key parsed = .ok (reg, addr) ↔
      (∃ e ∈ m.entries, e.Tells decode ref reg addr) ∧ reg.Contains table key) ∧
    checkParsed table key parsed ≠ .error .tableNotFound ∧
    ∀ reg, checkParsed table key parsed ≠ .error (.wrongTable table key reg) := by
  obtain ⟨member, sameTable, starts⟩ :=
    (mem_scanned_iff consistent.wellFormed plain last).mp (List.mem_of_getLast? found)
  have only {e : MetaEntry} {reg : RegionInfo} {addr : Bytes} (inside : e ∈ m.entries)
      (tells : e.Tells decode ref reg addr) (contains : reg.Contains table key) :
      parsed = .ok (reg, addr) := by
    obtain rfl := container_scanned_last consistent plain inside tells contains found
    exact Except.ok.inj (read.symm.trans tells)
  cases parsed with
  | error err =>
      refine ⟨?_, nofun, nofun⟩
      intro reg addr
      refine iff_of_false nofun ?_
      rintro ⟨⟨e, inside, tells⟩, contains⟩
      cases only inside tells contains
  | ok row =>
      obtain ⟨described, server⟩ := row
      obtain ⟨object, rfl⟩ := consistent.truthful last member _ _ read
      refine ⟨?_, checkMeta_found, fun reg => checkMeta_table sameTable⟩
      intro reg addr
      refine checkMeta_ok_iff.trans ⟨?_, ?_⟩
      · rintro ⟨⟨rfl, rfl⟩, same, high⟩
        exact ⟨⟨last, member, read⟩, same, starts, high⟩
      · rintro ⟨⟨e, inside, tells⟩, contains⟩
        cases only inside tells contains
        exact ⟨⟨rfl, rfl⟩, contains.1, contains.2.2⟩

theorem checkParsed_answered (parsed : Except MetaError (RegionInfo × Bytes)) :
    checkParsed table key parsed ≠ .error .clientClosed := by
  cases parsed with
  | error err => nofun
  | ok row =>
      rw [checkParsed, checkMeta]
      split
      · nofun
      · split
        · nofun
        · nofun

theorem metaLookup_eq {σ : Type} (client : RPCClient σ LookupError) (fuel : Nat)
    (cancelled : Option LookupError) (server : σ) (fits : table.length ≤ 32764) :
    metaLookup decode client fuel ref cancelled server table key =
      next client fuel cancelled (freshScan (metaRequest table
        (joinName table (key.take (searchRoom table)) [colon])) server) >>=
          finishMeta decode ref table key := by
  rw [metaLookup, createRegionSearchKey_eq table key fits]
  rfl

theorem metaLookup_decides {σ : Type} {client : RPCClient σ LookupError} {server server' : σ}
    {resp : ScanResponse} {metaKey : Bytes} {object : Nat} (consistent : m.Consistent decode ref)
    (plain : comma ∉ table) (fits : table.length ≤ 32764)
    (made : createRegionSearchKey table key = .ok metaKey)
    (answered : client.sendRPC server (metaRequest table metaKey) =
      (server', .ok (resp, metaRegionInfo object)))
    (replies : m.Replies (metaRequest table metaKey) resp) (fuel : Nat) :
    ∃ located, metaLookup decode client (fuel + 1) ref none server table key =
        .ok (some (server', located)) ∧ m.Decides decode ref table key located := by
  rw [createRegionSearchKey_eq table key fits] at made
  cases made
  rw [metaLookup_eq client _ _ _ fits]
  cases replies with
  | none empty results ends =>
      have absent (e : MetaEntry) (member : e ∈ m.entries)
          (same : fullyQualifiedTable e.region = table) : ¬e.region.startKey ≤ key := by
        intro starts
        have inScan := (mem_scanned_iff consistent.wellFormed plain e).mpr ⟨member, same, starts⟩
        rw [empty] at inScan
        cases inScan
      obtain ⟨st, returned, served⟩ := next_exhausted fuel answered results rfl rfl ends
      refine ⟨.error .tableNotFound, ?_, ?_, iff_of_true rfl absent, nofun, nofun⟩
      · rw [returned, ← served]
        rfl
      · intro reg addr
        refine iff_of_false nofun ?_
        rintro ⟨⟨e, member, tells⟩, contains⟩
        obtain ⟨_, rfl⟩ := consistent.truthful e member reg addr tells
        exact absent e member contains.1 contains.2.1
  | row e r last results cells complete =>
      obtain ⟨member, sameTable, starts⟩ :=
        (mem_scanned_iff consistent.wellFormed plain e).mp (List.mem_of_getLast? last)
      obtain ⟨st, returned, served⟩ := next_first_row fuel answered rfl results complete
      obtain ⟨parsed, read⟩ := parseRegionInfo_returns ref (consistent.readable e member)
      obtain ⟨found, notMissing, ownTable⟩ := checkParsed_exact consistent plain read last
      refine ⟨checkParsed table key parsed, ?_, found, ?_, ownTable, checkParsed_answered parsed⟩
      · have finished : finishMeta decode ref table key (some (st, toLocalResult (some r), none)) =
            (parseRegionInfo decode ref r.cell >>= fun parsed =>
              pure (some (st.server, checkParsed table key parsed))) := rfl
        rw [returned, ok_bind, finished, cells, read, ← served]
        rfl
      · exact iff_of_false notMissing fun absent => absent e member sameTable starts

end Exact

end GoHBase
