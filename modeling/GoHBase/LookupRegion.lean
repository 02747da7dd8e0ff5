import GoHBase.LookupMeta
import GoHBase.RoutingRows

/-!
The loop of `lookupRegion`. Whatever hbase:meta, ZooKeeper and the network do, it ends in one of the
ways that the routing goroutines expect; against a consistent hbase:meta what it finds is the region
of the key.
-/

namespace GoHBase

open ByteString Runtime Retry

instance (setup : Setup) (table : Bytes) : Decidable (setup.Ordinary table) :=
  inferInstanceAs (Decidable (_ ∧ _))

def Setup.answer (setup : Setup) (table : Bytes) : Located → Routing.Answer
  | .ok (reg, addr) => if setup.Ordinary table then .parsed reg addr else .special addr
  | .error .tableNotFound => .tableNotFound
  | .error .clientClosed => .clientClosed
  | .error _ => .failed

section Attempts

variable {σ : Type} {w : LookupWorld σ} {setup : Setup} {fuel : Nat} {table key : Bytes} {s s' : σ}

inductive LookupSettles (w : LookupWorld σ) (setup : Setup) (fuel : Nat) (table key : Bytes)
    (s s' : σ) : Located → Prop
  | special {resource : ZkResource} {addr : Bytes} (other : ¬setup.Ordinary table)
      (located : w.zkLookup resource s = (s', .ok addr)) :
      LookupSettles w setup fuel table key s s' (.ok (setup.special, addr))
  | read {located : Located} (ordinary : setup.Ordinary table)
      (looked : metaLookup w.decode w.scan fuel (w.ref s) (w.cancelled s) s table key =
        .ok (some (s', located)))
      (final : (∃ found, located = .ok found) ∨ located = .error .tableNotFound ∨
        located = .error .clientClosed) : LookupSettles w setup fuel table key s s' located

theorem judgeMeta_cases (located : Located) :
    judgeMeta located = .final located ∧ ((∃ found, located = .ok found) ∨
      located = .error .tableNotFound ∨ located = .error .clientClosed) ∨
    judgeMeta located = .pause fun cause => .error (.other cause) := by
  cases located with
  | ok found => exact .inl ⟨rfl, .inl ⟨found, rfl⟩⟩
  | error err =>
      cases err with
      | tableNotFound => exact .inl ⟨rfl, .inr (.inl rfl)⟩
      | clientClosed => exact .inl ⟨rfl, .inr (.inr rfl)⟩
      | parse => exact .inr rfl
      | wrongTable => exact .inr rfl
      | wrongRegion => exact .inr rfl
      | other => exact .inr rfl

theorem lookupSpecial_cases {resource : ZkResource} {verdict : Judgement Located String}
    (other : ¬setup.Ordinary table)
    (tried : lookupSpecial w setup resource s = .ok (some (s', verdict))) :
    (∃ located, verdict = .final located ∧ LookupSettles w setup fuel table key s s' located) ∨
      verdict = .pause fun cause => .error (.other cause) := by
  cases answered : w.zkLookup resource s with
  | mk later answer =>
      rw [lookupSpecial, answered] at tried
      cases tried
      cases answer with
      | ok addr => exact .inl ⟨_, rfl, .special other answered⟩
      | error err => exact .inr rfl

theorem lookupAttempt_cases {verdict : Judgement Located String}
    (tried : lookupAttempt w setup fuel table key s = .ok (some (s', verdict))) :
    (∃ located, verdict = .final located ∧ LookupSettles w setup fuel table key s s' located) ∨
      verdict = .pause fun cause => .error (.other cause) := by
  unfold lookupAttempt at tried
  by_cases master : setup.clientType = .masterClient
  · rw [if_pos master] at tried
    refine lookupSpecial_cases ?_ tried
    rintro ⟨regular, _⟩
    rw [master] at regular
    cases regular
  · rw [if_neg master] at tried
    by_cases special : table = metaTableName
    · rw [if_pos special] at tried
      exact lookupSpecial_cases (fun ordinary => ordinary.2 special) tried
    · rw [if_neg special] at tried
      have ordinary : setup.Ordinary table := by
        refine ⟨?_, special⟩
        cases type : setup.clientType with
        | regionClient => rfl
        | masterClient => exact absurd type master
      obtain ⟨looked, ran, rest⟩ := (bind_ok_iff _ _ _).mp tried
      match looked, rest with
      | some (s', located), rest =>
          cases rest
          rcases judgeMeta_cases located with ⟨same, final⟩ | paused
          · exact .inl ⟨located, same, .read ordinary ran final⟩
          · exact .inr paused

theorem metaLookup_ok {decode : PbDecoder} {client : RPCClient σ LookupError} {ref : Nat}
    {cancelled : Option LookupError} {reg : RegionInfo} {addr : Bytes}
    (looked : metaLookup decode client fuel ref cancelled s table key =
      .ok (some (s', .ok (reg, addr)))) :
    fullyQualifiedTable reg = table ∧ (reg.stopKey = [] ∨ key < reg.stopKey) := by
  obtain ⟨metaKey, _, rest⟩ := (bind_ok_iff _ _ _).mp looked
  obtain ⟨returned, _, finished⟩ := (bind_ok_iff _ _ _).mp rest
  match returned, finished with
  | some (st, some resp, none), finished =>
      obtain ⟨row, _, parses⟩ := (bind_ok_iff _ _ _).mp finished
      obtain ⟨parsed, _, made⟩ := (bind_ok_iff _ _ _).mp parses
      have checked : checkParsed table key parsed = .ok (reg, addr) :=
        congrArg Prod.snd (Option.some.inj (Except.ok.inj made))
      match parsed, checked with
      | .ok (read, server), checked =>
          obtain ⟨⟨rfl, rfl⟩, passed⟩ := checkMeta_ok_iff.mp checked
          exact passed

/-- From the answer to its lookup `establishRegion` goes on, if it fails for dead regions only. -/
theorem looked_moves {T : OrderedTree.Tree Bytes RegionInfo compare} (sh : Routing.Shared T)
    {reg : RegionInfo} {answer : Routing.Answer}
    (failed : answer = .failed → sh.routes.isDead reg = true)
    (other : answer ≠ .tableNotFound) :
    ∃ t, Routing.Alone setup sh (.looked reg answer) () sh t := by
  cases alive : sh.routes.isDead reg with
  | true => exact ⟨_, .looked_dead alive⟩
  | false =>
      cases answer with
      | special addr => exact ⟨_, .looked_special alive⟩
      | parsed info addr => exact ⟨_, .looked_parsed alive⟩
      | tableNotFound => exact absurd rfl other
      | clientClosed => exact ⟨_, .looked_closed alive⟩
      | failed => cases alive.symm.trans (failed rfl)

theorem LookupSettles.answered {located : Located}
    (settles : LookupSettles w setup fuel table key s s' located) :
    Routing.LookupRegion setup table (setup.answer table located) ∧
      setup.answer table located ≠ .failed := by
  cases settles with
  | special other found =>
      rw [Setup.answer, if_neg other]
      exact ⟨.special _ other, by simp⟩
  | read ordinary looked final =>
      rcases final with ⟨⟨reg, addr⟩, rfl⟩ | rfl | rfl
      · rw [Setup.answer, if_pos ordinary]
        exact ⟨.parsed addr ordinary (metaLookup_ok looked).1, by simp⟩
      · exact ⟨.tableNotFound ordinary, by simp [Setup.answer]⟩
      · exact ⟨.clientClosed ordinary, by simp [Setup.answer]⟩

/-- The loop ends with an attempt that settles it, or in a pause that is cut short. -/
theorem lookupRegion_ends {rounds : Nat} {located : Located} {pauses : List Nat}
    (returned : lookupRegion w setup fuel table key rounds s =
      .ok (some (s', located, pauses))) :
    (∃ before, LookupSettles w setup fuel table key before s' located) ∨
      ∃ cause backoff before, located = .error (.other cause) ∧
        w.sleep backoff before = (s', some cause) := by
  refine (Retry.Ends.of_run returned).rule (fun _ _ => True) (fun _ s' located =>
    (∃ before, LookupSettles w setup fuel table key before s' located) ∨
      ∃ cause backoff before, located = .error (.other cause) ∧
        w.sleep backoff before = (s', some cause)) 0 trivial ?_ ?_ ?_ ?_
  · intro _ before s' outcome _ tried
    obtain ⟨located, same, settles⟩ | same := lookupAttempt_cases tried
    · cases same
      exact .inl ⟨before, settles⟩
    · cases same
  · exact fun _ _ _ _ _ => trivial
  · exact fun _ _ _ _ _ _ _ _ _ => trivial
  · intro _ before tired s' delay interrupted cause _ tried slept
    obtain ⟨located, same, settles⟩ | same := lookupAttempt_cases tried
    · cases same
    · cases same
      refine .inr ⟨cause, delay, tired, rfl, ?_⟩
      change sleepBackoff w.sleep delay tired = _ at slept
      unfold sleepBackoff at slept
      split at slept
      · cases slept
      · exact slept

/-- Whatever its attempts come to, `lookupRegion` returns as the routing goroutines expect. A region
has passed the checks of its table and stop key or is the special one. An error says that the table
does not exist or that the client is closed, or is that of a context which cut a pause short. The
context is that of the region, so `establishRegion` goes on from every answer and exits the process
for none. The pauses are those of the schedule. -/
theorem lookup_region_answers {rounds : Nat} {located : Located} {pauses : List Nat}
    (returned : lookupRegion w setup fuel table key rounds s =
      .ok (some (s', located, pauses))) :
    Routing.LookupRegion setup table (setup.answer table located) ∧
    (∀ reg addr, located = .ok (reg, addr) →
      if setup.Ordinary table then
        fullyQualifiedTable reg = table ∧ (reg.stopKey = [] ∨ key < reg.stopKey)
      else reg = setup.special ∧ ∃ resource before, w.zkLookup resource before = (s', .ok addr)) ∧
    (∀ err, located = .error err →
      setup.Ordinary table ∧ (err = .tableNotFound ∨ err = .clientClosed) ∨
      ∃ cause backoff before, err = .other cause ∧ w.sleep backoff before = (s', some cause)) ∧
    (∀ (T : OrderedTree.Tree Bytes RegionInfo compare) (sh : Routing.Shared T) reg,
      (∀ cause backoff before, w.sleep backoff before = (s', some cause) →
        sh.routes.isDead reg = true) →
      setup.answer table located ≠ .tableNotFound →
      ∃ t, Routing.Alone setup sh (.looked reg (setup.answer table located)) () sh t) ∧
    pauses = (List.range pauses.length).map fun count =>
      if count ≤ 9 then 16 * 2 ^ count
      else if count ≤ 14 then 8192 + 5000 * (count - 9) else 33192 := by
  have origin := lookupRegion_ends returned
  refine ⟨?_, ?_, ?_, ?_, ?_⟩
  · rcases origin with ⟨before, settles⟩ | ⟨cause, _, _, rfl, _⟩
    · exact settles.answered.1
    · exact .failed
  · rintro reg addr rfl
    rcases origin with ⟨before, settles⟩ | ⟨cause, _, _, impossible, _⟩
    · cases settles with
      | special other found =>
          rw [if_neg other]
          exact ⟨rfl, _, before, found⟩
      | read ordinary looked final =>
          rw [if_pos ordinary]
          exact metaLookup_ok looked
    · cases impossible
  · rintro err rfl
    rcases origin with ⟨before, settles⟩ | ⟨cause, backoff, before, same, slept⟩
    · cases settles with
      | read ordinary looked final =>
          rcases final with ⟨_, impossible⟩ | same | same
          · cases impossible
          · cases same
            exact .inl ⟨ordinary, .inl rfl⟩
          · cases same
            exact .inl ⟨ordinary, .inr rfl⟩
    · cases same
      exact .inr ⟨cause, backoff, before, rfl, slept⟩
  · intro T sh reg dead
    refine looked_moves sh fun failed => ?_
    rcases origin with ⟨before, settles⟩ | ⟨cause, backoff, before, _, slept⟩
    · exact absurd failed settles.answered.2
    · exact dead cause backoff before slept
  · refine (Retry.Ends.of_run returned).schedule.trans (List.map_congr_left fun count _ => ?_)
    exact backoff_after count

end Attempts

def masterSetup : Setup := ⟨.masterClient, sampleRegion 0 0 [] []⟩

def flakyZooKeeper : LookupWorld Bool where
  decode _ := .error "unexpected EOF"
  ref _ := 0
  scan := ⟨fun s _ => (s, .error (.failed .clientClosed))⟩
  cancelled _ := none
  zkLookup _ up := (true, if up then .ok [104, 58, 49] else .error (.other "no connection"))
  sleep _ s := (s, none)

theorem lookup_region_answers_master : ∃ located,
    lookupRegion flakyZooKeeper masterSetup 1 [] [] 2 false = .ok (some (true, located, [16])) ∧
      Routing.LookupRegion masterSetup [] (masterSetup.answer [] located) := by
  obtain ⟨located, returned⟩ : ∃ located, lookupRegion flakyZooKeeper masterSetup 1 [] [] 2 false =
      .ok (some (true, located, [16])) := ⟨_, rfl⟩
  exact ⟨located, returned, (lookup_region_answers returned).1⟩

section Served

variable {σ : Type} {w : LookupWorld σ} {setup : Setup} {table key : Bytes}

/-- hbase:meta as it is whenever a lookup asks, and a server that answers from it. -/
structure MetaServed (w : LookupWorld σ) (m : σ → MetaTable) (table key : Bytes) : Prop where
  alive : ∀ s, w.cancelled s = none
  consistent : ∀ s, (m s).Consistent w.decode (w.ref s)
  answers : ∀ s metaKey, createRegionSearchKey table key = .ok metaKey → ∃ s' resp object,
    w.scan.sendRPC s (metaRequest table metaKey) = (s', .ok (resp, metaRegionInfo object)) ∧
      (m s).Replies (metaRequest table metaKey) resp

theorem MetaServed.looked {m : σ → MetaTable} (served : MetaServed w m table key)
    (plain : comma ∉ table) (fits : table.length ≤ 32764) (fuel : Nat) (s : σ) :
    ∃ s' located, metaLookup w.decode w.scan (fuel + 1) (w.ref s) (w.cancelled s) s table key =
        .ok (some (s', located)) ∧ (m s).Decides w.decode (w.ref s) table key located := by
  obtain ⟨s', resp, object, answered, replies⟩ :=
    served.answers s _ (createRegionSearchKey_eq table key fits)
  obtain ⟨located, looked, decides⟩ := metaLookup_decides (served.consistent s) plain fits
    (createRegionSearchKey_eq table key fits) answered replies fuel
  rw [served.alive s]
  exact ⟨s', located, looked, decides⟩

theorem MetaServed.attempt {m : σ → MetaTable} (served : MetaServed w m table key)
    (ordinary : setup.Ordinary table) (plain : comma ∉ table) (fits : table.length ≤ 32764)
    (fuel : Nat) (s : σ) :
    ∃ s' located, lookupAttempt w setup (fuel + 1) table key s =
        .ok (some (s', judgeMeta located)) ∧
      (m s).Decides w.decode (w.ref s) table key located := by
  obtain ⟨s', located, looked, decides⟩ := served.looked plain fits fuel s
  have regular : setup.clientType ≠ .masterClient := by
    rw [ordinary.1]
    exact nofun
  refine ⟨s', located, ?_, decides⟩
  rw [lookupAttempt, if_neg regular, if_neg ordinary.2, looked]
  rfl

end Served

def splitParent : RegionInfo := { sampleRegion 0 1 [] [] with name := joinName [116] [] [48] }

def splitDecoder : PbDecoder
  | [0] => .ok ⟨1, defaultNamespace, [116], [], [], some true⟩
  | [1] => .ok ⟨2, defaultNamespace, [116], [], [109], none⟩
  | [2] => .ok ⟨2, defaultNamespace, [116], [109], [], none⟩
  | _ => .error "unexpected EOF"

def splitEntry (region : RegionInfo) (message : UInt8) : MetaEntry where
  region := region
  cells := [
    ⟨region.name, [105, 110, 102, 111], regionInfoQualifier, 0, 4, [80, 66, 85, 70, message]⟩,
    ⟨region.name, [105, 110, 102, 111], serverQualifier, 0, 4, [104, 58, 49]⟩]

def parentEntry : MetaEntry := splitEntry splitParent 0

def lowerEntry : MetaEntry := splitEntry (sampleRegion 0 2 [] [109]) 1

def upperEntry : MetaEntry := splitEntry (sampleRegion 0 2 [109] []) 2

/-- hbase:meta after a split, with the row of the parent still there. -/
def splitTable : MetaTable := ⟨[parentEntry, lowerEntry, upperEntry]⟩

theorem parent_not_live : ¬parentEntry.Live splitDecoder 0 := by
  rintro ⟨reg, addr, tells⟩
  cases tells

theorem daughters_apart : Apart lowerEntry.region upperEntry.region := by
  rintro table key ⟨⟨_, _, high⟩, ⟨_, low, _⟩⟩
  rcases high with endless | below
  · cases endless
  · exact absurd low below.not_ge

theorem splitTable_members {e : MetaEntry} (member : e ∈ splitTable.entries) :
    e = parentEntry ∨ e = lowerEntry ∨ e = upperEntry := by
  simpa [splitTable] using member

theorem splitTable_consistent : splitTable.Consistent splitDecoder 0 where
  sorted := by decide
  wellFormed := by
    intro e member
    rcases splitTable_members member with rfl | rfl | rfl
    · refine ⟨[48], rfl, nofun, nofun, ⟨by decide, by decide⟩, by decide, ?_, by decide, .inr rfl⟩
      exact ⟨48, [], rfl, by decide, by decide⟩
    · exact sampleRegion_wellFormed _ _ _ _ (by decide) (by decide)
    · exact sampleRegion_wellFormed _ _ _ _ (by decide) (by decide)
  readable := by
    intro e member before cell after split _ cut
    have inside : cell ∈ e.cells := by
      rw [split]
      simp
    rcases splitTable_members member with rfl | rfl | rfl
    all_goals
      rcases List.mem_cons.mp inside with rfl | other
      · exact absurd cut (by decide)
      · cases List.mem_singleton.mp other
        exact absurd cut (by decide)
  truthful := by
    intro e member reg addr tells
    rcases splitTable_members member with rfl | rfl | rfl
    · exact absurd ⟨reg, addr, tells⟩ parent_not_live
    · cases tells
      exact ⟨0, rfl⟩
    · cases tells
      exact ⟨0, rfl⟩
  replaced := by
    intro e member live inside lives differ
    rcases splitTable_members inside with rfl | rfl | rfl
    · exact absurd lives parent_not_live
    · rcases splitTable_members member with rfl | rfl | rfl
      · exact .inr ⟨parent_not_live, by decide⟩
      · exact absurd rfl differ
      · exact .inl daughters_apart.symm
    · rcases splitTable_members member with rfl | rfl | rfl
      · exact .inr ⟨parent_not_live, by decide⟩
      · exact .inl daughters_apart
      · exact absurd rfl differ

def upperRow : PbResult := ⟨upperEntry.cells, none, none, none, none⟩

def upperResponse : ScanResponse := ⟨[], none, some false, [some upperRow], [], none⟩

def upperClient : RPCClient Unit LookupError where
  sendRPC _ _ := ((), .ok (upperResponse, metaRegionInfo 9))

def splitWorld : LookupWorld Unit where
  decode := splitDecoder
  ref _ := 0
  scan := upperClient
  cancelled _ := none
  zkLookup _ s := (s, .ok [])
  sleep _ s := (s, none)

theorem splitWorld_served : MetaServed splitWorld (fun _ => splitTable) [116] [122] where
  alive _ := rfl
  consistent _ := splitTable_consistent
  answers := by
    rintro s _ ⟨⟩
    exact ⟨(), upperResponse, 9, rfl, .row upperEntry upperRow rfl rfl rfl rfl⟩

end GoHBase
