import GoHBase.CachePut
import GoHBase.RoutingSequential

/-!
The cache of clients against the clients of the regions: a region is listed under its client and
under no other, unless it moves while it is listed.
-/

namespace GoHBase

open ByteString Runtime OrderedTree RangeLoop

variable {T : Tree Bytes RegionInfo compare}

namespace Routing

variable {s s' : Routes T} {reg : RegionInfo}

def Mapped (s : Routes T) : Prop :=
  ∀ conn reg, s.Lists conn reg → s.client reg = some conn ∧ s.isDead reg = false

/-- A region is put under no second address, and when it leaves while it is listed, its client
is one of the cache. -/
def Careful : Use → Routes T → Prop
  | .put addr reg, s => ∀ conn, s.Lists conn reg → conn.addr = addr
  | .leave reg, s => (∃ conn, s.Lists conn reg) →
      ∃ conn, s.client reg = some conn ∧ s.clients.lookup conn ≠ none

/-- The cache of clients: one client for an address and one for a region. A region may have a
client that went down; a client of the cache lists the regions that have it. -/
structure Cached (s : Routes T) : Prop where
  unique : ∀ conn conn', s.clients.lookup conn ≠ none → s.clients.lookup conn' ≠ none →
    conn.addr = conn'.addr → conn = conn'
  single : ∀ conn conn' reg, s.Lists conn reg → s.Lists conn' reg → conn = conn'
  back : ∀ conn reg, s.client reg = some conn → s.clients.lookup conn ≠ none → s.Lists conn reg
  made : ∀ conn, s.clients.lookup conn ≠ none → conn.ref < s.conns
  past : ∀ conn reg, s.client reg = some conn → conn.ref < s.conns

theorem Cached.leaves (cached : Cached s) (ok : Careful (.leave reg) s) (conn : Conn)
    (listed : s.Lists conn reg) : s.client reg = some conn := by
  rcases ok ⟨conn, listed⟩ with ⟨own, client, present⟩
  rw [cached.single conn own reg listed (cached.back own reg client present)]
  exact client

theorem Cached.same (cached : Cached s) (same : Routes.SameLists s s') : Cached s' := by
  rcases same with ⟨clients, client, _, conns⟩
  have lists (conn : Conn) (reg : RegionInfo) : s'.Lists conn reg ↔ s.Lists conn reg := by
    unfold Routes.Lists
    rw [clients]
  refine ⟨?_, ?_, ?_, ?_, ?_⟩
  · rw [clients]
    exact cached.unique
  · simp only [lists]
    exact cached.single
  · simp only [lists, clients, client]
    exact cached.back
  · rw [clients, conns]
    exact cached.made
  · rw [client, conns]
    exact cached.past

theorem Cached.delClient (cached : Cached s) : Cached (s.delClient reg) := by
  have before (conn : Conn) (other : RegionInfo)
      (client : (s.delClient reg).client other = some conn) :
      other ≠ reg ∧ s.client other = some conn := by
    rw [Routes.delClient_client] at client
    split at client
    · cases client
    · rename_i different
      exact ⟨different, client⟩
  refine ⟨?_, ?_, ?_, ?_, ?_⟩
  · exact fun conn conn' present present' =>
      cached.unique conn conn' (Routes.delClient_keys present) (Routes.delClient_keys present')
  · exact fun conn conn' other listed listed' => cached.single conn conn' other
      ((Routes.delClient_lists conn other).mp listed).1
      ((Routes.delClient_lists conn' other).mp listed').1
  · intro conn other client present
    rcases before conn other client with ⟨different, client⟩
    have listed := cached.back conn other client (Routes.delClient_keys present)
    exact (Routes.delClient_lists conn other).mpr ⟨listed, fun own => different own.2⟩
  · intro conn present
    rw [Routes.delClient_frame.2]
    exact cached.made conn (Routes.delClient_keys present)
  · intro conn other client
    rw [Routes.delClient_frame.2]
    exact cached.past conn other (before conn other client).2

theorem Cached.putClient (cached : Cached s) {order : Order (Σ _ : Conn, Finset RegionInfo)}
    {addr : Bytes} {conn : Conn} (ok : Careful (.put addr reg) s)
    (put : s.putClient order addr reg = (s', conn)) : Cached s' := by
  rcases Routes.putClient_frame put with ⟨client, _, conns⟩
  have lists := Routes.putClient_lists put
  have unique : ∀ left right, s'.clients.lookup left ≠ none → s'.clients.lookup right ≠ none →
      left.addr = right.addr → left = right := by
    intro left right present present' equal
    rcases Routes.putClient_keys put present with before | ⟨rfl, _, _, fresh⟩
    · rcases Routes.putClient_keys put present' with before' | ⟨rfl, _, _, fresh⟩
      · exact cached.unique left right before before' equal
      · exact absurd equal (fresh left before)
    · rcases Routes.putClient_keys put present' with before' | ⟨rfl, _⟩
      · exact absurd equal.symm (fresh right before')
      · rfl
  -- the clients that have listed the region have the address of the one it is put under
  have own (conn' : Conn) (listed : s'.Lists conn' reg) : conn' = conn := by
    have listed' : s'.Lists conn reg := (lists conn reg).mpr (.inr ⟨rfl, rfl⟩)
    rcases (lists conn' reg).mp listed with before | ⟨same, _⟩
    · refine unique conn' conn (Routes.lists_present listed) (Routes.lists_present listed') ?_
      rw [ok conn' before, Routes.putClient_addr put]
    · exact same
  refine ⟨unique, ?_, ?_, ?_, ?_⟩
  · intro left right other listed listed'
    by_cases same : other = reg
    · subst same
      rw [own left listed, own right listed']
    · exact cached.single left right other
        (((lists left other).mp listed).resolve_right fun new => same new.2)
        (((lists right other).mp listed').resolve_right fun new => same new.2)
  · intro conn' other has present
    rw [client] at has
    rcases Routes.putClient_keys put present with before | ⟨rfl, ref, _⟩
    · exact (lists conn' other).mpr (.inl (cached.back conn' other has before))
    · exact absurd (cached.past _ other has) (by rw [ref]; exact lt_irrefl _)
  · intro conn' present
    rcases Routes.putClient_keys put present with before | ⟨rfl, ref, count, _⟩
    · exact (cached.made conn' before).trans_le conns
    · rw [ref, count]
      exact Nat.lt_succ_self _
  · intro conn' other has
    rw [client] at has
    exact (cached.past conn' other has).trans_le conns

theorem Cached.setClient (cached : Cached s) {conn : Option Conn}
    (listed : ∀ own, conn = some own → s.Lists own reg) : Cached (s.setClient reg conn) := by
  have before (own : Conn) (other : RegionInfo)
      (client : Function.update s.client reg conn other = some own) :
      s.Lists own other ∨ s.client other = some own := by
    by_cases same : other = reg
    · subst same
      rw [Function.update_self] at client
      exact .inl (listed own client)
    · rw [Function.update_of_ne same] at client
      exact .inr client
  refine ⟨cached.unique, cached.single, ?_, cached.made, ?_⟩
  · intro own other client present
    exact (before own other client).elim id fun client => cached.back own other client present
  · intro own other client
    exact (before own other client).elim
      (fun listed => cached.made own (Routes.lists_present listed)) (cached.past own other)

theorem Cached.clientDown (cached : Cached s) {conn : Conn} {downregions : Finset RegionInfo}
    (down : s.clientDown conn = (s', downregions)) : Cached s' := by
  have lists := (Routes.clientDown_lists down).1
  cases down
  have kept (conn' : Conn) (present : (s.clients.erase conn).lookup conn' ≠ none) :
      conn' ≠ conn ∧ s.clients.lookup conn' ≠ none := by
    by_cases same : conn' = conn
    · subst same
      exact absurd (AList.lookup_erase conn' s.clients) present
    · rw [AList.lookup_erase_ne same] at present
      exact ⟨same, present⟩
  refine ⟨?_, ?_, ?_, ?_, cached.past⟩
  · exact fun left right present present' =>
      cached.unique left right (kept left present).2 (kept right present').2
  · exact fun left right other listed listed' => cached.single left right other
      ((lists left other).mp listed).1 ((lists right other).mp listed').1
  · intro conn' other client present
    rcases kept conn' present with ⟨different, present⟩
    exact (lists conn' other).mpr ⟨cached.back conn' other client present, different⟩
  · exact fun conn' present => cached.made conn' (kept conn' present).2

/-- The mapping while the regions of `limbo` are being established and those of `doomed` are
dead and about to leave. -/
structure Mapping (limbo doomed : Set RegionInfo) (s : Routes T) : Prop where
  client : ∀ conn reg, s.Lists conn reg → reg ∉ limbo → s.client reg = some conn
  alive : ∀ conn reg, s.Lists conn reg → reg ∉ doomed → s.isDead reg = false
  cached : Cached s

variable {limbo limbo' doomed : Set RegionInfo}

theorem Mapping.mapped (mapping : Mapping ∅ ∅ s) : Mapped s :=
  fun conn reg listed =>
    ⟨mapping.client conn reg listed nofun, mapping.alive conn reg listed nofun⟩

theorem Mapping.mono (mapping : Mapping limbo doomed s) (more : limbo ⊆ limbo') :
    Mapping limbo' doomed s :=
  ⟨fun conn reg listed out => mapping.client conn reg listed fun inside => out (more inside),
    mapping.alive, mapping.cached⟩

theorem Mapping.settle (mapping : Mapping limbo doomed s)
    (settled : ∀ conn, s.Lists conn reg → s.client reg = some conn) :
    Mapping (limbo \ {reg}) doomed s := by
  refine ⟨?_, mapping.alive, mapping.cached⟩
  intro conn other listed out
  by_cases same : other = reg
  · subst same
    exact settled conn listed
  · exact mapping.client conn other listed fun inside => out ⟨inside, same⟩

theorem Mapping.same (mapping : Mapping limbo doomed s) (same : Routes.SameLists s s') :
    Mapping limbo doomed s' := by
  have cached := mapping.cached.same same
  rcases same with ⟨clients, client, regions, _⟩
  refine ⟨?_, ?_, cached⟩
  · unfold Routes.Lists
    rw [clients, client]
    exact mapping.client
  · unfold Routes.Lists Routes.isDead
    rw [clients, regions]
    exact mapping.alive

theorem Mapping.doom (mapping : Mapping limbo ∅ s) {regions : KeyRegionCache T}
    {overlaps : List RegionInfo} (dead : regions.dead = s.regions.dead ++ overlaps) :
    Mapping limbo {reg | reg ∈ overlaps} { s with regions := regions } := by
  have cached := mapping.cached
  refine ⟨mapping.client, ?_, ⟨cached.unique, cached.single, cached.back, cached.made, cached.past⟩⟩
  intro conn reg listed out
  have before : reg ∉ s.regions.dead := of_decide_eq_false (mapping.alive conn reg listed nofun)
  refine decide_eq_false ?_
  change reg ∉ regions.dead
  rw [dead, List.mem_append]
  exact fun either => either.elim before out

theorem Mapping.delClient (mapping : Mapping limbo doomed s) (ok : Careful (.leave reg) s) :
    Mapping limbo (doomed \ {reg}) (s.delClient reg) := by
  have gone (conn : Conn) (other : RegionInfo) (listed : (s.delClient reg).Lists conn other) :
      s.Lists conn other ∧ other ≠ reg := by
    rcases (Routes.delClient_lists conn other).mp listed with ⟨before, still⟩
    refine ⟨before, ?_⟩
    rintro rfl
    exact still ⟨mapping.cached.leaves ok conn before, rfl⟩
  refine ⟨?_, ?_, mapping.cached.delClient⟩
  · intro conn other listed out
    rcases gone conn other listed with ⟨before, different⟩
    rw [Routes.delClient_client, if_neg different]
    exact mapping.client conn other before out
  · intro conn other listed out
    rcases gone conn other listed with ⟨before, different⟩
    unfold Routes.isDead
    rw [Routes.delClient_frame.1]
    exact mapping.alive conn other before fun inside => out ⟨inside, different⟩

theorem Mapping.delClients {overlaps : List RegionInfo}
    (mapping : Mapping limbo {reg | reg ∈ overlaps} s) (dels : DelClients Careful s overlaps s') :
    Mapping limbo ∅ s' ∧ s'.regions = s.regions := by
  induction dels with
  | nil =>
      refine ⟨⟨mapping.client, ?_, mapping.cached⟩, rfl⟩
      exact fun conn reg listed _ => mapping.alive conn reg listed nofun
  | @cons s s' reg overlaps ok _ ih =>
      have left := mapping.delClient ok
      have fewer : Mapping limbo {other | other ∈ overlaps} (s.delClient reg) := by
        refine ⟨left.client, ?_, left.cached⟩
        intro conn other listed out
        refine left.alive conn other listed ?_
        rintro ⟨inside, different⟩
        exact (List.mem_cons.mp inside).elim different out
      rcases ih fewer with ⟨done, regions⟩
      exact ⟨done, regions.trans Routes.delClient_frame.1⟩

theorem Mapping.putClient (mapping : Mapping limbo ∅ s) (member : reg ∈ limbo)
    (alive : s.isDead reg = false) {order : Order (Σ _ : Conn, Finset RegionInfo)} {addr : Bytes}
    {conn : Conn} (ok : Careful (.put addr reg) s) (put : s.putClient order addr reg = (s', conn)) :
    Mapping limbo ∅ s' := by
  rcases Routes.putClient_frame put with ⟨client, regions, _⟩
  refine ⟨?_, ?_, mapping.cached.putClient ok put⟩
  · intro conn' other listed out
    rw [client]
    rcases (Routes.putClient_lists put conn' other).mp listed with before | ⟨_, rfl⟩
    · exact mapping.client conn' other before out
    · exact absurd member out
  · intro conn' other listed out
    unfold Routes.isDead
    rw [regions]
    rcases (Routes.putClient_lists put conn' other).mp listed with before | ⟨_, rfl⟩
    · exact mapping.alive conn' other before out
    · exact alive

theorem Mapping.setClient (mapping : Mapping limbo doomed s) {conn : Conn}
    (own : s.Lists conn reg) : Mapping (limbo \ {reg}) doomed (s.setClient reg (some conn)) := by
  have cached : Cached (s.setClient reg (some conn)) := mapping.cached.setClient
    fun conn' same => Option.some.inj same ▸ own
  refine ⟨?_, mapping.alive, cached⟩
  intro conn' other listed out
  change Function.update s.client reg (some conn) other = some conn'
  by_cases same : other = reg
  · subst same
    rw [Function.update_self, mapping.cached.single conn conn' other own listed]
  · rw [Function.update_of_ne same]
    exact mapping.client conn' other listed fun inside => out ⟨inside, same⟩

theorem Mapping.clientDown (mapping : Mapping limbo doomed s) {conn : Conn}
    {downregions : Finset RegionInfo} (down : s.clientDown conn = (s', downregions)) :
    Mapping limbo doomed s' := by
  have lists := (Routes.clientDown_lists down).1
  have cached := mapping.cached.clientDown down
  cases down
  refine ⟨?_, ?_, cached⟩
  · exact fun conn' other listed => mapping.client conn' other ((lists conn' other).mp listed).1
  · exact fun conn' other listed => mapping.alive conn' other ((lists conn' other).mp listed).1

theorem Mapping.takeDown {regs started : List RegionInfo} (mapping : Mapping limbo doomed s)
    (taken : s.takeDown regs = (s', started)) :
    Mapping (limbo ∪ {reg | reg ∈ started}) doomed s' := by
  induction regs generalizing s limbo s' started with
  | nil =>
      cases taken
      exact mapping.mono Set.subset_union_left
  | cons reg regs ih =>
      rcases Routes.takeDown_cons taken with ⟨s₁, marked, rest⟩ | ⟨s₁, later, marked, rest, rfl⟩
      · exact ih (mapping.same (Routes.sameLists_markUnavailable marked)) rest
      · have still := mapping.same (Routes.sameLists_markUnavailable marked)
        have reset : Mapping (limbo ∪ {reg}) doomed (s₁.setClient reg none) := by
          refine ⟨?_, still.alive, still.cached.setClient nofun⟩
          intro conn other listed out
          have different : other ≠ reg := fun same => out (.inr same)
          change Function.update s₁.client reg none other = some conn
          rw [Function.update_of_ne different]
          exact still.client conn other listed fun inside => out (.inl inside)
        refine (ih reset rest).mono ?_
        rintro other ((inside | same) | member)
        · exact .inl inside
        · exact .inr (List.mem_cons.mpr (.inl same))
        · exact .inr (List.mem_cons_of_mem _ member)

theorem Mapping.replace {s₁ s₂ : Routes T} {info : RegionInfo} {first : Bool}
    {regions : KeyRegionCache T} {overlaps : List RegionInfo} (mapping : Mapping limbo ∅ s)
    (fresh : s.Pristine info) (marked : s.markUnavailable info = (s₁, first))
    (put : s₁.regions.put info = .ok (regions, overlaps, true))
    (dels : DelClients Careful { s₁ with regions := regions } overlaps s₂) :
    Mapping limbo ∅ s₂ ∧ s₂.isDead info = false := by
  have same := Routes.sameLists_markUnavailable marked
  rcases KeyRegionCache.put_ok put with ⟨dead, cached⟩
  rcases ((mapping.same same).doom dead).delClients dels with ⟨done, kept⟩
  refine ⟨done, decide_eq_false ?_⟩
  have before : info ∉ s.regions.dead := of_decide_eq_false fresh.alive
  rw [kept]
  change info ∉ regions.dead
  rw [dead, if_pos rfl, List.mem_append, same.regions]
  rintro (old | overlap)
  · exact before old
  · have member := cached rfl info overlap
    rw [same.regions] at member
    rcases List.mem_map.mp member with ⟨item, stored, equal⟩
    exact fresh.unseen item stored equal

theorem Mapping.decline {s₁ : Routes T} {info : RegionInfo} {first : Bool}
    {regions : KeyRegionCache T} {overlaps : List RegionInfo} (mapping : Mapping limbo ∅ s)
    (marked : s.markUnavailable info = (s₁, first))
    (put : s₁.regions.put info = .ok (regions, overlaps, false)) :
    Mapping limbo ∅ { s₁ with regions := regions } := by
  have dead : regions.dead = s₁.regions.dead ++ [] := by
    rw [(KeyRegionCache.put_ok put).1, List.append_nil]
    rfl
  have marked := mapping.same (Routes.sameLists_markUnavailable marked)
  exact ((marked.doom dead).delClients .nil).1

theorem Mapping.missing {regions : KeyRegionCache T} {success : Bool} (mapping : Mapping limbo ∅ s)
    (del : s.regions.del reg = .ok (regions, success)) (ok : Careful (.leave reg) s) :
    Mapping (limbo \ {reg}) ∅ (Routes.delClient { s with regions := regions } reg) := by
  have dead : regions.dead = s.regions.dead ++ [reg] := by
    simp only [KeyRegionCache.del, bind_ok_iff] at del
    rcases del with ⟨_, _, finished⟩
    cases finished
    rfl
  exact (((mapping.settle (mapping.cached.leaves ok)).doom dead).delClients (.cons ok .nil)).1

/-- An establisher settles its region, and leaves the regions of the goroutines that it started.
The induction is on its run; while it retries, its own region is in limbo. -/
theorem Establish.mapping {special : RegionInfo} {addr : Option Bytes} {started : List RegionInfo}
    (run : Establish special Careful s reg addr s' started) (mapping : Mapping limbo ∅ s)
    (alive : addr ≠ none → s.isDead reg = false) :
    Mapping (limbo \ {reg} ∪ {other | other ∈ started}) ∅ s' := by
  induction run generalizing limbo with
  | missing _ del ok released =>
      have left := mapping.missing del ok
      exact (left.same (Routes.sameLists_markAvailable released)).mono Set.subset_union_left
  | dead dead released =>
      have settled := mapping.settle fun conn listed =>
        absurd (dead.symm.trans (mapping.alive conn _ listed nofun)) nofun
      exact (settled.same (Routes.sameLists_markAvailable released)).mono Set.subset_union_left
  | special _ living _ _ ih => exact ih mapping fun _ => living
  | same _ living _ _ ih => exact ih mapping fun _ => living
  | kept _ _ _ ok _ marked put released original =>
      have declined := (mapping.settle (mapping.cached.leaves ok)).decline marked put
      have released := declined.same (Routes.sameLists_markAvailable released)
      exact (released.same (Routes.sameLists_markAvailable original)).mono Set.subset_union_left
  | replaced _ _ _ ok fresh marked put dels original _ ih =>
      have settled := mapping.settle (mapping.cached.leaves ok)
      rcases settled.replace fresh marked put dels with ⟨replaced, young⟩
      have same := Routes.sameLists_markAvailable original
      refine (ih (replaced.same same) fun _ => (same.isDead _).trans young).mono ?_
      exact Set.union_subset_union_left _ Set.sdiff_subset
  | @established s s₁ s' reg addr conn order ok put released =>
      have wider := mapping.mono (Set.subset_union_left (t := {reg}))
      have listed := wider.putClient (.inr rfl) (alive nofun) ok put
      have set := listed.setClient ((Routes.putClient_lists put conn reg).mpr (.inr ⟨rfl, rfl⟩))
      refine (set.same (Routes.sameLists_markAvailable released)).mono ?_
      rw [Set.union_sdiff_right]
      exact Set.subset_union_left
  | @retried s s₁ s' reg addr conn order started ok put _ ih =>
      have wider := mapping.mono (Set.subset_union_left (t := {reg}))
      have listed := wider.putClient (.inr rfl) (alive nofun) ok put
      have rest := ih listed nofun
      rw [Set.union_sdiff_right] at rest
      exact rest
  | @down s s₁ s₂ s₃ s' reg addr conn order downregions others first later ok put down _ taken _
      ih =>
      have wider := mapping.mono (Set.subset_union_left (t := {reg}))
      have listed := wider.putClient (.inr rfl) (alive nofun) ok put
      refine (ih ((listed.clientDown down).takeDown taken) nofun).mono ?_
      rintro other (⟨(inside | same) | member, different⟩ | member)
      · exact .inl ⟨inside, different⟩
      · exact absurd same different
      · exact .inr (List.mem_append_left _ member)
      · exact .inr (List.mem_append_right _ member)
  | @cancelled s s₁ s' reg addr conn order ok put dead released =>
      -- the region was alive when it was put, and only the caches of regions kill it
      have same : s₁.isDead reg = s.isDead reg := by
        unfold Routes.isDead
        rw [(Routes.putClient_frame put).2.1]
      rw [dead, alive nofun] at same
      cases same

theorem Reestablish.mapping {special : RegionInfo} {pending : List RegionInfo}
    (run : Reestablish special Careful s pending s')
    (mapping : Mapping {reg | reg ∈ pending} ∅ s) : Mapping ∅ ∅ s' := by
  induction run with
  | nil => exact mapping.mono fun reg member => absurd member List.not_mem_nil
  | next first _ ih =>
      refine ih ((first.mapping mapping nofun).mono ?_)
      rintro other (⟨member, different⟩ | member)
      · rcases List.mem_append.mp member with before | member
        · exact List.mem_append_left _ (List.mem_append_left _ before)
        · rcases List.mem_cons.mp member with same | later
          · exact absurd same different
          · exact List.mem_append_left _ (List.mem_append_right _ later)
      · exact List.mem_append_right _ member

theorem Step.mapping {special : RegionInfo} (step : Step special Careful s s')
    (mapping : Mapping ∅ ∅ s) : Mapping ∅ ∅ s' := by
  cases step with
  | found _ fresh marked put dels establish rest =>
      rcases mapping.replace fresh marked put dels with ⟨replaced, alive⟩
      refine rest.mapping ((establish.mapping replaced fun _ => alive).mono ?_)
      rintro other (⟨nothing, _⟩ | member)
      · exact nothing.elim
      · exact member
  | declined _ _ marked put => exact mapping.decline marked put
  | reestablish marked rest =>
      have marked := mapping.same (Routes.sameLists_markUnavailable marked)
      exact rest.mapping (marked.mono (Set.empty_subset _))
  | clientDown down _ taken rest =>
      refine rest.mapping (((mapping.clientDown down).takeDown taken).mono ?_)
      rintro other (nothing | member)
      · exact nothing.elim
      · exact member

theorem mapping_new : Mapping ∅ ∅ (Routes.new T) := by
  have unlisted (conn : Conn) (reg : RegionInfo) : ¬(Routes.new T).Lists conn reg := by
    rintro ⟨_, stored, _⟩
    cases stored
  refine ⟨?_, ?_, ⟨?_, ?_, nofun, ?_, nofun⟩⟩
  · exact fun conn reg listed => absurd listed (unlisted conn reg)
  · exact fun conn reg listed => absurd listed (unlisted conn reg)
  · exact fun _ _ present => absurd rfl present
  · exact fun conn _ reg listed => absurd listed (unlisted conn reg)
  · exact fun _ present => absurd rfl present

theorem Reaches.mapping {special : RegionInfo} (reached : Reaches special Careful s) :
    Mapping ∅ ∅ s := by
  induction reached with
  | refl => exact mapping_new
  | tail _ step ih => exact step.mapping ih

/-- Runs in which no region is put under a second address while it is listed, and none leaves
that is listed but has no client of the cache. -/
theorem client_mapping (special : RegionInfo) (s : Routes T) (reached : Reaches special Careful s) :
    Mapped s ∧
      ∀ (conn : Conn) (reg : RegionInfo) (s₁ s₂ : Routes T) (downregions : Finset RegionInfo)
        (others started : List RegionInfo), s.clientDown conn = (s₁, downregions) →
        (others : Multiset RegionInfo) = (downregions.erase reg).val →
        s₁.takeDown (reg :: others) = (s₂, started) →
        ∀ other, other ≠ reg → s.available.lookup other = none →
          s₂.available.lookup other ≠ none → s.client other = some conn := by
  have mapped := reached.mapping.mapped
  refine ⟨mapped, ?_⟩
  intro conn reg s₁ s₂ downregions others started down visits taken other different before after
  have member : other ∈ reg :: others := by
    by_contra out
    rw [Routes.takeDown_available taken out,
      (Routes.sameChannels_clientDown down).available] at after
    exact after before
  have visited : other ∈ (others : Multiset RegionInfo) :=
    (List.mem_cons.mp member).resolve_left different
  rw [visits] at visited
  have listed : s.Lists conn other :=
    ((Routes.clientDown_lists down).2 other).mp (Finset.mem_of_mem_erase visited)
  exact (mapped conn other listed).1

theorem client_mapping_pair :
    ∃ s : Routes (reference Bytes RegionInfo compare),
      s.Lists ⟨0, [49]⟩ (sampleRegion 1 1 [] [109]) ∧
        s.Lists ⟨0, [49]⟩ (sampleRegion 2 1 [109] []) ∧ Mapped s ∧
        s.client (sampleRegion 1 1 [] [109]) = some ⟨0, [49]⟩ := by
  have answer (info : RegionInfo) (same : fullyQualifiedTable info = [116]) :
      LookupRegion ⟨.regionClient, sampleRegion 0 0 [] []⟩ [116] (.parsed info [49]) :=
    .parsed [49] ⟨rfl, by decide⟩ same
  have run : Reaches (sampleRegion 0 0 [] []) Careful
    (Routes.new (reference Bytes RegionInfo compare)) := .refl
  replace run := run.tail (.found (answer (sampleRegion 1 1 [] [109]) rfl)
    ⟨rfl, rfl, rfl, nofun⟩ rfl rfl .nil
    (.established nofun (show Routes.putClient _ (.stored _) _ _ = _ from rfl) rfl) .nil)
  replace run := run.tail (.found (answer (sampleRegion 2 1 [109] []) rfl)
    ⟨rfl, rfl, rfl, by decide⟩ rfl rfl .nil
    (.established (fun conn listed => by
        rcases listed with ⟨_, stored, _⟩
        cases List.mem_singleton.mp (AList.mem_lookup_iff.mp stored)
        rfl)
      (show Routes.putClient _ (.stored _) _ _ = _ from rfl) rfl) .nil)
  rcases client_mapping _ _ run with ⟨mapped, down⟩
  refine ⟨_, ⟨_, rfl, by decide⟩, ⟨_, rfl, by decide⟩, mapped, ?_⟩
  exact down ⟨0, [49]⟩ (sampleRegion 2 1 [109] []) _ _ _ [sampleRegion 1 1 [] [109]] _ rfl
    (by decide) rfl _ (by decide) rfl nofun

/-- A region moves from one server to another, and when the first goes down, the region is taken
from the second. A region that is not online where it was looked up, and then does not exist
anymore, is dead and stays listed. -/
theorem client_mapping_stale :
    (∃ (s s₁ s₂ : Routes (reference Bytes RegionInfo compare)) (downregions : Finset RegionInfo)
        (others started : List RegionInfo),
      Reaches (sampleRegion 0 0 [] []) (fun _ _ => True) s ∧
        s.Lists ⟨0, [49]⟩ (sampleRegion 1 1 [] [109]) ∧
        s.client (sampleRegion 1 1 [] [109]) = some ⟨1, [50]⟩ ∧
        s.client (sampleRegion 2 1 [109] []) = some ⟨0, [49]⟩ ∧
        s.clientDown ⟨0, [49]⟩ = (s₁, downregions) ∧
        (others : Multiset RegionInfo) = (downregions.erase (sampleRegion 2 1 [109] [])).val ∧
        s₁.takeDown (sampleRegion 2 1 [109] [] :: others) = (s₂, started) ∧
        s.available.lookup (sampleRegion 1 1 [] [109]) = none ∧
        s₂.available.lookup (sampleRegion 1 1 [] [109]) ≠ none) ∧
      ∃ s : Routes (reference Bytes RegionInfo compare),
        Reaches (sampleRegion 0 0 [] []) (fun _ _ => True) s ∧
          s.Lists ⟨0, [49]⟩ (sampleRegion 1 1 [] [109]) ∧
          s.client (sampleRegion 1 1 [] [109]) = none ∧
          s.isDead (sampleRegion 1 1 [] [109]) = true := by
  have ordinary : Setup.Ordinary ⟨.regionClient, sampleRegion 0 0 [] []⟩ [116] := ⟨rfl, by decide⟩
  have answer (info : RegionInfo) (addr : Bytes) (same : fullyQualifiedTable info = [116]) :
      LookupRegion ⟨.regionClient, sampleRegion 0 0 [] []⟩ [116] (.parsed info addr) :=
    .parsed addr ordinary same
  have start : Reaches (sampleRegion 0 0 [] []) (fun _ _ => True)
    (Routes.new (reference Bytes RegionInfo compare)) := .refl
  constructor
  · have run := start.tail (.found (answer (sampleRegion 1 1 [] [109]) [49] rfl)
      ⟨rfl, rfl, rfl, nofun⟩ rfl rfl .nil
      (.established trivial (show Routes.putClient _ (.stored _) _ _ = _ from rfl) rfl) .nil)
    replace run := run.tail (.found (answer (sampleRegion 2 1 [109] []) [49] rfl)
      ⟨rfl, rfl, rfl, by decide⟩ rfl rfl .nil
      (.established trivial (show Routes.putClient _ (.stored _) _ _ = _ from rfl) rfl) .nil)
    -- NotServingRegionError; the lookup finds the region under its name on the second server
    replace run := run.tail (.reestablish
      (show Routes.markUnavailable _ (sampleRegion 1 1 [] [109]) = _ from rfl)
      (@Reestablish.next _ _ _ _ _ _ (sampleRegion 1 1 [] [109]) [] [] []
        (.same (answer (sampleRegion 3 1 [] [109]) [50] rfl) rfl rfl
          (.established trivial (show Routes.putClient _ (.stored _) _ _ = _ from rfl) rfl)) .nil))
    exact ⟨_, _, _, _, [sampleRegion 1 1 [] [109]], _, run, ⟨_, rfl, by decide⟩, rfl, rfl, rfl,
      by decide, rfl, rfl, nofun⟩
  · have run := start.tail (.found (answer (sampleRegion 1 1 [] [109]) [49] rfl)
      ⟨rfl, rfl, rfl, nofun⟩ rfl rfl .nil
      (.retried trivial (show Routes.putClient _ (.stored _) _ _ = _ from rfl)
        (.missing (.tableNotFound ordinary) rfl trivial rfl)) .nil)
    exact ⟨_, run, ⟨_, rfl, by decide⟩, rfl, by decide⟩

end Routing

end GoHBase
