import GoHBase.RoutingCore

/-!
What the operations on regions and on the cache of clients do: which regions are unavailable,
which channels are open, and which regions are listed under which client.
-/

namespace GoHBase

open ByteString Runtime OrderedTree RangeLoop

variable {T : Tree Bytes RegionInfo compare}

namespace Routes

variable {s s' : Routes T} {reg : RegionInfo}

def unavailable (s : Routes T) : Multiset RegionInfo := s.available.keys

theorem mem_unavailable : reg ∈ s.unavailable ↔ ∃ ch, s.available.lookup reg = some ch := by
  rw [unavailable, Multiset.mem_coe, ← AList.mem_keys, ← AList.lookup_isSome,
    Option.isSome_iff_exists]

theorem markUnavailable_cases {first : Bool} (marked : s.markUnavailable reg = (s', first)) :
    (first = false ∧ s' = s) ∨
      (first = true ∧ s.available.lookup reg = none ∧ s'.unavailable = reg ::ₘ s.unavailable) := by
  unfold markUnavailable at marked
  cases found : s.available.lookup reg with
  | some ch =>
      rw [found] at marked
      cases marked
      exact .inl ⟨rfl, rfl⟩
  | none =>
      rw [found] at marked
      cases marked
      have absent : reg ∉ s.available := AList.lookup_eq_none.mp found
      refine .inr ⟨rfl, rfl, ?_⟩
      simp only [unavailable, AList.keys_insert,
        List.erase_of_not_mem (AList.mem_keys.not.mp absent)]
      rfl

theorem marked_again {first : Bool} (marked : s.markUnavailable reg = (s', first))
    (again : first = false) : s.available.lookup reg ≠ none := by
  intro nil
  rw [markUnavailable, nil] at marked
  cases marked
  cases again

structure SameChannels (s s' : Routes T) : Prop where
  available : s'.available = s.available
  closed : s'.closed = s.closed
  channels : s'.channels = s.channels

theorem SameChannels.refl (s : Routes T) : SameChannels s s := ⟨rfl, rfl, rfl⟩

theorem SameChannels.unavailable (same : SameChannels s s') : s'.unavailable = s.unavailable := by
  rw [Routes.unavailable, same.available]
  rfl

theorem sameChannels_delClient (s : Routes T) (reg : RegionInfo) :
    SameChannels s (s.delClient reg) := by
  unfold delClient
  split
  · exact .refl s
  · split
    · exact ⟨rfl, rfl, rfl⟩
    · exact ⟨rfl, rfl, rfl⟩

theorem putClient_cases {order : Order (Σ _ : Conn, Finset RegionInfo)} {addr : Bytes}
    {conn : Conn} (put : s.putClient order addr reg = (s', conn)) :
    (∃ regions, s.clients.lookup conn = some regions ∧ conn.addr = addr ∧
      s' = { s with clients := s.clients.insert conn (insert reg regions) }) ∨
    (conn = ⟨s.conns, addr⟩ ∧
      (∀ other regions, s.clients.lookup other = some regions → other.addr ≠ addr) ∧
      s' = { s with clients := s.clients.insert conn {reg}, conns := s.conns + 1 }) := by
  unfold putClient at put
  split at put
  · rename_i own regions found
    cases put
    have member := (order.mem_visit _ _).mp (List.mem_of_find?_eq_some found)
    refine .inl ⟨regions, AList.mem_lookup_iff.mpr member, ?_, rfl⟩
    simpa using List.find?_some found
  · rename_i found
    cases put
    refine .inr ⟨rfl, fun other regions stored equal => ?_, rfl⟩
    have visited := (order.mem_visit _ _).mpr (AList.mem_lookup_iff.mp stored)
    exact List.find?_eq_none.mp found _ visited (decide_eq_true equal)

theorem sameChannels_putClient {order : Order (Σ _ : Conn, Finset RegionInfo)} {addr : Bytes}
    {conn : Conn} (put : s.putClient order addr reg = (s', conn)) : SameChannels s s' := by
  rcases putClient_cases put with ⟨_, _, _, rfl⟩ | ⟨_, _, rfl⟩
  · exact ⟨rfl, rfl, rfl⟩
  · exact ⟨rfl, rfl, rfl⟩

theorem sameChannels_clientDown {conn : Conn} {downregions : Finset RegionInfo}
    (down : s.clientDown conn = (s', downregions)) : SameChannels s s' := by
  cases down
  exact ⟨rfl, rfl, rfl⟩

theorem markAvailable_unavailable (released : s.markAvailable reg = .ok s') :
    s.unavailable = reg ::ₘ s'.unavailable := by
  unfold markAvailable at released
  cases found : s.available.lookup reg with
  | none =>
      rw [found] at released
      cases released
  | some ch =>
      rw [found] at released
      have member := mem_unavailable.mpr ⟨ch, found⟩
      dsimp only at released
      split at released
      · cases released
      · cases released
        rw [← Multiset.cons_erase member]
        simp [unavailable]

/-- A channel is made for one region and is closed when the region gives it up. -/
structure Channels (s : Routes T) : Prop where
  opened : ∀ reg ch, s.available.lookup reg = some ch → ch < s.channels ∧ ch ∉ s.closed
  distinct : ∀ reg reg' ch, s.available.lookup reg = some ch →
    s.available.lookup reg' = some ch → reg = reg'
  past : ∀ ch ∈ s.closed, ch < s.channels

theorem Channels.same (channels : Channels s) (same : SameChannels s s') : Channels s' := by
  rcases same with ⟨available, closed, count⟩
  refine ⟨?_, ?_, ?_⟩
  · rw [available, closed, count]
    exact channels.opened
  · rw [available]
    exact channels.distinct
  · rw [closed, count]
    exact channels.past

theorem Channels.markUnavailable (channels : Channels s) {first : Bool}
    (marked : s.markUnavailable reg = (s', first)) : Channels s' := by
  unfold Routes.markUnavailable at marked
  split at marked
  · cases marked
    exact channels
  · cases marked
    have entry (reg' : RegionInfo) (ch : Nat)
        (found : (s.available.insert reg s.channels).lookup reg' = some ch) :
        reg' = reg ∧ ch = s.channels ∨ reg' ≠ reg ∧ s.available.lookup reg' = some ch := by
      by_cases same : reg' = reg
      · subst same
        rw [AList.lookup_insert] at found
        exact .inl ⟨rfl, (Option.some.inj found).symm⟩
      · rw [AList.lookup_insert_ne same] at found
        exact .inr ⟨same, found⟩
    refine ⟨?_, ?_, ?_⟩
    · intro reg' ch found
      rcases entry reg' ch found with ⟨_, rfl⟩ | ⟨_, before⟩
      · exact ⟨Nat.lt_succ_self _, fun closed => lt_irrefl _ (channels.past _ closed)⟩
      · rcases channels.opened reg' ch before with ⟨less, still⟩
        exact ⟨Nat.lt_succ_of_lt less, still⟩
    · intro left right ch first second
      rcases entry left ch first with ⟨rfl, rfl⟩ | ⟨_, one⟩
      · rcases entry right _ second with ⟨rfl, _⟩ | ⟨_, other⟩
        · rfl
        · exact absurd (channels.opened right _ other).1 (lt_irrefl _)
      · rcases entry right ch second with ⟨_, rfl⟩ | ⟨_, other⟩
        · exact absurd (channels.opened left _ one).1 (lt_irrefl _)
        · exact channels.distinct left right ch one other
    · exact fun ch closed => Nat.lt_succ_of_lt (channels.past ch closed)

theorem Channels.markAvailable (channels : Channels s) (released : s.markAvailable reg = .ok s') :
    Channels s' := by
  unfold Routes.markAvailable at released
  split at released
  · cases released
  · rename_i own found
    split at released
    · cases released
    · cases released
      have entry (reg' : RegionInfo) (ch : Nat)
          (kept : (s.available.erase reg).lookup reg' = some ch) :
          reg' ≠ reg ∧ s.available.lookup reg' = some ch := by
        by_cases same : reg' = reg
        · subst same
          rw [AList.lookup_erase] at kept
          cases kept
        · rw [AList.lookup_erase_ne same] at kept
          exact ⟨same, kept⟩
      refine ⟨?_, ?_, ?_⟩
      · intro reg' ch kept
        rcases entry reg' ch kept with ⟨other, before⟩
        rcases channels.opened reg' ch before with ⟨less, still⟩
        refine ⟨less, ?_⟩
        intro closed
        rcases List.mem_cons.mp closed with rfl | closed
        · exact other (channels.distinct reg' reg ch before found)
        · exact still closed
      · intro left right ch first second
        exact channels.distinct left right ch (entry left ch first).2 (entry right ch second).2
      · intro ch closed
        rcases List.mem_cons.mp closed with rfl | closed
        · exact (channels.opened reg ch found).1
        · exact channels.past ch closed

theorem Channels.markAvailable_ok (channels : Channels s) (member : reg ∈ s.unavailable) :
    ∃ s', s.markAvailable reg = .ok s' := by
  rcases mem_unavailable.mp member with ⟨ch, found⟩
  rw [Routes.markAvailable, found]
  dsimp only
  rw [if_neg (channels.opened reg ch found).2]
  exact ⟨_, rfl⟩

def Lists (s : Routes T) (conn : Conn) (reg : RegionInfo) : Prop :=
  ∃ regions, s.clients.lookup conn = some regions ∧ reg ∈ regions

theorem lists_insert {conn conn' : Conn} {regions : Finset RegionInfo} {reg' : RegionInfo}
    (inserted : s'.clients = s.clients.insert conn regions) :
    s'.Lists conn' reg' ↔ if conn' = conn then reg' ∈ regions else s.Lists conn' reg' := by
  unfold Lists
  rw [inserted]
  by_cases same : conn' = conn
  · subst same
    simp
  · simp [same]

theorem lists_iff {conn : Conn} {regions : Finset RegionInfo}
    (stored : s.clients.lookup conn = some regions) : s.Lists conn reg ↔ reg ∈ regions := by
  simp [Lists, stored]

theorem putClient_lists {order : Order (Σ _ : Conn, Finset RegionInfo)} {addr : Bytes}
    {conn : Conn} (put : s.putClient order addr reg = (s', conn)) (conn' : Conn)
    (reg' : RegionInfo) :
    s'.Lists conn' reg' ↔ s.Lists conn' reg' ∨ conn' = conn ∧ reg' = reg := by
  rcases putClient_cases put with ⟨regions, stored, _, rfl⟩ | ⟨rfl, fresh, rfl⟩
  · rw [lists_insert rfl]
    by_cases same : conn' = conn
    · subst same
      rw [if_pos rfl, Finset.mem_insert, lists_iff stored]
      simp only [true_and]
      exact or_comm
    · simp [same]
  · have absent : ¬s.Lists ⟨s.conns, addr⟩ reg' := by
      rintro ⟨regions, stored, _⟩
      exact fresh _ regions stored rfl
    rw [lists_insert rfl]
    by_cases same : conn' = ⟨s.conns, addr⟩
    · subst same
      simp [absent]
    · simp [same]

theorem putClient_addr {order : Order (Σ _ : Conn, Finset RegionInfo)} {addr : Bytes}
    {conn : Conn} (put : s.putClient order addr reg = (s', conn)) : conn.addr = addr := by
  rcases putClient_cases put with ⟨_, _, same, _⟩ | ⟨rfl, _, _⟩
  · exact same
  · rfl

theorem delClient_lists (conn' : Conn) (reg' : RegionInfo) :
    (s.delClient reg).Lists conn' reg' ↔
      s.Lists conn' reg' ∧ ¬(s.client reg = some conn' ∧ reg' = reg) := by
  unfold delClient
  split
  · rename_i absent
    simp [absent]
  · rename_i conn client
    split
    · rename_i missing
      have absent : ∀ reg', ¬s.Lists conn reg' := by
        rintro reg' ⟨regions, stored, _⟩
        rw [missing] at stored
        cases stored
      change s.Lists conn' reg' ↔ _
      rw [client, Option.some.injEq]
      refine ⟨fun lists => ⟨lists, ?_⟩, And.left⟩
      rintro ⟨rfl, _⟩
      exact absent reg' lists
    · rename_i regions stored
      rw [lists_insert (s := s) rfl, client, Option.some.injEq]
      by_cases same : conn' = conn
      · subst same
        rw [if_pos rfl, Finset.mem_erase, lists_iff stored]
        simp only [true_and]
        exact and_comm
      · simp [same, Ne.symm same]

theorem clientDown_lists {conn : Conn} {downregions : Finset RegionInfo}
    (down : s.clientDown conn = (s', downregions)) :
    (∀ conn' reg', s'.Lists conn' reg' ↔ s.Lists conn' reg' ∧ conn' ≠ conn) ∧
      ∀ reg', reg' ∈ downregions ↔ s.Lists conn reg' := by
  cases down
  constructor
  · intro conn' reg'
    simp only [Lists]
    by_cases same : conn' = conn
    · subst same
      simp
    · simp [AList.lookup_erase_ne same, same]
  · intro reg'
    unfold Lists
    cases stored : s.clients.lookup conn with
    | none => simp
    | some regions => simp

structure SameLists (s s' : Routes T) : Prop where
  clients : s'.clients = s.clients
  client : s'.client = s.client
  regions : s'.regions = s.regions
  conns : s'.conns = s.conns

theorem sameLists_markUnavailable {first : Bool} (marked : s.markUnavailable reg = (s', first)) :
    SameLists s s' := by
  unfold markUnavailable at marked
  split at marked
  · cases marked
    exact ⟨rfl, rfl, rfl, rfl⟩
  · cases marked
    exact ⟨rfl, rfl, rfl, rfl⟩

theorem sameLists_markAvailable (released : s.markAvailable reg = .ok s') : SameLists s s' := by
  unfold markAvailable at released
  split at released
  · cases released
  · split at released
    · cases released
    · cases released
      exact ⟨rfl, rfl, rfl, rfl⟩

theorem SameLists.isDead (same : SameLists s s') (reg : RegionInfo) :
    s'.isDead reg = s.isDead reg := by
  unfold Routes.isDead
  rw [same.regions]

theorem lists_present {conn : Conn} (listed : s.Lists conn reg) : s.clients.lookup conn ≠ none := by
  rcases listed with ⟨regions, stored, _⟩
  rw [stored]
  nofun

theorem delClient_client (other : RegionInfo) :
    (s.delClient reg).client other = if other = reg then none else s.client other := by
  unfold delClient
  split
  · rename_i nil
    by_cases same : other = reg
    · subst same
      rw [if_pos rfl, nil]
    · rw [if_neg same]
  · split
    · exact Function.update_apply ..
    · exact Function.update_apply ..

theorem delClient_frame :
    (s.delClient reg).regions = s.regions ∧ (s.delClient reg).conns = s.conns := by
  unfold delClient
  split
  · exact ⟨rfl, rfl⟩
  · split
    · exact ⟨rfl, rfl⟩
    · exact ⟨rfl, rfl⟩

theorem delClient_keys {conn : Conn} (present : (s.delClient reg).clients.lookup conn ≠ none) :
    s.clients.lookup conn ≠ none := by
  unfold delClient at present
  split at present
  · exact present
  · rename_i own _
    split at present
    · exact present
    · rename_i regions stored
      by_cases same : conn = own
      · subst same
        rw [stored]
        nofun
      · change (s.clients.insert own _).lookup conn ≠ none at present
        rw [AList.lookup_insert_ne same] at present
        exact present

theorem putClient_frame {order : Order (Σ _ : Conn, Finset RegionInfo)} {addr : Bytes}
    {conn : Conn} (put : s.putClient order addr reg = (s', conn)) :
    s'.client = s.client ∧ s'.regions = s.regions ∧ s.conns ≤ s'.conns := by
  rcases putClient_cases put with ⟨_, _, _, rfl⟩ | ⟨_, _, rfl⟩
  · exact ⟨rfl, rfl, le_refl _⟩
  · exact ⟨rfl, rfl, Nat.le_succ _⟩

theorem putClient_keys {order : Order (Σ _ : Conn, Finset RegionInfo)} {addr : Bytes} {conn : Conn}
    (put : s.putClient order addr reg = (s', conn)) {conn' : Conn}
    (present : s'.clients.lookup conn' ≠ none) :
    s.clients.lookup conn' ≠ none ∨
      conn' = conn ∧ conn.ref = s.conns ∧ s'.conns = s.conns + 1 ∧
        ∀ other, s.clients.lookup other ≠ none → other.addr ≠ conn.addr := by
  rcases putClient_cases put with ⟨regions, stored, _, rfl⟩ | ⟨rfl, fresh, rfl⟩
  · by_cases same : conn' = conn
    · subst same
      rw [stored]
      exact .inl (Option.some_ne_none regions)
    · change (s.clients.insert conn _).lookup conn' ≠ none at present
      rw [AList.lookup_insert_ne same] at present
      exact .inl present
  · by_cases same : conn' = ⟨s.conns, addr⟩
    · refine .inr ⟨same, rfl, rfl, fun other stored => ?_⟩
      rcases Option.ne_none_iff_exists'.mp stored with ⟨regions, stored⟩
      exact fresh other regions stored
    · change (s.clients.insert _ _).lookup conn' ≠ none at present
      rw [AList.lookup_insert_ne same] at present
      exact .inl present

theorem takeDown_cons {regs started : List RegionInfo}
    (taken : s.takeDown (reg :: regs) = (s', started)) :
    (∃ s₁, s.markUnavailable reg = (s₁, false) ∧ s₁.takeDown regs = (s', started)) ∨
      ∃ s₁ later, s.markUnavailable reg = (s₁, true) ∧
        (s₁.setClient reg none).takeDown regs = (s', later) ∧ started = reg :: later := by
  rw [takeDown] at taken
  rcases marked : s.markUnavailable reg with ⟨s₁, first⟩
  rw [marked] at taken
  cases first with
  | false => exact .inl ⟨s₁, rfl, taken⟩
  | true =>
      cases taken
      exact .inr ⟨s₁, _, rfl, rfl, rfl⟩

theorem takeDown_available {regs started : List RegionInfo} {other : RegionInfo}
    (taken : s.takeDown regs = (s', started)) (out : other ∉ regs) :
    s'.available.lookup other = s.available.lookup other := by
  induction regs generalizing s s' started with
  | nil =>
      cases taken
      rfl
  | cons reg regs ih =>
      rcases not_or.mp (List.mem_cons.not.mp out) with ⟨different, out⟩
      have same {s₁ : Routes T} {first : Bool} (marked : s.markUnavailable reg = (s₁, first)) :
          s₁.available.lookup other = s.available.lookup other := by
        unfold markUnavailable at marked
        split at marked
        · cases marked
          rfl
        · cases marked
          exact AList.lookup_insert_ne different
      rcases takeDown_cons taken with ⟨s₁, marked, rest⟩ | ⟨s₁, later, marked, rest, _⟩
      · exact (ih rest out).trans (same marked)
      · have before := same marked
        exact (ih rest out).trans before

end Routes

end GoHBase
