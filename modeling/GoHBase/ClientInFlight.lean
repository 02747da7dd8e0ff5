import GoHBase.Lib.Interleaving

/-!
The count of requests in flight and the read deadline of the connection: senders
write and count up, the reader reads and counts down, and nothing fails.
-/

namespace GoHBase.InFlight

open Interleaving

/-- A request by its place among all that were registered, with its call ID. -/
structure Request where
  number : Nat
  id : UInt32
  deriving DecidableEq, Repr

/-- The fields of the client that count. Below them are the requests on the wire whose response
was not read, and how often `registerRPC` and the two functions have run. -/
structure Shared where
  inFlight : UInt32
  readDeadline : Bool
  sent : Finset UInt32
  id : UInt32
  unanswered : Multiset Request
  registered : Nat
  ups : Nat
  downs : Nat

inductive Thread
  | send
  | write (r : Request)
  | inFlightUp (r : Request)
  | sent
  | receive
  | unregister (r : Request)
  | inFlightDown (r : Request)
  deriving DecidableEq, Repr

namespace Shared

def next (sh : Shared) : Request := ⟨sh.registered, sh.id + 1⟩

def registerRPC (sh : Shared) : Shared :=
  { sh with
    id := sh.id + 1
    sent := insert (sh.id + 1) sh.sent
    registered := sh.registered + 1 }

def write (sh : Shared) (r : Request) : Shared :=
  { sh with unanswered := r ::ₘ sh.unanswered }

def inFlightUp (sh : Shared) : Shared :=
  { sh with inFlight := sh.inFlight + 1, readDeadline := true, ups := sh.ups + 1 }

def read (sh : Shared) (r : Request) : Shared :=
  { sh with unanswered := sh.unanswered.erase r }

def unregisterRPC (sh : Shared) (id : UInt32) : Shared :=
  { sh with sent := sh.sent.erase id }

def inFlightDown (sh : Shared) : Shared :=
  { sh with
    inFlight := sh.inFlight - 1
    readDeadline := if sh.inFlight - 1 = 0 then false else sh.readDeadline
    downs := sh.downs + 1 }

end Shared

inductive Event
  | inFlightUp (r : Request)
  | inFlightDown (r : Request)
  | other
  deriving DecidableEq, Repr

inductive Alone : Shared → Thread → Event → Shared → Thread → Prop
  | registerRPC {sh : Shared} : Alone sh .send .other sh.registerRPC (.write sh.next)
  | write {sh : Shared} {r : Request} :
      Alone sh (.write r) .other (sh.write r) (.inFlightUp r)
  | inFlightUp {sh : Shared} {r : Request} :
      Alone sh (.inFlightUp r) (.inFlightUp r) sh.inFlightUp .sent
  | read {sh : Shared} {r : Request} (written : r ∈ sh.unanswered) :
      Alone sh .receive .other (sh.read r) (.unregister r)
  | unregisterRPC {sh : Shared} {r : Request} (found : r.id ∈ sh.sent) :
      Alone sh (.unregister r) .other (sh.unregisterRPC r.id) (.inFlightDown r)
  | inFlightDown {sh : Shared} {r : Request} :
      Alone sh (.inFlightDown r) (.inFlightDown r) sh.inFlightDown .receive

inductive Spawn : Shared → Event → Shared → Thread → Prop
  | send {sh : Shared} : Spawn sh .other sh .send

def connection : System Shared Thread Event where
  alone := Alone
  meet _ _ _ _ _ _ _ := False
  spawn := Spawn
  outside _ _ _ := False

def dialed : Config Shared Thread where
  shared := ⟨0, false, ∅, 0, 0, 0, 0, 0⟩
  threads := {.receive}

def Thread.uncounted : Thread → Multiset Request
  | .inFlightUp r => {r}
  | _ => 0

def Thread.reading : Thread → Multiset Request
  | .unregister r => {r}
  | .inFlightDown r => {r}
  | _ => 0

def uncounted (c : Config Shared Thread) : Multiset Request := c.threads.bind Thread.uncounted

def reading (c : Config Shared Thread) : Multiset Request := c.threads.bind Thread.reading

def pending (c : Config Shared Thread) : Multiset Request := c.shared.unanswered + reading c

/-- The reader counts a request down only after its own sender has counted it up, and a sender
counts up while fewer than 2^32 requests are pending. -/
def InTurn (c : Config Shared Thread) (e : Event) : Prop :=
  (∀ r, e = .inFlightDown r → Thread.inFlightUp r ∉ c.threads) ∧
    ∀ r, e = .inFlightUp r → (pending c).card < 2 ^ 32

structure Tally where
  ups : Nat
  downs : Nat
  uncounted : Multiset Request
  pending : Multiset Request

def tally (c : Config Shared Thread) : Tally where
  ups := c.shared.ups
  downs := c.shared.downs
  uncounted := uncounted c
  pending := pending c

namespace Tally

inductive Step : Tally → Event → Tally → Prop
  | write {ups downs : Nat} {u p : Multiset Request} (r : Request) :
      Step ⟨ups, downs, u, p⟩ .other ⟨ups, downs, r ::ₘ u, r ::ₘ p⟩
  | inFlightUp {ups downs : Nat} {u p : Multiset Request} (r : Request) :
      Step ⟨ups, downs, r ::ₘ u, p⟩ (.inFlightUp r) ⟨ups + 1, downs, u, p⟩
  | inFlightDown {ups downs : Nat} {u p : Multiset Request} (r : Request) :
      Step ⟨ups, downs, u, r ::ₘ p⟩ (.inFlightDown r) ⟨ups, downs + 1, u, p⟩
  | other {t : Tally} : Step t .other t

/-- Every request was written once, counted or not, and is pending or was counted down. One that
is not counted is pending. -/
structure Balanced (t : Tally) : Prop where
  balance : t.ups + t.uncounted.card = t.downs + t.pending.card
  within : t.uncounted ≤ t.pending

variable {t t' : Tally} {e : Event}

theorem Balanced.kept (step : Step t e t') (turn : ∀ r, e = .inFlightDown r → r ∉ t.uncounted)
    (balanced : Balanced t) : Balanced t' := by
  rcases balanced with ⟨balance, within⟩
  cases step with
  | write r =>
      refine ⟨?_, Multiset.cons_le_cons r within⟩
      simp only [Multiset.card_cons] at balance ⊢
      omega
  | inFlightUp r =>
      refine ⟨?_, (Multiset.le_cons_self _ r).trans within⟩
      simp only [Multiset.card_cons] at balance ⊢
      omega
  | inFlightDown r =>
      refine ⟨?_, (Multiset.le_cons_of_notMem (turn r rfl)).mp within⟩
      simp only [Multiset.card_cons] at balance ⊢
      omega
  | other => exact ⟨balance, within⟩

theorem Balanced.downs_lt (balanced : Balanced t) {r : Request} (pends : r ∈ t.pending)
    (counted : r ∉ t.uncounted) : t.downs < t.ups := by
  obtain ⟨others, split⟩ := Multiset.exists_cons_of_mem pends
  have within := balanced.within
  have balance := balanced.balance
  rw [split] at within balance
  have fewer := Multiset.card_le_card ((Multiset.le_cons_of_notMem counted).mp within)
  rw [Multiset.card_cons] at balance
  omega

end Tally

variable {c c' : Config Shared Thread} {e : Event}

theorem tally_cons (sh : Shared) (t : Thread) (rest : Multiset Thread) :
    tally ⟨sh, t ::ₘ rest⟩ = ⟨sh.ups, sh.downs, t.uncounted + rest.bind Thread.uncounted,
      sh.unanswered + (t.reading + rest.bind Thread.reading)⟩ := by
  simp [tally, uncounted, pending, reading]

theorem tally_step (step : connection.Step c e c') : Tally.Step (tally c) e (tally c') := by
  cases step with
  | alone rest taken =>
      cases taken with
      | registerRPC =>
          simp only [tally_cons, Thread.uncounted, Thread.reading, Shared.registerRPC]
          exact .other
      | write =>
          simp only [tally_cons, Thread.uncounted, Thread.reading, Shared.write, zero_add,
            Multiset.singleton_add, Multiset.cons_add]
          exact .write _
      | inFlightUp =>
          simp only [tally_cons, Thread.uncounted, Thread.reading, Shared.inFlightUp, zero_add,
            Multiset.singleton_add]
          exact .inFlightUp _
      | read written =>
          simp only [tally_cons, Thread.uncounted, Thread.reading, Shared.read, zero_add,
            Multiset.singleton_add, Multiset.add_cons]
          rw [← Multiset.cons_add, Multiset.cons_erase written]
          exact .other
      | unregisterRPC found =>
          simp only [tally_cons, Thread.uncounted, Thread.reading, Shared.unregisterRPC]
          exact .other
      | inFlightDown =>
          simp only [tally_cons, Thread.uncounted, Thread.reading, Shared.inFlightDown, zero_add,
            Multiset.singleton_add, Multiset.add_cons]
          exact .inFlightDown _
  | meet rest taken => cases taken
  | spawn rest taken =>
      cases taken
      rw [tally_cons]
      simp only [Thread.uncounted, Thread.reading, zero_add]
      exact .other
  | outside rest taken => cases taken

theorem mem_uncounted {r : Request} : r ∈ uncounted c ↔ Thread.inFlightUp r ∈ c.threads := by
  rw [uncounted, Multiset.mem_bind]
  constructor
  · rintro ⟨t, member, has⟩
    cases t with
    | inFlightUp r' =>
        rw [Thread.uncounted, Multiset.mem_singleton] at has
        exact has ▸ member
    | _ => exact absurd has (Multiset.notMem_zero r)
  · intro member
    exact ⟨_, member, Multiset.mem_singleton_self r⟩

structure Exact (sh : Shared) : Prop where
  covered : sh.downs ≤ sh.ups
  counted : sh.inFlight.toNat + sh.downs = sh.ups
  armed : sh.readDeadline = true ↔ 0 < sh.inFlight.toNat

theorem Exact.inFlightUp {sh : Shared} (exact : Exact sh) (room : sh.ups + 1 < sh.downs + 2 ^ 32) :
    Exact sh.inFlightUp := by
  rcases exact with ⟨covered, counted, armed⟩
  have more : (sh.inFlight + 1).toNat = sh.inFlight.toNat + 1 := by
    rw [UInt32.toNat_add]
    simp only [UInt32.toNat_one]
    omega
  refine ⟨?_, ?_, ?_⟩
  · simp only [Shared.inFlightUp]
    omega
  · simp only [Shared.inFlightUp, more]
    omega
  · simp only [Shared.inFlightUp, more]
    simp

theorem Exact.inFlightDown {sh : Shared} (exact : Exact sh) (counts : sh.downs < sh.ups) :
    Exact sh.inFlightDown := by
  rcases exact with ⟨covered, counted, armed⟩
  have positive : 0 < sh.inFlight.toNat := by omega
  have less : (sh.inFlight - 1).toNat = sh.inFlight.toNat - 1 :=
    UInt32.toNat_sub_of_le _ _ (UInt32.le_iff_toNat_le.mpr positive)
  have zero : sh.inFlight - 1 = 0 ↔ sh.inFlight.toNat - 1 = 0 := by
    rw [← UInt32.toNat_inj, less]
    rfl
  refine ⟨?_, ?_, ?_⟩
  · simp only [Shared.inFlightDown]
    omega
  · simp only [Shared.inFlightDown, less]
    omega
  · simp only [Shared.inFlightDown, less]
    by_cases last : sh.inFlight - 1 = 0
    · rw [if_pos last]
      simp [zero.mp last]
    · have others := mt zero.mpr last
      rw [if_neg last, armed]
      omega

theorem Exact.kept (step : connection.Step c e c') (turn : InTurn c e)
    (balanced : (tally c).Balanced) (exact : Exact c.shared) : Exact c'.shared := by
  rcases turn with ⟨own, few⟩
  have balance := balanced.balance
  simp only [tally] at balance
  cases step with
  | alone rest taken =>
      cases taken with
      | inFlightUp =>
          have bound := few _ rfl
          refine exact.inFlightUp ?_
          dsimp only
          simp only [uncounted, Multiset.cons_bind, Thread.uncounted, Multiset.card_add,
            Multiset.card_singleton] at balance
          omega
      | inFlightDown =>
          rename_i r
          refine exact.inFlightDown (balanced.downs_lt (r := r) ?_ ?_)
          · simp [tally, pending, reading, Thread.reading]
          · exact mt mem_uncounted.mp (own r rfl)
      | _ => exact ⟨exact.covered, exact.counted, exact.armed⟩
  | meet rest taken => cases taken
  | spawn rest taken =>
      cases taken
      exact exact
  | outside rest taken => cases taken

theorem exact_of_run (run : connection.Run InTurn dialed c) :
    (tally c).Balanced ∧ Exact c.shared := by
  refine run.invariant (fun c => (tally c).Balanced ∧ Exact c.shared) ?_ ?_
  · refine ⟨⟨rfl, le_rfl⟩, le_rfl, rfl, by decide⟩
  · rintro c e c' step turn ⟨balanced, exact⟩
    refine ⟨balanced.kept (tally_step step) fun r down => ?_, exact.kept step turn balanced⟩
    exact mt mem_uncounted.mp (turn.1 r down)

/-- In every run in which no request is counted down before its own sender has counted it up, the
counter is the difference of the counts. Where no sender and no reader is between its two steps it
is the number of requests without a response, and the deadline is set exactly while there are
any. -/
theorem inFlight_exact (c : Config Shared Thread) (run : connection.Run InTurn dialed c) :
    (c.shared.downs ≤ c.shared.ups ∧ c.shared.inFlight.toNat = c.shared.ups - c.shared.downs) ∧
    ((∀ t ∈ c.threads, t.uncounted = 0 ∧ t.reading = 0) →
      c.shared.inFlight.toNat = c.shared.unanswered.card ∧
      (c.shared.readDeadline = true ↔ 0 < c.shared.unanswered.card)) := by
  rcases exact_of_run run with ⟨balanced, covered, counted, armed⟩
  refine ⟨⟨covered, by omega⟩, ?_⟩
  intro between
  have senders : uncounted c = 0 := by
    rw [uncounted, Multiset.bind_congr fun t member => (between t member).1, Multiset.bind_zero]
  have readers : reading c = 0 := by
    rw [reading, Multiset.bind_congr fun t member => (between t member).2, Multiset.bind_zero]
  have balance := balanced.balance
  simp only [tally, pending, senders, readers, add_zero, Multiset.card_zero] at balance
  have same : c.shared.inFlight.toNat = c.shared.unanswered.card := by omega
  exact ⟨same, by rw [armed, same]⟩

def waiting : Config Shared Thread where
  shared := ⟨1, true, {1}, 1, {⟨0, 1⟩}, 1, 1, 0⟩
  threads := .sent ::ₘ .receive ::ₘ 0

theorem waiting_run : connection.Run InTurn dialed waiting := by
  have run : connection.Run InTurn dialed ⟨dialed.shared, ([.receive] : List Thread)⟩ := .refl
  have free : ∀ c, InTurn c .other := fun c => ⟨nofun, nofun⟩
  replace run := run.starts .send (free _)
  replace run := run.moves 0 rfl .registerRPC (free _)
  replace run := run.moves 0 rfl .write (free _)
  refine run.moves 0 rfl .inFlightUp ⟨nofun, ?_⟩
  intro r _
  decide

theorem inFlight_exact_waiting :
    waiting.shared.inFlight.toNat = waiting.shared.unanswered.card ∧
      (waiting.shared.readDeadline = true ↔ 0 < waiting.shared.unanswered.card) :=
  (inFlight_exact waiting waiting_run).2 (by decide)

-- The response has been read and counted before the request was.
def early : Config Shared Thread where
  shared := ⟨4294967295, false, ∅, 1, 0, 1, 0, 1⟩
  threads := .inFlightUp ⟨0, 1⟩ ::ₘ .receive ::ₘ 0

-- The sender has counted as well, and the connection is idle.
def idle : Config Shared Thread where
  shared := ⟨0, true, ∅, 1, 0, 1, 1, 1⟩
  threads := .sent ::ₘ .receive ::ₘ 0

theorem early_run : connection.Run (fun _ _ => True) dialed early := by
  have run : connection.Run (fun _ _ => True) dialed
      ⟨dialed.shared, ([.receive] : List Thread)⟩ := .refl
  replace run := run.starts .send trivial
  replace run := run.moves 0 rfl .registerRPC trivial
  replace run := run.moves 0 rfl .write trivial
  have written : ⟨0, 1⟩ ∈ (dialed.shared.registerRPC.write dialed.shared.next).unanswered := by
    decide
  replace run := run.moves 1 rfl (.read written) trivial
  replace run := run.moves 1 rfl (.unregisterRPC (by decide)) trivial
  exact run.moves 1 rfl .inFlightDown trivial

/-- The counter wraps below zero, and an idle connection is left with a deadline. -/
theorem inFlight_wraps :
    (connection.Run (fun _ _ => True) dialed early ∧ early.shared.ups < early.shared.downs ∧
      early.shared.inFlight.toNat = 2 ^ 32 - 1) ∧
    (connection.Run (fun _ _ => True) dialed idle ∧
      (∀ t ∈ idle.threads, t.uncounted = 0 ∧ t.reading = 0) ∧
      idle.shared.unanswered.card = 0 ∧ idle.shared.readDeadline = true) := by
  refine ⟨⟨early_run, by decide, by decide⟩, ?_, by decide, rfl, rfl⟩
  exact early_run.step (.alone _ .inFlightUp) trivial

end GoHBase.InFlight
