import GoHBase.CacheCore
import GoHBase.ClientCore

/-!
The start and the end of a connection. Any number of goroutines call `Dial` and `Close` on one
client, and those that got it dialed send on it.
-/

namespace GoHBase.Dialing

open Interleaving
open RegionClient (Once)

inductive Conn
  | unset
  | opened
  | closed
  deriving DecidableEq, Repr

/-- What was written to the connection; a write that fails may leave a part. -/
inductive Packet
  | hello (whole : Bool)
  | frame (whole : Bool)
  deriving DecidableEq, Repr

inductive Stage
  | once
  | connect
  | setWriteDeadline
  | sendHello
  | resetWriteDeadline
  | processRPCs
  | receiveRPCs
  | leave
  | answer
  deriving DecidableEq, Repr

inductive FailStage
  | call
  | closeDone
  | closeConn
  | leave
  deriving DecidableEq, Repr

inductive Thread
  | dial (stage : Stage)
  | fail (stage : FailStage) (dialing : Bool)
  | send
  | finished
  deriving DecidableEq, Repr

/-- Where a goroutine goes on after `fail`: the one that dials leaves the body of `dialOnce`. -/
def afterFail (dialing : Bool) : Thread := if dialing then .dial .leave else .finished

/-- The last three fields are the history: how often `Dial` returned nil and `ErrClientClosed`,
and whether `fail` found no connection to close. -/
structure Shared where
  dialOnce : Once
  failOnce : Once
  done : Bool
  conn : Conn
  written : List Packet
  processing : Nat
  receiving : Nat
  dialed : Nat
  refused : Nat
  missed : Bool

variable (ctype : ClientType)

/-- A connection that is closed fails every call on it; one that is open may fail too. -/
inductive Alone : Shared → Thread → Unit → Shared → Thread → Prop
  | dial_first {sh : Shared} (idle : sh.dialOnce = .idle) :
      Alone sh (.dial .once) () { sh with dialOnce := .running } (.dial .connect)
  | dial_again {sh : Shared} (past : sh.dialOnce = .finished) :
      Alone sh (.dial .once) () sh (.dial .answer)
  | connected {sh : Shared} (deadline : Bool) :
      Alone sh (.dial .connect) () { sh with conn := .opened }
        (.dial (if deadline then .setWriteDeadline else .sendHello))
  | unreachable {sh : Shared} : Alone sh (.dial .connect) () sh (.fail .call true)
  | setWriteDeadline {sh : Shared} (opened : sh.conn = .opened) :
      Alone sh (.dial .setWriteDeadline) () sh (.dial .sendHello)
  | setWriteDeadline_failed {sh : Shared} :
      Alone sh (.dial .setWriteDeadline) () sh (.fail .call true)
  | sendHello {sh : Shared} (opened : sh.conn = .opened) :
      Alone sh (.dial .sendHello) () { sh with written := sh.written ++ [.hello true] }
        (.dial .resetWriteDeadline)
  | sendHello_unmarshalled {sh : Shared} : Alone sh (.dial .sendHello) () sh (.fail .call true)
  | sendHello_failed {sh : Shared} :
      Alone sh (.dial .sendHello) () { sh with written := sh.written ++ [.hello false] }
        (.fail .call true)
  | resetWriteDeadline {sh : Shared} (opened : sh.conn = .opened) :
      Alone sh (.dial .resetWriteDeadline) () sh (.dial .processRPCs)
  | resetWriteDeadline_failed {sh : Shared} :
      Alone sh (.dial .resetWriteDeadline) () sh (.fail .call true)
  | processRPCs {sh : Shared} :
      Alone sh (.dial .processRPCs) ()
        { sh with
          processing := if ctype = .regionClient then sh.processing + 1 else sh.processing }
        (.dial .receiveRPCs)
  | receiveRPCs {sh : Shared} :
      Alone sh (.dial .receiveRPCs) () { sh with receiving := sh.receiving + 1 } (.dial .leave)
  | dial_leave {sh : Shared} :
      Alone sh (.dial .leave) () { sh with dialOnce := .finished } (.dial .answer)
  | dial_closed {sh : Shared} (closed : sh.done = true) :
      Alone sh (.dial .answer) () { sh with refused := sh.refused + 1 } .finished
  | dial_open {sh : Shared} (alive : sh.done = false) :
      Alone sh (.dial .answer) () { sh with dialed := sh.dialed + 1 } .finished
  | fail_first {sh : Shared} {dialing : Bool} (idle : sh.failOnce = .idle) :
      Alone sh (.fail .call dialing) () { sh with failOnce := .running } (.fail .closeDone dialing)
  | fail_again {sh : Shared} {dialing : Bool} (past : sh.failOnce = .finished) :
      Alone sh (.fail .call dialing) () sh (afterFail dialing)
  | closeDone {sh : Shared} {dialing : Bool} :
      Alone sh (.fail .closeDone dialing) () { sh with done := true } (.fail .closeConn dialing)
  | closeConn {sh : Shared} {dialing : Bool} (present : sh.conn ≠ .unset) :
      Alone sh (.fail .closeConn dialing) () { sh with conn := .closed } (.fail .leave dialing)
  | closeConn_missing {sh : Shared} {dialing : Bool} (missing : sh.conn = .unset) :
      Alone sh (.fail .closeConn dialing) () { sh with missed := true } (.fail .leave dialing)
  | fail_leave {sh : Shared} {dialing : Bool} :
      Alone sh (.fail .leave dialing) () { sh with failOnce := .finished } (afterFail dialing)
  | send {sh : Shared} (opened : sh.conn = .opened) :
      Alone sh .send () { sh with written := sh.written ++ [.frame true] } .finished
  | send_failed {sh : Shared} :
      Alone sh .send () { sh with written := sh.written ++ [.frame false] } (.fail .call false)

/-- Only who got nil from `Dial` sends. `Close`, and the goroutines of the client, call `fail`. -/
inductive Spawn : Shared → Unit → Shared → Thread → Prop
  | dial {sh : Shared} : Spawn sh () sh (.dial .once)
  | close {sh : Shared} : Spawn sh () sh (.fail .call false)
  | send {sh : Shared} (dialed : 0 < sh.dialed) : Spawn sh () sh .send

def connection : System Shared Thread Unit where
  alone := Alone ctype
  meet := fun _ _ _ _ _ _ _ => False
  spawn := Spawn
  outside := fun _ _ _ => False

def newClient : Config Shared Thread where
  shared := {
    dialOnce := .idle
    failOnce := .idle
    done := false
    conn := .unset
    written := []
    processing := 0
    receiving := 0
    dialed := 0
    refused := 0
    missed := false }
  threads := 0

/-! ## Who is inside the bodies of the two `Do` -/

def Thread.dialing : Thread → Bool
  | .dial .once => false
  | .dial .answer => false
  | .dial _ => true
  | .fail _ dialing => dialing
  | _ => false

def Thread.failing : Thread → Bool
  | .fail .call _ => false
  | .fail _ _ => true
  | _ => false

def Greeted (written : List Packet) : Prop :=
  ∃ frames : List Bool, written = .hello true :: frames.map .frame

def workers : Nat := if ctype = .regionClient then 1 else 0

def Started (sh : Shared) : Prop :=
  sh.conn ≠ .unset ∧ Greeted sh.written ∧ sh.processing = workers ctype ∧ sh.receiving = 1

def Unstarted (sh : Shared) : Prop :=
  (sh.written = [] ∨ ∃ whole, sh.written = [.hello whole]) ∧ sh.processing = 0 ∧ sh.receiving = 0

def FailPhase (sh : Shared) : FailStage → Prop
  | .call => True
  | .closeDone => sh.missed = false ∧ sh.conn ≠ .closed
  | .closeConn => sh.done = true ∧ sh.missed = false ∧ sh.conn ≠ .closed
  | .leave => sh.done = true ∧ (sh.missed = true ∨ sh.conn = .closed)

def Phase (sh : Shared) : Thread → Prop
  | .dial .connect => sh.conn = .unset ∧ sh.written = [] ∧ Unstarted sh
  | .dial .setWriteDeadline => sh.conn ≠ .unset ∧ sh.written = [] ∧ Unstarted sh
  | .dial .sendHello => sh.conn ≠ .unset ∧ sh.written = [] ∧ Unstarted sh
  | .dial .resetWriteDeadline => sh.conn ≠ .unset ∧ sh.written = [.hello true] ∧ Unstarted sh
  | .dial .processRPCs => sh.conn ≠ .unset ∧ sh.written = [.hello true] ∧ Unstarted sh
  | .dial .receiveRPCs =>
      sh.conn ≠ .unset ∧ sh.written = [.hello true] ∧ sh.processing = workers ctype ∧
        sh.receiving = 0
  | .dial .leave => Started ctype sh ∨ (sh.done = true ∧ Unstarted sh)
  | .dial .answer => sh.dialOnce = .finished
  | .fail stage dialing => (dialing = true → Unstarted sh) ∧ FailPhase sh stage
  | .send => 0 < sh.dialed
  | _ => True

structure Sound (sh : Shared) : Prop where
  fresh : sh.dialOnce = .idle → sh.conn = .unset ∧ sh.written = [] ∧ Unstarted sh
  settled : sh.dialOnce = .finished → Started ctype sh ∨ (sh.done = true ∧ Unstarted sh)
  dialed : 0 < sh.dialed → sh.dialOnce = .finished ∧ Started ctype sh
  refused : 0 < sh.refused → sh.done = true
  unfailed : sh.failOnce = .idle → sh.done = false ∧ sh.missed = false ∧ sh.conn ≠ .closed
  failed : sh.failOnce = .finished → sh.done = true ∧ (sh.missed = true ∨ sh.conn = .closed)
  missed : sh.missed = true → sh.done = true ∧ sh.conn ≠ .closed

structure Inv (c : Config Shared Thread) : Prop where
  dialers : c.threads.bind (fun t => mark t.dialing) =
    mark (decide (c.shared.dialOnce = .running))
  failers : c.threads.bind (fun t => mark t.failing) =
    mark (decide (c.shared.failOnce = .running))
  phases : ∀ t ∈ c.threads, Phase ctype c.shared t
  sound : Sound ctype c.shared

section Steps

variable {ctype} {sh sh' : Shared} {t t' : Thread}

structure Undialed (sh sh' : Shared) : Prop where
  conn : sh'.conn = .unset ↔ sh.conn = .unset
  written : sh'.written = sh.written
  processing : sh'.processing = sh.processing
  receiving : sh'.receiving = sh.receiving

theorem Alone.undialed (taken : Alone ctype sh t () sh' t') (outside : t.dialing = false)
    (silent : t ≠ .send) : Undialed sh sh' := by
  cases taken with
  | closeConn present => exact ⟨by simp [present], rfl, rfl, rfl⟩
  | send => exact absurd rfl silent
  | send_failed => exact absurd rfl silent
  | dial_first => exact ⟨.rfl, rfl, rfl, rfl⟩
  | dial_again => exact ⟨.rfl, rfl, rfl, rfl⟩
  | dial_closed => exact ⟨.rfl, rfl, rfl, rfl⟩
  | dial_open => exact ⟨.rfl, rfl, rfl, rfl⟩
  | fail_first => exact ⟨.rfl, rfl, rfl, rfl⟩
  | fail_again => exact ⟨.rfl, rfl, rfl, rfl⟩
  | closeDone => exact ⟨.rfl, rfl, rfl, rfl⟩
  | closeConn_missing => exact ⟨.rfl, rfl, rfl, rfl⟩
  | fail_leave => exact ⟨.rfl, rfl, rfl, rfl⟩
  | _ => cases outside

structure Unfailed (sh sh' : Shared) : Prop where
  done : sh'.done = sh.done
  missed : sh'.missed = sh.missed
  conn : sh'.conn = .closed ↔ sh.conn = .closed

theorem Alone.unfailed (taken : Alone ctype sh t () sh' t') (phase : Phase ctype sh t)
    (outside : t.failing = false) : Unfailed sh sh' := by
  cases taken with
  | connected deadline => exact ⟨rfl, rfl, by simp [phase.1]⟩
  | closeDone => cases outside
  | closeConn => cases outside
  | closeConn_missing => cases outside
  | fail_leave => cases outside
  | _ => exact ⟨rfl, rfl, .rfl⟩

structure Grows (sh sh' : Shared) : Prop where
  done : sh.done = true → sh'.done = true
  dialed : sh.dialed ≤ sh'.dialed
  finished : sh.dialOnce = .finished → sh'.dialOnce = .finished

theorem Alone.grows (taken : Alone ctype sh t () sh' t') : Grows sh sh' := by
  cases taken with
  | dial_first idle => exact ⟨id, Nat.le_refl _, fun past => by simp [idle] at past⟩
  | dial_leave => exact ⟨id, Nat.le_refl _, fun _ => rfl⟩
  | dial_open => exact ⟨id, Nat.le_succ _, id⟩
  | closeDone => exact ⟨fun _ => rfl, Nat.le_refl _, id⟩
  | _ => exact ⟨id, Nat.le_refl _, id⟩

theorem Undialed.unstarted (same : Undialed sh sh') (before : Unstarted sh) : Unstarted sh' := by
  unfold Unstarted at *
  rw [same.written, same.processing, same.receiving]
  exact before

theorem Undialed.started (same : Undialed sh sh') (before : Started ctype sh) :
    Started ctype sh' := by
  unfold Started at *
  rw [Ne, same.conn, same.written, same.processing, same.receiving]
  exact before

theorem Unfailed.failPhase (same : Unfailed sh sh') {stage : FailStage}
    (before : FailPhase sh stage) : FailPhase sh' stage := by
  unfold FailPhase at *
  rw [same.done, same.missed, same.conn, Ne, same.conn]
  exact before

theorem Phase.stable {u : Thread} (phase : Phase ctype sh u) (grows : Grows sh sh')
    (dialed : u.dialing = true → Undialed sh sh') (failed : u.failing = true → Unfailed sh sh') :
    Phase ctype sh' u := by
  cases u with
  | finished => trivial
  | send => exact Nat.lt_of_lt_of_le phase grows.dialed
  | fail stage dialing =>
      refine ⟨fun inside => (dialed inside).unstarted (phase.1 inside), ?_⟩
      cases stage with
      | call => trivial
      | closeDone => exact (failed rfl).failPhase phase.2
      | closeConn => exact (failed rfl).failPhase phase.2
      | leave => exact (failed rfl).failPhase phase.2
  | dial stage =>
      cases stage with
      | once => trivial
      | answer => exact grows.finished phase
      | leave =>
          have same := dialed rfl
          obtain started | ⟨closed, unstarted⟩ := phase
          · exact .inl (same.started started)
          · exact .inr ⟨grows.done closed, same.unstarted unstarted⟩
      | receiveRPCs =>
          have same := dialed rfl
          obtain ⟨present, greeted, processing, receiving⟩ := phase
          refine ⟨fun unset => present (same.conn.mp unset), same.written ▸ greeted,
            same.processing ▸ processing, same.receiving ▸ receiving⟩
      | connect =>
          have same := dialed rfl
          obtain ⟨unset, empty, unstarted⟩ := phase
          exact ⟨same.conn.mpr unset, same.written ▸ empty, same.unstarted unstarted⟩
      | _ =>
          have same := dialed rfl
          obtain ⟨present, written, unstarted⟩ := phase
          exact ⟨fun unset => present (same.conn.mp unset), same.written ▸ written,
            same.unstarted unstarted⟩

theorem Alone.phase (taken : Alone ctype sh t () sh' t') (phase : Phase ctype sh t)
    (sound : Sound ctype sh) : Phase ctype sh' t' := by
  cases taken with
  | dial_first idle => exact sound.fresh idle
  | dial_again past => exact past
  | connected deadline =>
      obtain ⟨_, empty, unstarted⟩ := phase
      have opened : Conn.opened ≠ .unset := by decide
      cases deadline with
      | false => exact ⟨opened, empty, unstarted⟩
      | true => exact ⟨opened, empty, unstarted⟩
  | unreachable => exact ⟨fun _ => phase.2.2, trivial⟩
  | setWriteDeadline => exact phase
  | setWriteDeadline_failed => exact ⟨fun _ => phase.2.2, trivial⟩
  | sendHello =>
      obtain ⟨present, empty, unstarted⟩ := phase
      exact ⟨present, by simp [empty], .inr ⟨true, by simp [empty]⟩, unstarted.2⟩
  | sendHello_unmarshalled => exact ⟨fun _ => phase.2.2, trivial⟩
  | sendHello_failed =>
      obtain ⟨present, empty, unstarted⟩ := phase
      exact ⟨fun _ => ⟨.inr ⟨false, by simp [empty]⟩, unstarted.2⟩, trivial⟩
  | resetWriteDeadline => exact phase
  | resetWriteDeadline_failed => exact ⟨fun _ => phase.2.2, trivial⟩
  | processRPCs =>
      obtain ⟨present, greeted, unstarted⟩ := phase
      refine ⟨present, greeted, ?_, unstarted.2.2⟩
      simp only [workers, unstarted.2.1]
  | receiveRPCs =>
      obtain ⟨present, greeted, processing, receiving⟩ := phase
      exact .inl ⟨present, ⟨[], greeted⟩, processing, by simp [receiving]⟩
  | dial_leave => rfl
  | dial_closed => trivial
  | dial_open => trivial
  | fail_first idle => exact ⟨phase.1, (sound.unfailed idle).2⟩
  | @fail_again dialing past =>
      cases dialing with
      | false => trivial
      | true => exact .inr ⟨(sound.failed past).1, phase.1 rfl⟩
  | closeDone => exact ⟨phase.1, rfl, phase.2⟩
  | closeConn => exact ⟨phase.1, phase.2.1, .inr rfl⟩
  | closeConn_missing => exact ⟨phase.1, phase.2.1, .inl rfl⟩
  | @fail_leave dialing =>
      cases dialing with
      | false => trivial
      | true => exact .inr ⟨phase.2.1, phase.1 rfl⟩
  | send => trivial
  | send_failed => exact ⟨nofun, trivial⟩

theorem Greeted.frame {written : List Packet} (greeted : Greeted written) (whole : Bool) :
    Greeted (written ++ [.frame whole]) := by
  obtain ⟨frames, rfl⟩ := greeted
  exact ⟨frames ++ [whole], by simp⟩

theorem Sound.dialing (sound : Sound ctype sh) (running : sh.dialOnce = .running)
    (same : sh'.dialOnce = sh.dialOnce) (dialed : sh'.dialed = sh.dialed)
    (refused : 0 < sh'.refused → sh'.done = true)
    (unfailed : sh'.failOnce = .idle → sh'.done = false ∧ sh'.missed = false ∧ sh'.conn ≠ .closed)
    (failed : sh'.failOnce = .finished → sh'.done = true ∧ (sh'.missed = true ∨ sh'.conn = .closed))
    (missed : sh'.missed = true → sh'.done = true ∧ sh'.conn ≠ .closed) : Sound ctype sh' := by
  rw [running] at same
  refine ⟨?_, ?_, ?_, refused, unfailed, failed, missed⟩
  · rw [same]
    nofun
  · rw [same]
    nofun
  · rw [dialed]
    intro positive
    cases running.symm.trans (sound.dialed positive).1

theorem Sound.of_failing (running : sh'.failOnce = .running) (closed : sh'.done = true)
    (fresh : sh'.dialOnce = .idle → sh'.conn = .unset ∧ sh'.written = [] ∧ Unstarted sh')
    (settled : sh'.dialOnce = .finished → Started ctype sh' ∨ Unstarted sh')
    (dialed : 0 < sh'.dialed → sh'.dialOnce = .finished ∧ Started ctype sh')
    (missed : sh'.missed = true → sh'.conn ≠ .closed) : Sound ctype sh' := by
  refine ⟨fresh, ?_, dialed, fun _ => closed, ?_, ?_, fun found => ⟨closed, missed found⟩⟩
  · intro finished
    exact (settled finished).imp id fun stopped => ⟨closed, stopped⟩
  · rw [running]
    nofun
  · rw [running]
    nofun

theorem Sound.sending (sound : Sound ctype sh) (dialed : 0 < sh.dialed) (whole : Bool) :
    Sound ctype { sh with written := sh.written ++ [.frame whole] } := by
  obtain ⟨finished, present, greeted, counts⟩ := sound.dialed dialed
  have started : Started ctype { sh with written := sh.written ++ [.frame whole] } :=
    ⟨present, greeted.frame whole, counts⟩
  refine ⟨?_, fun _ => .inl started, fun _ => ⟨finished, started⟩, sound.refused, sound.unfailed,
    sound.failed, sound.missed⟩
  intro idle
  cases idle.symm.trans finished

theorem Alone.sound (taken : Alone ctype sh t () sh' t') (phase : Phase ctype sh t)
    (dialing : t.dialing = true → sh.dialOnce = .running)
    (failing : t.failing = true → sh.failOnce = .running) (sound : Sound ctype sh) :
    Sound ctype sh' := by
  cases taken with
  | dial_first idle =>
      refine ⟨nofun, nofun, ?_, sound.refused, sound.unfailed, sound.failed, sound.missed⟩
      intro positive
      cases idle.symm.trans (sound.dialed positive).1
  | connected deadline =>
      have unset : sh.conn = .unset := phase.1
      refine sound.dialing (dialing rfl) rfl rfl sound.refused ?_ ?_ ?_
      · intro idle
        obtain ⟨alive, found, _⟩ := sound.unfailed idle
        exact ⟨alive, found, by simp⟩
      · intro past
        obtain ⟨closed, missed | impossible⟩ := sound.failed past
        · exact ⟨closed, .inl missed⟩
        · cases unset.symm.trans impossible
      · intro missed
        exact ⟨(sound.missed missed).1, by simp⟩
  | sendHello =>
      exact sound.dialing (dialing rfl) rfl rfl sound.refused sound.unfailed sound.failed
        sound.missed
  | sendHello_failed =>
      exact sound.dialing (dialing rfl) rfl rfl sound.refused sound.unfailed sound.failed
        sound.missed
  | processRPCs =>
      exact sound.dialing (dialing rfl) rfl rfl sound.refused sound.unfailed sound.failed
        sound.missed
  | receiveRPCs =>
      exact sound.dialing (dialing rfl) rfl rfl sound.refused sound.unfailed sound.failed
        sound.missed
  | dial_leave =>
      refine ⟨nofun, fun _ => phase, ?_, sound.refused, sound.unfailed, sound.failed, sound.missed⟩
      intro positive
      exact ⟨rfl, (sound.dialed positive).2⟩
  | dial_closed closed =>
      exact ⟨sound.fresh, sound.settled, sound.dialed, fun _ => closed, sound.unfailed,
        sound.failed, sound.missed⟩
  | dial_open alive =>
      refine ⟨sound.fresh, sound.settled, fun _ => ⟨phase, ?_⟩, sound.refused, sound.unfailed,
        sound.failed, sound.missed⟩
      obtain started | ⟨closed, _⟩ := sound.settled phase
      · exact started
      · rw [alive] at closed
        cases closed
  | fail_first =>
      exact ⟨sound.fresh, sound.settled, sound.dialed, sound.refused, nofun, nofun, sound.missed⟩
  | closeDone =>
      refine Sound.of_failing (failing rfl) rfl sound.fresh ?_ sound.dialed ?_
      · exact fun finished => (sound.settled finished).imp id And.right
      · exact fun missed => (sound.missed missed).2
  | closeConn present =>
      have closed : Conn.closed ≠ .unset := by decide
      refine Sound.of_failing (failing rfl) phase.2.1 ?_ ?_ ?_ ?_
      · exact fun idle => absurd (sound.fresh idle).1 present
      · exact fun finished => (sound.settled finished).imp (fun started => ⟨closed, started.2⟩)
          And.right
      · exact fun positive => ⟨(sound.dialed positive).1, closed, (sound.dialed positive).2.2⟩
      · intro missed
        cases phase.2.2.1.symm.trans missed
  | closeConn_missing missing =>
      refine Sound.of_failing (failing rfl) phase.2.1 sound.fresh ?_ sound.dialed ?_
      · exact fun finished => (sound.settled finished).imp id And.right
      · exact fun _ => phase.2.2.2
  | fail_leave =>
      exact ⟨sound.fresh, sound.settled, sound.dialed, sound.refused, nofun, fun _ => phase.2,
        sound.missed⟩
  | send => exact sound.sending phase true
  | send_failed => exact sound.sending phase false
  | _ => exact sound

theorem afterFail_dialing (dialing : Bool) : (afterFail dialing).dialing = dialing := by
  cases dialing with
  | false => rfl
  | true => rfl

theorem afterFail_failing (dialing : Bool) : (afterFail dialing).failing = false := by
  cases dialing with
  | false => rfl
  | true => rfl

theorem Alone.dialers (taken : Alone ctype sh t () sh' t')
    (dialing : t.dialing = true → sh.dialOnce = .running) :
    mark t'.dialing + mark (decide (sh.dialOnce = .running)) =
      mark t.dialing + mark (decide (sh'.dialOnce = .running)) := by
  cases taken with
  | dial_first idle => simp [idle, Thread.dialing, mark]
  | dial_leave => simp [dialing rfl, Thread.dialing, mark]
  | connected deadline =>
      cases deadline with
      | false => rfl
      | true => rfl
  | fail_again =>
      rw [afterFail_dialing]
      rfl
  | fail_leave =>
      rw [afterFail_dialing]
      rfl
  | _ => rfl

theorem Alone.failers (taken : Alone ctype sh t () sh' t')
    (failing : t.failing = true → sh.failOnce = .running) :
    mark t'.failing + mark (decide (sh.failOnce = .running)) =
      mark t.failing + mark (decide (sh'.failOnce = .running)) := by
  cases taken with
  | fail_first idle => simp [idle, Thread.failing, mark]
  | fail_leave =>
      rw [afterFail_failing, failing rfl]
      rfl
  | fail_again =>
      rw [afterFail_failing]
      rfl
  | _ => rfl

end Steps

section Invariant

variable {ctype} {c c' : Config Shared Thread}

theorem Inv.dialing (inv : Inv ctype c) {t : Thread} (member : t ∈ c.threads)
    (inside : t.dialing = true) : c.shared.dialOnce = .running := by
  obtain ⟨rest, split⟩ := Multiset.exists_cons_of_mem member
  have marked := inv.dialers
  rw [split] at marked
  exact of_decide_eq_true (inside_alone marked inside).1

theorem Inv.failing (inv : Inv ctype c) {t : Thread} (member : t ∈ c.threads)
    (inside : t.failing = true) : c.shared.failOnce = .running := by
  obtain ⟨rest, split⟩ := Multiset.exists_cons_of_mem member
  have marked := inv.failers
  rw [split] at marked
  exact of_decide_eq_true (inside_alone marked inside).1

theorem Inv.others {sh sh' : Shared} {t t' : Thread} {rest : Multiset Thread}
    (inv : Inv ctype ⟨sh, t ::ₘ rest⟩) (taken : Alone ctype sh t () sh' t') :
    ∀ u ∈ rest, Phase ctype sh' u := by
  intro u member
  have here : t ∈ t ::ₘ rest := Multiset.mem_cons_self _ _
  have there : u ∈ t ::ₘ rest := Multiset.mem_cons_of_mem member
  apply (inv.phases u there).stable taken.grows
  · intro inside
    apply taken.undialed
    · by_contra both
      rw [Bool.not_eq_false] at both
      cases inside.symm.trans ((inside_alone inv.dialers both).2 u member)
    · rintro rfl
      -- who sends has been told that the client is dialed
      have finished := (inv.sound.dialed (inv.phases _ here)).1
      cases finished.symm.trans (inv.dialing there inside)
  · intro inside
    apply taken.unfailed (inv.phases _ here)
    by_contra both
    rw [Bool.not_eq_false] at both
    cases inside.symm.trans ((inside_alone inv.failers both).2 u member)

theorem Spawn.outside {sh sh' : Shared} {t : Thread} (born : Spawn sh () sh' t) :
    sh' = sh ∧ t.dialing = false ∧ t.failing = false := by
  cases born with
  | dial => exact ⟨rfl, rfl, rfl⟩
  | close => exact ⟨rfl, rfl, rfl⟩
  | send => exact ⟨rfl, rfl, rfl⟩

theorem Spawn.phase {sh sh' : Shared} {t : Thread} (born : Spawn sh () sh' t) :
    Phase ctype sh' t := by
  cases born with
  | dial => trivial
  | close => exact ⟨nofun, trivial⟩
  | send dialed => exact dialed

theorem Inv.kept (taken : (connection ctype).Step c () c') (inv : Inv ctype c) :
    Inv ctype c' := by
  have dialers := taken.balance (fun _ => 0) (fun t => mark t.dialing)
    (fun sh => mark (decide (sh.dialOnce = .running)))
    (fun t t' member step => by simpa using Alone.dialers step (inv.dialing member))
    (fun _ _ _ _ impossible => impossible.elim)
    (fun t born => by
      obtain ⟨same, outside, _⟩ := Spawn.outside born
      rw [same, outside]
      rfl)
    (fun impossible => impossible.elim) (by simpa using inv.dialers)
  have failers := taken.balance (fun _ => 0) (fun t => mark t.failing)
    (fun sh => mark (decide (sh.failOnce = .running)))
    (fun t t' member step => by simpa using Alone.failers step (inv.failing member))
    (fun _ _ _ _ impossible => impossible.elim)
    (fun t born => by
      obtain ⟨same, _, outside⟩ := Spawn.outside born
      rw [same, outside]
      rfl)
    (fun impossible => impossible.elim) (by simpa using inv.failers)
  rw [zero_add] at dialers failers
  cases taken with
  | @alone sh sh' t t' _ rest step =>
      have member : t ∈ t ::ₘ rest := Multiset.mem_cons_self _ _
      have phase := inv.phases t member
      refine ⟨dialers, failers, ?_, ?_⟩
      · intro u listed
        obtain rfl | listed := Multiset.mem_cons.mp listed
        · exact Alone.phase step phase inv.sound
        · exact inv.others step u listed
      · exact Alone.sound step phase (inv.dialing member) (inv.failing member) inv.sound
  | meet rest step => cases step
  | spawn rest born =>
      obtain ⟨rfl, _⟩ := Spawn.outside born
      refine ⟨dialers, failers, ?_, inv.sound⟩
      intro u listed
      obtain rfl | listed := Multiset.mem_cons.mp listed
      · exact Spawn.phase born
      · exact inv.phases u listed
  | outside rest step => cases step

theorem Inv.new : Inv ctype newClient where
  dialers := rfl
  failers := rfl
  phases := nofun
  sound := ⟨fun _ => ⟨rfl, rfl, .inl rfl, rfl, rfl⟩, nofun, nofun, nofun,
    fun _ => ⟨rfl, rfl, nofun⟩, nofun, nofun⟩

theorem inv_of_run (run : (connection ctype).Run (fun _ _ => True) newClient c) :
    Inv ctype c :=
  run.invariant (Inv ctype) Inv.new fun taken _ inv => inv.kept taken

theorem Inv.progress (inv : Inv ctype c) : Unstarted c.shared ∨ Started ctype c.shared ∨
    (c.shared.written = [.hello true] ∧ c.shared.processing = workers ctype ∧
      c.shared.receiving = 0) := by
  cases once : c.shared.dialOnce with
  | idle => exact .inl (inv.sound.fresh once).2.2
  | finished =>
      obtain started | ⟨_, unstarted⟩ := inv.sound.settled once
      · exact .inr (.inl started)
      · exact .inl unstarted
  | running =>
      have marked := inv.dialers
      rw [once] at marked
      obtain ⟨t, member, inside⟩ := exists_inside marked
      have phase := inv.phases t member
      cases t with
      | finished => cases inside
      | send => cases inside
      | fail stage dialing => exact .inl (phase.1 inside)
      | dial stage =>
          cases stage with
          | once => cases inside
          | answer => cases inside
          | leave =>
              obtain started | ⟨_, unstarted⟩ := phase
              · exact .inr (.inl started)
              · exact .inl unstarted
          | receiveRPCs => exact .inr (.inr phase.2)
          | _ => exact .inl phase.2.2

theorem Alone.enabled (sh : Shared) {t : Thread} (busy : t ≠ .finished)
    (dial : t = .dial .once → sh.dialOnce ≠ .running)
    (fail : ∀ dialing, t = .fail .call dialing → sh.failOnce ≠ .running) :
    ∃ sh' t', Alone ctype sh t () sh' t' := by
  cases t with
  | finished => exact absurd rfl busy
  | send => exact ⟨_, _, .send_failed⟩
  | fail stage dialing =>
      cases stage with
      | call =>
          cases once : sh.failOnce with
          | idle => exact ⟨_, _, .fail_first once⟩
          | running => exact absurd once (fail dialing rfl)
          | finished => exact ⟨_, _, .fail_again once⟩
      | closeDone => exact ⟨_, _, .closeDone⟩
      | closeConn =>
          by_cases missing : sh.conn = .unset
          · exact ⟨_, _, .closeConn_missing missing⟩
          · exact ⟨_, _, .closeConn missing⟩
      | leave => exact ⟨_, _, .fail_leave⟩
  | dial stage =>
      cases stage with
      | once =>
          cases once : sh.dialOnce with
          | idle => exact ⟨_, _, .dial_first once⟩
          | running => exact absurd once (dial rfl)
          | finished => exact ⟨_, _, .dial_again once⟩
      | connect => exact ⟨_, _, .unreachable⟩
      | setWriteDeadline => exact ⟨_, _, .setWriteDeadline_failed⟩
      | sendHello => exact ⟨_, _, .sendHello_unmarshalled⟩
      | resetWriteDeadline => exact ⟨_, _, .resetWriteDeadline_failed⟩
      | processRPCs => exact ⟨_, _, .processRPCs⟩
      | receiveRPCs => exact ⟨_, _, .receiveRPCs⟩
      | leave => exact ⟨_, _, .dial_leave⟩
      | answer =>
          cases closed : sh.done with
          | false => exact ⟨_, _, .dial_open closed⟩
          | true => exact ⟨_, _, .dial_closed closed⟩

theorem Inv.failing_moves (inv : Inv ctype c) (running : c.shared.failOnce = .running) :
    ∃ u ∈ c.threads, ∃ sh' u', Alone ctype c.shared u () sh' u' := by
  have marked := inv.failers
  rw [running] at marked
  obtain ⟨u, member, inside⟩ := exists_inside marked
  refine ⟨u, member, Alone.enabled c.shared ?_ ?_ ?_⟩
  · rintro rfl
    cases inside
  · rintro rfl
    cases inside
  · rintro dialing rfl
    cases inside

theorem Inv.moves (inv : Inv ctype c) {t : Thread} (member : t ∈ c.threads)
    (busy : t ≠ .finished) : ∃ u ∈ c.threads, ∃ sh' u', Alone ctype c.shared u () sh' u' := by
  by_cases failing : c.shared.failOnce = .running
  · exact inv.failing_moves failing
  by_cases dialing : c.shared.dialOnce = .running
  · have marked := inv.dialers
    rw [dialing] at marked
    obtain ⟨u, inside, dials⟩ := exists_inside marked
    refine ⟨u, inside, Alone.enabled c.shared ?_ ?_ fun _ _ => failing⟩
    · rintro rfl
      cases dials
    · rintro rfl
      cases dials
  · exact ⟨t, member, Alone.enabled c.shared busy (fun _ => dialing) fun _ _ => failing⟩

end Invariant

/-- However the calls of `Dial` and `Close` and the senders interleave, where senders start after a
`Dial` that returned nil, as `establishRegion` has it: one hello at most is sent and it comes before
every frame, each goroutine of the client is started once at most and only behind the hello, `Dial`
returns nil only when they have been started and an error only when the client is closed, and the
two `Once` never block each other. -/
theorem dial_once {c : Config Shared Thread}
    (run : (connection ctype).Run (fun _ _ => True) newClient c) :
    (c.shared.written = [] ∨ c.shared.written = [.hello false] ∨ Greeted c.shared.written) ∧
      c.shared.processing ≤ workers ctype ∧ c.shared.receiving ≤ 1 ∧
      (0 < c.shared.processing + c.shared.receiving → Greeted c.shared.written) ∧
      (0 < c.shared.dialed → c.shared.processing = workers ctype ∧ c.shared.receiving = 1) ∧
      (0 < c.shared.refused → c.shared.done = true) ∧
      ((∃ t ∈ c.threads, t ≠ .finished) →
        ∃ t ∈ c.threads, ∃ sh' t', Alone ctype c.shared t () sh' t') := by
  have inv := inv_of_run run
  have single : Greeted [.hello true] := ⟨[], rfl⟩
  refine ⟨?_, ?_, ?_, ?_, fun dialed => (inv.sound.dialed dialed).2.2.2, inv.sound.refused,
    fun ⟨t, member, busy⟩ => inv.moves member busy⟩
  · obtain ⟨unwritten | ⟨whole, hello⟩, _⟩ | ⟨_, greeted, _⟩ | ⟨hello, _⟩ := inv.progress
    · exact .inl unwritten
    · cases whole with
      | false => exact .inr (.inl hello)
      | true => exact .inr (.inr (hello ▸ single))
    · exact .inr (.inr greeted)
    · exact .inr (.inr (hello ▸ single))
  · obtain ⟨_, processing, _⟩ | ⟨_, _, processing, _⟩ | ⟨_, processing, _⟩ := inv.progress
    · omega
    · omega
    · omega
  · obtain ⟨_, _, receiving⟩ | ⟨_, _, _, receiving⟩ | ⟨_, _, receiving⟩ := inv.progress
    · omega
    · omega
    · omega
  · intro positive
    obtain ⟨_, processing, receiving⟩ | ⟨_, greeted, _⟩ | ⟨hello, _⟩ := inv.progress
    · omega
    · exact greeted
    · exact hello ▸ single

def dialedClient : Config Shared Thread where
  shared := {
    dialOnce := .finished
    failOnce := .idle
    done := false
    conn := .opened
    written := [.hello true]
    processing := 1
    receiving := 1
    dialed := 1
    refused := 0
    missed := false }
  threads := {.finished}

theorem dialedClient_run :
    (connection .regionClient).Run (fun _ _ => True) newClient dialedClient := by
  have start : (connection .regionClient).Run (fun _ _ => True) newClient newClient := .refl
  have called := start.step (.spawn 0 .dial) trivial
  have connecting := called.step (.alone 0 (.dial_first rfl)) trivial
  have connected := connecting.step (.alone 0 (.connected false)) trivial
  have greeted := connected.step (.alone 0 (.sendHello rfl)) trivial
  have reset := greeted.step (.alone 0 (.resetWriteDeadline rfl)) trivial
  have batching := reset.step (.alone 0 .processRPCs) trivial
  have reading := batching.step (.alone 0 .receiveRPCs) trivial
  have left := reading.step (.alone 0 .dial_leave) trivial
  exact left.step (.alone 0 (.dial_open rfl)) trivial

theorem dial_once_dialed :
    (connection .regionClient).Run (fun _ _ => True) newClient dialedClient ∧
      0 < dialedClient.shared.dialed ∧ Greeted dialedClient.shared.written ∧
      dialedClient.shared.processing = 1 ∧ dialedClient.shared.receiving = 1 := by
  have facts := dial_once .regionClient dialedClient_run
  exact ⟨dialedClient_run, by decide, facts.2.2.2.1 (by decide), facts.2.2.2.2.1 (by decide)⟩

section Leak

variable {ctype}

theorem Alone.missed {sh sh' : Shared} {t t' : Thread} (taken : Alone ctype sh t () sh' t')
    (missed : sh.missed = true) : sh'.missed = true := by
  cases taken with
  | closeConn_missing => rfl
  | _ => exact missed

theorem missed_kept {c later : Config Shared Thread} {e : Unit}
    (taken : (connection ctype).Step c e later) (missed : c.shared.missed = true) :
    later.shared.missed = true := by
  apply taken.kinds
  · exact fun t t' _ step => Alone.missed step missed
  · exact fun _ _ _ _ impossible => impossible.elim
  · intro t born
    rw [(Spawn.outside born).1]
    exact missed
  · exact fun impossible => impossible.elim

end Leak

/-- Once the client has failed, its connection is closed unless `fail` had looked for it before
`Dial` made it, and then nobody ever closes it. -/
theorem connection_closed_iff {c : Config Shared Thread}
    (run : (connection ctype).Run (fun _ _ => True) newClient c)
    (failed : c.shared.failOnce = .finished) :
    (c.shared.conn = .closed ↔ c.shared.missed = false) ∧
      (c.shared.missed = true → ∀ later, (connection ctype).Run (fun _ _ => True) c later →
        later.shared.conn ≠ .closed) := by
  have inv := inv_of_run run
  constructor
  · constructor
    · intro closed
      by_contra missed
      rw [Bool.not_eq_false] at missed
      exact (inv.sound.missed missed).2 closed
    · intro found
      obtain ⟨_, missed | closed⟩ := inv.sound.failed failed
      · cases found.symm.trans missed
      · exact closed
  · intro missed later onward
    have kept := onward.invariant (fun c => Inv ctype c ∧ c.shared.missed = true) ⟨inv, missed⟩
      fun taken _ before => ⟨before.1.kept taken, missed_kept taken before.2⟩
    exact (kept.1.sound.missed kept.2).2

def leakedClient : Config Shared Thread where
  shared := {
    dialOnce := .finished
    failOnce := .finished
    done := true
    conn := .opened
    written := [.hello true]
    processing := 1
    receiving := 1
    dialed := 0
    refused := 1
    missed := true }
  threads := {.finished, .finished}

theorem leakedClient_run :
    (connection .regionClient).Run (fun _ _ => True) newClient leakedClient := by
  have start : (connection .regionClient).Run (fun _ _ => True) newClient newClient := .refl
  have closing := start.step (.spawn 0 .close) trivial
  have failing := closing.step (.alone 0 (.fail_first rfl)) trivial
  have done := failing.step (.alone 0 .closeDone) trivial
  have missed := done.step (.alone 0 (.closeConn_missing rfl)) trivial
  have failed := missed.step (.alone 0 .fail_leave) trivial
  have called := failed.step (.spawn _ .dial) trivial
  have connecting := called.step (.alone _ (.dial_first rfl)) trivial
  have connected := connecting.step (.alone _ (.connected false)) trivial
  have greeted := connected.step (.alone _ (.sendHello rfl)) trivial
  have reset := greeted.step (.alone _ (.resetWriteDeadline rfl)) trivial
  have batching := reset.step (.alone _ .processRPCs) trivial
  have reading := batching.step (.alone _ .receiveRPCs) trivial
  have left := reading.step (.alone _ .dial_leave) trivial
  exact left.step (.alone _ (.dial_closed rfl)) trivial

theorem connection_closed_iff_leaked :
    (connection .regionClient).Run (fun _ _ => True) newClient leakedClient ∧
      leakedClient.shared.failOnce = .finished ∧
      ∀ later, (connection .regionClient).Run (fun _ _ => True) leakedClient later →
        later.shared.conn ≠ .closed :=
  ⟨leakedClient_run, rfl,
    (connection_closed_iff .regionClient leakedClient_run rfl).2 rfl⟩

end GoHBase.Dialing
