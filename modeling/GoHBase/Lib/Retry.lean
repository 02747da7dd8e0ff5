import GoHBase.Lib.Fuel

/-!
Loops that try until an attempt is final and pause in between, each pause as long as the last one
says. A world decides how an attempt ends and whether a pause is cut short.
-/

namespace Retry

open Runtime

inductive Judgement (α ε : Type)
  | final (outcome : α)
  | again
  | pause (interrupted : ε → α)

structure Loop (σ α ε : Type) where
  attempt : σ → Go (Option (σ × Judgement α ε))
  sleep : Nat → σ → σ × Option ε
  next : Nat → Nat

variable {σ α ε : Type} (loop : Loop σ α ε)

/-- The world at the end, the outcome, and the pauses that were begun. -/
def Loop.run : Nat → Nat → σ → Go (Option (σ × α × List Nat))
  | 0, _, _ => pure none
  | fuel + 1, delay, s => do
      match ← loop.attempt s with
      | none => pure none
      | some (s, .final outcome) => pure (some (s, outcome, []))
      | some (s, .again) => run fuel delay s
      | some (s, .pause interrupted) =>
          match loop.sleep delay s with
          | (s, some err) => pure (some (s, interrupted err, [delay]))
          | (s, none) => do
              match ← run fuel (loop.next delay) s with
              | none => pure none
              | some (s, outcome, pauses) => pure (some (s, outcome, delay :: pauses))

inductive Ends : Nat → σ → σ → α → List Nat → Prop
  | final {delay : Nat} {s s' : σ} {outcome : α}
      (tried : loop.attempt s = .ok (some (s', .final outcome))) : Ends delay s s' outcome []
  | cut {delay : Nat} {s tired s' : σ} {interrupted : ε → α} {err : ε}
      (tried : loop.attempt s = .ok (some (tired, .pause interrupted)))
      (slept : loop.sleep delay tired = (s', some err)) :
      Ends delay s s' (interrupted err) [delay]
  | again {delay : Nat} {s next s' : σ} {outcome : α} {pauses : List Nat}
      (tried : loop.attempt s = .ok (some (next, .again)))
      (rest : Ends delay next s' outcome pauses) : Ends delay s s' outcome pauses
  | paused {delay : Nat} {s tired next s' : σ} {interrupted : ε → α} {outcome : α}
      {pauses : List Nat} (tried : loop.attempt s = .ok (some (tired, .pause interrupted)))
      (slept : loop.sleep delay tired = (next, none))
      (rest : Ends (loop.next delay) next s' outcome pauses) :
      Ends delay s s' outcome (delay :: pauses)

variable {loop} {delay : Nat} {s s' : σ} {outcome : α} {pauses : List Nat}

theorem Ends.of_run {fuel : Nat} (ran : loop.run fuel delay s = .ok (some (s', outcome, pauses))) :
    Ends loop delay s s' outcome pauses := by
  induction fuel generalizing delay s pauses with
  | zero => cases ran
  | succ fuel ih =>
      obtain ⟨tried, attempted, rest⟩ := (bind_ok_iff _ _ _).mp ran
      match tried, rest with
      | some (next, .final value), rest =>
          cases rest
          exact .final attempted
      | some (next, .again), rest => exact .again attempted (ih rest)
      | some (tired, .pause interrupted), rest =>
          dsimp only at rest
          cases slept : loop.sleep delay tired with
          | mk next cut =>
              rw [slept] at rest
              cases cut with
              | some err =>
                  cases rest
                  exact .cut attempted slept
              | none =>
                  obtain ⟨later, ran', rest⟩ := (bind_ok_iff _ _ _).mp rest
                  match later, rest with
                  | some (s', outcome, pauses), rest =>
                      cases rest
                      exact .paused attempted slept (ih ran')

theorem Ends.run (ends : Ends loop delay s s' outcome pauses) :
    ∃ fuel, loop.run fuel delay s = .ok (some (s', outcome, pauses)) := by
  induction ends with
  | final tried =>
      refine ⟨1, ?_⟩
      rw [Loop.run, tried]
      rfl
  | cut tried slept =>
      refine ⟨1, ?_⟩
      rw [Loop.run, tried, ok_bind]
      dsimp only
      rw [slept]
      rfl
  | again tried rest ih =>
      obtain ⟨fuel, ran⟩ := ih
      refine ⟨fuel + 1, ?_⟩
      rw [Loop.run, tried]
      exact ran
  | paused tried slept rest ih =>
      obtain ⟨fuel, ran⟩ := ih
      refine ⟨fuel + 1, ?_⟩
      rw [Loop.run, tried, ok_bind]
      dsimp only
      rw [slept]
      dsimp only
      rw [ran]
      rfl

theorem Ends.schedule (ends : Ends loop delay s s' outcome pauses) :
    pauses = (List.range pauses.length).map fun count => loop.next^[count] delay := by
  induction ends with
  | final => rfl
  | cut => rfl
  | again tried rest ih => exact ih
  | @paused delay _ _ _ _ _ _ pauses tried slept rest ih =>
      rw [List.length_cons, List.range_succ_eq_map, List.map_cons, List.map_map]
      exact congrArg (delay :: ·) ih

/-- What every attempt and every pause keeps holds where the loop ends; the number of pauses begun
so far may occur in it. An outcome is that of the last attempt, or what its interrupted pause makes
of the error. -/
theorem Ends.rule (inv : Nat → σ → Prop) (post : Nat → σ → α → Prop) (count : Nat)
    (start : inv count s)
    (final : ∀ count s s' outcome, inv count s →
      loop.attempt s = .ok (some (s', .final outcome)) → post count s' outcome)
    (again : ∀ count s s', inv count s → loop.attempt s = .ok (some (s', .again)) → inv count s')
    (paused : ∀ count s tired s' delay interrupted, inv count s →
      loop.attempt s = .ok (some (tired, .pause interrupted)) →
      loop.sleep delay tired = (s', none) → inv (count + 1) s')
    (cut : ∀ count s tired s' delay interrupted err, inv count s →
      loop.attempt s = .ok (some (tired, .pause interrupted)) →
      loop.sleep delay tired = (s', some err) → post (count + 1) s' (interrupted err))
    (ends : Ends loop delay s s' outcome pauses) : post (count + pauses.length) s' outcome := by
  induction ends generalizing count with
  | final tried => exact final _ _ _ _ start tried
  | cut tried slept => exact cut _ _ _ _ _ _ _ start tried slept
  | again tried rest ih => exact ih _ (again _ _ _ start tried)
  | @paused _ _ _ _ _ _ _ pauses tried slept rest ih =>
      have ended := ih _ (paused _ _ _ _ _ _ start tried slept)
      rw [List.length_cons, Nat.add_comm pauses.length, ← Nat.add_assoc]
      exact ended

inductive Round (loop : Loop σ α ε) : Nat × σ → Nat × σ → Prop
  | again {delay : Nat} {s s' : σ} (tried : loop.attempt s = .ok (some (s', .again))) :
      Round loop (delay, s) (delay, s')
  | paused {delay : Nat} {s tired s' : σ} {interrupted : ε → α}
      (tried : loop.attempt s = .ok (some (tired, .pause interrupted)))
      (slept : loop.sleep delay tired = (s', none)) :
      Round loop (delay, s) (loop.next delay, s')

def Responsive (loop : Loop σ α ε) (start : Nat × σ) : Prop :=
  ∀ p, Relation.ReflTransGen (Round loop) start p → ∃ tried, loop.attempt p.2 = .ok (some tried)

def Endless (loop : Loop σ α ε) (start : Nat × σ) : Prop :=
  ∃ rounds : Nat → Nat × σ, rounds 0 = start ∧ ∀ n, Round loop (rounds n) (rounds (n + 1))

structure Open (loop : Loop σ α ε) (start p : Nat × σ) : Prop where
  reached : Relation.ReflTransGen (Round loop) start p
  goes : ¬∃ s' outcome pauses, Ends loop p.1 p.2 s' outcome pauses

theorem Open.round {start p : Nat × σ} (responsive : Responsive loop start)
    (stays : Open loop start p) : ∃ p', Open loop start p' ∧ Round loop p p' := by
  obtain ⟨⟨next, verdict⟩, tried⟩ := responsive p stays.reached
  obtain ⟨delay, s⟩ := p
  have goes := stays.goes
  cases verdict with
  | final outcome => exact absurd ⟨_, _, _, .final tried⟩ goes
  | again =>
      have round : Round loop (delay, s) (delay, next) := .again tried
      refine ⟨_, ⟨stays.reached.tail round, ?_⟩, round⟩
      rintro ⟨s', outcome, pauses, rest⟩
      exact goes ⟨s', outcome, pauses, .again tried rest⟩
  | pause interrupted =>
      cases slept : loop.sleep delay next with
      | mk rested cut =>
          cases cut with
          | some err => exact absurd ⟨_, _, _, .cut tried slept⟩ goes
          | none =>
              have round : Round loop (delay, s) (loop.next delay, rested) := .paused tried slept
              refine ⟨_, ⟨stays.reached.tail round, ?_⟩, round⟩
              rintro ⟨s', outcome, pauses, rest⟩
              exact goes ⟨s', outcome, delay :: pauses, .paused tried slept rest⟩

/-- A loop whose attempts return ends unless it goes on for ever. -/
theorem ends_of_not_endless (responsive : Responsive loop (delay, s))
    (finite : ¬Endless loop (delay, s)) :
    ∃ s' outcome pauses, Ends loop delay s s' outcome pauses := by
  by_contra goes
  have further (p : { p // Open loop (delay, s) p }) :
      ∃ p' : { p // Open loop (delay, s) p }, Round loop p.1 p'.1 := by
    obtain ⟨p', stays, round⟩ := p.2.round responsive
    exact ⟨⟨p', stays⟩, round⟩
  choose next follows using further
  refine finite ⟨fun n => (next^[n] ⟨(delay, s), .refl, goes⟩).1, rfl, fun n => ?_⟩
  simp only [Function.iterate_succ_apply']
  exact follows _

theorem run_of_not_endless (responsive : Responsive loop (delay, s))
    (finite : ¬Endless loop (delay, s)) :
    ∃ fuel s' outcome pauses, loop.run fuel delay s = .ok (some (s', outcome, pauses)) := by
  obtain ⟨s', outcome, pauses, ends⟩ := ends_of_not_endless responsive finite
  obtain ⟨fuel, ran⟩ := ends.run
  exact ⟨fuel, s', outcome, pauses, ran⟩

/-- Rounds that leave less to do do not go on for ever. -/
theorem not_endless_of_rank {start : Nat × σ} (left : σ → Nat)
    (less : ∀ p p', Round loop p p' → left p'.2 < left p.2) : ¬Endless loop start := by
  rintro ⟨rounds, _, follows⟩
  have spent (n : Nat) : left (rounds n).2 + n ≤ left (rounds 0).2 := by
    induction n with
    | zero => exact le_rfl
    | succ n ih =>
        have fewer := less _ _ (follows n)
        omega
  have all := spent (left (rounds 0).2 + 1)
  omega

end Retry
