import Mathlib

/-!
Threads that take turns on a shared state: steps of one thread, meetings of two,
new threads, and changes from outside. The rules below reduce a property of all
runs to one obligation for each kind of step.
-/

namespace Interleaving

structure System (σ τ ε : Type) where
  alone : σ → τ → ε → σ → τ → Prop
  meet : σ → τ → τ → ε → σ → τ → τ → Prop
  spawn : σ → ε → σ → τ → Prop
  outside : σ → ε → σ → Prop

structure Config (σ τ : Type) where
  shared : σ
  threads : Multiset τ

variable {σ τ ε : Type} (sys : System σ τ ε)

inductive System.Step : Config σ τ → ε → Config σ τ → Prop
  | alone {shared shared' : σ} {t t' : τ} {e : ε} (rest : Multiset τ)
      (taken : sys.alone shared t e shared' t') :
      Step ⟨shared, t ::ₘ rest⟩ e ⟨shared', t' ::ₘ rest⟩
  | meet {shared shared' : σ} {t u t' u' : τ} {e : ε} (rest : Multiset τ)
      (taken : sys.meet shared t u e shared' t' u') :
      Step ⟨shared, t ::ₘ u ::ₘ rest⟩ e ⟨shared', t' ::ₘ u' ::ₘ rest⟩
  | spawn {shared shared' : σ} {t : τ} {e : ε} (rest : Multiset τ)
      (taken : sys.spawn shared e shared' t) : Step ⟨shared, rest⟩ e ⟨shared', t ::ₘ rest⟩
  | outside {shared shared' : σ} {e : ε} (rest : Multiset τ)
      (taken : sys.outside shared e shared') : Step ⟨shared, rest⟩ e ⟨shared', rest⟩

inductive System.Run (allowed : Config σ τ → ε → Prop) (start : Config σ τ) : Config σ τ → Prop
  | refl : Run allowed start start
  | step {c c' : Config σ τ} {e : ε} (run : Run allowed start c) (taken : sys.Step c e c')
      (ok : allowed c e) : Run allowed start c'

variable {sys} {c c' : Config σ τ} {e : ε}

theorem System.Run.invariant {allowed : Config σ τ → ε → Prop} {start : Config σ τ}
    (inv : Config σ τ → Prop) (initial : inv start)
    (kept : ∀ {c e c'}, sys.Step c e c' → allowed c e → inv c → inv c')
    (run : sys.Run allowed start c) : inv c := by
  induction run with
  | refl => exact initial
  | step _ taken ok ih => exact kept taken ok ih

theorem System.Run.mono {allowed allowed' : Config σ τ → ε → Prop} {start : Config σ τ}
    (weaker : ∀ c e, allowed c e → allowed' c e) (run : sys.Run allowed start c) :
    sys.Run allowed' start c := by
  induction run with
  | refl => exact .refl
  | step _ taken ok ih => exact .step ih taken (weaker _ _ ok)

section Schedules

variable {allowed : Config σ τ → ε → Prop} {start : Config σ τ} {sh sh' : σ} {t t' : τ} {l : List τ}

theorem System.Run.moves (i : Nat) (run : sys.Run allowed start ⟨sh, l⟩) (here : l[i]? = some t)
    (taken : sys.alone sh t e sh' t') (ok : allowed ⟨sh, l⟩ e) :
    sys.Run allowed start ⟨sh', (l.set i t' : List τ)⟩ := by
  obtain ⟨bound, rfl⟩ := List.getElem?_eq_some_iff.mp here
  have before : (l : Multiset τ) = l[i] ::ₘ (l.eraseIdx i : List τ) :=
    Multiset.coe_eq_coe.mpr (List.getElem_cons_eraseIdx_perm bound).symm
  have after : (l.set i t' : Multiset τ) = t' ::ₘ (l.eraseIdx i : List τ) :=
    Multiset.coe_eq_coe.mpr (List.set_perm_cons_eraseIdx bound t')
  rw [before] at run ok
  rw [after]
  exact run.step (.alone _ taken) ok

theorem System.Run.starts (run : sys.Run allowed start ⟨sh, l⟩) (taken : sys.spawn sh e sh' t)
    (ok : allowed ⟨sh, l⟩ e) : sys.Run allowed start ⟨sh', (t :: l : List τ)⟩ :=
  run.step (.spawn _ taken) ok

end Schedules

def System.restrict (sys : System σ τ ε) (guard : σ → τ → Prop) : System σ τ ε :=
  { sys with
    alone := fun shared t e shared' t' => guard shared t ∧ sys.alone shared t e shared' t' }

theorem System.Step.of_restrict {guard : σ → τ → Prop} (step : (sys.restrict guard).Step c e c') :
    sys.Step c e c' := by
  cases step with
  | alone rest taken => exact .alone rest taken.2
  | meet rest taken => exact .meet rest taken
  | spawn rest taken => exact .spawn rest taken
  | outside rest taken => exact .outside rest taken

section Record

variable {ω : Type} (note : τ → τ → List ω) (noteMeeting : τ → τ → τ → τ → List ω)

def System.record (sys : System σ τ ε) : System (σ × List ω) τ ε where
  alone s t e s' t' := sys.alone s.1 t e s'.1 t' ∧ s'.2 = s.2 ++ note t t'
  meet s t u e s' t' u' := sys.meet s.1 t u e s'.1 t' u' ∧ s'.2 = s.2 ++ noteMeeting t u t' u'
  spawn s e s' t := sys.spawn s.1 e s'.1 t ∧ s'.2 = s.2
  outside s e s' := sys.outside s.1 e s'.1 ∧ s'.2 = s.2

theorem System.Run.recorded {allowed : Config σ τ → ε → Prop} {start : Config σ τ}
    (run : sys.Run allowed start c) :
    ∃ history, (sys.record note noteMeeting).Run (fun c e => allowed ⟨c.shared.1, c.threads⟩ e)
      ⟨(start.shared, []), start.threads⟩ ⟨(c.shared, history), c.threads⟩ := by
  induction run with
  | refl => exact ⟨[], .refl⟩
  | step _ taken ok ih =>
      rcases ih with ⟨history, run⟩
      cases taken with
      | alone rest taken => exact ⟨_, run.step (.alone rest ⟨taken, rfl⟩) ok⟩
      | meet rest taken => exact ⟨_, run.step (.meet rest ⟨taken, rfl⟩) ok⟩
      | spawn rest taken => exact ⟨_, run.step (.spawn rest ⟨taken, rfl⟩) ok⟩
      | outside rest taken => exact ⟨_, run.step (.outside rest ⟨taken, rfl⟩) ok⟩

end Record

/-- What every kind of step does to the shared state, every step does. -/
theorem System.Step.kinds (step : sys.Step c e c') {effect : Prop}
    (alone : ∀ t t', t ∈ c.threads → sys.alone c.shared t e c'.shared t' → effect)
    (meet : ∀ t u t' u', sys.meet c.shared t u e c'.shared t' u' → effect)
    (spawn : ∀ t, sys.spawn c.shared e c'.shared t → effect)
    (outside : sys.outside c.shared e c'.shared → effect) : effect := by
  cases step with
  | alone rest taken => exact alone _ _ (Multiset.mem_cons_self _ _) taken
  | meet rest taken => exact meet _ _ _ _ taken
  | spawn rest taken => exact spawn _ taken
  | outside rest taken => exact outside taken

/-- What holds of every thread is kept if the threads that move establish it and the
others do not lose it. -/
theorem System.Step.everywhere (step : sys.Step c e c') {good : τ → Prop}
    (alone : ∀ t t', t ∈ c.threads → sys.alone c.shared t e c'.shared t' → good t')
    (meet : ∀ t u t' u', t ∈ c.threads → u ∈ c.threads →
      sys.meet c.shared t u e c'.shared t' u' → good t' ∧ good u')
    (spawn : ∀ t, sys.spawn c.shared e c'.shared t → good t)
    (others : ∀ t ∈ c.threads, good t) : ∀ t ∈ c'.threads, good t := by
  cases step with
  | alone rest taken =>
      intro t member
      obtain rfl | member := Multiset.mem_cons.mp member
      · exact alone _ _ (Multiset.mem_cons_self _ _) taken
      · exact others t (Multiset.mem_cons_of_mem member)
  | @meet _ _ first second _ _ _ rest taken =>
      have both := meet _ _ _ _ (Multiset.mem_cons_self first _)
        (Multiset.mem_cons_of_mem (Multiset.mem_cons_self second _)) taken
      intro t member
      obtain rfl | member := Multiset.mem_cons.mp member
      · exact both.1
      · obtain rfl | member := Multiset.mem_cons.mp member
        · exact both.2
        · exact others t (Multiset.mem_cons_of_mem (Multiset.mem_cons_of_mem member))
  | spawn rest taken =>
      intro t member
      obtain rfl | member := Multiset.mem_cons.mp member
      · exact spawn _ taken
      · exact others t member
  | outside rest taken => exact others

theorem settle {α : Type} {part part' issued issued' rest : Multiset α}
    (change : part' + issued = part + issued') (balanced : part + rest = issued) :
    part' + rest = issued' := by
  refine add_right_cancel (b := part) ?_
  calc part' + rest + part
      = part' + (part + rest) := by abel
    _ = part' + issued := by rw [balanced]
    _ = part + issued' := change
    _ = issued' + part := add_comm _ _

/-- What the shared state holds and the threads carry makes up what was issued. -/
theorem System.Step.balance {α : Type} (step : sys.Step c e c') (held : σ → Multiset α)
    (carried : τ → Multiset α) (issued : σ → Multiset α)
    (alone : ∀ t t', t ∈ c.threads → sys.alone c.shared t e c'.shared t' →
      held c'.shared + carried t' + issued c.shared = held c.shared + carried t + issued c'.shared)
    (meet : ∀ t u t' u', sys.meet c.shared t u e c'.shared t' u' →
      held c'.shared + (carried t' + carried u') + issued c.shared =
        held c.shared + (carried t + carried u) + issued c'.shared)
    (spawn : ∀ t, sys.spawn c.shared e c'.shared t →
      held c'.shared + carried t + issued c.shared = held c.shared + issued c'.shared)
    (outside : sys.outside c.shared e c'.shared →
      held c'.shared + issued c.shared = held c.shared + issued c'.shared)
    (balanced : held c.shared + c.threads.bind carried = issued c.shared) :
    held c'.shared + c'.threads.bind carried = issued c'.shared := by
  cases step with
  | alone rest taken =>
      rw [Multiset.cons_bind, ← add_assoc] at balanced ⊢
      exact settle (alone _ _ (Multiset.mem_cons_self _ _) taken) balanced
  | meet rest taken =>
      rw [Multiset.cons_bind, Multiset.cons_bind, ← add_assoc (carried _), ← add_assoc]
        at balanced ⊢
      exact settle (meet _ _ _ _ taken) balanced
  | spawn rest taken =>
      rw [Multiset.cons_bind, ← add_assoc]
      exact settle (spawn _ taken) balanced
  | outside rest taken => exact settle (outside taken) balanced

theorem settle_le {α : Type} {part part' issued issued' rest : Multiset α}
    (change : part' + issued ≤ part + issued') (within : part + rest ≤ issued) :
    part' + rest ≤ issued' := by
  refine le_of_add_le_add_left (a := part) ?_
  calc part + (part' + rest)
      = part' + (part + rest) := by abel
    _ ≤ part' + issued := by gcongr
    _ ≤ part + issued' := change

/-- What the shared state holds and the threads carry was issued. Some of it may be lost. -/
theorem System.Step.within {α : Type} (step : sys.Step c e c') (held : σ → Multiset α)
    (carried : τ → Multiset α) (issued : σ → Multiset α)
    (alone : ∀ t t', t ∈ c.threads → sys.alone c.shared t e c'.shared t' →
      held c'.shared + carried t' + issued c.shared ≤ held c.shared + carried t + issued c'.shared)
    (meet : ∀ t u t' u', sys.meet c.shared t u e c'.shared t' u' →
      held c'.shared + (carried t' + carried u') + issued c.shared ≤
        held c.shared + (carried t + carried u) + issued c'.shared)
    (spawn : ∀ t, sys.spawn c.shared e c'.shared t →
      held c'.shared + carried t + issued c.shared ≤ held c.shared + issued c'.shared)
    (outside : sys.outside c.shared e c'.shared →
      held c'.shared + issued c.shared ≤ held c.shared + issued c'.shared)
    (within : held c.shared + c.threads.bind carried ≤ issued c.shared) :
    held c'.shared + c'.threads.bind carried ≤ issued c'.shared := by
  cases step with
  | alone rest taken =>
      rw [Multiset.cons_bind, ← add_assoc] at within ⊢
      exact settle_le (alone _ _ (Multiset.mem_cons_self _ _) taken) within
  | meet rest taken =>
      rw [Multiset.cons_bind, Multiset.cons_bind, ← add_assoc (carried _), ← add_assoc]
        at within ⊢
      exact settle_le (meet _ _ _ _ taken) within
  | spawn rest taken =>
      rw [Multiset.cons_bind, ← add_assoc]
      exact settle_le (spawn _ taken) within
  | outside rest taken => exact settle_le (outside taken) within

/-- What is needed is served by some thread. A thread that moves may take over what is
needed, and must not have served what it leaves. -/
theorem System.Step.covered {α : Type} (step : sys.Step c e c') (need : σ → α → Prop)
    (serves : τ → α → Prop)
    (alone : ∀ t t', t ∈ c.threads → sys.alone c.shared t e c'.shared t' →
      ∀ x, need c'.shared x → serves t' x ∨ need c.shared x ∧ ¬serves t x)
    (meet : ∀ t u t' u', sys.meet c.shared t u e c'.shared t' u' →
      ∀ x, need c'.shared x → need c.shared x ∧ ¬serves t x ∧ ¬serves u x)
    (spawn : ∀ t, sys.spawn c.shared e c'.shared t → ∀ x, need c'.shared x → need c.shared x)
    (outside : sys.outside c.shared e c'.shared → ∀ x, need c'.shared x → need c.shared x)
    (covers : ∀ x, need c.shared x → ∃ t ∈ c.threads, serves t x) :
    ∀ x, need c'.shared x → ∃ t ∈ c'.threads, serves t x := by
  intro x needed
  cases step with
  | alone rest taken =>
      obtain takes | ⟨before, leaves⟩ := alone _ _ (Multiset.mem_cons_self _ _) taken x needed
      · exact ⟨_, Multiset.mem_cons_self _ _, takes⟩
      · obtain ⟨t, member, serving⟩ := covers x before
        obtain rfl | member := Multiset.mem_cons.mp member
        · exact absurd serving leaves
        · exact ⟨t, Multiset.mem_cons_of_mem member, serving⟩
  | meet rest taken =>
      obtain ⟨before, first, second⟩ := meet _ _ _ _ taken x needed
      obtain ⟨t, member, serving⟩ := covers x before
      obtain rfl | member := Multiset.mem_cons.mp member
      · exact absurd serving first
      · obtain rfl | member := Multiset.mem_cons.mp member
        · exact absurd serving second
        · exact ⟨t, Multiset.mem_cons_of_mem (Multiset.mem_cons_of_mem member), serving⟩
  | spawn rest taken =>
      obtain ⟨t, member, serving⟩ := covers x (spawn _ taken x needed)
      exact ⟨t, Multiset.mem_cons_of_mem member, serving⟩
  | outside rest taken => exact covers x (outside taken x needed)

/-! Threads that are inside of a body that one of them may run at a time. -/

section Exclusive

variable {inside : τ → Bool} {busy : Bool}

def mark (inside : Bool) : Multiset Unit := if inside then {()} else 0

theorem inside_alone {t : τ} {rest : Multiset τ}
    (marked : (t ::ₘ rest).bind (fun t => mark (inside t)) = mark busy) (here : inside t = true) :
    busy = true ∧ ∀ u ∈ rest, inside u = false := by
  rw [Multiset.cons_bind, here] at marked
  cases busy with
  | false =>
      have count := congrArg Multiset.card marked
      simp [mark] at count
  | true =>
      refine ⟨rfl, ?_⟩
      intro u member
      obtain ⟨others, rfl⟩ := Multiset.exists_cons_of_mem member
      cases there : inside u with
      | false => rfl
      | true =>
          have count := congrArg Multiset.card marked
          rw [Multiset.cons_bind, there] at count
          simp [mark] at count

theorem exists_inside {threads : Multiset τ}
    (marked : threads.bind (fun t => mark (inside t)) = mark true) :
    ∃ t ∈ threads, inside t = true := by
  have member : () ∈ threads.bind fun t => mark (inside t) := by
    rw [marked]
    exact Multiset.mem_singleton_self ()
  obtain ⟨t, listed, own⟩ := Multiset.mem_bind.mp member
  refine ⟨t, listed, ?_⟩
  by_contra outside
  rw [Bool.not_eq_true] at outside
  simp [mark, outside] at own

end Exclusive

end Interleaving
