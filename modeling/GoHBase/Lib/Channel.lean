import GoHBase.Lib.Returns

/-!
Channels with room for one value, each with a receiver that takes one value or none. A send waits
while its channel is full.
-/

namespace Channel

open Runtime

variable {K V : Type} [DecidableEq K]

structure State (V : Type) where
  taken : Option V
  held : Option V
  deriving DecidableEq, Repr

def State.empty : State V := ⟨none, none⟩

/-- A receiver that takes a value at all is taken to do so when its channel is full: that it may do
so before makes no difference to the sends. -/
def State.send (takes : Bool) (channel : State V) (value : V) : Go (State V) :=
  match channel.held, channel.taken with
  | none, taken => .ok ⟨taken, some value⟩
  | some first, none => if takes then .ok ⟨some first, some value⟩ else .error .blocked
  | some _, some _ => .error .blocked

/-- What the receiver takes, or would take. -/
def State.received (channel : State V) : Option V := channel.taken.or channel.held

def State.sends (takes : Bool) : State V → List V → Go (State V)
  | channel, [] => .ok channel
  | channel, value :: values => do
      let channel ← channel.send takes value
      channel.sends takes values

def room (takes : Bool) : Nat := if takes then 2 else 1

theorem one_le_room (takes : Bool) : 1 ≤ room takes := by
  cases takes with
  | true => decide
  | false => decide

theorem State.sends_empty_received {takes : Bool} {values : List V} {channel : State V}
    (sent : State.empty.sends takes values = .ok channel) :
    values.length ≤ room takes ∧ channel.received = values.head? := by
  obtain _ | ⟨first, _ | ⟨second, _ | ⟨third, later⟩⟩⟩ := values
  · cases sent
    exact ⟨Nat.zero_le _, rfl⟩
  · cases sent
    exact ⟨one_le_room takes, rfl⟩
  · cases takes with
    | true =>
        cases sent
        exact ⟨by simp [room], rfl⟩
    | false => cases sent
  · cases takes with
    | true => cases sent
    | false => cases sent

theorem State.sends_empty_total {takes : Bool} {values : List V}
    (fits : values.length ≤ room takes) :
    ∃ channel, State.empty.sends takes values = .ok channel := by
  obtain _ | ⟨first, _ | ⟨second, _ | ⟨third, later⟩⟩⟩ := values
  · exact ⟨_, rfl⟩
  · exact ⟨_, rfl⟩
  · cases takes with
    | true => exact ⟨_, rfl⟩
    | false => exact absurd fits (by simp [room])
  · cases takes with
    | true => exact absurd fits (by simp [room])
    | false => exact absurd fits (by simp [room])

def sendAll (takes : K → Bool) : (K → State V) → List (K × V) → Go (K → State V)
  | channels, [] => .ok channels
  | channels, (key, value) :: rest => do
      let channel ← (channels key).send (takes key) value
      sendAll takes (Function.update channels key channel) rest

def valuesFor (key : K) (sends : List (K × V)) : List V :=
  (sends.filter fun entry => decide (entry.1 = key)).map Prod.snd

theorem valuesFor_cons_self (key : K) (value : V) (rest : List (K × V)) :
    valuesFor key ((key, value) :: rest) = value :: valuesFor key rest := by
  simp [valuesFor]

theorem valuesFor_cons_other {key other : K} (apart : other ≠ key) (value : V)
    (rest : List (K × V)) : valuesFor key ((other, value) :: rest) = valuesFor key rest := by
  simp [valuesFor, apart]

theorem sendAll_ok_iff (takes : K → Bool) (channels after : K → State V)
    (sends : List (K × V)) :
    sendAll takes channels sends = .ok after ↔
      ∀ key, (channels key).sends (takes key) (valuesFor key sends) = .ok (after key) := by
  induction sends generalizing channels with
  | nil =>
      constructor
      · intro sent key
        cases sent
        rfl
      · intro each
        exact congrArg Except.ok (funext fun key => Except.ok.inj (each key))
  | cons entry rest ih =>
      obtain ⟨own, value⟩ := entry
      simp only [sendAll, bind_ok_iff, ih]
      constructor
      · rintro ⟨channel, sent, each⟩ key
        have later := each key
        by_cases same : own = key
        · subst same
          rw [Function.update_self] at later
          rw [valuesFor_cons_self, State.sends, sent, ok_bind]
          exact later
        · rw [Function.update_of_ne (Ne.symm same)] at later
          rw [valuesFor_cons_other same]
          exact later
      · intro each
        have first := each own
        rw [valuesFor_cons_self, State.sends, bind_ok_iff] at first
        obtain ⟨channel, sent, later⟩ := first
        refine ⟨channel, sent, fun key => ?_⟩
        by_cases same : own = key
        · subst same
          rw [Function.update_self]
          exact later
        · have other := each key
          rw [valuesFor_cons_other same] at other
          rw [Function.update_of_ne (Ne.symm same)]
          exact other

/-- All sends go through when every channel has room for its own, and a receiver gets the first
value that is sent to it. -/
theorem sendAll_returns_iff (takes : K → Bool) (sends : List (K × V))
    (good : K → Option V → Prop) :
    Returns (sendAll takes (fun _ => State.empty) sends)
        (fun channels => ∀ key, good key (channels key).received) ↔
      (∀ key, (valuesFor key sends).length ≤ room (takes key)) ∧
        ∀ key, good key (valuesFor key sends).head? := by
  constructor
  · rintro ⟨channels, sent, each⟩
    have received := fun key =>
      State.sends_empty_received ((sendAll_ok_iff _ _ _ _).mp sent key)
    refine ⟨fun key => (received key).1, fun key => ?_⟩
    rw [← (received key).2]
    exact each key
  · rintro ⟨fits, each⟩
    choose channels sent using fun key => State.sends_empty_total (fits key)
    refine ⟨channels, (sendAll_ok_iff _ _ _ _).mpr sent, fun key => ?_⟩
    rw [(State.sends_empty_received (sent key)).2]
    exact each key

end Channel
