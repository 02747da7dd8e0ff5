import GoHBase.Lib.Runtime

/-!
Loops without a bound run on fuel, and `none` means that it ran out. With more
fuel a run that ended, by returning or by a panic, ends in the same way.
-/

namespace Runtime

def Prolongs {α : Type} (short long : Go (Option α)) : Prop := short = .ok none ∨ short = long

namespace Prolongs

variable {α β : Type} {short long : Go (Option α)}

theorem same (run : Go (Option α)) : Prolongs run run := .inr rfl

theorem out (long : Go (Option α)) : Prolongs (.ok none) long := .inl rfl

theorem returned {value : α} (prolongs : Prolongs short long) (ended : short = .ok (some value)) :
    long = .ok (some value) := by
  rcases prolongs with out | same
  · rw [ended] at out
    cases out
  · exact same ▸ ended

theorem aborted {abort : Abort} (prolongs : Prolongs short long) (ended : short = .error abort) :
    long = .error abort := by
  rcases prolongs with out | same
  · rw [ended] at out
    cases out
  · exact same ▸ ended

theorem after (first : Go β) {next next' : β → Go (Option α)}
    (prolongs : ∀ value, Prolongs (next value) (next' value)) :
    Prolongs (first >>= next) (first >>= next') := by
  cases first with
  | error abort => exact same _
  | ok value => exact prolongs value

theorem bind (prolongs : Prolongs short long) {next next' : Option α → Go (Option β)}
    (stops : next none = .ok none) (goesOn : ∀ value, Prolongs (next value) (next' value)) :
    Prolongs (short >>= next) (long >>= next') := by
  rcases prolongs with out | same
  · rw [out, ok_bind, stops]
    exact .inl rfl
  · rw [same]
    exact after long goesOn

end Prolongs

end Runtime
