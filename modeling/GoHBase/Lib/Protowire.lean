import GoHBase.Lib.ByteString

/-! Byte strings behind their own length, written and read by functions of which only laws are
known. -/

open ByteString

/-- `consumeBytes` returns the byte string at the front and how much it takes with its length, or
the text of the error. -/
structure Protowire where
  sizeVarint : Nat → Nat
  appendVarint : Bytes → Nat → Bytes
  consumeBytes : Bytes → Except String (Bytes × Nat)

namespace Protowire

def delimited (w : Protowire) (data : Bytes) : Bytes := w.appendVarint [] data.length ++ data

def Delimits (w : Protowire) (part value : Bytes) : Prop :=
  w.consumeBytes part = .ok (value, part.length)

structure Lawful (w : Protowire) : Prop where
  appends : ∀ b value, w.appendVarint b value = b ++ w.appendVarint [] value
  sized : ∀ value, (w.appendVarint [] value).length = w.sizeVarint value
  reads : ∀ data, data.length < 2 ^ 64 → w.Delimits (w.delimited data) data
  -- what is read depends on the bytes that it takes, and on nothing behind them
  cuts : ∀ b value count, w.consumeBytes b = .ok (value, count) →
    ∃ part rest, b = part ++ rest ∧ part.length = count ∧
      ∀ more, w.consumeBytes (part ++ more) = .ok (value, count)

section Laws

variable {w : Protowire} (lawful : w.Lawful)

include lawful

theorem length_delimited (data : Bytes) :
    (w.delimited data).length = w.sizeVarint data.length + data.length := by
  rw [delimited, List.length_append, lawful.sized]

theorem consumeBytes_append {part value : Bytes} (delimits : w.Delimits part value)
    (rest : Bytes) : w.consumeBytes (part ++ rest) = .ok (value, part.length) := by
  obtain ⟨front, behind, rfl, length, stable⟩ := lawful.cuts _ _ _ delimits
  have whole : behind = [] := by
    rw [List.length_append] at length
    exact List.length_eq_zero_iff.mp (by omega)
  rw [whole, List.append_nil] at stable ⊢
  exact stable rest

theorem consumeBytes_split {b value : Bytes} {count : Nat}
    (read : w.consumeBytes b = .ok (value, count)) :
    ∃ part rest, b = part ++ rest ∧ part.length = count ∧ w.Delimits part value := by
  obtain ⟨part, rest, cut, length, stable⟩ := lawful.cuts _ _ _ read
  refine ⟨part, rest, cut, length, ?_⟩
  have alone := stable []
  rwa [List.append_nil, ← length] at alone

theorem Delimits.unique {first second left right firstValue secondValue : Bytes}
    (same : first ++ left = second ++ right) (one : w.Delimits first firstValue)
    (other : w.Delimits second secondValue) :
    first = second ∧ left = right ∧ firstValue = secondValue := by
  have read := consumeBytes_append lawful one left
  rw [same, consumeBytes_append lawful other right] at read
  simp only [Except.ok.injEq, Prod.mk.injEq] at read
  obtain ⟨cut, rest⟩ := List.append_inj same read.2.symm
  exact ⟨cut, rest, read.1.symm⟩

theorem delimited_append_inj {first second left right : Bytes} (firstFits : first.length < 2 ^ 64)
    (secondFits : second.length < 2 ^ 64)
    (same : w.delimited first ++ left = w.delimited second ++ right) :
    first = second ∧ left = right := by
  obtain ⟨_, rest, values⟩ := Delimits.unique lawful same (lawful.reads first firstFits)
    (lawful.reads second secondFits)
  exact ⟨values, rest⟩

end Laws

end Protowire
