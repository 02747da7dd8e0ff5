import GoHBase.Lib.Buffer

/-! Byte slices with the memory between their length and their capacity. How much
capacity a reallocating `append` adds is a parameter. -/

namespace Capacity

open ByteString Runtime Buffer

structure Slice where
  bytes : Bytes
  spare : Bytes
  deriving DecidableEq, Repr

def Slice.cap (b : Slice) : Nat := b.bytes.length + b.spare.length

/-- From the old capacity and the length that is needed, the capacity to spare. -/
abbrev Growth := Nat → Nat → Nat

def Slice.append (growth : Growth) (b : Slice) (data : Bytes) : Slice where
  bytes := b.bytes ++ data
  spare :=
    if data.length ≤ b.spare.length then b.spare.drop data.length
    else zeros (growth b.cap (b.bytes.length + data.length))

def Slice.resize (b : Slice) (size : Nat) : Go Slice :=
  if size ≤ b.cap then
    .ok ⟨(b.bytes ++ b.spare).take size, (b.bytes ++ b.spare).drop size⟩
  else .error outOfRange

def Slice.storeAt (b : Slice) (offset : Nat) (data : Bytes) : Go Slice := do
  let bytes ← Buffer.storeAt b.bytes offset data
  pure { b with bytes }

theorem resize_ok (b : Slice) (size : Nat) (fits : size ≤ b.cap) :
    ∃ resized, b.resize size = .ok resized ∧ resized.bytes.length = size := by
  refine ⟨_, if_pos fits, ?_⟩
  rw [List.length_take, List.length_append]
  simp only [Slice.cap] at fits
  omega

theorem resize_beyond (b : Slice) (size : Nat) (longer : b.bytes.length ≤ size)
    (fits : size ≤ b.cap) :
    ∃ resized gap, b.resize size = .ok resized ∧ resized.bytes = b.bytes ++ gap ∧
      gap.length = size - b.bytes.length := by
  refine ⟨_, b.spare.take (size - b.bytes.length), if_pos fits, ?_, ?_⟩
  · rw [List.take_append, List.take_of_length_le longer]
  · rw [List.length_take]
    simp only [Slice.cap] at fits
    omega

theorem resize_back (growth : Growth) (b : Slice) (data : Bytes) :
    ∃ resized, (b.append growth data).resize b.bytes.length = .ok resized ∧
      resized.bytes = b.bytes := by
  have fits : b.bytes.length ≤ (b.append growth data).cap := by
    simp only [Slice.cap, Slice.append, List.length_append]
    omega
  refine ⟨_, if_pos fits, ?_⟩
  simp only [Slice.append, List.append_assoc]
  exact List.take_left' rfl

theorem storeAt_gap (b : Slice) (front gap rest data : Bytes)
    (parts : b.bytes = front ++ gap ++ rest) (same : data.length = gap.length) :
    ∃ stored, b.storeAt front.length data = .ok stored ∧
      stored.bytes = front ++ data ++ rest := by
  have fits : front.length + data.length ≤ b.bytes.length := by
    rw [parts, List.length_append, List.length_append]
    omega
  have kept : b.bytes.take front.length = front := by
    rw [parts, List.append_assoc, List.take_left' rfl]
  have after : b.bytes.drop (front.length + data.length) = rest := by
    rw [parts, List.drop_left' (by rw [List.length_append, same])]
  refine ⟨{ b with bytes := front ++ data ++ rest }, ?_, rfl⟩
  rw [Slice.storeAt, Buffer.storeAt, if_pos fits, kept, after]
  rfl

end Capacity
