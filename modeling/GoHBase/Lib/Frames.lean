import GoHBase.Lib.Buffer

/-! A stream of payloads, each behind its length in four bytes. -/

namespace Frames

open ByteString Buffer

def framed (payload : Bytes) : Bytes := bigEndian 4 payload.length ++ payload

theorem framed_ne_nil (payload : Bytes) : framed payload ≠ [] := by
  intro empty
  have size := congrArg List.length empty
  rw [framed, List.length_append, length_bigEndian, List.length_nil] at size
  omega

theorem stream_eq_nil {payloads : List Bytes} (empty : payloads.flatMap framed = []) :
    payloads = [] := by
  cases payloads with
  | nil => rfl
  | cons payload later =>
      rw [List.flatMap_cons] at empty
      exact absurd (List.append_eq_nil_iff.mp empty).1 (framed_ne_nil payload)

theorem framed_append_inj {first second left right : Bytes} (firstSmall : first.length < 2 ^ 32)
    (secondSmall : second.length < 2 ^ 32) (same : framed first ++ left = framed second ++ right) :
    first = second ∧ left = right := by
  simp only [framed, List.append_assoc] at same
  obtain ⟨lengths, rest⟩ := List.append_inj same
    ((length_bigEndian 4 _).trans (length_bigEndian 4 _).symm)
  have equal : first.length = second.length := by
    have read := congrArg fromBigEndian lengths
    rwa [fromBigEndian_bigEndian _ _ firstSmall, fromBigEndian_bigEndian _ _ secondSmall] at read
  exact List.append_inj rest equal

theorem framed_front {payloads : List Bytes} {payload rest : Bytes}
    (small : ∀ own ∈ payloads, own.length < 2 ^ 32) (payloadSmall : payload.length < 2 ^ 32)
    (front : payloads.flatMap framed = framed payload ++ rest) :
    ∃ later, payloads = payload :: later ∧ later.flatMap framed = rest := by
  cases payloads with
  | nil =>
      have empty := (List.append_eq_nil_iff.mp front.symm).1
      exact absurd empty (framed_ne_nil payload)
  | cons own later =>
      rw [List.flatMap_cons] at front
      obtain ⟨rfl, rfl⟩ := framed_append_inj (small own List.mem_cons_self) payloadSmall front
      exact ⟨later, rfl, rfl⟩

def readFrame (b : Bytes) : Option (Bytes × Bytes) :=
  let size := fromBigEndian (b.take 4)
  if b.length < 4 + size then none else some ((b.drop 4).take size, b.drop (4 + size))

/-- All payloads of a stream that ends behind one; the fuel bounds how many there are. -/
def readFrames : Nat → Bytes → Option (List Bytes)
  | _, [] => some []
  | 0, _ :: _ => none
  | fuel + 1, b@(_ :: _) => do
      let (payload, rest) ← readFrame b
      let later ← readFrames fuel rest
      pure (payload :: later)

theorem readFrame_framed {payload : Bytes} (small : payload.length < 2 ^ 32) (rest : Bytes) :
    readFrame (framed payload ++ rest) = some (payload, rest) := by
  have size : fromBigEndian ((framed payload ++ rest).take 4) = payload.length := by
    rw [framed, List.append_assoc, List.take_left' (length_bigEndian 4 _),
      fromBigEndian_bigEndian _ _ small]
  have length : (framed payload).length = 4 + payload.length := by
    rw [framed, List.length_append, length_bigEndian]
  have behind : (framed payload ++ rest).drop 4 = payload ++ rest := by
    rw [framed, List.append_assoc, List.drop_left' (length_bigEndian 4 _)]
  simp only [readFrame, size, behind, List.drop_left' length, List.length_append, length,
    List.take_left' rfl]
  rw [if_neg (by omega)]

theorem readFrames_stream {payloads : List Bytes}
    (small : ∀ payload ∈ payloads, payload.length < 2 ^ 32) {fuel : Nat}
    (enough : payloads.length ≤ fuel) :
    readFrames fuel (payloads.flatMap framed) = some payloads := by
  induction payloads generalizing fuel with
  | nil =>
      cases fuel with
      | zero => rfl
      | succ fuel => rfl
  | cons payload payloads ih =>
      obtain ⟨first, others⟩ := List.forall_mem_cons.mp small
      rw [List.length_cons] at enough
      obtain ⟨fuel, rfl⟩ : ∃ left, fuel = left + 1 := ⟨fuel - 1, by omega⟩
      have read := readFrame_framed first (payloads.flatMap framed)
      have later := ih others (show payloads.length ≤ fuel by omega)
      rw [List.flatMap_cons]
      obtain ⟨byte, bytes, shape⟩ := List.exists_cons_of_ne_nil
        (show framed payload ++ payloads.flatMap framed ≠ [] by
          simp [framed_ne_nil])
      rw [shape] at read ⊢
      rw [readFrames, read]
      simp only [Option.bind_eq_bind, Option.bind_some, later]
      rfl

theorem length_le_stream (payloads : List Bytes) :
    payloads.length ≤ (payloads.flatMap framed).length := by
  induction payloads with
  | nil => simp
  | cons payload payloads ih =>
      rw [List.flatMap_cons, List.length_append, List.length_cons, framed, List.length_append,
        length_bigEndian]
      omega

end Frames
