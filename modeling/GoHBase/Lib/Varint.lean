import GoHBase.Lib.Protowire

/-! Numbers in groups of seven bits, the lowest first, and byte strings behind their own
length. A width bounds the number of groups; ten are enough for 64 bits. -/

namespace Varint

open ByteString

def varint : Nat → Nat → Bytes
  | 0, _ => []
  | width + 1, value =>
      if value < 128 then [UInt8.ofNat value]
      else UInt8.ofNat (128 + value % 128) :: varint width (value / 128)

def sizeVarint : Nat → Nat → Nat
  | 0, _ => 0
  | width + 1, value => if value < 128 then 1 else 1 + sizeVarint width (value / 128)

@[simp]
theorem length_varint (width value : Nat) :
    (varint width value).length = sizeVarint width value := by
  induction width generalizing value with
  | zero => rfl
  | succ width ih =>
      simp only [varint, sizeVarint]
      split
      · rfl
      · rw [List.length_cons, ih, Nat.add_comm]

inductive Fault
  | truncated
  | overflow
  deriving DecidableEq, Repr

/-- The number at the front and the count of its bytes. The last group that the width leaves
room for has to be below `limit`. -/
def consumeVarint (limit : Nat) : Nat → Bytes → Except Fault (Nat × Nat)
  | _, [] => .error .truncated
  | 0, _ :: _ => .error .overflow
  | 1, byte :: _ => if byte.toNat < limit then .ok (byte.toNat, 1) else .error .overflow
  | width + 2, byte :: rest =>
      if byte.toNat < 128 then .ok (byte.toNat, 1)
      else
        match consumeVarint limit (width + 1) rest with
        | .error fault => .error fault
        | .ok (high, count) => .ok (byte.toNat - 128 + 128 * high, count + 1)

/-- A length has 64 bits: nine groups of seven and one bit. -/
def consumeBytes (data : Bytes) : Except Fault (Bytes × Nat) :=
  match consumeVarint 2 10 data with
  | .error fault => .error fault
  | .ok (size, count) =>
      if (data.drop count).length < size then .error .truncated
      else .ok ((data.drop count).take size, count + size)

theorem consumeVarint_ok_iff (limit width : Nat) (data : Bytes) (value count : Nat) :
    consumeVarint limit width data = .ok (value, count) ↔
      ∃ digits rest, data = digits ++ rest ∧ digits.length = count ∧
        ∀ more, consumeVarint limit width (digits ++ more) = .ok (value, count) := by
  constructor
  · intro read
    fun_induction consumeVarint limit width data generalizing value count with
    | case1 => cases read
    | case2 => cases read
    | case3 byte rest low =>
        cases read
        exact ⟨[byte], rest, rfl, rfl, fun more => by simp [consumeVarint, low]⟩
    | case4 => cases read
    | case5 width byte rest low =>
        cases read
        exact ⟨[byte], rest, rfl, rfl, fun more => by simp [consumeVarint, low]⟩
    | case6 => cases read
    | case7 width byte rest continued high count' later ih =>
        cases read
        obtain ⟨digits, behind, cut, size, stable⟩ := ih high count' later
        refine ⟨byte :: digits, behind, by rw [cut, List.cons_append], by simp [size], ?_⟩
        intro more
        simp [consumeVarint, continued, stable more]
  · rintro ⟨digits, rest, rfl, _, stable⟩
    exact stable rest

theorem consumeVarint_varint {limit : Nat} (group : limit ≤ 128) (width : Nat) {value : Nat}
    (fits : value < limit * 128 ^ width) (rest : Bytes) :
    consumeVarint limit (width + 1) (varint (width + 1) value ++ rest) =
      .ok (value, sizeVarint (width + 1) value) := by
  induction width generalizing value with
  | zero =>
      rw [Nat.pow_zero, Nat.mul_one] at fits
      have byte : (UInt8.ofNat value).toNat = value := UInt8.toNat_ofNat_of_lt' (by
        change value < 256
        omega)
      have low : value < 128 := by omega
      simp only [varint, sizeVarint, low, ↓reduceIte, List.cons_append, consumeVarint, byte, fits]
  | succ width ih =>
      rw [varint, sizeVarint]
      by_cases low : value < 128
      · have byte : (UInt8.ofNat value).toNat = value := UInt8.toNat_ofNat_of_lt' (by
          change value < 256
          omega)
        simp only [low, ↓reduceIte, List.cons_append, consumeVarint, byte]
      · have byte : (UInt8.ofNat (128 + value % 128)).toNat = 128 + value % 128 :=
          UInt8.toNat_ofNat_of_lt' (by
            change 128 + value % 128 < 256
            omega)
        have high : value / 128 < limit * 128 ^ width := by
          rw [Nat.div_lt_iff_lt_mul (by omega), Nat.mul_assoc, ← Nat.pow_succ]
          exact fits
        have more : ¬128 + value % 128 < 128 := by omega
        simp only [low, ↓reduceIte, List.cons_append, consumeVarint, byte, more, ih high]
        congr 2
        · omega
        · omega

theorem consumeBytes_delimited {data : Bytes} (fits : data.length < 2 ^ 64) :
    consumeBytes (varint 10 data.length ++ data) =
      .ok (data, (varint 10 data.length ++ data).length) := by
  have room : data.length < 2 * 128 ^ 9 := by
    rw [show 2 * 128 ^ 9 = 2 ^ 64 by norm_num]
    exact fits
  have read := consumeVarint_varint (by omega) 9 room data
  have dropped : (varint 10 data.length ++ data).drop (sizeVarint 10 data.length) = data :=
    List.drop_left' (length_varint 10 _)
  simp only [consumeBytes, read, dropped, Nat.lt_irrefl, ↓reduceIte, List.take_length,
    List.length_append, length_varint]

theorem consumeBytes_cuts {data value : Bytes} {count : Nat}
    (read : consumeBytes data = .ok (value, count)) :
    ∃ part rest, data = part ++ rest ∧ part.length = count ∧
      ∀ more, consumeBytes (part ++ more) = .ok (value, count) := by
  unfold consumeBytes at read
  split at read
  · cases read
  · rename_i size taken length
    obtain ⟨digits, behind, rfl, counted, stable⟩ := (consumeVarint_ok_iff _ _ _ _ _).mp length
    have dropped : (digits ++ behind).drop taken = behind := List.drop_left' counted
    rw [dropped] at read
    split at read
    · cases read
    · rename_i enough
      cases read
      have cut : (behind.take size).length = size := List.length_take_of_le (by omega)
      refine ⟨digits ++ behind.take size, behind.drop size, ?_, ?_, fun more => ?_⟩
      · rw [List.append_assoc, List.take_append_drop]
      · rw [List.length_append, counted, cut]
      · have later : (digits ++ (behind.take size ++ more)).drop taken =
            behind.take size ++ more := List.drop_left' counted
        have whole : ¬(behind.take size ++ more).length < size := by
          rw [List.length_append, cut]
          omega
        rw [consumeBytes, List.append_assoc, stable]
        simp only [later, whole, if_false, List.take_left' cut]

def parseError : Fault → String
  | .truncated => "unexpected EOF"
  | .overflow => "proto: variable length integer overflow"

def protowire : Protowire where
  sizeVarint := sizeVarint 10
  appendVarint b value := b ++ varint 10 value
  consumeBytes b := (consumeBytes b).mapError parseError

theorem protowire_lawful : protowire.Lawful where
  appends b value := by
    change b ++ varint 10 value = b ++ ([] ++ varint 10 value)
    rw [List.nil_append]
  sized value := length_varint 10 value
  reads data fits := by
    have read := consumeBytes_delimited fits
    change (consumeBytes (varint 10 data.length ++ data)).mapError parseError = _
    rw [read]
    rfl
  cuts b value count read := by
    change (consumeBytes b).mapError parseError = _ at read
    cases found : consumeBytes b with
    | error fault =>
        rw [found] at read
        cases read
    | ok parts =>
        rw [found] at read
        cases read
        obtain ⟨part, rest, cut, length, stable⟩ := consumeBytes_cuts found
        refine ⟨part, rest, cut, length, fun more => ?_⟩
        change (consumeBytes (part ++ more)).mapError parseError = _
        rw [stable]
        rfl

end Varint
