import Mathlib

/-!
Byte strings in the order of `bytes.Compare`: lexicographic, with a proper
initial segment smaller. The order lemmas hold for lists over any linear order.
-/

namespace ByteString

instance byteOrder : LinearOrder UInt8 where
  le_refl := UInt8.le_refl
  le_trans _ _ _ := UInt8.le_trans
  le_antisymm _ _ := UInt8.le_antisymm
  le_total := UInt8.le_total
  lt_iff_le_not_ge a b := by
    simp only [UInt8.lt_iff_toNat_lt, UInt8.le_iff_toNat_le]
    omega
  toDecidableLE := inferInstance
  toDecidableEq := inferInstance
  toDecidableLT := inferInstance

abbrev Bytes := List UInt8

/-- The three-way verdict of Go's `bytes.Compare`. -/
def bytesCompare (a b : Bytes) : Int :=
  if a < b then -1 else if a = b then 0 else 1

@[simp] theorem bytesCompare_neg (a b : Bytes) : bytesCompare a b < 0 ↔ a < b := by
  unfold bytesCompare
  split
  · simp_all
  · split <;> simp_all

@[simp] theorem bytesCompare_pos (a b : Bytes) : 0 < bytesCompare a b ↔ b < a := by
  unfold bytesCompare
  split
  · rename_i less
    simp [less.le]
  · rename_i notLess
    split
    · simp_all
    · rename_i different
      simpa using lt_of_le_of_ne (not_lt.mp notLess) (Ne.symm different)

@[simp] theorem bytesCompare_nonneg (a b : Bytes) : 0 ≤ bytesCompare a b ↔ b ≤ a := by
  rw [← not_lt, bytesCompare_neg, not_lt]

@[simp] theorem bytesCompare_nonpos (a b : Bytes) : bytesCompare a b ≤ 0 ↔ a ≤ b := by
  rw [← not_lt, bytesCompare_pos, not_lt]

section Lexicographic

variable {α : Type*} [LinearOrder α]

theorem cons_lt_cons (first second : α) (left right : List α) :
    first :: left < second :: right ↔ first < second ∨ first = second ∧ left < right :=
  List.cons_lt_cons_iff

@[simp] theorem nil_le_bytes (key : List α) : [] ≤ key :=
  not_lt.mp (List.not_lt_nil key)

@[simp] theorem le_nil_bytes (key : List α) : key ≤ [] ↔ key = [] := by
  cases key with
  | nil => simp
  | cons first key => simp [← not_lt]

theorem append_lt_append_left (shared left right : List α) :
    shared ++ left < shared ++ right ↔ left < right := by
  induction shared with
  | nil => simp
  | cons first shared ih => simp [ih]

theorem append_le_append_left (shared left right : List α) :
    shared ++ left ≤ shared ++ right ↔ left ≤ right := by
  rw [← not_lt, ← not_lt, append_lt_append_left]

theorem le_take_iff (bound key : List α) (size : Nat) (fits : bound.length ≤ size) :
    bound ≤ key.take size ↔ bound ≤ key := by
  induction bound generalizing key size with
  | nil => simp
  | cons first bound ih =>
      cases size with
      | zero => simp at fits
      | succ size =>
          cases key with
          | nil => simp
          | cons next key =>
              have tail := ih key size (by simpa using fits)
              rw [← not_lt, ← not_lt] at tail ⊢
              rw [List.take_succ_cons, cons_lt_cons, cons_lt_cons, not_iff_not.mp tail]

end Lexicographic

end ByteString
