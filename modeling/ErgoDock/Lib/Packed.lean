import Mathlib

/-! # Fields packed into bytes

`bit bytes k` is bit `k` of a string of bytes, the low bit of each byte first; behind its end the
string is zero.  `field w bytes i` is the number that `w` bits make up, the `i`-th of fields that
do not cross a byte.  A field is its bits (`field_eq_iff`), so writes are traced bit by bit
(`bit_set`), and fields that keep their bits keep their values (`field_congr`).

`leNat` is the number of a string of bytes, low byte first. -/

namespace Packed

variable {bytes bytes' : List UInt8} {w i j k n : ℕ}

/-- Bit `k` of the bytes. -/
def bit (bytes : List UInt8) (k : ℕ) : Bool := (bytes.getD (k / 8) 0).toNat.testBit (k % 8)

/-- Field `i` of the bytes, `w` bits wide. -/
def field (w : ℕ) (bytes : List UInt8) (i : ℕ) : ℕ :=
  (bytes.getD (w * i / 8) 0).toNat / 2 ^ (w * i % 8) % 2 ^ w

/-- The first `n` fields. -/
def fields (w : ℕ) (bytes : List UInt8) (n : ℕ) : List ℕ := (List.range n).map (field w bytes)

/-! ### Bits -/

theorem bit_set {index : ℕ} (h : index < bytes.length) (b : UInt8) (k : ℕ) :
    bit (bytes.set index b) k = if k / 8 = index then b.toNat.testBit (k % 8) else bit bytes k := by
  unfold bit
  split
  · next heq => rw [heq, List.getD_eq_getElem _ _ (by simpa using h), List.getElem_set_self]
  · next hne =>
    rw [List.getD_eq_getElem?_getD, List.getElem?_set_ne (Ne.symm hne),
      ← List.getD_eq_getElem?_getD]

@[simp] theorem bit_replicate (n k : ℕ) : bit (List.replicate n 0) k = false := by
  have hzero : (List.replicate n (0 : UInt8)).getD (k / 8) 0 = 0 := by
    rw [List.getD_eq_getElem?_getD, List.getElem?_replicate]
    split <;> rfl
  rw [bit, hzero]
  exact Nat.zero_testBit _

theorem bit_take (h : k < 8 * n) : bit (bytes.take n) k = bit bytes k := by
  unfold bit
  rw [List.getD_eq_getElem?_getD, List.getElem?_take_of_lt (by omega),
    ← List.getD_eq_getElem?_getD]

/-! ### Fields -/

/-- A field does not cross a byte. -/
theorem field_bits (hw : w ∣ 8) (hj : j < w) (i : ℕ) :
    (w * i + j) / 8 = w * i / 8 ∧ (w * i + j) % 8 = w * i % 8 + j := by
  obtain ⟨c, hc⟩ := hw
  have hpos : 0 < c := by
    refine Nat.pos_of_ne_zero fun h0 => ?_
    rw [h0, Nat.mul_zero] at hc
    cases hc
  have hsplit : w * i = 8 * (i / c) + w * (i % c) := by
    rw [hc, Nat.mul_assoc, ← Nat.mul_add, Nat.div_add_mod]
  have hfit : w * (i % c) + j < 8 := by
    have hnext : w * (i % c) + w ≤ w * c := by
      rw [← Nat.mul_succ]
      exact Nat.mul_le_mul_left w (Nat.mod_lt i hpos)
    omega
  omega

theorem testBit_field (hw : w ∣ 8) (bytes : List UInt8) (i j : ℕ) :
    (field w bytes i).testBit j = (decide (j < w) && bit bytes (w * i + j)) := by
  rw [field, Nat.testBit_mod_two_pow, Nat.testBit_div_two_pow, Nat.add_comm]
  by_cases hj : j < w
  · obtain ⟨hdiv, hmod⟩ := field_bits hw hj i
    rw [bit, hdiv, hmod]
  · rw [decide_eq_false hj, Bool.false_and, Bool.false_and]

/-- Fields with the same bits. -/
theorem field_congr (hw : w ∣ 8) (h : ∀ j < w, bit bytes (w * i + j) = bit bytes' (w * i + j)) :
    field w bytes i = field w bytes' i := by
  refine Nat.eq_of_testBit_eq fun j => ?_
  rw [testBit_field hw, testBit_field hw]
  by_cases hj : j < w
  · rw [h j hj]
  · rw [decide_eq_false hj, Bool.false_and, Bool.false_and]

theorem field_eq_iff (hw : w ∣ 8) {v : ℕ} (hv : v < 2 ^ w) :
    field w bytes i = v ↔ ∀ j < w, bit bytes (w * i + j) = v.testBit j := by
  constructor
  · rintro rfl j hj
    rw [testBit_field hw, decide_eq_true hj, Bool.true_and]
  · intro h
    refine Nat.eq_of_testBit_eq fun j => ?_
    rw [testBit_field hw]
    by_cases hj : j < w
    · rw [decide_eq_true hj, Bool.true_and, h j hj]
    · rw [decide_eq_false hj, Bool.false_and]
      have hpow : 2 ^ w ≤ 2 ^ j := Nat.pow_le_pow_right (by decide) (Nat.le_of_not_lt hj)
      exact (Nat.testBit_lt_two_pow (Nat.lt_of_lt_of_le hv hpow)).symm

theorem fields_congr (hw : w ∣ 8) (h : ∀ k < w * n, bit bytes k = bit bytes' k) :
    fields w bytes n = fields w bytes' n := by
  refine List.map_congr_left fun i hi => field_congr hw fun j hj => h _ ?_
  have hmul : w * i + w ≤ w * n := by
    rw [← Nat.mul_succ]
    exact Nat.mul_le_mul_left w (List.mem_range.mp hi)
  omega

theorem fields_succ (w : ℕ) (bytes : List UInt8) (n : ℕ) :
    fields w bytes (n + 1) = fields w bytes n ++ [field w bytes n] := by
  rw [fields, List.range_succ, List.map_append, List.map_singleton, fields]

/-! ### Numbers -/

/-- The number of a string of bytes, low byte first. -/
def leNat : List UInt8 → ℕ
  | [] => 0
  | b :: bs => b.toNat + 256 * leNat bs

end Packed
