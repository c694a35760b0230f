import Mathlib

/-! # Base-128 varints

A number is written as its groups of seven bits, lowest first, and every byte but the last has its
top bit set (`encode`).  A reader with a register of `w` bits or-s the groups in, group by group,
until it meets a byte without top bit; it gives up at the end of its input, and when the next group
would lie above the register (`decode`).

* `decode_encode`: what was written is read back, with what stands behind it;
* `values`: a list of bytes read as one varint after the other.  A byte with the top bit set is
  never a value of its own: `values_of_small` and `length_values_lt` say when the values of a list
  are its bytes. -/

namespace Varint

/-- The groups of `n`. -/
def encode (n : ℕ) : List UInt8 :=
  if n < 128 then [UInt8.ofNat n] else UInt8.ofNat (n % 128 + 128) :: encode (n / 128)
termination_by n
decreasing_by omega

theorem encode_of_lt {n : ℕ} (h : n < 128) : encode n = [UInt8.ofNat n] := by
  rw [encode, if_pos h]

theorem encode_of_le {n : ℕ} (h : 128 ≤ n) :
    encode n = UInt8.ofNat (n % 128 + 128) :: encode (n / 128) := by
  rw [encode, if_neg (by omega)]

/-- The reader, with the next group to go to bit `pos` of the register `acc`.  A failure leaves
what was not read. -/
def decodeFrom (w : ℕ) : ℕ → ℕ → List UInt8 → Except (List UInt8) (ℕ × List UInt8)
  | _, _, [] => .error []
  | pos, acc, b :: s =>
    if w ≤ pos then .error (b :: s)
    else
      let acc := acc ||| ((b.toNat % 128) <<< pos) % 2 ^ w
      if b.toNat < 128 then .ok (acc, s) else decodeFrom w (pos + 7) acc s

/-- The varint at the head of a list. -/
def decode (w : ℕ) (s : List UInt8) : Except (List UInt8) (ℕ × List UInt8) := decodeFrom w 0 0 s

section decode
variable {w : ℕ}

theorem toNat_ofNat {n : ℕ} (h : n < 256) : (UInt8.ofNat n).toNat = n := by
  rw [UInt8.toNat_ofNat']
  exact Nat.mod_eq_of_lt h

theorem decodeFrom_cons {pos : ℕ} (h : pos < w) (acc : ℕ) (b : UInt8) (s : List UInt8) :
    decodeFrom w pos acc (b :: s) =
      if b.toNat < 128 then .ok (acc ||| ((b.toNat % 128) <<< pos) % 2 ^ w, s)
      else decodeFrom w (pos + 7) (acc ||| ((b.toNat % 128) <<< pos) % 2 ^ w) s := by
  rw [decodeFrom, if_neg (by omega)]

/-- The register after a group. -/
theorem or_group {pos acc g : ℕ} (hacc : acc < 2 ^ pos) (hg : g * 2 ^ pos < 2 ^ w) :
    acc ||| (g <<< pos) % 2 ^ w = acc + g * 2 ^ pos := by
  rw [Nat.shiftLeft_eq, Nat.mod_eq_of_lt hg, ← Nat.shiftLeft_eq, Nat.or_comm,
    ← Nat.shiftLeft_add_eq_or_of_lt hacc, Nat.shiftLeft_eq, Nat.add_comm]

theorem decodeFrom_encode {n pos acc : ℕ} (hpos : pos < w) (hacc : acc < 2 ^ pos)
    (hn : n * 2 ^ pos < 2 ^ w) (rest : List UInt8) :
    decodeFrom w pos acc (encode n ++ rest) = .ok (acc + n * 2 ^ pos, rest) := by
  induction n using Nat.strongRecOn generalizing pos acc with
  | ind n ih =>
      by_cases hlt : n < 128
      · rw [encode_of_lt hlt, List.singleton_append, decodeFrom_cons hpos, toNat_ofNat (by omega),
          if_pos hlt, Nat.mod_eq_of_lt hlt, or_group hacc hn]
      · have hbyte : (UInt8.ofNat (n % 128 + 128)).toNat = n % 128 + 128 := toNat_ofNat (by omega)
        have hmod : (n % 128 + 128) % 128 = n % 128 := by omega
        have hsplit : n % 128 * 2 ^ pos + n / 128 * 2 ^ (pos + 7) = n * 2 ^ pos := by
          rw [Nat.pow_add, ← Nat.mul_assoc, Nat.mul_right_comm, ← Nat.add_mul]
          congr 1
          omega
        have hg : n % 128 * 2 ^ pos < 2 ^ w := by omega
        have hacc' : acc + n % 128 * 2 ^ pos < 2 ^ (pos + 7) := by
          have hle : n % 128 * 2 ^ pos ≤ 127 * 2 ^ pos :=
            Nat.mul_le_mul_right _ (by omega)
          rw [Nat.pow_add]
          omega
        have hpos' : pos + 7 < w := by
          have hone : 1 * 2 ^ (pos + 7) ≤ n / 128 * 2 ^ (pos + 7) :=
            Nat.mul_le_mul_right _ (by omega)
          exact (Nat.pow_lt_pow_iff_right (by decide)).mp (show 2 ^ (pos + 7) < 2 ^ w by omega)
        rw [encode_of_le (by omega), List.cons_append, decodeFrom_cons hpos, hbyte,
          if_neg (by omega), hmod, or_group hacc hg,
          ih (n / 128) (by omega) hpos' hacc' (by omega), Nat.add_assoc, hsplit]

/-- What was written is read back. -/
theorem decode_encode {n : ℕ} (hw : 0 < w) (h : n < 2 ^ w) (rest : List UInt8) :
    decode w (encode n ++ rest) = .ok (n, rest) := by
  unfold decode
  rw [decodeFrom_encode hw (by decide) (by omega)]
  simp

/-- A byte without top bit is a varint of its own. -/
theorem decode_of_small {b : UInt8} (hw : 7 ≤ w) (h : b.toNat < 128) (s : List UInt8) :
    decode w (b :: s) = .ok (b.toNat, s) := by
  have hlt : b.toNat < 2 ^ w :=
    Nat.lt_of_lt_of_le h (Nat.pow_le_pow_right (by decide) hw : 2 ^ 7 ≤ 2 ^ w)
  have he := decode_encode (by omega) hlt s
  rwa [encode_of_lt h, UInt8.ofNat_toNat] at he

/-- A varint is at least one byte long. -/
theorem decodeFrom_length {pos acc v : ℕ} {s rest : List UInt8}
    (h : decodeFrom w pos acc s = .ok (v, rest)) : rest.length < s.length := by
  induction s generalizing pos acc with
  | nil => cases h
  | cons b s ih =>
      rw [decodeFrom] at h
      split at h
      · cases h
      · dsimp only at h
        split at h
        · cases h
          exact Nat.lt_succ_self _
        · exact Nat.lt_succ_of_lt (ih h)

theorem decode_length {v : ℕ} {s rest : List UInt8} (h : decode w s = .ok (v, rest)) :
    rest.length < s.length := decodeFrom_length h

/-- A varint that begins with a byte with top bit is longer. -/
theorem decode_length_of_large {b : UInt8} (hb : 128 ≤ b.toNat) {v : ℕ} {s rest : List UInt8}
    (h : decode w (b :: s) = .ok (v, rest)) : rest.length < s.length := by
  unfold decode at h
  rw [decodeFrom] at h
  split at h
  · cases h
  · dsimp only at h
    rw [if_neg (by omega)] at h
    exact decodeFrom_length h

theorem decode_rest_of_small {b : UInt8} (hb : b.toNat < 128) {v : ℕ} {s rest : List UInt8}
    (h : decode w (b :: s) = .ok (v, rest)) : rest = s := by
  unfold decode at h
  rw [decodeFrom] at h
  split at h
  · cases h
  · cases h
    rfl

end decode

/-! ### A list of varints -/

/-- The varints of a list, as far as they can be read, and whether the list ends with them. -/
def values (w : ℕ) (s : List UInt8) : List ℕ × Bool :=
  if s = [] then ([], true)
  else
    match _ : decode w s with
    | .error _ => ([], false)
    | .ok (v, rest) => (v :: (values w rest).1, (values w rest).2)
termination_by s.length
decreasing_by all_goals exact decode_length ‹_›

section values
variable {w : ℕ}

@[simp] theorem values_nil : values w [] = ([], true) := by
  rw [values, if_pos rfl]

theorem values_of_error {s e : List UInt8} (hs : s ≠ []) (h : decode w s = .error e) :
    values w s = ([], false) := by
  rw [values, if_neg hs]
  split
  · rfl
  · rename_i v rest h'
    rw [h] at h'
    cases h'

theorem values_of_ok {s rest : List UInt8} {v : ℕ} (h : decode w s = .ok (v, rest)) :
    values w s = (v :: (values w rest).1, (values w rest).2) := by
  have hs : s ≠ [] := by
    rintro rfl
    cases h
  rw [values, if_neg hs]
  split
  · rename_i e h'
    rw [h] at h'
    cases h'
  · rename_i v' rest' h'
    rw [h] at h'
    cases h'
    rfl

/-- Bytes without top bit are their own values. -/
theorem values_of_small (hw : 7 ≤ w) {s : List UInt8} (h : ∀ b ∈ s, b.toNat < 128) :
    values w s = (s.map UInt8.toNat, true) := by
  induction s with
  | nil => exact values_nil
  | cons b s ih =>
      rw [values_of_ok (decode_of_small hw (h b (List.mem_cons_self ..)) s),
        ih fun c hc => h c (List.mem_cons_of_mem _ hc)]
      rfl

theorem length_values_le (s : List UInt8) : (values w s).1.length ≤ s.length := by
  induction hn : s.length using Nat.strongRecOn generalizing s with
  | ind n ih =>
      by_cases hs : s = []
      · rw [hs, values_nil]
        exact Nat.zero_le _
      · cases hd : decode w s with
        | error e =>
            rw [values_of_error hs hd]
            exact Nat.zero_le _
        | ok p =>
            have hlt := decode_length hd
            have hle := ih p.2.length (by omega) p.2 rfl
            rw [values_of_ok hd, List.length_cons]
            omega

/-- A byte with top bit is no value of its own. -/
theorem length_values_lt {s : List UInt8} {b : UInt8} (hb : b ∈ s) (hlarge : 128 ≤ b.toNat) :
    (values w s).1.length < s.length := by
  induction s with
  | nil => cases hb
  | cons c s ih =>
      cases hd : decode w (c :: s) with
      | error e =>
          rw [values_of_error (List.cons_ne_nil _ _) hd]
          exact Nat.succ_pos _
      | ok p =>
          rw [values_of_ok hd, List.length_cons, List.length_cons]
          by_cases hc : 128 ≤ c.toNat
          · have hlt := decode_length_of_large hc hd
            have hle := length_values_le (w := w) p.2
            omega
          · have hmem : b ∈ s := by
              rcases List.mem_cons.mp hb with rfl | hmem
              · exact absurd hlarge hc
              · exact hmem
            rw [decode_rest_of_small (Nat.lt_of_not_le hc) hd]
            exact Nat.succ_lt_succ (ih hmem)

end values

end Varint
