import Mathlib

/-! # Records in raw memory

A memory is a function from addresses to bytes.  `overlay` is what a loop of byte stores leaves
behind, `word` a 32-bit little-endian word, `cstring` a string up to its first zero byte.  A record
is a list of members with their sizes, one behind the other: `offset_disjoint` says that different
members do not overlap, `offset_add_size_le` that all of them lie inside the record. -/

namespace RawMemory

/-- Memory. -/
abbrev Mem := ℕ → UInt8

/-- One byte. -/
def set (m : Mem) (a : ℕ) (v : UInt8) : Mem := fun x => if x = a then v else m x

/-- Bytes from `base` on. -/
def overlay (m : Mem) (base : ℕ) (bs : List UInt8) : Mem := fun x =>
  if base ≤ x ∧ x < base + bs.length then bs.getD (x - base) 0 else m x

section overlay
variable {m : Mem} {base x : ℕ} {bs : List UInt8}

@[simp] theorem overlay_nil (m : Mem) (base : ℕ) : overlay m base [] = m := by
  funext x
  exact if_neg fun h => by
    rw [List.length_nil] at h
    omega

theorem overlay_outside (h : x < base ∨ base + bs.length ≤ x) : overlay m base bs x = m x :=
  if_neg (by omega)

theorem overlay_inside (h : base ≤ x ∧ x < base + bs.length) :
    overlay m base bs x = bs.getD (x - base) 0 := if_pos h

/-- A loop of stores, its first step split off. -/
theorem overlay_cons (m : Mem) (base : ℕ) (b : UInt8) (bs : List UInt8) :
    overlay (set m base b) (base + 1) bs = overlay m base (b :: bs) := by
  funext x
  unfold overlay set
  rw [List.length_cons]
  by_cases hx : x = base
  · subst hx
    rw [if_neg (by omega), if_pos rfl, if_pos (by omega), Nat.sub_self]
    rfl
  · by_cases hin : base + 1 ≤ x ∧ x < base + 1 + bs.length
    · obtain ⟨i, rfl⟩ := Nat.exists_eq_add_of_le hin.1
      rw [if_pos hin, if_pos (by omega), Nat.add_sub_cancel_left,
        show base + 1 + i - base = i + 1 by omega, List.getD_cons_succ]
    · rw [if_neg hin, if_neg hx, if_neg (by omega)]

/-- A store over bytes that are known depends on these only. -/
theorem overlay_congr {m' : Mem} (h : m x = m' x) : overlay m base bs x = overlay m' base bs x := by
  unfold overlay
  rw [h]

/-- Stores that leave `x` alone, one after the other. -/
theorem foldl_untouched {α κ β : Type} {store : (κ → β) → α → κ → β} {l : List α} {x : κ}
    (h : ∀ a ∈ l, ∀ m, store m a x = m x) (m : κ → β) : l.foldl store m x = m x := by
  induction l generalizing m with
  | nil => rfl
  | cons a l ih =>
      rw [List.foldl_cons, ih fun b hb => h b (List.mem_cons_of_mem _ hb),
        h a (List.mem_cons_self ..)]

end overlay

/-! ### Words -/

/-- The little-endian word at `p`. -/
def word (m : Mem) (p : ℕ) : BitVec 32 :=
  BitVec.ofNat 32 ((m p).toNat + 256 * (m (p + 1)).toNat + 65536 * (m (p + 2)).toNat +
    16777216 * (m (p + 3)).toNat)

def wordBytes (v : BitVec 32) : List UInt8 :=
  [UInt8.ofNat v.toNat, UInt8.ofNat (v.toNat / 256), UInt8.ofNat (v.toNat / 65536),
    UInt8.ofNat (v.toNat / 16777216)]

def setWord (m : Mem) (p : ℕ) (v : BitVec 32) : Mem := overlay m p (wordBytes v)

section word
variable {m m' : Mem} {p : ℕ}

theorem word_congr (h : ∀ i < 4, m (p + i) = m' (p + i)) : word m p = word m' p := by
  unfold word
  rw [show m p = m' p from h 0 (by decide), h 1 (by decide), h 2 (by decide), h 3 (by decide)]

theorem setWord_outside {x : ℕ} (v : BitVec 32) (h : x < p ∨ p + 4 ≤ x) :
    setWord m p v x = m x := overlay_outside h

theorem setWord_inside {i : ℕ} (v : BitVec 32) (h : i < 4) :
    setWord m p v (p + i) = (wordBytes v).getD i 0 := by
  have hlen : (wordBytes v).length = 4 := rfl
  unfold setWord
  rw [overlay_inside (by omega), Nat.add_sub_cancel_left]

theorem word_setWord (m : Mem) (p : ℕ) (v : BitVec 32) : word (setWord m p v) p = v := by
  have h₀ : setWord m p v p = UInt8.ofNat v.toNat := setWord_inside (i := 0) v (by decide)
  have h₁ : setWord m p v (p + 1) = UInt8.ofNat (v.toNat / 256) := setWord_inside v (by decide)
  have h₂ : setWord m p v (p + 2) = UInt8.ofNat (v.toNat / 65536) := setWord_inside v (by decide)
  have h₃ : setWord m p v (p + 3) = UInt8.ofNat (v.toNat / 16777216) :=
    setWord_inside v (by decide)
  have hlt := v.isLt
  apply BitVec.eq_of_toNat_eq
  unfold word
  rw [h₀, h₁, h₂, h₃, BitVec.toNat_ofNat, UInt8.toNat_ofNat', UInt8.toNat_ofNat',
    UInt8.toNat_ofNat', UInt8.toNat_ofNat']
  omega

end word

/-! ### Bytes and strings -/

/-- The `n` bytes from `p` on. -/
def slice (m : Mem) (p n : ℕ) : List UInt8 := (List.range n).map fun i => m (p + i)

/-- How far it is to the next zero byte, at most `space`. -/
def strlen (m : Mem) : ℕ → ℕ → ℕ
  | 0, _ => 0
  | space + 1, p => if m p = 0 then 0 else strlen m space (p + 1) + 1

/-- The string at `p`. -/
def cstring (space : ℕ) (m : Mem) (p : ℕ) : List UInt8 := slice m p (strlen m space p)

section strings
variable {m m' : Mem} {p k n space : ℕ}

@[simp] theorem length_slice : (slice m p n).length = n := by
  unfold slice
  rw [List.length_map, List.length_range]

theorem getD_slice (i : ℕ) : (slice m p n).getD i 0 = if i < n then m (p + i) else 0 := by
  unfold slice
  rw [List.getD_eq_getElem?_getD, List.getElem?_map]
  split
  · rw [List.getElem?_range ‹_›]
    rfl
  · rw [List.getElem?_eq_none (by rw [List.length_range]; omega)]
    rfl

theorem slice_congr (h : ∀ i < n, m (p + i) = m' (p + i)) : slice m p n = slice m' p n :=
  List.map_congr_left fun i hi => h i (List.mem_range.mp hi)

/-- No byte of a string is zero. -/
theorem ne_zero_of_lt_strlen {i : ℕ} (h : i < strlen m space p) : m (p + i) ≠ 0 := by
  induction space generalizing p i with
  | zero => exact absurd h (Nat.not_lt_zero _)
  | succ space ih =>
      rw [strlen] at h
      split at h
      · exact absurd h (Nat.not_lt_zero _)
      · rename_i hp
        cases i with
        | zero => exact hp
        | succ i =>
            have hi := ih (p := p + 1) (i := i) (by omega)
            rwa [Nat.add_right_comm] at hi

theorem strlen_le_space : strlen m space p ≤ space := by
  induction space generalizing p with
  | zero => exact Nat.le_refl _
  | succ space ih =>
      rw [strlen]
      split
      · exact Nat.zero_le _
      · exact Nat.succ_le_succ ih

theorem strlen_le (h : m (p + k) = 0) : strlen m space p ≤ k := by
  induction space generalizing p k with
  | zero => exact Nat.zero_le _
  | succ space ih =>
      rw [strlen]
      split
      · exact Nat.zero_le _
      · rename_i hp
        cases k with
        | zero => exact absurd h hp
        | succ k =>
            have hle := ih (p := p + 1) (k := k) (by rwa [Nat.add_right_comm])
            omega

/-- The string ends with a zero byte, or with the space. -/
theorem strlen_zero (h : strlen m space p < space) : m (p + strlen m space p) = 0 := by
  induction space generalizing p with
  | zero => exact absurd h (Nat.not_lt_zero _)
  | succ space ih =>
      rw [strlen] at h ⊢
      split at h
      · rw [if_pos ‹_›]
        assumption
      · rw [if_neg ‹_›, ← Nat.add_assoc, Nat.add_right_comm]
        exact ih (Nat.lt_of_succ_lt_succ h)

theorem strlen_eq (hne : ∀ i < k, m (p + i) ≠ 0) (hz : m (p + k) = 0) (hk : k ≤ space) :
    strlen m space p = k := by
  refine Nat.le_antisymm (strlen_le hz) ?_
  by_contra hlt
  exact hne _ (Nat.lt_of_not_le hlt) (strlen_zero (by omega))

@[simp] theorem length_cstring : (cstring space m p).length = strlen m space p := length_slice

/-- A string that was put into zeroed memory is there. -/
theorem cstring_of_getD (h : ∀ i < n, m' (p + i) = (cstring space m p).getD i 0)
    (hn : strlen m space p < n) : cstring space m' p = cstring space m p := by
  have hin : ∀ i < strlen m space p, m' (p + i) = m (p + i) := by
    intro i hi
    rw [h i (by omega), cstring, getD_slice, if_pos hi]
  have hlen : strlen m' space p = strlen m space p := by
    refine strlen_eq (fun i hi => ?_) ?_ strlen_le_space
    · rw [hin i hi]
      exact ne_zero_of_lt_strlen hi
    · rw [h _ hn, cstring, getD_slice, if_neg (Nat.lt_irrefl _)]
  unfold cstring
  rw [hlen]
  exact slice_congr hin

/-- What was put into zeroed memory is not longer than it was. -/
theorem length_cstring_le {bs : List UInt8} (h : ∀ i < n, m' (p + i) = bs.getD i 0)
    (hn : bs.length < n) : (cstring space m' p).length ≤ bs.length := by
  rw [length_cstring]
  refine strlen_le ?_
  rw [h _ hn, List.getD_eq_default _ _ (Nat.le_refl _)]

end strings

/-! ### Records -/

section records
variable {κ : Type} [DecidableEq κ]

/-- Where a member begins. -/
def offset : List (κ × ℕ) → κ → ℕ
  | [], _ => 0
  | (k, n) :: l, m => if k = m then 0 else n + offset l m

def size : List (κ × ℕ) → κ → ℕ
  | [], _ => 0
  | (k, n) :: l, m => if k = m then n else size l m

/-- The size of the record. -/
def sizeof : List (κ × ℕ) → ℕ
  | [] => 0
  | (_, n) :: l => n + sizeof l

theorem offset_add_size_le (l : List (κ × ℕ)) (m : κ) : offset l m + size l m ≤ sizeof l := by
  induction l with
  | nil => exact Nat.le_refl _
  | cons p l ih =>
      obtain ⟨k, n⟩ := p
      unfold offset size sizeof
      split
      · omega
      · omega

/-- Different members do not overlap. -/
theorem offset_disjoint (l : List (κ × ℕ)) {a b : κ} (h : a ≠ b) :
    offset l a + size l a ≤ offset l b ∨ offset l b + size l b ≤ offset l a := by
  induction l with
  | nil => exact .inl (Nat.le_refl _)
  | cons p l ih =>
      obtain ⟨k, n⟩ := p
      unfold offset size
      by_cases ha : k = a
      · have hb : k ≠ b := fun hb => h (ha.symm.trans hb)
        rw [if_pos ha, if_pos ha, if_neg hb]
        omega
      · rw [if_neg ha, if_neg ha]
        split
        · omega
        · omega

theorem size_of_mem {l : List (κ × ℕ)} (hnodup : (l.map Prod.fst).Nodup) {k : κ} {n : ℕ}
    (h : (k, n) ∈ l) : size l k = n := by
  induction l with
  | nil => cases h
  | cons p l ih =>
      obtain ⟨k', n'⟩ := p
      obtain ⟨hnot, hnodup⟩ := List.nodup_cons.mp hnodup
      unfold size
      rcases List.mem_cons.mp h with he | hl
      · cases he
        exact if_pos rfl
      · rw [if_neg fun he => hnot (List.mem_map.mpr ⟨(k, n), hl, he.symm⟩)]
        exact ih hnodup hl

end records

end RawMemory
