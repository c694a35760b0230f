import Mathlib

/-! # Circular buffers

A circular buffer of fixed capacity with a head index, a tail index and a count, as the
usual C implementation keeps them.  The three indices carry their consistency as fields, so
a buffer whose `tail` is not `head + count` around the ring cannot be built.

`toList` reads the content from head to tail; the operations are characterised on it
(`toList_push`, `toList_pop`, `toList_setHead`, `toList_clear`): the buffer is a bounded
first-in first-out queue. -/

/-- A circular buffer of capacity `cap`. -/
structure RingBuffer (α : Type) (cap : ℕ) where
  slot : Fin cap → α
  head : ℕ
  tail : ℕ
  count : ℕ
  head_lt : head < cap
  count_le : count ≤ cap
  tail_eq : tail = (head + count) % cap

namespace RingBuffer

variable {α : Type} {cap : ℕ}

/-- An index taken once around the ring. -/
theorem mod_cases (x cap : ℕ) (h : x < 2 * cap) :
    (x < cap ∧ x % cap = x) ∨ (cap ≤ x ∧ x % cap = x - cap) := by
  rcases Nat.lt_or_ge x cap with hlt | hge
  · exact Or.inl ⟨hlt, Nat.mod_eq_of_lt hlt⟩
  · refine Or.inr ⟨hge, ?_⟩
    rw [Nat.mod_eq_sub_mod hge, Nat.mod_eq_of_lt (by omega)]

theorem tail_lt (r : RingBuffer α cap) : r.tail < cap := by
  rw [r.tail_eq]
  exact Nat.mod_lt _ (Nat.zero_lt_of_lt r.head_lt)

/-- The element `i` places behind the head. -/
def get (r : RingBuffer α cap) (i : ℕ) : α :=
  r.slot ⟨(r.head + i) % cap, Nat.mod_lt _ (Nat.zero_lt_of_lt r.head_lt)⟩

/-- The content, oldest element first. -/
def toList (r : RingBuffer α cap) : List α := (List.range r.count).map r.get

/-- The empty buffer, every slot holding `a`. -/
def empty (a : α) (h : 0 < cap) : RingBuffer α cap where
  slot := fun _ => a
  head := 0
  tail := 0
  count := 0
  head_lt := h
  count_le := Nat.zero_le _
  tail_eq := by simp

/-- Forget the content; the slots keep their stale values. -/
def clear (r : RingBuffer α cap) : RingBuffer α cap where
  slot := r.slot
  head := 0
  tail := 0
  count := 0
  head_lt := Nat.zero_lt_of_lt r.head_lt
  count_le := Nat.zero_le _
  tail_eq := by simp

/-- Write the tail slot and advance the tail. -/
def push (r : RingBuffer α cap) (a : α) (h : r.count < cap) : RingBuffer α cap where
  slot := Function.update r.slot ⟨r.tail, r.tail_lt⟩ a
  head := r.head
  tail := (r.tail + 1) % cap
  count := r.count + 1
  head_lt := r.head_lt
  count_le := h
  tail_eq := by rw [r.tail_eq, Nat.mod_add_mod, Nat.add_assoc]

/-- The head slot. -/
def front (r : RingBuffer α cap) : α := r.slot ⟨r.head, r.head_lt⟩

/-- Overwrite the head slot in place. -/
def setHead (r : RingBuffer α cap) (a : α) : RingBuffer α cap :=
  { r with slot := Function.update r.slot ⟨r.head, r.head_lt⟩ a }

/-- Advance the head. -/
def pop (r : RingBuffer α cap) (h : 0 < r.count) : RingBuffer α cap where
  slot := r.slot
  head := (r.head + 1) % cap
  tail := r.tail
  count := r.count - 1
  head_lt := Nat.mod_lt _ (Nat.zero_lt_of_lt r.head_lt)
  count_le := Nat.le_trans (Nat.sub_le _ _) r.count_le
  tail_eq := by
    rw [r.tail_eq, Nat.mod_add_mod, Nat.add_assoc, Nat.add_sub_cancel' h]

/-! ### The queue a circular buffer represents -/

@[simp] theorem length_toList (r : RingBuffer α cap) : r.toList.length = r.count := by simp [toList]

@[simp] theorem toList_empty (a : α) (h : 0 < cap) : (empty a h).toList = [] := rfl

@[simp] theorem toList_clear (r : RingBuffer α cap) : r.clear.toList = [] := rfl

theorem toList_eq_nil_iff (r : RingBuffer α cap) : r.toList = [] ↔ r.count = 0 := by
  rw [← List.length_eq_zero_iff, length_toList]

theorem get_zero (r : RingBuffer α cap) : r.get 0 = r.front := by
  simp only [get, front, Nat.add_zero, Nat.mod_eq_of_lt r.head_lt]

/-- Distinct places of the ring are distinct slots. -/
theorem place_ne (r : RingBuffer α cap) {i j : ℕ} (hij : i < j) (hj : j < cap) :
    (r.head + i) % cap ≠ (r.head + j) % cap := by
  have hh := r.head_lt
  rcases mod_cases (r.head + i) cap (by omega) with ⟨_, hi⟩ | ⟨_, hi⟩ <;>
    rcases mod_cases (r.head + j) cap (by omega) with ⟨_, hj'⟩ | ⟨_, hj'⟩ <;> omega

/-- Appending at the tail. -/
@[simp] theorem toList_push (r : RingBuffer α cap) (a : α) (h : r.count < cap) :
    (r.push a h).toList = r.toList ++ [a] := by
  have hold : ∀ i ∈ List.range r.count, (r.push a h).get i = r.get i := by
    intro i hi
    have hne := r.place_ne (List.mem_range.mp hi) h
    rw [← r.tail_eq] at hne
    simp only [get, push]
    exact Function.update_of_ne (fun he => hne (congrArg Fin.val he)) _ _
  have hnew : (r.push a h).get r.count = a := by
    simp only [get, push, ← r.tail_eq]
    exact Function.update_self _ _ _
  simp only [toList]
  rw [show (r.push a h).count = r.count + 1 from rfl, List.range_succ, List.map_append,
    List.map_singleton, hnew, List.map_congr_left hold]

/-- A non-empty buffer is its front followed by the rest. -/
theorem toList_pop (r : RingBuffer α cap) (h : 0 < r.count) :
    r.toList = r.front :: (r.pop h).toList := by
  have hshift : ∀ i, (r.pop h).get i = r.get (i + 1) := by
    intro i
    simp only [get, pop]
    congr 2
    rw [Nat.mod_add_mod]
    congr 1
    omega
  obtain ⟨n, hn⟩ : ∃ n, r.count = n + 1 := ⟨r.count - 1, by omega⟩
  simp only [toList]
  rw [show (r.pop h).count = n by simp [pop, hn], hn, List.range_succ_eq_map, List.map_cons,
    get_zero, List.map_map]
  congr 1
  exact List.map_congr_left (fun i _ => (hshift i).symm)

@[simp] theorem front_setHead (r : RingBuffer α cap) (a : α) : (r.setHead a).front = a := by
  simp [front, setHead]

@[simp] theorem count_setHead (r : RingBuffer α cap) (a : α) : (r.setHead a).count = r.count := rfl

/-- Overwriting the head leaves the rest alone. -/
theorem toList_pop_setHead (r : RingBuffer α cap) (a : α) (h : 0 < r.count) :
    ((r.setHead a).pop h).toList = (r.pop h).toList := by
  refine List.map_congr_left (fun i hi => ?_)
  have hi' : i < r.count - 1 := List.mem_range.mp hi
  have hcount := r.count_le
  have hne := r.place_ne (i := 0) (j := i + 1) (by omega) (by omega)
  rw [Nat.add_zero, Nat.mod_eq_of_lt r.head_lt] at hne
  simp only [get, pop, setHead]
  refine Function.update_of_ne (fun he => hne ?_) _ _
  have he' := congrArg Fin.val he
  simp only [Nat.mod_add_mod] at he'
  rw [← he']
  congr 1
  omega

theorem toList_setHead (r : RingBuffer α cap) (a : α) (h : 0 < r.count) :
    (r.setHead a).toList = a :: (r.pop h).toList := by
  rw [toList_pop (r.setHead a) h, front_setHead, toList_pop_setHead r a h]

end RingBuffer
