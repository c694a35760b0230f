import Mathlib

/-! # Debouncing a signal

A debouncer of depth `k` puts out the level of its input once `k + 1` samples agree, and keeps its
output until then; before the first sample the input counts as `a`.  A change of the output is
always to a level held for `k + 1` samples (`settled_change`), so that shorter pulses change
nothing (`settled_keep`, `settled_pulse`) while a level held so long is put out (`settled_held`),
and what is put out lasts as long itself (`settled_lasts`). -/

namespace Debounce

variable {α : Type}

/-- The sample `j` before sample `n`. -/
def back (a : α) (x : ℕ → α) (n j : ℕ) : α := if j ≤ n then x (n - j) else a

section
variable {a : α} {x : ℕ → α} {n : ℕ}

theorem back_of_le {j : ℕ} (h : j ≤ n) : back a x n j = x (n - j) := if_pos h

@[simp] theorem back_zero : back a x n 0 = x n := rfl

@[simp] theorem back_succ (j : ℕ) : back a x (n + 1) (j + 1) = back a x n j := by
  simp only [back, Nat.add_le_add_iff_right, Nat.add_sub_add_right]

/-- A part of the samples. -/
theorem map_back {β : Type} (f : α → β) (j : ℕ) :
    f (back a x n j) = back (f a) (fun m => f (x m)) n j := apply_ite f ..

end

variable [DecidableEq α]

/-- The last `k + 1` samples agree. -/
def Steady (k : ℕ) (a : α) (x : ℕ → α) (n : ℕ) : Prop := ∀ j ≤ k, back a x n j = x n

instance (k : ℕ) (a : α) (x : ℕ → α) (n : ℕ) : Decidable (Steady k a x n) :=
  inferInstanceAs (Decidable (∀ j ≤ k, _))

/-- The output after the first `n` samples. -/
def settled (k : ℕ) (a : α) (x : ℕ → α) : ℕ → α
  | 0 => a
  | n + 1 => if Steady k a x n then x n else settled k a x n

section
variable {k : ℕ} {a : α} {x : ℕ → α} {n : ℕ}

/-- A new output is the level of the last `k + 1` samples. -/
theorem settled_change (h : settled k a x (n + 1) ≠ settled k a x n) :
    ∀ j ≤ k, back a x n j = settled k a x (n + 1) := by
  rw [settled] at h ⊢
  split at h
  · next hs =>
    rw [if_pos hs]
    exact hs
  · exact absurd rfl h

/-- A level held for `k + 1` samples is put out. -/
theorem settled_held {v : α} (h : ∀ j ≤ k, x (n + j) = v) : settled k a x (n + k + 1) = v := by
  have hs : Steady k a x (n + k) := by
    intro j hj
    rw [back_of_le (by omega), h k (Nat.le_refl k)]
    obtain ⟨i, rfl⟩ : ∃ i, k = i + j := ⟨k - j, by omega⟩
    have hi := h i (by omega)
    rwa [← Nat.add_assoc, Nat.add_sub_cancel]
  rw [settled, if_pos hs, h k (Nat.le_refl k)]

/-- Without `k + 1` samples of another level the output stays. -/
theorem settled_keep {u : α} {p q : ℕ} (hp : settled k a x p = u) (hpq : p ≤ q)
    (h : ∀ n, p ≤ n → n < q → x n = u ∨ ¬ Steady k a x n) : settled k a x q = u := by
  induction q, hpq using Nat.le_induction with
  | base => exact hp
  | succ q hpq ih =>
      have hq := ih fun n hn hlt => h n hn (by omega)
      rw [settled]
      split
      · next hs => exact (h q hpq (Nat.lt_succ_self q)).resolve_right (not_not.mpr hs)
      · exact hq

/-- No sample of a pulse shorter than `k + 1` samples changes the output. -/
theorem settled_pulse {l : ℕ} {v : α} (hl : l ≤ k) (hbefore : back a x n 1 ≠ v)
    (h : ∀ j < l, x (n + j) = v) : ∀ j ≤ l, settled k a x (n + j) = settled k a x n := by
  intro j hj
  refine settled_keep rfl (Nat.le_add_right n j) fun m hm hlt => .inr fun hs => ?_
  obtain ⟨i, rfl⟩ : ∃ i, m = n + i := ⟨m - n, by omega⟩
  have hback : back a x (n + i) (i + 1) = back a x n 1 := by
    clear hs hlt hm h
    induction i with
    | zero => rfl
    | succ i ih => rw [← Nat.add_assoc, back_succ, ih]
  exact hbefore (by rw [← hback, hs (i + 1) (by omega), h i (by omega)])

/-- A new output lasts for `k + 1` samples. -/
theorem settled_lasts (h : settled k a x (n + 1) ≠ settled k a x n) :
    ∀ j ≤ k, settled k a x (n + 1 + j) = settled k a x (n + 1) := by
  intro j hj
  refine settled_keep rfl (Nat.le_add_right ..) fun m hm hlt => ?_
  have hn : x n = settled k a x (n + 1) := settled_change h 0 (Nat.zero_le k)
  refine or_iff_not_imp_right.mpr fun hs => ?_
  have hback := (not_not.mp hs) (m - n) (by omega)
  rw [back_of_le (Nat.sub_le m n), Nat.sub_sub_self (by omega)] at hback
  rw [← hback, hn]

end
end Debounce
