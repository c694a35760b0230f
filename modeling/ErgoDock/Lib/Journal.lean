import Mathlib

/-! # Journals

A journal is a row of slots in a memory that can be written once: a slot is blank, holds a value,
or is dead, because its value was withdrawn or never got there complete.  The value of the journal
is that of the first slot that is not dead.

`Ordered` is what writers of such a journal keep: behind the dead slots there is at most one value,
and the rest is blank.  Two changes are all they need: the first slot that is not dead dies
(`Ordered.kill`), and if it is blank it is filled (`Ordered.fill`).  A new value takes both, so it
is first withdrawn and then written; in between the journal has no value. -/

inductive Slot (α : Type) where
  | dead
  | live (v : α)
  | blank
deriving DecidableEq

namespace Journal

variable {α : Type} {l l' : List (Slot α)} {v : α}

/-- The value of a journal. -/
def value : List (Slot α) → Option α
  | .dead :: l => value l
  | .live v :: _ => some v
  | _ => none

/-- How many slots are passed over before the first that is not dead. -/
def passed : List (Slot α) → ℕ
  | .dead :: l => passed l + 1
  | _ => 0

/-- How many slots are blank. -/
def free (l : List (Slot α)) : ℕ := l.countP fun s => s matches .blank

inductive Ordered : List (Slot α) → Prop
  | blank (n : ℕ) : Ordered (List.replicate n .blank)
  | live (v : α) (n : ℕ) : Ordered (.live v :: List.replicate n .blank)
  | dead {l : List (Slot α)} : Ordered l → Ordered (.dead :: l)

@[simp] theorem value_dead : value (.dead :: l) = value l := rfl

@[simp] theorem passed_dead : passed (.dead :: l) = passed l + 1 := rfl

@[simp] theorem free_dead : free (.dead :: l) = free l := List.countP_cons_of_neg (by simp)

@[simp] theorem free_live : free (.live v :: l) = free l := List.countP_cons_of_neg (by simp)

@[simp] theorem free_blank : free (.blank :: l) = free l + 1 := List.countP_cons_of_pos (by simp)

@[simp] theorem value_replicate (n : ℕ) : value (List.replicate n (.blank : Slot α)) = none := by
  cases n <;> rfl

@[simp] theorem passed_replicate (n : ℕ) : passed (List.replicate n (.blank : Slot α)) = 0 := by
  cases n <;> rfl

@[simp] theorem free_replicate (n : ℕ) : free (List.replicate n (.blank : Slot α)) = n := by
  induction n with
  | zero => rfl
  | succ n ih => rw [List.replicate_succ, free_blank, ih]

theorem passed_le (l : List (Slot α)) : passed l ≤ l.length := by
  induction l with
  | nil => exact Nat.le_refl 0
  | cons s l ih =>
      cases s with
      | dead => simpa using ih
      | live v => exact Nat.zero_le _
      | blank => exact Nat.zero_le _

theorem getElem_of_lt_passed {i : ℕ} (h : i < passed l) (hi : i < l.length) : l[i] = .dead := by
  induction l generalizing i with
  | nil => exact absurd hi (Nat.not_lt_zero i)
  | cons s l ih =>
      cases s with
      | dead =>
          cases i with
          | zero => rfl
          | succ i => exact ih (Nat.lt_of_succ_lt_succ h) (Nat.lt_of_succ_lt_succ hi)
      | live v => exact absurd h (Nat.not_lt_zero i)
      | blank => exact absurd h (Nat.not_lt_zero i)

/-- The first slot that is not dead has the value, or is blank. -/
theorem getElem_passed (h : passed l < l.length) :
    l[passed l] = (value l).elim .blank .live := by
  induction l with
  | nil => exact absurd h (Nat.not_lt_zero _)
  | cons s l ih =>
      cases s with
      | dead => simpa using ih (by simpa using h)
      | live v => rfl
      | blank => rfl

/-- A journal all of whose slots are dead has no value. -/
theorem value_eq_none (h : l.length ≤ passed l) : value l = none := by
  induction l with
  | nil => rfl
  | cons s l ih =>
      cases s with
      | dead => simpa using ih (by simpa using h)
      | live v => exact absurd h (Nat.not_succ_le_zero _)
      | blank => exact absurd h (Nat.not_succ_le_zero _)

theorem passed_lt_of_value (h : value l = some v) : passed l < l.length := by
  by_contra hle
  rw [value_eq_none (Nat.le_of_not_lt hle)] at h
  cases h

theorem passed_lt_of_free (h : 0 < free l) : passed l < l.length := by
  induction l with
  | nil => exact absurd h (Nat.lt_irrefl 0)
  | cons s l ih =>
      cases s with
      | dead => simpa using ih (by simpa using h)
      | live v => exact Nat.succ_pos _
      | blank => exact Nat.succ_pos _

namespace Ordered

/-- The first slot that is not dead dies. -/
theorem kill (h : Ordered l) : Ordered (l.set (passed l) .dead) := by
  induction h with
  | blank n =>
      cases n with
      | zero => exact .blank 0
      | succ n => exact .dead (.blank n)
  | live v n => exact .dead (.blank n)
  | dead _ ih => exact .dead ih

/-- With it goes the value. -/
theorem value_kill (h : Ordered l) : value (l.set (passed l) .dead) = none := by
  induction h with
  | blank n =>
      cases n with
      | zero => rfl
      | succ n => exact value_replicate n
  | live v n => exact value_replicate n
  | dead _ ih => exact ih

theorem free_kill (h : Ordered l) :
    free (l.set (passed l) .dead) = if value l = none then free l - 1 else free l := by
  induction h with
  | blank n =>
      cases n with
      | zero => rfl
      | succ n => simp [List.replicate_succ, passed, value]
  | live v n => simp [passed, value]
  | dead _ ih => simpa using ih

/-- Behind a value the next slot is blank. -/
theorem passed_kill (h : Ordered l) (hv : value l = some v) :
    passed (l.set (passed l) .dead) = passed l + 1 := by
  induction h with
  | blank n => simp at hv
  | live v n => simp [passed]
  | dead _ ih => simpa using ih hv

/-- A blank slot is filled. -/
theorem fill (h : Ordered l) (hv : value l = none) (v : α) :
    Ordered (l.set (passed l) (.live v)) := by
  induction h with
  | blank n =>
      cases n with
      | zero => exact .blank 0
      | succ n => exact .live v n
  | live u n => cases hv
  | dead _ ih => exact .dead (ih hv)

theorem value_fill (h : Ordered l) (hp : passed l < l.length) (v : α) :
    value (l.set (passed l) (.live v)) = some v := by
  induction h with
  | blank n =>
      cases n with
      | zero => exact absurd hp (Nat.not_lt_zero _)
      | succ n => rfl
  | live u n => rfl
  | dead _ ih => simpa using ih (by simpa using hp)

theorem free_fill (h : Ordered l) (hv : value l = none) (v : α) :
    free (l.set (passed l) (.live v)) = free l - 1 := by
  induction h with
  | blank n =>
      cases n with
      | zero => rfl
      | succ n => simp [List.replicate_succ, passed]
  | live u n => cases hv
  | dead _ ih => simpa using ih hv

/-- Without a value, the slots that are not dead are blank. -/
theorem free_eq (h : Ordered l) (hv : value l = none) : free l = l.length - passed l := by
  induction h with
  | blank n => simp
  | live u n => cases hv
  | dead _ ih => simpa using ih hv

theorem free_eq_of_value (h : Ordered l) (hv : value l = some v) :
    free l = l.length - (passed l + 1) := by
  induction h with
  | blank n => simp at hv
  | live u n => simp [passed]
  | dead _ ih => simpa using ih hv

end Ordered

end Journal
