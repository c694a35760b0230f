import ErgoDock.Lib.Run

/-! # Bounded first-in first-out queues of repeated work

The abstract queue behind a transmit buffer: at most `cap` jobs, each an item to be served a
number of times in a row.  Offering a job appends it if it fits; serving serves the first job
once.  A job with nothing left to serve and a queue over its capacity cannot be built.

`owed` is what the queue still has to serve, item by item.  What is served and what is owed
always add up (`served_balance`): between two resets the offered items come out in order,
each as often as it was asked for. -/

open Machine

/-- An item to serve `left` more times. -/
structure Job (α : Type) where
  item : α
  left : ℕ
  left_pos : 0 < left
deriving DecidableEq

namespace Job
variable {α : Type} (j : Job α)

/-- What the job still owes. -/
def owed : List α := List.replicate j.left j.item

/-- What remains of the job after it was served once. -/
def rest : List (Job α) :=
  if h : 1 < j.left then [⟨j.item, j.left - 1, Nat.sub_pos_of_lt h⟩] else []

theorem length_rest : j.rest.length ≤ 1 := by
  unfold rest
  split <;> simp

theorem owed_eq : j.owed = j.item :: j.rest.flatMap owed := by
  obtain ⟨n, hn⟩ : ∃ n, j.left = n + 1 := ⟨j.left - 1, by have := j.left_pos; omega⟩
  unfold rest
  split
  · simp [owed, hn, List.replicate_succ]
  · next h =>
    have h0 : n = 0 := by omega
    simp [owed, hn, h0]

end Job

/-- A queue of at most `cap` jobs, the next one first. -/
structure Fifo (α : Type) (cap : ℕ) where
  jobs : List (Job α)
  length_le : jobs.length ≤ cap

namespace Fifo
variable {α : Type} {cap : ℕ} {fits : α → Prop} [DecidablePred fits]

@[ext] theorem ext {f g : Fifo α cap} (h : f.jobs = g.jobs) : f = g := by
  cases f
  cases g
  cases h
  rfl

def empty : Fifo α cap := ⟨[], Nat.zero_le _⟩

/-- The operations; `idle` is a step of the environment that does not concern the queue. -/
inductive Op (α : Type) where
  | reset
  | offer (j : Job α)
  | serve
  | idle

/-- The answers. -/
inductive Answer (α : Type) where
  | accepted
  | refused
  | served (a : α)
deriving DecidableEq

/-- The job is accepted: there is room, and the item fits. -/
def Accepts (fits : α → Prop) (f : Fifo α cap) (j : Job α) : Prop :=
  f.jobs.length < cap ∧ fits j.item

instance (f : Fifo α cap) (j : Job α) : Decidable (f.Accepts fits j) := by
  unfold Accepts; infer_instance

/-- The queue after an operation. -/
def apply (fits : α → Prop) [DecidablePred fits] (f : Fifo α cap) : Op α → Fifo α cap
  | .reset => empty
  | .offer j =>
      if h : f.Accepts fits j then ⟨f.jobs ++ [j], by
        rw [List.length_append]
        exact h.1⟩ else f
  | .serve =>
      match h : f.jobs with
      | [] => f
      | j :: js => ⟨j.rest ++ js, by
          have hl := f.length_le
          have hr := j.length_rest
          simp only [h, List.length_cons] at hl
          simp only [List.length_append]
          omega⟩
  | .idle => f

/-- The answer to an operation. -/
def answer (fits : α → Prop) [DecidablePred fits] (f : Fifo α cap) : Op α → List (Answer α)
  | .offer j => [if f.Accepts fits j then .accepted else .refused]
  | .serve => f.jobs.head?.toList.map fun j => .served j.item
  | .reset | .idle => []

/-- What is served by an operation. -/
def served (f : Fifo α cap) : Op α → List α
  | .serve => f.jobs.head?.toList.map Job.item
  | .reset | .offer _ | .idle => []

/-- What an operation asks for and is promised. -/
def granted (fits : α → Prop) [DecidablePred fits] (f : Fifo α cap) : Op α → List α
  | .offer j => if f.Accepts fits j then j.owed else []
  | .reset | .serve | .idle => []

/-- What is still to be served. -/
def owed (f : Fifo α cap) : List α := f.jobs.flatMap Job.owed

/-! ### The operations on the jobs -/

section lemmas
variable (f : Fifo α cap)

@[simp] theorem jobs_reset : (f.apply fits .reset).jobs = [] := rfl

@[simp] theorem jobs_idle : (f.apply fits .idle).jobs = f.jobs := rfl

theorem jobs_offer (j : Job α) :
    (f.apply fits (.offer j)).jobs =
      if f.Accepts fits j then f.jobs ++ [j] else f.jobs := by
  simp only [apply]
  split <;> rfl

theorem jobs_serve {j : Job α} {js : List (Job α)} (h : f.jobs = j :: js) :
    (f.apply fits .serve).jobs = j.rest ++ js := by
  simp only [apply]
  split
  · next h' => simp [h'] at h
  · next h' =>
    rw [h'] at h
    obtain ⟨rfl, rfl⟩ := List.cons.inj h
    rfl

theorem serve_of_empty (h : f.jobs = []) : f.apply fits .serve = f := by
  simp only [apply]
  split
  · rfl
  · next h' => simp [h'] at h

theorem owed_eq_nil_iff : f.owed = [] ↔ f.jobs = [] := by
  constructor
  · intro h
    cases hj : f.jobs with
    | nil => rfl
    | cons j js =>
        rw [owed, hj, List.flatMap_cons, j.owed_eq] at h
        cases h
  · intro h
    rw [owed, h]
    rfl

/-- At most one item is served, and only by serving. -/
theorem served_length (op : Op α) : (f.served op).length ≤ 1 := by
  cases op with
  | serve => cases h : f.jobs <;> simp [served, h]
  | _ => simp [served]

/-! ### What is served and what is owed -/

/-- One operation other than a reset. -/
theorem served_append_owed (op : Op α) (h : op ≠ .reset) :
    f.served op ++ (f.apply fits op).owed = f.owed ++ f.granted fits op := by
  cases op with
  | reset => exact absurd rfl h
  | offer j =>
      rw [owed, jobs_offer, served, granted, owed]
      split <;> simp
  | serve =>
      cases hj : f.jobs with
      | nil => simp [served, granted, hj, f.serve_of_empty hj]
      | cons j js =>
          rw [owed, f.jobs_serve hj, owed, hj, List.flatMap_cons, j.owed_eq]
          simp [served, granted, hj]
  | idle => simp [served, granted, owed]

end lemmas

/-- Without a reset, what is served followed by what is owed at the end is what was owed at
the beginning followed by what was promised since. -/
theorem served_balance (f : Fifo α cap) {ops : List (Op α)} (h : ∀ op ∈ ops, op ≠ .reset) :
    outputs (apply fits) served f ops ++ (exec (apply fits) f ops).owed =
      f.owed ++ outputs (apply fits) (granted fits) f ops := by
  have hstep : ∀ (f : Fifo α cap) (op : Op α), op ≠ .reset →
      f.served op ++ (f.apply fits op).owed = f.owed ++ f.granted fits op :=
    fun f op hop => f.served_append_owed op hop
  exact outputs_balance hstep (along_of_forall fun op hop _ => h op hop)

end Fifo
