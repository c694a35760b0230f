import ErgoDock.Lib.Run

/-! # Counters of a machine, and what holds throughout a run

`hits step hit s es` is the number of steps of a run that meet `hit`.  A counter that each such
step increments and no other step touches shows that number: modulo its modulus if it wraps
(`exec_wraps`), cut off at its maximum if it saturates (`exec_saturates`).

`forall_prefix_iff` turns a property of every state of a run into a condition on its steps, and
`exists_first_change` finds the step at which a property becomes true. -/

namespace Machine

variable {σ ε : Type} {step : σ → ε → σ} {hit : σ → ε → Prop} [∀ s e, Decidable (hit s e)]

/-- The number of steps of the run that meet `hit`. -/
def hits (step : σ → ε → σ) (hit : σ → ε → Prop) [∀ s e, Decidable (hit s e)] :
    σ → List ε → ℕ
  | _, [] => 0
  | s, e :: es => (if hit s e then 1 else 0) + hits step hit (step s e) es

@[simp] theorem hits_nil (s : σ) : hits step hit s [] = 0 := rfl

@[simp] theorem hits_cons (s : σ) (e : ε) (es : List ε) :
    hits step hit s (e :: es) = (if hit s e then 1 else 0) + hits step hit (step s e) es := rfl

/-- Steps that are counted by their event alone. -/
theorem hits_eq_countP {p : ε → Bool} (h : ∀ s e, hit s e ↔ p e = true) (s : σ) (es : List ε) :
    hits step hit s es = es.countP p := by
  induction es generalizing s with
  | nil => rfl
  | cons e es ih =>
      rw [hits_cons, ih, List.countP_cons, Nat.add_comm]
      simp only [h]

section counters
variable {I : σ → Prop} {f : σ → ℕ} {m : ℕ}

theorem exec_wraps (hf : ∀ s e, f (step s e) = (f s + if hit s e then 1 else 0) % m) {s : σ}
    (hs : f s = f s % m) (es : List ε) : f (exec step s es) = (f s + hits step hit s es) % m := by
  induction es generalizing s with
  | nil => exact hs
  | cons e es ih =>
      rw [exec_cons, ih (by rw [hf, Nat.mod_mod]), hf, Nat.mod_add_mod, hits_cons, Nat.add_assoc]

theorem exec_saturates (hI : ∀ s e, I s → I (step s e))
    (hf : ∀ s e, I s → f (step s e) = min m (f s + if hit s e then 1 else 0)) {s : σ} (hs : I s)
    (hle : f s ≤ m) (es : List ε) :
    f (exec step s es) = min m (f s + hits step hit s es) := by
  induction es generalizing s with
  | nil => exact (Nat.min_eq_right hle).symm
  | cons e es ih =>
      have hle' : f (step s e) ≤ m := by
        rw [hf s e hs]
        exact Nat.min_le_left _ _
      rw [exec_cons, ih (hI s e hs) hle', hf s e hs, hits_cons]
      omega

end counters

/-- A property of the state holds throughout a run if and only if it holds at the start and after
each step. -/
theorem forall_prefix_iff {P : σ → Prop} (s : σ) (es : List ε) :
    (∀ pre, pre <+: es → P (exec step s pre)) ↔
      P s ∧ Along step (fun s e => P (step s e)) s es := by
  induction es generalizing s with
  | nil => simp
  | cons e es ih =>
      rw [along_cons, ← ih (step s e)]
      constructor
      · intro h
        exact ⟨h [] List.nil_prefix,
          fun pre hp => h (e :: pre) (List.cons_prefix_cons.mpr ⟨rfl, hp⟩)⟩
      · rintro ⟨h0, h⟩ pre hp
        cases pre with
        | nil => exact h0
        | cons a pre =>
            obtain ⟨rfl, htail⟩ := List.cons_prefix_cons.mp hp
            exact h pre htail

/-- A property that holds at the end of a run and not at its start becomes true at some step. -/
theorem exists_first_change {P : σ → Prop} {s : σ} {es : List ε} (h0 : ¬ P s)
    (h1 : P (exec step s es)) : ∃ pre e post, es = pre ++ e :: post ∧
      ¬ P (exec step s pre) ∧ P (step (exec step s pre) e) := by
  induction es generalizing s with
  | nil => exact absurd h1 h0
  | cons e es ih =>
      by_cases he : P (step s e)
      · exact ⟨[], e, es, rfl, h0, he⟩
      · obtain ⟨pre, e', post, rfl, hpre, hpost⟩ := ih he h1
        exact ⟨e :: pre, e', post, rfl, hpre, hpost⟩

end Machine
