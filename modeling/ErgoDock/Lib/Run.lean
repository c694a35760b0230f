import Mathlib

/-! # Runs of a deterministic machine with inputs

A machine is a total step function `step : σ → ε → σ`; a run is the fold of `step` over a
list of events.  `Along step ok s es` says that every step of the run from `s` over `es`
meets the side condition `ok` (read on the state before the step and on the event).

The rules below are the only inductions over runs in the development:

* `exec_invariant`: a property kept by every admissible step holds at the end of every
  admissible run;
* `exec_constant`: a quantity changed by no admissible step is the same at the end;
* `exec_replicate`: repeating one event iterates its effect;
* `monitor`: a history variable that watches the machine without influencing it;
* `outputs`: what a run puts out, with the rules for a simulation (`simulation`,
  `simulation_visible`), for a balance of what goes in and out (`outputs_balance`,
  `outputs_drain`) and for delivery (`outputs_deliver`). -/

namespace Machine

variable {σ ε γ α : Type}

/-- The state reached from `s` by the events `es`, the first event first. -/
def exec (step : σ → ε → σ) (s : σ) (es : List ε) : σ := es.foldl step s

@[simp] theorem exec_nil (step : σ → ε → σ) (s : σ) : exec step s [] = s := rfl

@[simp] theorem exec_cons (step : σ → ε → σ) (s : σ) (e : ε) (es : List ε) :
    exec step s (e :: es) = exec step (step s e) es := rfl

theorem exec_append (step : σ → ε → σ) (s : σ) (es fs : List ε) :
    exec step s (es ++ fs) = exec step (exec step s es) fs := List.foldl_append

/-- Every step of the run meets `ok`. -/
def Along (step : σ → ε → σ) (ok : σ → ε → Prop) : σ → List ε → Prop
  | _, [] => True
  | s, e :: es => ok s e ∧ Along step ok (step s e) es

instance decidableAlong (step : σ → ε → σ) (ok : σ → ε → Prop) [∀ s e, Decidable (ok s e)] :
    (s : σ) → (es : List ε) → Decidable (Along step ok s es)
  | _, [] => .isTrue trivial
  | s, e :: es => @instDecidableAnd _ _ _ (decidableAlong step ok (step s e) es)

section along
variable {step : σ → ε → σ} {ok ok' : σ → ε → Prop}

@[simp] theorem along_nil (s : σ) : Along step ok s [] := trivial

@[simp] theorem along_cons (s : σ) (e : ε) (es : List ε) :
    Along step ok s (e :: es) ↔ ok s e ∧ Along step ok (step s e) es := Iff.rfl

theorem along_append (s : σ) (es fs : List ε) :
    Along step ok s (es ++ fs) ↔ Along step ok s es ∧ Along step ok (exec step s es) fs := by
  induction es generalizing s with
  | nil => simp
  | cons e es ih => simp [ih, and_assoc]

theorem Along.initial {s : σ} {es fs : List ε} (ha : Along step ok s es) (h : fs <+: es) :
    Along step ok s fs := by
  obtain ⟨rest, rfl⟩ := h
  exact ((along_append _ _ _).mp ha).1

theorem Along.mono (h : ∀ s e, ok s e → ok' s e) {s : σ} {es : List ε}
    (ha : Along step ok s es) : Along step ok' s es := by
  induction es generalizing s with
  | nil => trivial
  | cons e es ih => exact ⟨h s e ha.1, ih ha.2⟩

theorem Along.and {s : σ} {es : List ε} (h : Along step ok s es) (h' : Along step ok' s es) :
    Along step (fun s e => ok s e ∧ ok' s e) s es := by
  induction es generalizing s with
  | nil => trivial
  | cons e es ih => exact ⟨⟨h.1, h'.1⟩, ih h.2 h'.2⟩

/-- A condition on the events alone. -/
theorem along_of_forall {s : σ} {es : List ε} (h : ∀ e ∈ es, ∀ s, ok s e) :
    Along step ok s es := by
  induction es generalizing s with
  | nil => trivial
  | cons e es ih =>
      exact ⟨h e (List.mem_cons_self ..) s, ih fun e' he => h e' (List.mem_cons_of_mem e he)⟩

/-- Along a run that keeps an invariant, a side condition may be weakened by the invariant. -/
theorem Along.of_invariant {I : σ → Prop} (hI : ∀ s e, I s → ok s e → I (step s e))
    (h : ∀ s e, I s → ok s e → ok' s e) {s : σ} {es : List ε} (hs : I s)
    (ha : Along step ok s es) : Along step ok' s es := by
  induction es generalizing s with
  | nil => trivial
  | cons e es ih => exact ⟨h s e hs ha.1, ih (hI s e hs ha.1) ha.2⟩

/-- Two side conditions that are the same on the states of an invariant, which the steps keep that
meet them, are the same along a run. -/
theorem along_iff_of_invariant {I : σ → Prop} (hI : ∀ s e, I s → ok s e → I (step s e))
    (h : ∀ s e, I s → (ok s e ↔ ok' s e)) {s : σ} (hs : I s) (es : List ε) :
    Along step ok s es ↔ Along step ok' s es :=
  ⟨fun ha => ha.of_invariant hI (fun s e hs => (h s e hs).mp) hs, fun ha =>
    ha.of_invariant (fun s e hs ho => hI s e hs ((h s e hs).mpr ho)) (fun s e hs => (h s e hs).mpr)
      hs⟩

/-- The run rule: an invariant of the admissible steps holds at the end of every admissible
run. -/
theorem exec_invariant {I : σ → Prop} (hstep : ∀ s e, I s → ok s e → I (step s e)) {s : σ}
    {es : List ε} (hs : I s) (ha : Along step ok s es) : I (exec step s es) := by
  induction es generalizing s with
  | nil => exact hs
  | cons e es ih => exact ih (hstep s e hs ha.1) ha.2

/-- The frame rule for runs: a quantity that no admissible step changes, as long as the
invariant holds, is the same at the end of the run. -/
theorem exec_constant {I : σ → Prop} {f : σ → α} (hstep : ∀ s e, I s → ok s e → I (step s e))
    (hf : ∀ s e, I s → ok s e → f (step s e) = f s) {s : σ} {es : List ε} (hs : I s)
    (ha : Along step ok s es) : f (exec step s es) = f s := by
  induction es generalizing s with
  | nil => rfl
  | cons e es ih => exact (ih (hstep s e hs ha.1) ha.2).trans (hf s e hs ha.1)

end along

/-- The run rule for machines all of whose steps keep the invariant. -/
theorem exec_invariant_all {step : σ → ε → σ} {I : σ → Prop}
    (hstep : ∀ s e, I s → I (step s e)) {s : σ} (hs : I s) (es : List ε) :
    I (exec step s es) := by
  induction es generalizing s with
  | nil => exact hs
  | cons e es ih => exact ih (hstep s e hs)

/-- The run rule for machines whose steps may fail. -/
theorem foldlM_invariant {step : σ → ε → Option σ} {I : σ → Prop}
    (hstep : ∀ s e s', I s → step s e = some s' → I s') {s s' : σ} (hs : I s) (es : List ε)
    (h : es.foldlM step s = some s') : I s' := by
  induction es generalizing s with
  | nil => exact (Option.some.inj h) ▸ hs
  | cons e es ih =>
      rw [List.foldlM_cons, Option.bind_eq_bind, Option.bind_eq_some_iff] at h
      obtain ⟨s₁, h₁, h⟩ := h
      exact ih (hstep s e s₁ hs h₁) h

/-- Two machines that keep a relation at every event of a run keep it over the run. -/
theorem exec_related {τ : Type} {step : σ → ε → σ} {step' : τ → ε → τ} {R : σ → τ → Prop}
    {es : List ε} (hstep : ∀ s t, ∀ e ∈ es, R s t → R (step s e) (step' t e)) {s : σ} {t : τ}
    (h : R s t) : R (exec step s es) (exec step' t es) := by
  induction es generalizing s t with
  | nil => exact h
  | cons e es ih =>
      exact ih (fun s t e' he' => hstep s t e' (List.mem_cons_of_mem _ he'))
        (hstep s t e (List.mem_cons_self ..) h)

/-- Repeating one event `n` times. -/
theorem exec_replicate (step : σ → ε → σ) (e : ε) (f : ℕ → σ) (n : ℕ)
    (h : ∀ i, i < n → step (f i) e = f (i + 1)) : exec step (f 0) (List.replicate n e) = f n := by
  induction n with
  | zero => rfl
  | succ n ih =>
      rw [List.replicate_succ', exec_append, ih (fun i hi => h i (by omega))]
      exact h n (by omega)

/-! ### Outputs -/

/-- What the steps of a run put out, the first step's output first. -/
def outputs (step : σ → ε → σ) (out : σ → ε → List α) : σ → List ε → List α
  | _, [] => []
  | s, e :: es => out s e ++ outputs step out (step s e) es

section outputs
variable {step : σ → ε → σ} {out inn : σ → ε → List α} {ok : σ → ε → Prop}

@[simp] theorem outputs_nil (s : σ) : outputs step out s [] = [] := rfl

@[simp] theorem outputs_cons (s : σ) (e : ε) (es : List ε) :
    outputs step out s (e :: es) = out s e ++ outputs step out (step s e) es := rfl

theorem outputs_append (s : σ) (es fs : List ε) :
    outputs step out s (es ++ fs) =
      outputs step out s es ++ outputs step out (exec step s es) fs := by
  induction es generalizing s with
  | nil => rfl
  | cons e es ih => simp [ih]

/-- The balance rule: if every step keeps what has come out and what is held equal to what was
held and what has come in, so does the run. -/
theorem outputs_balance {held : σ → List α}
    (h : ∀ s e, ok s e → out s e ++ held (step s e) = held s ++ inn s e) {s : σ} {es : List ε}
    (ha : Along step ok s es) :
    outputs step out s es ++ held (exec step s es) = held s ++ outputs step inn s es := by
  induction es generalizing s with
  | nil => simp
  | cons e es ih =>
      rw [outputs_cons, exec_cons, List.append_assoc, ih ha.2, ← List.append_assoc, h s e ha.1,
        List.append_assoc, outputs_cons]

/-- The drain rule: if every step puts out the front of what is held, so does the run. -/
theorem outputs_drain {I : σ → Prop} {held : σ → List α}
    (h : ∀ s e, I s → I (step s e) ∧ out s e ++ held (step s e) = held s) {s : σ} (hs : I s)
    (es : List ε) : outputs step out s es ++ held (exec step s es) = held s := by
  induction es generalizing s with
  | nil => rfl
  | cons e es ih =>
      rw [outputs_cons, exec_cons, List.append_assoc, ih (h s e hs).1, (h s e hs).2]

/-- The delivery rule: if no step loses what is held, and a slot puts something out whenever
anything is held, then after as many slots as the front of what is held has elements, that front
has come out. -/
theorem outputs_deliver {I : σ → Prop} {held : σ → List α} {slot : ε → Bool}
    (hI : ∀ s e, I s → ok s e → I (step s e))
    (hkeep : ∀ s e, I s → ok s e → held s <+: out s e ++ held (step s e))
    (hslot : ∀ s e, I s → ok s e → slot e = true → held s ≠ [] → out s e ≠ [])
    {s : σ} {es : List ε} {P : List α} (hs : I s) (ha : Along step ok s es)
    (hP : P <+: held s) (hn : P.length ≤ es.countP slot) : P <+: outputs step out s es := by
  induction es generalizing s P with
  | nil =>
      rw [List.length_eq_zero_iff.mp (Nat.le_zero.mp hn)]
      exact List.nil_prefix
  | cons e es ih =>
      have hfront : P <+: out s e ++ held (step s e) := hP.trans (hkeep s e hs ha.1)
      rw [outputs_cons]
      rcases Nat.le_total P.length (out s e).length with hle | hle
      · have ho : P <+: out s e :=
          List.prefix_of_prefix_length_le hfront (List.prefix_append ..) hle
        exact ho.trans (List.prefix_append ..)
      · -- the step put out the beginning of `P`; the rest is still held
        obtain ⟨Q, rfl⟩ := List.prefix_of_prefix_length_le (List.prefix_append ..) hfront hle
        refine (List.prefix_append_right_inj _).mpr
          (ih (hI s e hs ha.1) ha.2 ((List.prefix_append_right_inj _).mp hfront) ?_)
        rw [List.length_append] at hn
        rw [List.countP_cons] at hn
        by_cases he : slot e = true
        · by_cases hQ : Q = []
          · rw [hQ]
            exact Nat.zero_le _
          · have hne : held s ≠ [] := by
              intro h0
              rw [h0, List.prefix_nil, List.append_eq_nil_iff] at hP
              exact hQ hP.2
            have hout := List.length_pos_iff.mpr (hslot s e hs ha.1 he hne)
            rw [if_pos he] at hn
            omega
        · rw [if_neg he] at hn
          omega

/-- A step-by-step simulation relates the ends of the runs and answers the same. -/
theorem simulation {τ δ : Type} {step' : τ → δ → τ} {out' : τ → δ → List α} {f : ε → δ}
    {R : σ → τ → Prop} (hstep : ∀ s t e, R s t → R (step s e) (step' t (f e)))
    (hout : ∀ s t e, R s t → out s e = out' t (f e)) {s : σ} {t : τ} (h : R s t)
    (es : List ε) :
    R (exec step s es) (exec step' t (es.map f)) ∧
      outputs step out s es = outputs step' out' t (es.map f) := by
  induction es generalizing s t with
  | nil => exact ⟨h, rfl⟩
  | cons e es ih =>
      obtain ⟨hR, ho⟩ := ih (hstep s t e h)
      refine ⟨hR, ?_⟩
      rw [List.map_cons, outputs_cons, outputs_cons, hout s t e h, ho]

/-- A simulation of the events that are visible to the other machine; the others leave it where it
is and put nothing out. -/
theorem simulation_visible {τ δ : Type} {step' : τ → δ → τ} {out' : τ → δ → List α}
    {f : ε → Option δ} {R : σ → τ → Prop}
    (hstep : ∀ s t e d, f e = some d → R s t → R (step s e) (step' t d) ∧ out s e = out' t d)
    (hskip : ∀ s t e, f e = none → R s t → R (step s e) t ∧ out s e = []) {s : σ} {t : τ}
    (h : R s t) (es : List ε) :
    R (exec step s es) (exec step' t (es.filterMap f)) ∧
      outputs step out s es = outputs step' out' t (es.filterMap f) := by
  induction es generalizing s t with
  | nil => exact ⟨h, rfl⟩
  | cons e es ih =>
      cases he : f e with
      | none =>
          obtain ⟨hR, ho⟩ := hskip s t e he h
          rw [List.filterMap_cons_none he, outputs_cons, ho, exec_cons, List.nil_append]
          exact ih hR
      | some d =>
          obtain ⟨hR, ho⟩ := hstep s t e d he h
          obtain ⟨hR', ho'⟩ := ih hR
          rw [List.filterMap_cons_some he, outputs_cons, outputs_cons, ho, ho', exec_cons]
          exact ⟨hR', rfl⟩

end outputs

/-! ### Monitors -/

/-- The machine with a history variable: `watch` updates the history from the state before
the step and the event. -/
def monitor (step : σ → ε → σ) (watch : γ → σ → ε → γ) (p : σ × γ) (e : ε) : σ × γ :=
  (step p.1 e, watch p.2 p.1 e)

@[simp] theorem monitor_fst (step : σ → ε → σ) (watch : γ → σ → ε → γ) (p : σ × γ) (e : ε) :
    (monitor step watch p e).1 = step p.1 e := rfl

@[simp] theorem monitor_snd (step : σ → ε → σ) (watch : γ → σ → ε → γ) (p : σ × γ) (e : ε) :
    (monitor step watch p e).2 = watch p.2 p.1 e := rfl

@[simp] theorem exec_monitor_fst (step : σ → ε → σ) (watch : γ → σ → ε → γ) (p : σ × γ)
    (es : List ε) : (exec (monitor step watch) p es).1 = exec step p.1 es := by
  induction es generalizing p with
  | nil => rfl
  | cons e es ih => exact ih _

/-- A condition on the machine along a watched run. -/
theorem along_monitor_iff {step : σ → ε → σ} {ok : σ → ε → Prop} (watch : γ → σ → ε → γ) {s : σ}
    {es : List ε} (g : γ) :
    Along (monitor step watch) (fun p e => ok p.1 e) (s, g) es ↔ Along step ok s es := by
  induction es generalizing s g with
  | nil => exact Iff.rfl
  | cons e es ih => exact and_congr_right fun _ => ih (watch g s e)

theorem along_monitor {step : σ → ε → σ} {ok : σ → ε → Prop} (watch : γ → σ → ε → γ) {s : σ}
    {es : List ε} (g : γ) (h : Along step ok s es) :
    Along (monitor step watch) (fun p e => ok p.1 e) (s, g) es :=
  (along_monitor_iff watch g).mpr h

/-- A condition on a history of the events alone. -/
theorem along_history_iff {step : σ → ε → σ} {watch : γ → ε → γ} {ok : γ → ε → Prop} {s : σ} {g : γ}
    {es : List ε} :
    Along (monitor step fun g _ => watch g) (fun p e => ok p.2 e) (s, g) es ↔
      Along watch ok g es := by
  induction es generalizing s g with
  | nil => exact Iff.rfl
  | cons e es ih => exact and_congr_right fun _ => ih

section monitor
variable {step : σ → ε → σ} {watch : γ → σ → ε → γ} {I : σ → γ → Prop}

/-- The run rule with a history variable. -/
theorem monitor_invariant (hstep : ∀ s g e, I s g → I (step s e) (watch g s e)) {s : σ} {g : γ}
    (h : I s g) (es : List ε) :
    I (exec step s es) (exec (monitor step watch) (s, g) es).2 := by
  induction es generalizing s g with
  | nil => exact h
  | cons e es ih => exact ih (hstep s g e h)

/-- The run rule with a history variable, for runs all of whose steps meet `ok`. -/
theorem monitor_invariant_along {ok : σ × γ → ε → Prop}
    (hstep : ∀ s g e, I s g → ok (s, g) e → I (step s e) (watch g s e)) {s : σ} {g : γ}
    {es : List ε} (h : I s g) (ha : Along (monitor step watch) ok (s, g) es) :
    I (exec step s es) (exec (monitor step watch) (s, g) es).2 := by
  induction es generalizing s g with
  | nil => exact h
  | cons e es ih => exact ih (hstep s g e h ha.1) ha.2

end monitor

end Machine
