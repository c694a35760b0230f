import Mathlib

/-! # Power cuts

A device carries out commands one after the other, and power may go in the middle of one:
`Cut run cut s cs t` says that the commands `cs`, begun in state `s`, may leave `t` so.

What a write to a memory cell that is cut short leaves is `Between` the old and the new value, bit
by bit.  A value that is stored with its complement beside it is then read back complete or not at
all (`eq_of_rails`). -/

namespace PowerCut

section commands
variable {σ γ : Type} {run : σ → γ → σ} {cut : σ → γ → σ → Prop} {s t : σ} {cs ds : List γ}

/-- The commands before one of `cs` are done, and this one leaves what `cut` allows. -/
inductive Cut (run : σ → γ → σ) (cut : σ → γ → σ → Prop) : σ → List γ → σ → Prop
  | now {s t : σ} {c : γ} (h : cut s c t) (cs : List γ) : Cut run cut s (c :: cs) t
  | later {s t : σ} {c : γ} {cs : List γ} (h : Cut run cut (run s c) cs t) :
      Cut run cut s (c :: cs) t

@[simp] theorem not_cut_nil : ¬ Cut run cut s [] t := by
  intro h
  cases h

theorem cut_cons {c : γ} : Cut run cut s (c :: cs) t ↔ cut s c t ∨ Cut run cut (run s c) cs t := by
  constructor
  · intro h
    cases h with
    | now h _ => exact .inl h
    | later h => exact .inr h
  · rintro (h | h)
    · exact .now h cs
    · exact .later h

theorem cut_append :
    Cut run cut s (cs ++ ds) t ↔ Cut run cut s cs t ∨ Cut run cut (cs.foldl run s) ds t := by
  induction cs generalizing s with
  | nil => simp
  | cons c cs ih => rw [List.cons_append, cut_cons, cut_cons, ih, List.foldl_cons, or_assoc]

/-- What every command keeps, done or cut short, is kept by a cut. -/
theorem Cut.invariant {I : σ → Prop} (hrun : ∀ c ∈ cs, ∀ s, I s → I (run s c))
    (hcut : ∀ c ∈ cs, ∀ s t, I s → cut s c t → I t) (hs : I s) (h : Cut run cut s cs t) : I t := by
  induction h with
  | @now s t c hc cs => exact hcut c (List.mem_cons_self ..) s t hs hc
  | @later s t c cs h ih =>
      exact ih (fun d hd => hrun d (List.mem_cons_of_mem c hd))
        (fun d hd => hcut d (List.mem_cons_of_mem c hd)) (hrun c (List.mem_cons_self ..) s hs)

end commands

/-! ### Bits -/

/-- Every bit of `x` is that of `a` or that of `b`. -/
def Between (a b x : UInt8) : Prop :=
  ∀ i, x.toBitVec.getLsbD i = a.toBitVec.getLsbD i ∨ x.toBitVec.getLsbD i = b.toBitVec.getLsbD i

section between
variable {a b x y d : UInt8}

theorem between_left (a b : UInt8) : Between a b a := fun _ => .inl rfl

theorem between_right (a b : UInt8) : Between a b b := fun _ => .inr rfl

theorem between_self : Between a a x ↔ x = a := by
  constructor
  · intro h
    refine UInt8.toBitVec_inj.mp (BitVec.eq_of_getLsbD_eq fun i _ => ?_)
    rcases h i with h | h <;> exact h
  · rintro rfl
    exact between_right x x

/-- A value and its complement, both on their way from ones: they complement each other only when
both are there. -/
theorem eq_of_rails (hx : Between 0xFF d x) (hy : Between 0xFF (~~~d) y) (h : y = ~~~x) :
    x = d := by
  refine UInt8.toBitVec_inj.mp (BitVec.eq_of_getLsbD_eq fun i hi => ?_)
  have hone : (0xFF : UInt8).toBitVec.getLsbD i = true := by
    interval_cases i <;> rfl
  rcases hx i with hxi | hxi
  · rcases hy i with hyi | hyi
    · rw [h, UInt8.toBitVec_not, BitVec.getLsbD_not, hxi, hone] at hyi
      simp at hyi
    · rw [h, UInt8.toBitVec_not, UInt8.toBitVec_not, BitVec.getLsbD_not, BitVec.getLsbD_not] at hyi
      simpa [hi] using hyi
  · exact hxi

end between

/-- A memory whose cells are all between those of two others. -/
def Torn (f g h : ℕ → UInt8) : Prop := ∀ a, Between (f a) (g a) (h a)

section torn
variable {f g h : ℕ → UInt8} {a : ℕ}

/-- A cell that was not to be changed is as it was. -/
theorem Torn.untouched (ht : Torn f g h) (he : g a = f a) : h a = f a := by
  have hb := ht a
  rw [he] at hb
  exact between_self.mp hb

end torn

end PowerCut
