import ErgoDock.Windows

/-! # The cycle

The first lift of a cycle stores its tick in `firstLiftTick`, the following ones count up
`liftStage` to at most three, and after `snore_flat_delay_ticks` the periodic function starts
over.  `CycleInv` relates the fields over any run; `cycle_kept` says how long a cycle is one
cycle, which it no longer is once `SnoringInterventStateClear` has put `liftStage` back to 0
and left `firstLiftTick` alone. -/

namespace ErgoDock

open Machine

/-! ### The cycle fields -/

section apply
variable (a : AntiSnore) (op : AntiOp)

theorem firstLiftTick_apply :
    (op.apply a).snoreIntervention.firstLiftTick =
      match op with
      | .mode _ => 0
      | .flat => 0
      | .run _ => if a.FirstLift then a.timer else a.runPrelude.snoreIntervention.firstLiftTick
      | _ => a.snoreIntervention.firstLiftTick := by
  cases op with
  | configure pwm tmr l =>
      rw [AntiOp.apply, AntiSnore.configure]
      split <;> rfl
  | volume v counted =>
      rw [AntiOp.apply]
      split <;> rfl
  | run soft => exact a.run_firstLiftTick soft
  | _ => rfl

/-- Apart from the periodic function an operation keeps the stage, or puts it back to 0. -/
theorem liftStage_apply (h : ∀ soft, op ≠ .run soft) :
    ((op.apply a).snoreIntervention.liftStage = a.snoreIntervention.liftStage ∧
      (op.apply a).snoreIntervention.isIntervening = a.snoreIntervention.isIntervening ∧
      (op.apply a).snoreIntervention.firstLiftTick = a.snoreIntervention.firstLiftTick) ∨
    ((op.apply a).snoreIntervention.liftStage = 0 ∧
      (op.apply a).snoreIntervention.isIntervening = false) := by
  cases op with
  | configure pwm tmr l =>
      rw [AntiOp.apply, AntiSnore.configure]
      split
      · exact .inr ⟨rfl, rfl⟩
      · exact .inl ⟨rfl, rfl, rfl⟩
  | volume v counted =>
      rw [AntiOp.apply]
      split <;> exact .inl ⟨rfl, rfl, rfl⟩
  | run soft => exact absurd rfl (h soft)
  | mode m => exact .inr ⟨rfl, rfl⟩
  | clear => exact .inr ⟨rfl, rfl⟩
  | flat => exact .inr ⟨rfl, rfl⟩
  | _ => exact .inl ⟨rfl, rfl, rfl⟩

end apply

/-! ### The invariant -/

structure CycleInv (a : AntiSnore) : Prop where
  liftStage : a.snoreIntervention.liftStage ≤ 3
  first_of_stage : a.snoreIntervention.liftStage ≠ 0 → a.snoreIntervention.firstLiftTick ≠ 0
  first_of_intervening :
    a.snoreIntervention.isIntervening = true → a.snoreIntervention.firstLiftTick ≠ 0

/-- The step is not a first lift at a tick where the counter reads 0. -/
def NoLiftAtZero (d : Dock) (e : Event) : Prop :=
  e = .snoreRun → d.anti.FirstLift → d.anti.timer ≠ 0

instance (d : Dock) (e : Event) : Decidable (NoLiftAtZero d e) := by
  unfold NoLiftAtZero; infer_instance

theorem Initial.cycleInv {a : AntiSnore} (h : Initial a) : CycleInv a := by
  refine ⟨?_, fun hs => absurd h.liftStage hs, fun hi => ?_⟩
  · rw [h.liftStage]
    exact UInt8.zero_le
  · rw [h.isIntervening] at hi
    exact absurd hi (by decide)

/-- The cycle reset keeps the invariant. -/
theorem cycleInv_runPrelude {a : AntiSnore} (h : CycleInv a) : CycleInv a.runPrelude := by
  by_cases he : a.CycleExpired
  · refine ⟨?_, fun hs => ?_, fun hi => ?_⟩
    · rw [AntiSnore.runPrelude_liftStage, if_pos he]
      exact UInt8.zero_le
    · rw [AntiSnore.runPrelude_liftStage, if_pos he] at hs
      exact absurd rfl hs
    · rw [AntiSnore.runPrelude_isIntervening, if_pos he] at hi
      exact absurd hi (by decide)
  · have hf : a.runPrelude.snoreIntervention.firstLiftTick = a.snoreIntervention.firstLiftTick := by
      rw [AntiSnore.runPrelude_firstLiftTick, if_neg he]
    refine ⟨?_, fun hs => ?_, fun hi => ?_⟩
    · rw [AntiSnore.runPrelude_liftStage, if_neg he]
      exact h.liftStage
    · rw [AntiSnore.runPrelude_liftStage, if_neg he] at hs
      exact hf ▸ h.first_of_stage hs
    · rw [AntiSnore.runPrelude_isIntervening, if_neg he] at hi
      exact hf ▸ h.first_of_intervening hi

theorem cycleInv_run {a : AntiSnore} (soft : Bool) (h : CycleInv a)
    (h0 : a.FirstLift → a.timer ≠ 0) : CycleInv (a.run soft) := by
  have hp := cycleInv_runPrelude h
  -- a lift is the first of a cycle, or the cycle has its tick already
  have hlift : a.StartsLift → (a.run soft).snoreIntervention.firstLiftTick ≠ 0 := by
    intro hs
    rw [a.run_firstLiftTick]
    by_cases hf : a.FirstLift
    · rw [if_pos hf]
      exact h0 hf
    · rw [if_neg hf]
      exact hp.first_of_stage fun hz => hf ⟨hs, hz⟩
  have hkeep : ¬ a.StartsLift → (a.run soft).snoreIntervention.firstLiftTick =
      a.runPrelude.snoreIntervention.firstLiftTick := by
    intro hs
    rw [a.run_firstLiftTick, if_neg fun hf => hs hf.1]
  refine ⟨?_, fun hs => ?_, fun hi => ?_⟩
  · rw [a.run_liftStage]
    split
    · next hs =>
      have hlt := hs.2.2.2
      rw [a.sameClock_runDetect.liftStage, UInt8.lt_iff_toNat_lt] at hlt
      rw [UInt8.le_iff_toNat_le, UInt8.toNat_add]
      simp only [siSegMax, UInt8.reduceToNat] at *
      omega
    · exact hp.liftStage
  · by_cases hl : a.StartsLift
    · exact hlift hl
    · rw [a.run_liftStage, if_neg hl] at hs
      rw [hkeep hl]
      exact hp.first_of_stage hs
  · by_cases hl : a.StartsLift
    · exact hlift hl
    · rw [hkeep hl]
      rcases a.run_isIntervening soft hi with hs | hi' | hf
      · exact absurd hs hl
      · exact hp.first_of_intervening hi'
      · exact hf

theorem cycleInv_step (d : Dock) (e : Event) (h : CycleInv d.anti) (h0 : NoLiftAtZero d e) :
    CycleInv (step d e).anti := by
  by_cases he : e = .snoreRun
  · rw [step_anti, he]
    exact cycleInv_run _ h (h0 he)
  · have hr : ∀ soft, antiOp d e ≠ .run soft := fun soft hs => he ((antiOp_kind d e).1 soft hs)
    rw [step_anti]
    rcases liftStage_apply d.anti (antiOp d e) hr with ⟨hs, hi, hf⟩ | ⟨hs, hi⟩
    · refine ⟨by rw [hs]; exact h.liftStage, fun hn => ?_, fun hn => ?_⟩
      · rw [hf]
        exact h.first_of_stage (hs ▸ hn)
      · rw [hf]
        exact h.first_of_intervening (hi ▸ hn)
    · refine ⟨by rw [hs]; exact UInt8.zero_le, fun hn => absurd hs hn, fun hn => ?_⟩
      rw [hi] at hn
      exact absurd hn (by decide)

/-- After a run the cycle that is open, if any, is younger than the cycle length. -/
theorem cycle_young (a : AntiSnore) (soft : Bool)
    (h : (a.run soft).snoreIntervention.firstLiftTick ≠ 0) :
    (a.run soft).timer - (a.run soft).snoreIntervention.firstLiftTick <
      (a.run soft).snoreFlatDelayTicks := by
  have hdelay : (a.run soft).snoreFlatDelayTicks = a.snoreFlatDelayTicks :=
    AntiSnore.snoreFlatDelayTicks_congr (a.run_runMode soft)
  rw [a.run_firstLiftTick] at h ⊢
  rw [hdelay, a.run_timer]
  by_cases hf : a.FirstLift
  · rw [if_pos hf, UInt32.sub_self, AntiSnore.snoreFlatDelayTicks]
    split <;> decide
  · rw [if_neg hf, AntiSnore.runPrelude_firstLiftTick] at h ⊢
    by_cases he : a.CycleExpired
    · exact absurd (if_pos he) h
    · rw [if_neg he] at h ⊢
      exact not_not.mp fun hn => he ⟨h, hn⟩

/-- In any run in which no cycle starts at tick 0: at most three stages, none without a first
lift, no intervention without one; and after each call of the periodic function the cycle that
is open is younger than the cycle length of the mode. -/
theorem cycle_invariant (b : Boot) (es : List Event) (h : Along step NoLiftAtZero (boot b) es) :
    let si := (runFrom b es).anti.snoreIntervention
    let a := (step (runFrom b es) .snoreRun).anti
    si.liftStage ≤ 3 ∧ (1 ≤ si.liftStage → si.firstLiftTick ≠ 0) ∧
    (si.isIntervening = true → si.firstLiftTick ≠ 0) ∧
    (a.snoreIntervention.firstLiftTick ≠ 0 →
      a.timer - a.snoreIntervention.firstLiftTick < a.snoreFlatDelayTicks) := by
  intro si a
  have hI : CycleInv (runFrom b es).anti :=
    exec_invariant (I := fun d : Dock => CycleInv d.anti) (fun d e => cycleInv_step d e)
      (initial_boot b).cycleInv h
  refine ⟨hI.liftStage, fun hs => hI.first_of_stage fun hz => ?_, hI.first_of_intervening, ?_⟩
  · rw [show si.liftStage = 0 from hz] at hs
    exact absurd hs (by decide)
  · intro hf
    have ha : a = (runFrom b es).anti.run _ := step_anti _ _
    rw [ha] at hf ⊢
    exact cycle_young _ _ hf

theorem firstLift_untilLift : (runFrom (bootAt 3) untilLift).anti.FirstLift := by
  rw [runFrom_untilLift]
  decide +kernel

/-- The invariant after the first lift of a start at level 3. -/
theorem cycle_invariant_first_lift :
    let es := untilLift ++ [.snoreRun]
    Along step NoLiftAtZero (boot (bootAt 3)) es ∧
    let si := (runFrom (bootAt 3) es).anti.snoreIntervention
    let a := (step (runFrom (bootAt 3) es) .snoreRun).anti
    si.liftStage ≤ 3 ∧ (1 ≤ si.liftStage → si.firstLiftTick ≠ 0) ∧
    (si.isIntervening = true → si.firstLiftTick ≠ 0) ∧
    (a.snoreIntervention.firstLiftTick ≠ 0 →
      a.timer - a.snoreIntervention.firstLiftTick < a.snoreFlatDelayTicks) := by
  intro es
  have hquiet : Along step NoLiftAtZero (boot (bootAt 3))
      ([.tick, .snoreRun] ++ List.replicate 7 .snoreEdge) := by decide +kernel
  have hwait : ∀ d, Along step NoLiftAtZero d (wait 30001) := fun d =>
    along_of_forall fun e he d hr => by
      rw [eq_tick_of_mem_wait he] at hr
      cases hr
  have hlift : NoLiftAtZero (runFrom (bootAt 3) untilLift) .snoreRun := by
    rw [runFrom_untilLift]
    decide +kernel
  have huntil : Along step NoLiftAtZero (boot (bootAt 3)) untilLift := by
    rw [untilLift, along_append]
    exact And.intro hquiet (hwait _)
  have h : Along step NoLiftAtZero (boot (bootAt 3)) es :=
    (along_append _ _ _).mpr (And.intro huntil (And.intro hlift trivial))
  exact And.intro h (cycle_invariant (bootAt 3) es h)

/-! ### How long a cycle is one cycle -/

/-- The step executes a flat word by voice. -/
def Dock.FlatWord (d : Dock) : Event → Prop
  | .voiceFrame cmd data => d.ExecutesWord cmd data ∧ data ∈ Dock.voiceFlatCmds
  | _ => False

instance (d : Dock) : (e : Event) → Decidable (d.FlatWord e)
  | .voiceFrame _ _ => inferInstanceAs (Decidable (_ ∧ _))
  | .tick | .switchSample _ _ | .control _ | .led | .charge _ | .snoreEdge | .snoreRun | .flashRun
  | .mfpFrame _ | .statusFrame _ | .bleWrite _ | .connected _ | .disconnected | .notificationDone
  | .mtuChanged _ => .isFalse id

/-- The step ends the cycle: a run that finds it expired, a change of the run mode, or a flat
command by voice. -/
def CycleEnds (d : Dock) (e : Event) : Prop :=
  (e = .snoreRun ∧
    ¬ d.anti.timer - d.anti.snoreIntervention.firstLiftTick < d.anti.snoreFlatDelayTicks) ∨
  (step d e).anti.snoreIntervention.runMode ≠ d.anti.snoreIntervention.runMode ∨
  d.FlatWord e

instance (d : Dock) (e : Event) : Decidable (CycleEnds d e) := by
  unfold CycleEnds; infer_instance

/-- The step is a run in which a window closes at or above the threshold while `liftStage`
is 0. -/
def TriggersAtStageZero (d : Dock) (e : Event) : Prop :=
  e = .snoreRun ∧ d.anti.Triggers ∧ d.anti.snoreIntervention.liftStage = 0

instance (d : Dock) (e : Event) : Decidable (TriggersAtStageZero d e) := by
  unfold TriggersAtStageZero; infer_instance

/-- Only a flat word by voice clears the cycle timer by itself. -/
theorem antiOp_flat {d : Dock} {e : Event} (h : antiOp d e = .flat) : d.FlatWord e := by
  cases e with
  | voiceFrame cmd data =>
      rw [antiOp] at h
      split at h
      · next hx =>
        refine ⟨hx, ?_⟩
        rw [wordOp] at h
        split at h
        · split at h
          · next hf => exact hf
          · cases h
        · cases h
      · cases h
  | control key =>
      rw [antiOp] at h
      split at h
      · cases h
      · split at h <;> cases h
  | statusFrame raw =>
      rw [antiOp] at h
      split at h <;> cases h
  | bleWrite value =>
      rw [antiOp, bleOp] at h
      split at h
      · split at h
        · cases h
        · split at h
          · rw [dataPortOp] at h
            split at h
            · cases h
            · split at h <;> cases h
          · cases h
      · cases h
  | _ => cases h

theorem firstLiftTick_step {d : Dock} {e : Event} (he : e ≠ .snoreRun) (hc : ¬ CycleEnds d e) :
    (step d e).anti.snoreIntervention.firstLiftTick = d.anti.snoreIntervention.firstLiftTick := by
  have hop := antiOp_allowed d e
  rw [step_anti, firstLiftTick_apply]
  cases hcase : antiOp d e with
  | mode m =>
      rw [hcase] at hop
      refine absurd (.inr (.inl ?_)) hc
      rw [step_anti, runMode_apply, hcase]
      exact Ne.symm hop.2
  | flat =>
      exact absurd (.inr (.inr (antiOp_flat hcase))) hc
  | run soft => exact absurd ((antiOp_kind d e).1 soft hcase) he
  | _ => rfl

/-- What is kept inside a cycle that began with `n` lifts and has stored `first`. -/
structure CycleKept (first : UInt32) (n : ℕ) (d : Dock) : Prop where
  trig : d.anti.snoreIntervention.trig = 0
  first : d.anti.snoreIntervention.firstLiftTick = first
  stage : d.anti.snoreIntervention.liftStage.toNat ≤ 3
  lifts : d.anti.snoreIntervention.liftStage ≠ 0 →
    d.liftStarts.length ≤ n + d.anti.snoreIntervention.liftStage.toNat
  cap : d.liftStarts.length ≤ n + 3

theorem cycleKept_run {first : UInt32} {n : ℕ} {d : Dock} (h : CycleKept first n d)
    (hc : ¬ CycleEnds d .snoreRun) (hz : ¬ TriggersAtStageZero d .snoreRun) :
    CycleKept first n (step d .snoreRun) := by
  have hexp : ¬ d.anti.CycleExpired := fun he => hc (.inl ⟨rfl, he.2⟩)
  have hstage : d.anti.runPrelude.snoreIntervention.liftStage =
      d.anti.snoreIntervention.liftStage := by
    rw [AntiSnore.runPrelude_liftStage, if_neg hexp]
  have hnz : d.anti.StartsLift → d.anti.snoreIntervention.liftStage ≠ 0 := fun hs h0 =>
    hz ⟨rfl, ((d.anti.startsLift_iff h.trig).mp hs).1, h0⟩
  have hlift := liftStarts_step d .snoreRun
  have hstage' : (step d .snoreRun).anti.snoreIntervention.liftStage =
      if d.anti.StartsLift then d.anti.snoreIntervention.liftStage + 1
      else d.anti.snoreIntervention.liftStage := by
    rw [step_anti, ← hstage]
    exact d.anti.run_liftStage _
  have hfirst : (step d .snoreRun).anti.snoreIntervention.firstLiftTick = first := by
    have hf : ¬ d.anti.FirstLift := fun hf => hnz hf.1 (hstage ▸ hf.2)
    rw [step_anti, firstLiftTick_apply]
    refine (if_neg hf).trans ?_
    rw [AntiSnore.runPrelude_firstLiftTick, if_neg hexp, h.first]
  have htrig := trig_step d .snoreRun h.trig
  by_cases hs : d.anti.StartsLift
  · have hlt : d.anti.snoreIntervention.liftStage.toNat < 3 := by
      have := ((d.anti.startsLift_iff h.trig).mp hs).2.2
      rwa [hstage, UInt8.lt_iff_toNat_lt] at this
    have hnat : (d.anti.snoreIntervention.liftStage + 1).toNat =
        d.anti.snoreIntervention.liftStage.toNat + 1 := by
      rw [UInt8.toNat_add]
      simp only [UInt8.reduceToNat]
      omega
    have hl := h.lifts (hnz hs)
    rw [if_pos hs] at hstage'
    rw [if_pos ⟨rfl, hs⟩] at hlift
    refine ⟨htrig, hfirst, ?_, fun _ => ?_, ?_⟩ <;> rw [hstage', hnat] at * <;> omega
  · rw [if_neg hs] at hstage'
    rw [if_neg fun hh => hs hh.2] at hlift
    refine ⟨htrig, hfirst, ?_, fun h0 => ?_, ?_⟩
    · rw [hstage']
      exact h.stage
    · rw [hstage'] at h0 ⊢
      rw [hlift]
      exact h.lifts h0
    · rw [hlift]
      exact h.cap

theorem cycleKept_step {first : UInt32} {n : ℕ} {d : Dock} {e : Event} (h : CycleKept first n d)
    (hc : ¬ CycleEnds d e) (hz : ¬ TriggersAtStageZero d e) : CycleKept first n (step d e) := by
  by_cases he : e = .snoreRun
  · subst he
    exact cycleKept_run h hc hz
  have hr : ∀ soft, antiOp d e ≠ .run soft := fun soft hs => he ((antiOp_kind d e).1 soft hs)
  have hlift : (step d e).liftStarts.length = d.liftStarts.length := by
    rw [liftStarts_step, if_neg fun hh => he hh.1]
    rfl
  have htrig := trig_step d e h.trig
  have hfirst := (firstLiftTick_step he hc).trans h.first
  have hstage := liftStage_apply d.anti (antiOp d e) hr
  rw [← step_anti] at hstage
  rcases hstage with ⟨hs, -, -⟩ | ⟨hs, -⟩
  · refine ⟨htrig, hfirst, by rw [hs]; exact h.stage, fun h0 => ?_, by rw [hlift]; exact h.cap⟩
    rw [hs] at h0 ⊢
    rw [hlift]
    exact h.lifts h0
  · refine ⟨htrig, hfirst, by rw [hs]; decide, fun h0 => absurd hs h0, ?_⟩
    rw [hlift]
    exact h.cap

/-- The first lift of a cycle. -/
theorem cycleKept_firstLift (d : Dock) (htrig : d.anti.snoreIntervention.trig = 0)
    (hf : d.anti.FirstLift) :
    CycleKept (step d .snoreRun).anti.snoreIntervention.firstLiftTick d.liftStarts.length
      (step d .snoreRun) := by
  have hlift := liftStarts_step d .snoreRun
  rw [if_pos ⟨rfl, hf.1⟩] at hlift
  have hstage : (step d .snoreRun).anti.snoreIntervention.liftStage = 1 := by
    rw [step_anti]
    refine (d.anti.run_liftStage _).trans ?_
    rw [if_pos hf.1, hf.2]
    rfl
  refine ⟨trig_step d .snoreRun htrig, rfl, by rw [hstage]; decide, fun _ => ?_, by omega⟩
  · rw [hstage, hlift]
    exact Nat.le_refl _

/-- In any run, from the first lift of a cycle on, until the cycle ends and as long as no window
triggers at stage 0: `firstLiftTick` stays and at most three lifts are started, the first
included. -/
theorem cycle_kept (b : Boot) (es es' : List Event) (hf : (runFrom b es).anti.FirstLift)
    (h : Along step (fun d e => ¬ CycleEnds d e ∧ ¬ TriggersAtStageZero d e)
      (step (runFrom b es) .snoreRun) es') :
    (exec step (step (runFrom b es) .snoreRun) es').anti.snoreIntervention.firstLiftTick =
        (step (runFrom b es) .snoreRun).anti.snoreIntervention.firstLiftTick ∧
      (exec step (step (runFrom b es) .snoreRun) es').liftStarts.length ≤
        (runFrom b es).liftStarts.length + 3 := by
  have hstart := cycleKept_firstLift _ (windowInv_runFrom b es).trig hf
  have hend := exec_invariant (fun d e hd hc => cycleKept_step hd hc.1 hc.2) hstart h
  exact ⟨hend.first, hend.cap⟩

/-- The run after a first lift finds the cycle as it is. -/
theorem cycle_kept_next_run :
    (runFrom (bootAt 3) untilLift).anti.FirstLift ∧
    (exec step (step (runFrom (bootAt 3) untilLift) .snoreRun)
        [.tick, .snoreRun]).anti.snoreIntervention.firstLiftTick =
      (step (runFrom (bootAt 3) untilLift) .snoreRun).anti.snoreIntervention.firstLiftTick ∧
    (exec step (step (runFrom (bootAt 3) untilLift) .snoreRun) [.tick, .snoreRun]).liftStarts.length
      ≤ (runFrom (bootAt 3) untilLift).liftStarts.length + 3 := by
  have h : Along step (fun d e => ¬ CycleEnds d e ∧ ¬ TriggersAtStageZero d e)
      (step (runFrom (bootAt 3) untilLift) .snoreRun) [.tick, .snoreRun] := by
    rw [runFrom_untilLift]
    refine ⟨?_, ?_, trivial⟩ <;> decide +kernel
  exact ⟨firstLift_untilLift, cycle_kept (bootAt 3) untilLift _ firstLift_untilLift h⟩

theorem not_cycleEnds_tick (d : Dock) : ¬ CycleEnds d .tick := by
  rintro (⟨h, -⟩ | h | h)
  · cases h
  · exact h rfl
  · exact h

/-- A cycle in which the APP sets level 0 and level 3 again: the next lift is a first lift once
more and moves `firstLiftTick`, though nothing has ended the cycle. -/
theorem cycle_restarted_by_level_zero :
    let d₁ := step (runFrom (bootAt 3) untilLift) .snoreRun
    let d₂ := exec step d₁ ([setLevel 0, setLevel 3, .snoreRun] ++ List.replicate 7 .snoreEdge)
    Along step (fun d e => ¬ CycleEnds d e) d₁
      (([setLevel 0, setLevel 3, .snoreRun] ++ List.replicate 7 .snoreEdge) ++
        (wait 30001 ++ [.snoreRun])) ∧
    d₁.anti.snoreIntervention.firstLiftTick = 30002 ∧
    (step (exec step d₂ (wait 30001)) .snoreRun).anti.snoreIntervention.firstLiftTick =
      60003 := by
  intro d₁ d₂
  have hd₁ : d₁ = step ((runFrom (bootAt 3)
      ([.tick, .snoreRun] ++ List.replicate 7 .snoreEdge)).mapAnti fun a =>
        { a with timer := a.timer + UInt32.ofNat 30001 }) .snoreRun :=
    congrArg (step · .snoreRun) runFrom_untilLift
  have hwait : Along step (fun d e => ¬ CycleEnds d e) d₂ (wait 30001) :=
    along_of_forall fun e he d => by
      rw [eq_tick_of_mem_wait he]
      exact not_cycleEnds_tick d
  have hedges : Along step (fun d e => ¬ CycleEnds d e) d₁
      ([setLevel 0, setLevel 3, .snoreRun] ++ List.replicate 7 .snoreEdge) := by
    rw [hd₁]
    decide +kernel
  have hrun : ¬ CycleEnds (exec step d₂ (wait 30001)) .snoreRun := by
    rw [exec_wait]
    simp only [d₂, hd₁]
    decide +kernel
  have hafter : Along step (fun d e => ¬ CycleEnds d e) d₂ (wait 30001 ++ [.snoreRun]) := by
    rw [along_append]
    exact And.intro hwait (And.intro hrun trivial)
  refine And.intro ((along_append _ _ _).mpr (And.intro hedges hafter)) ⟨?_, ?_⟩
  · rw [hd₁]
    decide +kernel
  · rw [exec_wait]
    simp only [d₂, hd₁]
    decide +kernel

end ErgoDock
