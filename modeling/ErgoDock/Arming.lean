import ErgoDock.Runs

/-! # Arming: the length of the detection window

`trigTimer` is the length of the window, 0 when no window may open.  It is refreshed by a run
that sees a level other than the remembered one, and by a change of the run mode.  A mode
change while the level is 0 stores 0, and nothing repairs that when the function is switched
on again at the remembered level. -/

namespace ErgoDock

open Machine

/-- History: the last refresh of `trigTimer` was a mode change at level 0. -/
def watchModeSetWhileOff (off : Bool) (d : Dock) (e : Event) : Bool :=
  if (step d e).anti.snoreIntervention.runMode ≠ d.anti.snoreIntervention.runMode then
    d.anti.antiSnoreIntensity = 0
  else if e = .snoreRun ∧ d.anti.antiSnoreIntensity ≠ 0 ∧
      d.anti.antiSnoreIntensity ≠ d.anti.lastAntiSnoreIntensity then false
  else off

/-- In the run so far the mode was changed while the function was off, and no run has seen a
level other than the remembered one since. -/
def modeSetWhileOff (b : Boot) (es : List Event) : Bool :=
  (exec (monitor step watchModeSetWhileOff) (boot b, false) es).2

/-- `trigTimer` is the window of the mode, except after a mode change at level 0.  Before the
first run at a nonzero level nothing is said: that run refreshes. -/
structure Armed (a : AntiSnore) (off : Bool) : Prop where
  intensity : a.antiSnoreIntensity ≤ 3
  trigTimer : a.lastAntiSnoreIntensity ≠ 0 →
    a.snoreIntervention.trigTimer = if off then 0 else a.snoreWindowTicks

theorem Initial.armed {a : AntiSnore} (h : Initial a) : Armed a false := by
  refine ⟨h.intensity, fun hl => ?_⟩
  rw [h.last] at hl
  simpa [hl] using h.trigTimer

section watch
variable (d : Dock) (off : Bool)

theorem runMode_step_of_ne {e : Event} (h : ∀ m, antiOp d e ≠ .mode m) :
    (step d e).anti.snoreIntervention.runMode = d.anti.snoreIntervention.runMode := by
  rw [step_anti, runMode_apply]
  split
  · next heq => exact absurd heq (h _)
  · rfl

theorem watch_of_mode {e : Event} {m : UInt8} (h : antiOp d e = .mode m) :
    watchModeSetWhileOff off d e = decide (d.anti.antiSnoreIntensity = 0) := by
  have hop := antiOp_allowed d e
  rw [h] at hop
  have hne : (step d e).anti.snoreIntervention.runMode ≠ d.anti.snoreIntervention.runMode := by
    rw [step_anti, runMode_apply, h]
    exact Ne.symm hop.2
  exact if_pos hne

theorem watch_of_run :
    watchModeSetWhileOff off d .snoreRun =
      if d.anti.antiSnoreIntensity ≠ 0 ∧
          d.anti.antiSnoreIntensity ≠ d.anti.lastAntiSnoreIntensity then false else off := by
  rw [watchModeSetWhileOff, if_neg (not_not.mpr (runMode_step_of_ne d (by simp [antiOp])))]
  simp

theorem watch_of_other {e : Event} (h : ∀ m, antiOp d e ≠ .mode m) (he : e ≠ .snoreRun) :
    watchModeSetWhileOff off d e = off := by
  rw [watchModeSetWhileOff, if_neg (not_not.mpr (runMode_step_of_ne d h))]
  exact if_neg fun hr => he hr.1

end watch

/-- The run that sees the level: either it refreshes `trigTimer`, or the level is the
remembered one and `trigTimer` stays. -/
theorem armed_snoreRun (d : Dock) (off : Bool) (h : Armed d.anti off) :
    Armed (step d .snoreRun).anti (watchModeSetWhileOff off d .snoreRun) := by
  rw [watch_of_run, step_anti]
  refine ⟨intensity_apply_le _ _ trivial h.intensity, fun hl => ?_⟩
  have hwin : ((antiOp d .snoreRun).apply d.anti).snoreWindowTicks = d.anti.snoreWindowTicks :=
    AntiSnore.snoreWindowTicks_congr (d.anti.run_runMode _)
  rw [hwin, trigTimer_apply _ _ h.intensity]
  rw [last_apply] at hl
  dsimp only [antiOp] at hl ⊢
  by_cases hc : d.anti.antiSnoreIntensity ≠ 0 ∧
      d.anti.antiSnoreIntensity ≠ d.anti.lastAntiSnoreIntensity
  · rw [if_pos hc, if_pos hc]
    rfl
  · have hlast : d.anti.lastAntiSnoreIntensity ≠ 0 := by
      by_cases h0 : d.anti.antiSnoreIntensity = 0
      · simpa [h0] using hl
      · have heq : d.anti.antiSnoreIntensity = d.anti.lastAntiSnoreIntensity := by
          by_contra hne
          exact hc ⟨h0, hne⟩
        exact heq ▸ h0
    rw [if_neg hc, if_neg hc]
    exact h.trigTimer hlast

theorem armed_step (d : Dock) (off : Bool) (e : Event) (h : Armed d.anti off) :
    Armed (step d e).anti (watchModeSetWhileOff off d e) := by
  by_cases he : e = .snoreRun
  · exact he ▸ armed_snoreRun d off h
  have hop := antiOp_allowed d e
  cases hcase : antiOp d e with
  | mode m =>
      rw [watch_of_mode d off hcase, step_anti, hcase]
      refine ⟨intensity_apply_le _ _ (hcase ▸ hop) h.intensity, fun _ => ?_⟩
      rw [trigTimer_apply _ _ h.intensity]
      simp [AntiOp.apply]
  | run soft => exact absurd ((antiOp_kind d e).1 soft hcase) he
  | _ =>
      have hm : ∀ m, antiOp d e ≠ .mode m := by simp [hcase]
      have hwin := AntiSnore.snoreWindowTicks_congr (runMode_step_of_ne d hm)
      rw [watch_of_other d off hm he]
      refine ⟨?_, fun hl => ?_⟩
      · rw [step_anti]
        exact intensity_apply_le _ _ hop h.intensity
      · rw [hwin]
        rw [step_anti, last_apply, hcase] at hl
        rw [step_anti, trigTimer_apply _ _ h.intensity, hcase]
        exact h.trigTimer hl

theorem armed_runFrom (b : Boot) (es : List Event) :
    Armed (runFrom b es).anti (modeSetWhileOff b es) :=
  monitor_invariant (fun d off e h => armed_step d off e h) (initial_boot b).armed es

/-- Which runs leave an enabled function armed, and which disarmed. -/
theorem trigTimer_after_run (b : Boot) (es : List Event)
    (hl : (runFrom b es).anti.antiSnoreIntensity ≠ 0) :
    (step (runFrom b es) .snoreRun).anti.snoreIntervention.trigTimer =
        (step (runFrom b es) .snoreRun).anti.snoreWindowTicks ↔
      ¬ (modeSetWhileOff b es = true ∧
        (runFrom b es).anti.antiSnoreIntensity =
          (runFrom b es).anti.lastAntiSnoreIntensity) := by
  have hA := armed_runFrom b es
  generalize runFrom b es = d at *
  generalize modeSetWhileOff b es = off at *
  have h := armed_snoreRun d off hA
  have hlast : (step d .snoreRun).anti.lastAntiSnoreIntensity = d.anti.antiSnoreIntensity := by
    rw [step_anti, last_apply]
    exact if_neg hl
  have hpos : ∀ a : AntiSnore, a.snoreWindowTicks ≠ 0 := by
    intro a
    rw [AntiSnore.snoreWindowTicks]
    split <;> decide
  rw [h.trigTimer (hlast ▸ hl), watch_of_run]
  by_cases hc : d.anti.antiSnoreIntensity = d.anti.lastAntiSnoreIntensity
  · cases off with
    | true => simp [hc, Ne.symm (hpos _)]
    | false => simp [hc]
  · simp [hc, hl]

/-- The first run after a start at level 1. -/
theorem trigTimer_after_first_run :
    (runFrom (bootAt 1) []).anti.antiSnoreIntensity ≠ 0 ∧
    ((step (runFrom (bootAt 1) []) .snoreRun).anti.snoreIntervention.trigTimer =
        (step (runFrom (bootAt 1) []) .snoreRun).anti.snoreWindowTicks ↔
      ¬ (modeSetWhileOff (bootAt 1) [] = true ∧
        (runFrom (bootAt 1) []).anti.antiSnoreIntensity =
          (runFrom (bootAt 1) []).anti.lastAntiSnoreIntensity)) := by
  have hl : (runFrom (bootAt 1) []).anti.antiSnoreIntensity ≠ 0 := by decide +kernel
  exact ⟨hl, trigTimer_after_run (bootAt 1) [] hl⟩

/-- A start at level 1, then three frames: off, test mode, on again at level 1.  The next run
leaves `trigTimer` at 0. -/
theorem disarmed_after_mode_change :
    let d := runFrom (bootAt 1) [setLevel 0, setMode 1, setLevel 1]
    d.anti.antiSnoreIntensity = 1 ∧
    (step d .snoreRun).anti.snoreIntervention.trigTimer = 0 ∧
    (step d .snoreRun).anti.snoreWindowTicks = 6000 := by
  decide +kernel

end ErgoDock
