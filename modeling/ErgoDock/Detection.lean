import ErgoDock.Controller

/-! # What one periodic run does

`SnoringIntervention_run` on the record, field by field, in terms of the state before the
call.  Three questions decide everything: is the cycle over (`CycleExpired`), does a
detection window open or close (`OpensWindow`, `ClosesWindow`), and does the window that
closes start a lift (`StartsLift`). -/

namespace ErgoDock
namespace AntiSnore

section
variable (a : AntiSnore) (soft : Bool)

/-! ### Vocabulary -/

/-- The elapsed time has reached `snore_flat_delay_ticks`. -/
def CycleExpired : Prop :=
  a.snoreIntervention.firstLiftTick ≠ 0 ∧
    ¬ a.timer - a.snoreIntervention.firstLiftTick < a.snoreFlatDelayTicks

instance : Decidable a.CycleExpired := by unfold CycleExpired; infer_instance

/-- The state in which `simulate_detection_period` is called. -/
def atDetection : AntiSnore := a.runPrelude.changeLevel

/-- The run opens a detection window. -/
def OpensWindow : Prop :=
  a.antiSnoreIntensity ≠ 0 ∧ a.atDetection.snoreIntervention.timerS = 0 ∧
    a.atDetection.snoreIntervention.trigTimer > 0

instance : Decidable a.OpensWindow := by unfold OpensWindow; infer_instance

/-- The run closes a detection window. -/
def ClosesWindow : Prop :=
  a.antiSnoreIntensity ≠ 0 ∧ a.atDetection.openDetectionWindow.WindowElapsed

instance : Decidable a.ClosesWindow := by unfold ClosesWindow; infer_instance

/-- The count the closing window is judged by. -/
def windowCount : UInt16 :=
  (a.sf.snoreNub.toUInt32 - a.snoreIntervention.oldsnoreNub).toUInt16

/-- The run closes a window with a count at or above the threshold. -/
def Triggers : Prop :=
  a.ClosesWindow ∧ a.snorePeriodThreshold a.antiSnoreIntensity ≤ a.windowCount

instance : Decidable a.Triggers := by unfold Triggers; infer_instance

/-- The run calls `snore_lift_start`. -/
def StartsLift : Prop :=
  a.antiSnoreIntensity ≠ 0 ∧ a.runDetect.snoreIntervention.trig = 1 ∧ a.runDetect.LiftDecided

instance : Decidable a.StartsLift := by unfold StartsLift; infer_instance

/-- The run starts the first lift of a cycle. -/
def FirstLift : Prop := a.StartsLift ∧ a.runPrelude.snoreIntervention.liftStage = 0

instance : Decidable a.FirstLift := by unfold FirstLift; infer_instance

/-! ### The first part of the run -/

theorem runPrelude_eq :
    a.runPrelude = a.mapSi fun si =>
      { si with
        enable := a.antiSnoreIntensity != 0
        liftStage := if a.CycleExpired then 0 else si.liftStage
        firstLiftTick := if a.CycleExpired then 0 else si.firstLiftTick
        isIntervening := if a.CycleExpired then false else si.isIntervening
        liftSegEndTick :=
          if si.liftSegEndTick ≠ 0 ∧ a.timer ≥ si.liftSegEndTick then 0 else si.liftSegEndTick
        liftSegPwm :=
          if si.liftSegEndTick ≠ 0 ∧ a.timer ≥ si.liftSegEndTick then 0 else si.liftSegPwm } := by
  have hcycle : a.readAntiSnoreIntensity.snoreTryCycleResetTick = a.mapSi fun si =>
      { si with
        enable := a.antiSnoreIntensity != 0
        liftStage := if a.CycleExpired then 0 else si.liftStage
        firstLiftTick := if a.CycleExpired then 0 else si.firstLiftTick
        isIntervening := if a.CycleExpired then false else si.isIntervening } := by
    by_cases h : a.CycleExpired
    · simp only [if_pos h]
      rw [snoreTryCycleResetTick]
      exact (if_neg h.1).trans (if_neg h.2)
    · simp only [if_neg h]
      rw [snoreTryCycleResetTick]
      by_cases hf : a.snoreIntervention.firstLiftTick = 0
      · exact if_pos hf
      · have hlt : a.timer - a.snoreIntervention.firstLiftTick < a.snoreFlatDelayTicks :=
          not_not.mp fun hn => h ⟨hf, hn⟩
        exact (if_neg hf).trans (if_pos hlt)
  rw [runPrelude, hcycle, processTick]
  by_cases h : a.snoreIntervention.liftSegEndTick ≠ 0 ∧
      a.timer ≥ a.snoreIntervention.liftSegEndTick
  · simp only [mapSi, if_pos h]
    exact if_pos h
  · simp only [mapSi, if_neg h]
    exact if_neg h

@[simp] theorem runPrelude_timer : a.runPrelude.timer = a.timer := by rw [runPrelude_eq]; rfl

@[simp] theorem runPrelude_intensity :
    a.runPrelude.antiSnoreIntensity = a.antiSnoreIntensity := by rw [runPrelude_eq]; rfl

@[simp] theorem runPrelude_last :
    a.runPrelude.lastAntiSnoreIntensity = a.lastAntiSnoreIntensity := by rw [runPrelude_eq]; rfl

@[simp] theorem runPrelude_sf : a.runPrelude.sf = a.sf := by rw [runPrelude_eq]; rfl

section fields
open SnoreIntervention

@[simp] theorem runPrelude_enable : a.runPrelude.snoreIntervention.enable =
    (a.antiSnoreIntensity != 0) := by rw [runPrelude_eq]; rfl

@[simp] theorem runPrelude_trig : a.runPrelude.snoreIntervention.trig =
    a.snoreIntervention.trig := by rw [runPrelude_eq]; rfl

@[simp] theorem runPrelude_trigTimer : a.runPrelude.snoreIntervention.trigTimer =
    a.snoreIntervention.trigTimer := by rw [runPrelude_eq]; rfl

@[simp] theorem runPrelude_timerS : a.runPrelude.snoreIntervention.timerS =
    a.snoreIntervention.timerS := by rw [runPrelude_eq]; rfl

@[simp] theorem runPrelude_oldsnoreNub : a.runPrelude.snoreIntervention.oldsnoreNub =
    a.snoreIntervention.oldsnoreNub := by rw [runPrelude_eq]; rfl

@[simp] theorem runPrelude_runMode : a.runPrelude.snoreIntervention.runMode =
    a.snoreIntervention.runMode := by rw [runPrelude_eq]; rfl

@[simp] theorem runPrelude_pwm : a.runPrelude.snoreIntervention.snoreInterventionPwm =
    a.snoreIntervention.snoreInterventionPwm := by rw [runPrelude_eq]; rfl

@[simp] theorem runPrelude_tmr : a.runPrelude.snoreIntervention.snoreInterventionTmr =
    a.snoreIntervention.snoreInterventionTmr := by rw [runPrelude_eq]; rfl

theorem runPrelude_liftStage : a.runPrelude.snoreIntervention.liftStage =
    if a.CycleExpired then 0 else a.snoreIntervention.liftStage := by rw [runPrelude_eq]; rfl

theorem runPrelude_firstLiftTick : a.runPrelude.snoreIntervention.firstLiftTick =
    if a.CycleExpired then 0 else a.snoreIntervention.firstLiftTick := by rw [runPrelude_eq]; rfl

theorem runPrelude_isIntervening : a.runPrelude.snoreIntervention.isIntervening =
    if a.CycleExpired then false else a.snoreIntervention.isIntervening := by
  rw [runPrelude_eq]; rfl

end fields

/-! ### Level change and detection -/

theorem snoreRunModeGet_congr {a b : AntiSnore}
    (h : a.snoreIntervention.runMode = b.snoreIntervention.runMode) :
    a.snoreRunModeGet = b.snoreRunModeGet := by
  rw [snoreRunModeGet, h]
  rfl

theorem snoreWindowTicks_congr {a b : AntiSnore}
    (h : a.snoreIntervention.runMode = b.snoreIntervention.runMode) :
    a.snoreWindowTicks = b.snoreWindowTicks := by
  simp only [snoreWindowTicks, snoreRunModeGet_congr h]

theorem snoreFlatDelayTicks_congr {a b : AntiSnore}
    (h : a.snoreIntervention.runMode = b.snoreIntervention.runMode) :
    a.snoreFlatDelayTicks = b.snoreFlatDelayTicks := by
  simp only [snoreFlatDelayTicks, snoreRunModeGet_congr h]

theorem snorePeriodThreshold_congr {a b : AntiSnore}
    (h : a.snoreIntervention.runMode = b.snoreIntervention.runMode) (l : UInt8) :
    a.snorePeriodThreshold l = b.snorePeriodThreshold l := by
  simp only [snorePeriodThreshold, snoreRunModeGet_congr h]

theorem changeLevel_of_ne {a : AntiSnore} (h : a.antiSnoreIntensity ≠ a.lastAntiSnoreIntensity) :
    a.changeLevel =
      { a.snoreRefreshTrigTimer.snoringInterventDetectionReset with
        lastAntiSnoreIntensity := a.antiSnoreIntensity } := if_pos h

theorem changeLevel_of_eq {a : AntiSnore} (h : a.antiSnoreIntensity = a.lastAntiSnoreIntensity) :
    a.changeLevel = a := if_neg (not_not.mpr h)

/-- A run at a level other than the remembered one resets the detection. -/
theorem atDetection_of_ne (h : a.antiSnoreIntensity ≠ a.lastAntiSnoreIntensity) :
    a.atDetection =
      { a.runPrelude.snoreRefreshTrigTimer.snoringInterventDetectionReset with
        lastAntiSnoreIntensity := a.antiSnoreIntensity } := by
  rw [atDetection, changeLevel_of_ne (by simpa using h), runPrelude_intensity]

theorem atDetection_of_eq (h : a.antiSnoreIntensity = a.lastAntiSnoreIntensity) :
    a.atDetection = a.runPrelude := changeLevel_of_eq (by simpa using h)

/-- What neither the block for a changed level nor the detection touches. -/
structure SameClock (a b : AntiSnore) : Prop where
  timer : b.timer = a.timer
  intensity : b.antiSnoreIntensity = a.antiSnoreIntensity
  snoreNub : b.sf.snoreNub = a.sf.snoreNub
  runMode : b.snoreIntervention.runMode = a.snoreIntervention.runMode
  liftStage : b.snoreIntervention.liftStage = a.snoreIntervention.liftStage
  firstLiftTick : b.snoreIntervention.firstLiftTick = a.snoreIntervention.firstLiftTick
  liftSegEndTick : b.snoreIntervention.liftSegEndTick = a.snoreIntervention.liftSegEndTick
  pwm : b.snoreIntervention.snoreInterventionPwm = a.snoreIntervention.snoreInterventionPwm
  tmr : b.snoreIntervention.snoreInterventionTmr = a.snoreIntervention.snoreInterventionTmr

theorem SameClock.trans {a b c : AntiSnore} (h : SameClock a b) (h' : SameClock b c) :
    SameClock a c :=
  ⟨h'.timer.trans h.timer, h'.intensity.trans h.intensity, h'.snoreNub.trans h.snoreNub,
    h'.runMode.trans h.runMode, h'.liftStage.trans h.liftStage,
    h'.firstLiftTick.trans h.firstLiftTick, h'.liftSegEndTick.trans h.liftSegEndTick,
    h'.pwm.trans h.pwm, h'.tmr.trans h.tmr⟩

theorem sameClock_changeLevel : SameClock a a.changeLevel := by
  by_cases h : a.antiSnoreIntensity = a.lastAntiSnoreIntensity
  · rw [changeLevel_of_eq h]
    exact ⟨rfl, rfl, rfl, rfl, rfl, rfl, rfl, rfl, rfl⟩
  · rw [changeLevel_of_ne h]
    exact ⟨rfl, rfl, rfl, rfl, rfl, rfl, rfl, rfl, rfl⟩

theorem sameClock_openDetectionWindow : SameClock a a.openDetectionWindow := by
  rw [openDetectionWindow]
  split <;> exact ⟨rfl, rfl, rfl, rfl, rfl, rfl, rfl, rfl, rfl⟩

theorem sameClock_simulateDetectionPeriod : SameClock a a.simulateDetectionPeriod := by
  refine a.sameClock_openDetectionWindow.trans ?_
  rw [simulateDetectionPeriod]
  generalize a.openDetectionWindow = b
  split <;> exact ⟨rfl, rfl, rfl, rfl, rfl, rfl, rfl, rfl, rfl⟩

theorem sameClock_runDetect : SameClock a.runPrelude a.runDetect :=
  a.runPrelude.sameClock_changeLevel.trans a.atDetection.sameClock_simulateDetectionPeriod

theorem openDetectionWindow_of_ne {a : AntiSnore} (h : a.snoreIntervention.timerS ≠ 0) :
    a.openDetectionWindow = a := if_neg fun hc => h hc.1

/-- A window does not close in the run that opens it. -/
theorem not_windowElapsed_of_eq {a : AntiSnore} (h : a.snoreIntervention.timerS = 0) :
    ¬ a.openDetectionWindow.WindowElapsed := by
  rw [openDetectionWindow]
  by_cases ht : a.snoreIntervention.trigTimer > 0
  · rw [if_pos ⟨h, ht⟩]
    intro hc
    have hlt : a.timer - a.timer > a.snoreIntervention.trigTimer := hc.2
    rw [UInt32.sub_self] at hlt
    exact absurd ht (UInt32.not_lt.mpr (UInt32.le_of_lt hlt))
  · rw [if_neg fun hc => ht hc.2]
    exact fun hc => hc.1 h

theorem timerS_atDetection_of_ne (h : a.antiSnoreIntensity ≠ a.lastAntiSnoreIntensity) :
    a.atDetection.snoreIntervention.timerS = 0 := by rw [atDetection_of_ne a h]; rfl

/-- The detection leaves the remembered level and `trigTimer` alone. -/
theorem last_simulateDetectionPeriod :
    a.simulateDetectionPeriod.lastAntiSnoreIntensity = a.lastAntiSnoreIntensity := by
  rw [simulateDetectionPeriod, openDetectionWindow]
  split <;> split <;> rfl

theorem isIntervening_simulateDetectionPeriod :
    a.simulateDetectionPeriod.snoreIntervention.isIntervening =
      a.snoreIntervention.isIntervening := by
  rw [simulateDetectionPeriod, openDetectionWindow]
  split <;> split <;> rfl

theorem trigTimer_simulateDetectionPeriod :
    a.simulateDetectionPeriod.snoreIntervention.trigTimer =
      a.snoreIntervention.trigTimer := by
  rw [simulateDetectionPeriod, openDetectionWindow]
  split <;> split <;> rfl

theorem intensity_ge_one {l : UInt8} (h : l ≠ 0) : 1 ≤ l :=
  UInt8.le_iff_toNat_le.mpr (Nat.one_le_iff_ne_zero.mpr fun h0 => h (UInt8.toNat_inj.mp h0))

theorem snoreRefreshTrigTimer_trigTimer (h : a.antiSnoreIntensity ≠ 0)
    (hle : a.antiSnoreIntensity ≤ 3) :
    a.snoreRefreshTrigTimer.snoreIntervention.trigTimer = a.snoreWindowTicks := by
  have hpos : a.antiSnoreIntensity ≥ 1 ∧ a.antiSnoreIntensity ≤ 3 := ⟨intensity_ge_one h, hle⟩
  simp only [snoreRefreshTrigTimer, snoreIntervention_mapSi]
  rw [if_pos hpos]

theorem trigTimer_atDetection_of_ne (h : a.antiSnoreIntensity ≠ a.lastAntiSnoreIntensity)
    (h0 : a.antiSnoreIntensity ≠ 0) (hle : a.antiSnoreIntensity ≤ 3) :
    a.atDetection.snoreIntervention.trigTimer = a.snoreWindowTicks := by
  rw [atDetection_of_ne a h]
  refine (snoreRefreshTrigTimer_trigTimer a.runPrelude ?_ ?_).trans ?_
  · rwa [runPrelude_intensity]
  · rwa [runPrelude_intensity]
  · exact snoreWindowTicks_congr (runPrelude_runMode a)

/-- Only a window that was open before the run closes in it. -/
theorem closesWindow_iff :
    a.ClosesWindow ↔
      a.antiSnoreIntensity ≠ 0 ∧ a.antiSnoreIntensity = a.lastAntiSnoreIntensity ∧
      a.snoreIntervention.timerS ≠ 0 ∧
      a.timer - a.snoreIntervention.timerS > a.snoreIntervention.trigTimer := by
  rw [ClosesWindow]
  refine and_congr_right fun _ => ?_
  by_cases h : a.antiSnoreIntensity = a.lastAntiSnoreIntensity
  · rw [atDetection_of_eq a h]
    by_cases ht : a.snoreIntervention.timerS = 0
    · have hn := not_windowElapsed_of_eq (a := a.runPrelude) (by simpa using ht)
      simp [hn, ht]
    · rw [openDetectionWindow_of_ne (by simpa using ht)]
      simp [WindowElapsed, h]
  · have hn := not_windowElapsed_of_eq (a.timerS_atDetection_of_ne h)
    simp [hn, h]

/-! ### The whole run -/

theorem run_of_off (h : a.antiSnoreIntensity = 0) : a.run soft = a.runPrelude :=
  if_neg (by simp [h])

theorem run_of_on (h : a.antiSnoreIntensity ≠ 0) :
    a.run soft =
      if a.runDetect.snoreIntervention.trig = 1 then a.runDetect.runTriggered soft
      else a.runDetect := if_pos (by simp [h])

/-- What the lift leaves of the detection. -/
structure SameWindow (a b : AntiSnore) : Prop where
  timer : b.timer = a.timer
  intensity : b.antiSnoreIntensity = a.antiSnoreIntensity
  last : b.lastAntiSnoreIntensity = a.lastAntiSnoreIntensity
  sf : b.sf = a.sf
  runMode : b.snoreIntervention.runMode = a.snoreIntervention.runMode
  trigTimer : b.snoreIntervention.trigTimer = a.snoreIntervention.trigTimer
  timerS : b.snoreIntervention.timerS = a.snoreIntervention.timerS
  oldsnoreNub : b.snoreIntervention.oldsnoreNub = a.snoreIntervention.oldsnoreNub

theorem sameWindow_runTriggered : SameWindow a (a.runTriggered soft) := by
  rw [runTriggered]
  split <;> exact ⟨rfl, rfl, rfl, rfl, rfl, rfl, rfl, rfl⟩

/-- After a run at a nonzero level the detection is as `simulate_detection_period` left it. -/
theorem sameWindow_run (h : a.antiSnoreIntensity ≠ 0) : SameWindow a.runDetect (a.run soft) := by
  rw [run_of_on a soft h]
  split
  · exact sameWindow_runTriggered _ _
  · exact ⟨rfl, rfl, rfl, rfl, rfl, rfl, rfl, rfl⟩

theorem simulateDetectionPeriod_of_elapsed {a : AntiSnore}
    (h : a.openDetectionWindow.WindowElapsed) :
    a.simulateDetectionPeriod = a.openDetectionWindow.closeDetectionWindow := if_pos h

theorem simulateDetectionPeriod_of_not_elapsed {a : AntiSnore}
    (h : ¬ a.openDetectionWindow.WindowElapsed) :
    a.simulateDetectionPeriod = a.openDetectionWindow := if_neg h

theorem runDetect_eq : a.runDetect = a.atDetection.simulateDetectionPeriod := rfl

theorem runDetect_of_closes (h : a.ClosesWindow) :
    a.runDetect = a.runPrelude.closeDetectionWindow := by
  obtain ⟨-, hl, ht, -⟩ := a.closesWindow_iff.mp h
  rw [runDetect_eq, simulateDetectionPeriod_of_elapsed h.2, atDetection_of_eq a hl,
    openDetectionWindow_of_ne (by simpa using ht)]

theorem runDetect_of_not_closes (h : a.antiSnoreIntensity ≠ 0) (hc : ¬ a.ClosesWindow) :
    a.runDetect = a.atDetection.openDetectionWindow := by
  rw [runDetect_eq, simulateDetectionPeriod_of_not_elapsed fun he => hc ⟨h, he⟩]

theorem openDetectionWindow_trig :
    a.openDetectionWindow.snoreIntervention.trig = a.snoreIntervention.trig := by
  rw [openDetectionWindow]
  split <;> rfl

/-- A run that closes no window finds and leaves `trig` at 0. -/
theorem runDetect_trig_of_not_closes (h : a.snoreIntervention.trig = 0)
    (hl : a.antiSnoreIntensity ≠ 0) (hc : ¬ a.ClosesWindow) :
    a.runDetect.snoreIntervention.trig = 0 := by
  rw [runDetect_of_not_closes a hl hc, openDetectionWindow_trig]
  by_cases he : a.antiSnoreIntensity = a.lastAntiSnoreIntensity
  · rw [atDetection_of_eq a he, runPrelude_trig, h]
  · rw [atDetection_of_ne a he]
    rfl

theorem runTriggered_trig : (a.runTriggered soft).snoreIntervention.trig = 0 := by
  rw [runTriggered]
  split <;> rfl

theorem run_trig (h : a.snoreIntervention.trig = 0) :
    (a.run soft).snoreIntervention.trig = 0 := by
  by_cases hl : a.antiSnoreIntensity = 0
  · rw [run_of_off a soft hl, runPrelude_trig, h]
  rw [run_of_on a soft hl]
  split
  · exact runTriggered_trig _ _
  · by_cases hc : a.ClosesWindow
    · next hn => exact absurd (by rw [runDetect_of_closes a hc]; rfl) hn
    · exact runDetect_trig_of_not_closes a h hl hc

theorem liftDecided_closeDetectionWindow :
    a.closeDetectionWindow.LiftDecided ↔
      (a.snorePeriodThreshold a.antiSnoreIntensity ≠ 0xFFFF ∧
        a.snorePeriodThreshold a.antiSnoreIntensity ≤ a.windowCount) ∧
      a.snoreIntervention.liftStage < siSegMax := by
  have hf : a.closeDetectionWindow.snoreIntervention.triggeredFlag =
      (a.snorePeriodThreshold a.antiSnoreIntensity != 0xFFFF &&
        decide (a.windowCount ≥ a.snorePeriodThreshold a.antiSnoreIntensity)) := rfl
  have hs : a.closeDetectionWindow.snoreIntervention.liftStage =
      a.snoreIntervention.liftStage := rfl
  rw [LiftDecided, hf, hs, Bool.and_eq_true, bne_iff_ne, decide_eq_true_eq]

/-- A lift starts exactly when a window closes with enough snores and there is a stage left. -/
theorem startsLift_iff (h : a.snoreIntervention.trig = 0) :
    a.StartsLift ↔
      a.Triggers ∧ a.snorePeriodThreshold a.antiSnoreIntensity ≠ 0xFFFF ∧
      a.runPrelude.snoreIntervention.liftStage < siSegMax := by
  by_cases hl : a.antiSnoreIntensity = 0
  · simp [StartsLift, Triggers, ClosesWindow, hl]
  by_cases hc : a.ClosesWindow
  · have hthr := snorePeriodThreshold_congr (a.runPrelude_runMode) a.antiSnoreIntensity
    have hw : a.runPrelude.windowCount = a.windowCount := by simp [windowCount]
    have hd := a.runPrelude.liftDecided_closeDetectionWindow
    rw [← runDetect_of_closes a hc, runPrelude_intensity, hthr, hw] at hd
    constructor
    · rintro ⟨-, -, hs⟩
      exact ⟨⟨hc, (hd.mp hs).1.2⟩, (hd.mp hs).1.1, (hd.mp hs).2⟩
    · rintro ⟨⟨-, hle⟩, hne, hst⟩
      refine ⟨hl, ?_, hd.mpr ⟨⟨hne, hle⟩, hst⟩⟩
      rw [runDetect_of_closes a hc]
      rfl
  · have ht := runDetect_trig_of_not_closes a h hl hc
    simp [StartsLift, Triggers, hc, ht]

theorem sameClock_settle : SameClock a a.settle := ⟨rfl, rfl, rfl, rfl, rfl, rfl, rfl, rfl, rfl⟩

theorem liftDecided_settle : a.settle.LiftDecided ↔ a.LiftDecided := Iff.rfl

theorem runTriggered_of_decided (h : a.LiftDecided) :
    a.runTriggered soft =
      (a.settle.liftStart soft a.snoreIntervention.snoreInterventionPwm
        a.snoreLiftTmrSegSeconds).countLift := if_pos h

theorem runTriggered_of_not_decided (h : ¬ a.LiftDecided) : a.runTriggered soft = a.settle :=
  if_neg h

theorem run_of_startsLift (h : a.StartsLift) :
    a.run soft =
      (a.runDetect.settle.liftStart soft a.runDetect.snoreIntervention.snoreInterventionPwm
        a.runDetect.snoreLiftTmrSegSeconds).countLift := by
  rw [run_of_on a soft h.1, if_pos h.2.1, runTriggered_of_decided _ _ h.2.2]

/-- A run that starts no lift leaves the cycle and the segment as the detection does. -/
theorem sameClock_run_of_not_startsLift (hn : ¬ a.StartsLift) :
    SameClock a.runPrelude (a.run soft) := by
  by_cases hl : a.antiSnoreIntensity = 0
  · rw [run_of_off a soft hl]
    exact ⟨rfl, rfl, rfl, rfl, rfl, rfl, rfl, rfl, rfl⟩
  rw [run_of_on a soft hl]
  split
  · next ht =>
    rw [runTriggered_of_not_decided _ _ fun hd => hn ⟨hl, ht, hd⟩]
    exact a.sameClock_runDetect.trans (sameClock_settle _)
  · exact a.sameClock_runDetect

/-- A run changes neither the clock, the level, the snore counter nor the mode. -/
theorem run_inputs :
    (a.run soft).timer = a.timer ∧ (a.run soft).antiSnoreIntensity = a.antiSnoreIntensity ∧
    (a.run soft).sf.snoreNub = a.sf.snoreNub ∧
    (a.run soft).snoreIntervention.runMode = a.snoreIntervention.runMode := by
  by_cases h : a.antiSnoreIntensity = 0
  · rw [run_of_off a soft h]
    exact ⟨a.runPrelude_timer, a.runPrelude_intensity, by rw [runPrelude_sf],
      a.runPrelude_runMode⟩
  · have hw := sameWindow_run a soft h
    have hc := a.sameClock_runDetect
    exact ⟨hw.timer.trans (hc.timer.trans a.runPrelude_timer),
      hw.intensity.trans (hc.intensity.trans a.runPrelude_intensity),
      (congrArg XSf.snoreNub hw.sf).trans (hc.snoreNub.trans (by rw [runPrelude_sf])),
      hw.runMode.trans (hc.runMode.trans a.runPrelude_runMode)⟩

@[simp] theorem run_timer : (a.run soft).timer = a.timer := (run_inputs a soft).1

@[simp] theorem run_intensity : (a.run soft).antiSnoreIntensity = a.antiSnoreIntensity :=
  (run_inputs a soft).2.1

@[simp] theorem run_snoreNub : (a.run soft).sf.snoreNub = a.sf.snoreNub :=
  (run_inputs a soft).2.2.1

@[simp] theorem run_runMode :
    (a.run soft).snoreIntervention.runMode = a.snoreIntervention.runMode :=
  (run_inputs a soft).2.2.2

/-- A run at a nonzero level remembers the level. -/
theorem run_last :
    (a.run soft).lastAntiSnoreIntensity =
      if a.antiSnoreIntensity = 0 then a.lastAntiSnoreIntensity else a.antiSnoreIntensity := by
  by_cases h : a.antiSnoreIntensity = 0
  · rw [run_of_off a soft h, if_pos h, runPrelude_last]
  · rw [(sameWindow_run a soft h).last, if_neg h, runDetect_eq, last_simulateDetectionPeriod]
    by_cases hl : a.antiSnoreIntensity = a.lastAntiSnoreIntensity
    · rw [atDetection_of_eq a hl, runPrelude_last, hl]
    · rw [atDetection_of_ne a hl]

/-- Only a run at a nonzero level other than the remembered one refreshes `trigTimer`. -/
theorem run_trigTimer (hle : a.antiSnoreIntensity ≤ 3) :
    (a.run soft).snoreIntervention.trigTimer =
      if a.antiSnoreIntensity ≠ 0 ∧ a.antiSnoreIntensity ≠ a.lastAntiSnoreIntensity then
        a.snoreWindowTicks
      else a.snoreIntervention.trigTimer := by
  by_cases h : a.antiSnoreIntensity = 0
  · rw [run_of_off a soft h, runPrelude_trigTimer, if_neg fun hc => hc.1 h]
  · rw [(sameWindow_run a soft h).trigTimer, runDetect_eq, trigTimer_simulateDetectionPeriod]
    by_cases hl : a.antiSnoreIntensity = a.lastAntiSnoreIntensity
    · rw [atDetection_of_eq a hl, runPrelude_trigTimer, if_neg fun hc => hc.2 hl]
    · rw [trigTimer_atDetection_of_ne a hl h hle, if_pos ⟨h, hl⟩]

/-- The window that is open in `a`, if any, is the one open in `b`. -/
structure KeepsWindow (a b : AntiSnore) : Prop where
  timerS : b.snoreIntervention.timerS = a.snoreIntervention.timerS
  oldsnoreNub : b.snoreIntervention.oldsnoreNub = a.snoreIntervention.oldsnoreNub
  trigTimer : b.snoreIntervention.trigTimer = a.snoreIntervention.trigTimer
  runMode : b.snoreIntervention.runMode = a.snoreIntervention.runMode

/-- A run that opens a window stores the tick and the snore count of that moment. -/
theorem run_of_opensWindow (h : a.OpensWindow) :
    (a.run soft).snoreIntervention.timerS = a.timer ∧
    (a.run soft).snoreIntervention.oldsnoreNub = a.sf.snoreNub.toUInt32 ∧
    (a.run soft).snoreIntervention.trigTimer = a.atDetection.snoreIntervention.trigTimer := by
  obtain ⟨hl, ht, hpos⟩ := h
  have hw := sameWindow_run a soft hl
  have hc := (sameClock_changeLevel a.runPrelude)
  have hd : a.runDetect = a.atDetection.openDetectionWindow := by
    rw [runDetect_eq, simulateDetectionPeriod_of_not_elapsed (not_windowElapsed_of_eq ht)]
  have ho : a.atDetection.openDetectionWindow = a.atDetection.mapSi fun si =>
      { si with
        timerS := a.atDetection.timer
        oldsnoreNub := a.atDetection.sf.snoreNub.toUInt32 } := if_pos ⟨ht, hpos⟩
  have htimer : a.atDetection.timer = a.timer := hc.timer.trans a.runPrelude_timer
  have hnub : a.atDetection.sf.snoreNub = a.sf.snoreNub :=
    hc.snoreNub.trans (by rw [runPrelude_sf])
  rw [hw.timerS, hw.oldsnoreNub, hw.trigTimer, hd, ho]
  simp only [snoreIntervention_mapSi]
  exact ⟨htimer, by rw [hnub], trivial⟩

theorem run_timerS_of_closes (h : a.ClosesWindow) :
    (a.run soft).snoreIntervention.timerS = 0 := by
  have hw := sameWindow_run a soft h.1
  rw [runDetect_of_closes a h] at hw
  exact hw.timerS

/-- A run that opens no window keeps the open one or leaves none. -/
theorem run_of_not_opensWindow (h : ¬ a.OpensWindow) :
    (a.run soft).snoreIntervention.timerS = 0 ∨ KeepsWindow a (a.run soft) := by
  by_cases hl : a.antiSnoreIntensity = 0
  · rw [run_of_off a soft hl]
    exact .inr ⟨a.runPrelude_timerS, a.runPrelude_oldsnoreNub, a.runPrelude_trigTimer,
      a.runPrelude_runMode⟩
  have hw := sameWindow_run a soft hl
  by_cases hcl : a.ClosesWindow
  · exact .inl (run_timerS_of_closes a soft hcl)
  · have ho : a.atDetection.openDetectionWindow = a.atDetection :=
      if_neg fun hc => h ⟨hl, hc⟩
    rw [runDetect_of_not_closes a hl hcl, ho] at hw
    by_cases he : a.antiSnoreIntensity = a.lastAntiSnoreIntensity
    · rw [atDetection_of_eq a he] at hw
      exact .inr ⟨hw.timerS.trans a.runPrelude_timerS,
        hw.oldsnoreNub.trans a.runPrelude_oldsnoreNub,
        hw.trigTimer.trans a.runPrelude_trigTimer, a.run_runMode soft⟩
    · exact .inl (hw.timerS.trans (a.timerS_atDetection_of_ne he))

/-- The count a closed window is judged by is stored. -/
theorem run_snoreNubperiod_of_closes (h : a.ClosesWindow) :
    (a.run soft).sf.snoreNubperiod = a.windowCount := by
  have hw := sameWindow_run a soft h.1
  have hcount : a.runPrelude.windowCount = a.windowCount := by simp [windowCount]
  rw [runDetect_of_closes a h] at hw
  rw [hw.sf, ← hcount]
  rfl

/-! ### The cycle after a run -/

theorem countLift_liftStage (b : AntiSnore) (pwm sec : UInt8) :
    (b.settle.liftStart soft pwm sec).countLift.snoreIntervention.liftStage =
      b.snoreIntervention.liftStage + 1 := rfl

theorem countLift_firstLiftTick (b : AntiSnore) (pwm sec : UInt8) :
    (b.settle.liftStart soft pwm sec).countLift.snoreIntervention.firstLiftTick =
      if b.snoreIntervention.liftStage = 0 then b.timer
      else b.snoreIntervention.firstLiftTick := by
  change (if b.snoreIntervention.liftStage + 1 = 1 then _ else _) = _
  simp only [UInt8.add_eq_right]
  rfl

theorem run_liftStage :
    (a.run soft).snoreIntervention.liftStage =
      if a.StartsLift then a.runPrelude.snoreIntervention.liftStage + 1
      else a.runPrelude.snoreIntervention.liftStage := by
  by_cases h : a.StartsLift
  · rw [if_pos h, run_of_startsLift a soft h, ← a.sameClock_runDetect.liftStage,
      countLift_liftStage]
  · rw [if_neg h]
    exact (a.sameClock_run_of_not_startsLift soft h).liftStage

theorem run_firstLiftTick :
    (a.run soft).snoreIntervention.firstLiftTick =
      if a.FirstLift then a.timer else a.runPrelude.snoreIntervention.firstLiftTick := by
  have hclock := a.sameClock_runDetect
  by_cases h : a.StartsLift
  · rw [run_of_startsLift a soft h, countLift_firstLiftTick, hclock.liftStage,
      hclock.firstLiftTick, hclock.timer, runPrelude_timer]
    simp [FirstLift, h]
  · rw [if_neg fun hf => h hf.1]
    exact (a.sameClock_run_of_not_startsLift soft h).firstLiftTick

theorem settle_isIntervening :
    a.settle.snoreIntervention.isIntervening = a.snoreIntervention.isIntervening := rfl

theorem changeLevel_isIntervening (h : a.changeLevel.snoreIntervention.isIntervening = true) :
    a.snoreIntervention.isIntervening = true ∨ a.snoreIntervention.firstLiftTick ≠ 0 := by
  by_cases he : a.antiSnoreIntensity = a.lastAntiSnoreIntensity
  · rw [changeLevel_of_eq he] at h
    exact .inl h
  · rw [changeLevel_of_ne he] at h
    exact .inr (bne_iff_ne.mp h)

/-- A run stores `isIntervening` for a lift of its own or for a cycle that is open. -/
theorem run_isIntervening (h : (a.run soft).snoreIntervention.isIntervening = true) :
    a.StartsLift ∨ a.runPrelude.snoreIntervention.isIntervening = true ∨
      a.runPrelude.snoreIntervention.firstLiftTick ≠ 0 := by
  by_cases hs : a.StartsLift
  · exact .inl hs
  right
  by_cases hl : a.antiSnoreIntensity = 0
  · rw [run_of_off a soft hl] at h
    exact .inl h
  have hd : a.runDetect.snoreIntervention.isIntervening = true := by
    rw [run_of_on a soft hl] at h
    split at h
    · next ht =>
      rw [runTriggered_of_not_decided _ _ fun hd => hs ⟨hl, ht, hd⟩, settle_isIntervening] at h
      exact h
    · exact h
  rw [runDetect_eq, isIntervening_simulateDetectionPeriod] at hd
  exact changeLevel_isIntervening _ hd

end
end AntiSnore
end ErgoDock
