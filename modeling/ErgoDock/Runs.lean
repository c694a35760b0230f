import ErgoDock.Detection

/-! # Runs of the controller

What holds of every run and does not belong to a single property: the state a run starts
in, the operations the environment can cause, the level, and the effect of waiting. -/

namespace ErgoDock

open Machine

/-! ### The start -/

/-- The record after `SnoringInterventionInit`. -/
structure Initial (a : AntiSnore) : Prop where
  timer : a.timer = 0
  intensity : a.antiSnoreIntensity ≤ 3
  last : a.lastAntiSnoreIntensity = a.antiSnoreIntensity
  trig : a.snoreIntervention.trig = 0
  trigTimer : a.snoreIntervention.trigTimer =
    if a.antiSnoreIntensity = 0 then 0 else a.snoreWindowTicks
  timerS : a.snoreIntervention.timerS = 0
  liftStage : a.snoreIntervention.liftStage = 0
  firstLiftTick : a.snoreIntervention.firstLiftTick = 0
  isIntervening : a.snoreIntervention.isIntervening = false
  liftSegEndTick : a.snoreIntervention.liftSegEndTick = 0

theorem initial_initFields (a : AntiSnore) (ht : a.timer = 0) (hl : a.antiSnoreIntensity ≤ 3) :
    Initial a.initFields.stateClear.snoringInterventFlatTimerClear := by
  have hinit : a.initFields.timer = a.timer ∧
      a.initFields.antiSnoreIntensity = a.antiSnoreIntensity ∧
      a.initFields.lastAntiSnoreIntensity = a.antiSnoreIntensity ∧
      a.initFields.snoreIntervention.runMode = snoreRunModeProd ∧
      a.initFields.snoreIntervention.trigTimer =
        if a.antiSnoreIntensity ≥ 1 ∧ a.antiSnoreIntensity ≤ 3 then snoreWindowProdTicks else 0 :=
    by simp [AntiSnore.initFields, AntiSnore.snoreRefreshTrigTimer,
      AntiSnore.readAntiSnoreIntensity, AntiSnore.snoreWindowTicks, AntiSnore.snoreRunModeGet,
      snoreRunModeProd, snoreRunModeTest]
  obtain ⟨h₁, h₂, h₃, h₄, h₅⟩ := hinit
  generalize a.initFields = c at *
  refine ⟨h₁.trans ht, h₂ ▸ hl, h₃.trans h₂.symm, rfl, ?_, rfl, rfl, rfl, rfl, rfl⟩
  have hwin : c.snoreWindowTicks = snoreWindowProdTicks := by
    simp [AntiSnore.snoreWindowTicks, AntiSnore.snoreRunModeGet, h₄, snoreRunModeProd,
      snoreRunModeTest]
  have hend : c.stateClear.snoringInterventFlatTimerClear.snoreWindowTicks = c.snoreWindowTicks :=
    AntiSnore.snoreWindowTicks_congr rfl
  have hlevel : c.stateClear.snoringInterventFlatTimerClear.antiSnoreIntensity =
      a.antiSnoreIntensity := h₂
  rw [hend, hwin, hlevel]
  refine h₅.trans ?_
  by_cases h0 : a.antiSnoreIntensity = 0
  · simp [h0]
  · rw [if_neg h0, if_pos ⟨AntiSnore.intensity_ge_one h0, hl⟩]

theorem anti_snoringInterventionInit (d : Dock) :
    d.snoringInterventionInit.anti =
      d.anti.initFields.stateClear.snoringInterventFlatTimerClear := by
  rw [Dock.snoringInterventionInit, Dock.anti_mapAnti, Dock.anti_stateClear, Dock.anti_mapAnti]

/-- Whatever the page holds, the level loaded is at most 3. -/
theorem flashLoad_intensity (d : Dock) (h : d.anti.antiSnoreIntensity ≤ 3) :
    d.flashLoad.anti.antiSnoreIntensity ≤ 3 := by
  simp only [Dock.flashLoad]
  split
  · change (if d.flash.page.getD 2 0 > 3 then 3 else d.flash.page.getD 2 0) ≤ (3 : UInt8)
    split
    · exact UInt8.le_refl 3
    · next hl => exact UInt8.not_lt.mp hl
  · exact h

theorem flashLoad_timer (d : Dock) : d.flashLoad.anti.timer = d.anti.timer := by
  simp only [Dock.flashLoad]
  split <;> rfl

theorem initial_boot (b : Boot) : Initial (boot b).anti := by
  rw [boot, Dock.xUartInit, (Dock.background_ci1302Sync _ _).anti,
    Dock.anti_checkOfflineVoiceKeys, anti_snoringInterventionInit]
  exact initial_initFields _ (flashLoad_timer _) (flashLoad_intensity _ (UInt8.zero_le))

/-! ### The operations of the environment -/

/-- What the environment can ask for: no level above 3, no mode but the other one. -/
def AntiOp.Allowed (a : AntiSnore) : AntiOp → Prop
  | .configure _ _ l => l ≤ 3
  | .mode m => m ≤ snoreRunModeTest ∧ a.snoreIntervention.runMode ≠ m
  | _ => True

theorem dataPortOp_allowed (a : AntiSnore) (p : List UInt8) (n : UInt8) :
    (dataPortOp a p n).Allowed a := by
  rw [dataPortOp]
  split
  · next h => exact h.2.2.2
  · split
    · next h => exact ⟨h.2.2.2.1, h.2.2.2.2⟩
    · trivial

theorem wordOp_allowed (a : AntiSnore) (data : UInt8) : (wordOp data).Allowed a := by
  rw [wordOp]
  split
  · split <;> trivial
  · trivial

theorem antiOp_allowed (d : Dock) (e : Event) : (antiOp d e).Allowed d.anti := by
  cases e with
  | control key =>
      rw [antiOp]
      split
      · trivial
      · split <;> trivial
  | voiceFrame cmd data =>
      rw [antiOp]
      split
      · exact wordOp_allowed _ _
      · trivial
  | statusFrame raw =>
      rw [antiOp]
      split <;> trivial
  | bleWrite value =>
      rw [antiOp, bleOp]
      split
      · split
        · trivial
        · split
          · exact dataPortOp_allowed _ _ _
          · trivial
      · trivial
  | _ => trivial

/-- The operations frames amount to. -/
def AntiOp.Framed : AntiOp → Prop
  | .tick | .edge | .levelOff | .levelStep | .run _ => False
  | _ => True

theorem wordOp_framed (data : UInt8) : (wordOp data).Framed := by
  rw [wordOp]
  split
  · split <;> trivial
  · trivial

theorem bleOp_framed (a : AntiSnore) (value : List UInt8) : (bleOp a value).Framed := by
  rw [bleOp]
  split
  · split
    · trivial
    · split
      · rw [dataPortOp]
        split
        · trivial
        · split <;> trivial
      · trivial
  · trivial

/-- The other operations have one cause each. -/
theorem antiOp_kind (d : Dock) (e : Event) :
    (∀ soft, antiOp d e = .run soft → e = .snoreRun) ∧ (antiOp d e = .tick → e = .tick) ∧
    (antiOp d e = .edge → e = .snoreEdge) ∧
    (antiOp d e = .levelOff → ∃ key, e = .control key ∧ d.keys.LongPress3 key) := by
  have hframed : (antiOp d e).Framed →
      (∀ soft, antiOp d e = .run soft → e = .snoreRun) ∧ (antiOp d e = .tick → e = .tick) ∧
      (antiOp d e = .edge → e = .snoreEdge) ∧
      (antiOp d e = .levelOff → ∃ key, e = .control key ∧ d.keys.LongPress3 key) := by
    intro hf
    refine ⟨fun soft h => ?_, fun h => ?_, fun h => ?_, fun h => ?_⟩ <;>
      · rw [h] at hf
        exact hf.elim
  cases e with
  | control key =>
      rw [antiOp]
      split
      · next h => simp [h]
      · split <;> simp
  | voiceFrame cmd data =>
      refine hframed ?_
      rw [antiOp]
      split
      · exact wordOp_framed data
      · trivial
  | statusFrame raw =>
      refine hframed ?_
      rw [antiOp]
      split <;> trivial
  | bleWrite value => exact hframed (bleOp_framed d.anti value)
  | tick => simp [antiOp]
  | snoreEdge => simp [antiOp]
  | snoreRun => simp [antiOp]
  | _ => exact hframed trivial

/-! ### Single fields

What each operation does to the level, the remembered level, the mode and `trigTimer`; the
other operations on these fields are the branches written out. -/

namespace AntiSnore

/-- What the resets leave alone. -/
structure SameInputs (a b : AntiSnore) : Prop where
  timer : b.timer = a.timer
  intensity : b.antiSnoreIntensity = a.antiSnoreIntensity
  last : b.lastAntiSnoreIntensity = a.lastAntiSnoreIntensity
  snoreNub : b.sf.snoreNub = a.sf.snoreNub

theorem SameInputs.trans {a b c : AntiSnore} (h : SameInputs a b) (h' : SameInputs b c) :
    SameInputs a c :=
  ⟨h'.timer.trans h.timer, h'.intensity.trans h.intensity, h'.last.trans h.last,
    h'.snoreNub.trans h.snoreNub⟩

theorem sameInputs_mapSi (a : AntiSnore) (f : SnoreIntervention → SnoreIntervention) :
    SameInputs a (a.mapSi f) := ⟨rfl, rfl, rfl, rfl⟩

theorem sameInputs_stateClear (a : AntiSnore) : SameInputs a a.stateClear :=
  ⟨rfl, rfl, rfl, rfl⟩

theorem sameInputs_snoreRefreshTrigTimer (a : AntiSnore) :
    SameInputs a a.snoreRefreshTrigTimer := ⟨rfl, rfl, rfl, rfl⟩

theorem sameInputs_changeMode (a : AntiSnore) (m : UInt8) : SameInputs a (a.changeMode m) := by
  rw [changeMode, snoringInterventFlatTimerClear]
  exact (((a.sameInputs_mapSi _).trans (sameInputs_stateClear _)).trans
    (sameInputs_mapSi _ _)).trans (sameInputs_snoreRefreshTrigTimer _)

theorem nextLevel_le (l : UInt8) : nextLevel l ≤ 3 := by
  rw [nextLevel]
  split
  · next h =>
    rw [UInt8.lt_iff_toNat_lt] at h
    rw [UInt8.le_iff_toNat_le, UInt8.toNat_add]
    simp only [UInt8.reduceToNat] at *
    omega
  · exact UInt8.le_iff_toNat_le.mpr (by decide)

theorem changeMode_trigTimer (a : AntiSnore) (m : UInt8) (hle : a.antiSnoreIntensity ≤ 3) :
    (a.changeMode m).snoreIntervention.trigTimer =
      if a.antiSnoreIntensity = 0 then 0 else (a.changeMode m).snoreWindowTicks := by
  have hwin : ∀ c : AntiSnore, c.snoreRefreshTrigTimer.snoreWindowTicks = c.snoreWindowTicks :=
    fun _ => snoreWindowTicks_congr rfl
  rw [changeMode, hwin]
  have hl : ((a.mapSi fun si => { si with runMode := m }).stateClear
      |>.snoringInterventFlatTimerClear).antiSnoreIntensity = a.antiSnoreIntensity := rfl
  generalize ((a.mapSi fun si => { si with runMode := m }).stateClear
      |>.snoringInterventFlatTimerClear) = c at *
  by_cases h : a.antiSnoreIntensity = 0
  · have h' : ¬ (c.antiSnoreIntensity ≥ 1 ∧ c.antiSnoreIntensity ≤ 3) := by simp [hl, h]
    rw [if_pos h]
    exact if_neg h'
  · rw [if_neg h]
    exact snoreRefreshTrigTimer_trigTimer c (hl ▸ h) (hl ▸ hle)

end AntiSnore

section apply
variable (a : AntiSnore) (op : AntiOp)

theorem intensity_apply :
    (op.apply a).antiSnoreIntensity =
      match op with
      | .levelOff => 0
      | .levelStep => AntiSnore.nextLevel a.antiSnoreIntensity
      | .configure _ _ l => l
      | _ => a.antiSnoreIntensity := by
  cases op with
  | configure pwm tmr l =>
      rw [AntiOp.apply, AntiSnore.configure]
      split <;> rfl
  | volume v counted =>
      rw [AntiOp.apply]
      split <;> rfl
  | mode m => exact (a.sameInputs_changeMode m).intensity
  | run soft => exact a.run_intensity soft
  | _ => rfl

theorem last_apply :
    (op.apply a).lastAntiSnoreIntensity =
      match op with
      | .run _ => if a.antiSnoreIntensity = 0 then a.lastAntiSnoreIntensity
          else a.antiSnoreIntensity
      | _ => a.lastAntiSnoreIntensity := by
  cases op with
  | configure pwm tmr l =>
      rw [AntiOp.apply, AntiSnore.configure]
      split <;> rfl
  | volume v counted =>
      rw [AntiOp.apply]
      split <;> rfl
  | mode m => exact (a.sameInputs_changeMode m).last
  | run soft => exact a.run_last soft
  | _ => rfl

theorem runMode_apply :
    (op.apply a).snoreIntervention.runMode =
      match op with
      | .mode m => m
      | _ => a.snoreIntervention.runMode := by
  cases op with
  | configure pwm tmr l =>
      rw [AntiOp.apply, AntiSnore.configure]
      split <;> rfl
  | volume v counted =>
      rw [AntiOp.apply]
      split <;> rfl
  | run soft => exact a.run_runMode soft
  | _ => rfl

theorem trigTimer_apply (hle : a.antiSnoreIntensity ≤ 3) :
    (op.apply a).snoreIntervention.trigTimer =
      match op with
      | .mode m =>
          if a.antiSnoreIntensity = 0 then 0 else (a.changeMode m).snoreWindowTicks
      | .run _ =>
          if a.antiSnoreIntensity ≠ 0 ∧ a.antiSnoreIntensity ≠ a.lastAntiSnoreIntensity then
            a.snoreWindowTicks
          else a.snoreIntervention.trigTimer
      | _ => a.snoreIntervention.trigTimer := by
  cases op with
  | configure pwm tmr l =>
      rw [AntiOp.apply, AntiSnore.configure]
      split <;> rfl
  | volume v counted =>
      rw [AntiOp.apply]
      split <;> rfl
  | mode m => exact a.changeMode_trigTimer m hle
  | run soft => exact a.run_trigTimer soft hle
  | _ => rfl

end apply

theorem intensity_apply_le (a : AntiSnore) (op : AntiOp) (hop : op.Allowed a)
    (h : a.antiSnoreIntensity ≤ 3) : (op.apply a).antiSnoreIntensity ≤ 3 := by
  rw [intensity_apply]
  cases op with
  | levelOff => exact UInt8.zero_le
  | levelStep => exact AntiSnore.nextLevel_le _
  | configure pwm tmr l => exact hop
  | _ => exact h

theorem intensity_le (b : Boot) (es : List Event) :
    (runFrom b es).anti.antiSnoreIntensity ≤ 3 := by
  refine exec_invariant_all (I := fun d : Dock => d.anti.antiSnoreIntensity ≤ 3) ?_
    (initial_boot b).intensity es
  intro d e h
  rw [step_anti]
  exact intensity_apply_le _ _ (antiOp_allowed d e) h

/-! ### Runs written down

The pieces the concrete runs of the following files are made of. -/

/-- A start with level `l` stored. -/
def bootAt (l : UInt8) : Boot := ⟨flashRecord 0x50 0x15 l, 1, 1⟩

/-- The frame of the APP for level `l`. -/
def levelFrame (l : UInt8) : List UInt8 := [7, 6, 0x11, 0xB7, 0x50, 0x15, l, 0, 0]

/-- The APP sets level `l`. -/
def setLevel (l : UInt8) : Event := .bleWrite (levelFrame l)

/-- The APP sets run mode `m`. -/
def setMode (m : UInt8) : Event := .bleWrite [3, 6, 0x13, 0xB7, m]

/-- Waiting for `n` ticks. -/
def wait (n : ℕ) : List Event := List.replicate n .tick

/-- Key 3 held until just before the long press. -/
def pressKey3 : List Event := List.replicate 500 (.control appKeyNum3)

/-- Key 3 held until the long press. -/
def holdKey3 : List Event := pressKey3 ++ [.control appKeyNum3]

/-- The switch is set to the first wake word, and the wake word is spoken. -/
def openSession : List Event :=
  [.switchSample 1 0, .switchSample 1 0, .switchSample 1 0, .voiceFrame 0x81 0x21]

/-- A frame of the main box. -/
def slotFrame : List UInt8 := [0x05, 0x01, 0, 0, 0, 0, 0, 0xF9]

/-- The main box sends a frame, and so lets one frame of the queue pass. -/
def busSlot : Event := .mfpFrame slotFrame

theorem eq_tick_of_mem_wait {n : ℕ} {e : Event} (h : e ∈ wait n) : e = .tick :=
  List.eq_of_mem_replicate h

/-- Waiting changes nothing but the clock. -/
theorem exec_wait (d : Dock) (n : ℕ) :
    exec step d (wait n) =
      d.mapAnti fun a => { a with timer := a.timer + UInt32.ofNat n } := by
  have h := exec_replicate step .tick
    (fun i => d.mapAnti fun a => { a with timer := a.timer + UInt32.ofNat i }) n ?_
  · rw [wait, ← h]
    congr 1
    simp [Dock.mapAnti]
  · intro i _
    simp only [step, Dock.timerTick, Dock.mapAnti, UInt32.ofNat_add, UInt32.add_assoc]
    rfl

theorem satInc_ofNat {i : ℕ} (h : i < 499) : satInc (UInt16.ofNat i) = UInt16.ofNat (i + 1) := by
  have hlt : UInt16.ofNat i < 0xFFFF := by
    rw [UInt16.lt_iff_toNat_lt, UInt16.toNat_ofNat']
    simp only [UInt16.reduceToNat]
    omega
  rw [satInc, if_pos hlt, UInt16.ofNat_add]
  rfl

theorem control_holding (d : Dock) (h : d.keys.lastKey = appKeyNum3)
    (hr : satInc d.keys.keyRepeat ≠ 500) :
    step d (.control appKeyNum3) =
      d.setKeys { d.keys with keyRepeat := satInc d.keys.keyRepeat } := by
  have hpress : ¬ (d.keys.lastKey = 0 ∧ appKeyNum3 ≠ 0) := by simp [h, appKeyNum3]
  have hhold : d.keys.lastKey = appKeyNum3 ∧ appKeyNum3 ≠ 0 := ⟨h, by decide⟩
  have h200 : ¬ (satInc d.keys.keyRepeat = 200 ∧ appKeyNum3 = appKeyNum4) := by
    simp [appKeyNum3, appKeyNum4]
  have h500 : ¬ (satInc d.keys.keyRepeat = 500 ∧ appKeyNum3 = appKeyNum3) := fun hc => hr hc.1
  rw [step, Dock.controlTimer10ms]
  dsimp only
  rw [if_neg hpress, if_pos hhold, if_neg h200, if_neg h500]
  simp only [Dock.setKeys, ← h]

/-- Holding key 3 short of the long press only counts. -/
theorem exec_holding (d : Dock) (h : d.keys.lastKey = appKeyNum3) (h₀ : d.keys.keyRepeat = 0)
    {n : ℕ} (hn : n ≤ 499) :
    exec step d (List.replicate n (.control appKeyNum3)) =
      d.setKeys { d.keys with keyRepeat := UInt16.ofNat n } := by
  have hrun := exec_replicate step (.control appKeyNum3)
    (fun i => d.setKeys { d.keys with keyRepeat := UInt16.ofNat i }) n ?_
  · have hstart : d.setKeys { d.keys with keyRepeat := UInt16.ofNat 0 } = d := by
      rw [show UInt16.ofNat 0 = d.keys.keyRepeat by rw [h₀]; rfl]
      rfl
    rw [hstart] at hrun
    exact hrun
  · intro i hi
    have hs : satInc (UInt16.ofNat i) = UInt16.ofNat (i + 1) := satInc_ofNat (by omega)
    have hne : satInc (UInt16.ofNat i) ≠ 500 := by
      rw [hs, ne_eq, ← UInt16.toNat_inj, UInt16.toNat_ofNat']
      simp only [UInt16.reduceToNat]
      omega
    have hc := control_holding (d.setKeys { d.keys with keyRepeat := UInt16.ofNat i }) h hne
    rw [← hs]
    exact hc

/-- Key 3 pressed and held, from a released key. -/
theorem exec_pressKey3 (d : Dock) (h : d.keys.lastKey = 0) (h₀ : d.keys.keyRepeat = 0) :
    exec step d pressKey3 =
      d.setKeys { d.keys with lastKey := appKeyNum3, keyRepeat := 499 } := by
  have hpress : step d (.control appKeyNum3) = d.setKeys { d.keys with lastKey := appKeyNum3 } := by
    have hp : d.keys.lastKey = 0 ∧ appKeyNum3 ≠ 0 := ⟨h, by decide⟩
    rw [step, Dock.controlTimer10ms]
    dsimp only
    rw [if_pos hp]
  have hlist : pressKey3 = .control appKeyNum3 :: List.replicate 499 (.control appKeyNum3) := by
    rw [pressKey3, ← List.replicate_succ]
  have hhold := exec_holding (d.setKeys { d.keys with lastKey := appKeyNum3 }) rfl h₀
    (Nat.le_refl 499)
  rw [hlist, exec_cons, hpress, hhold]
  rfl

/-- The long press of key 3, from a released key. -/
theorem exec_holdKey3 (d : Dock) (h : d.keys.lastKey = 0) (h₀ : d.keys.keyRepeat = 0) :
    exec step d holdKey3 =
      step (d.setKeys { d.keys with lastKey := appKeyNum3, keyRepeat := 499 })
        (.control appKeyNum3) := by
  rw [holdKey3, exec_append, exec_pressKey3 d h h₀]
  rfl

/-- Snores and time up to the run that lifts, from a start at level 3. -/
def untilLift : List Event := [.tick, .snoreRun] ++ List.replicate 7 .snoreEdge ++ wait 30001

theorem runFrom_untilLift :
    runFrom (bootAt 3) untilLift =
      (runFrom (bootAt 3) ([.tick, .snoreRun] ++ List.replicate 7 .snoreEdge)).mapAnti fun a =>
        { a with timer := a.timer + UInt32.ofNat 30001 } := by
  rw [runFrom, untilLift, exec_append, exec_wait, runFrom]

end ErgoDock
