import ErgoDock.Air
import ErgoDock.Runs

/-! # The settings of the anti-snore function

Speed, time and level, and the run mode.  They are written by the APP, by key 3, at the start and
by nothing else; a history variable (`Settings.next`) holds what was last accepted.  In every run
the record holds exactly the history, and so every answer that reports the settings reports what
was last accepted (`reported_settings`). -/

namespace ErgoDock

open Machine

/-- What the flash record keeps: speed, time and level. -/
structure SnoreCfg where
  pwm : UInt8
  tmr : UInt8
  intensity : UInt8
deriving DecidableEq, Repr

structure Settings where
  cfg : SnoreCfg
  mode : UInt8
deriving DecidableEq, Repr

namespace AntiSnore

def cfg (a : AntiSnore) : SnoreCfg :=
  ⟨a.snoreIntervention.snoreInterventionPwm, a.snoreIntervention.snoreInterventionTmr,
    a.antiSnoreIntensity⟩

def settings (a : AntiSnore) : Settings := ⟨a.cfg, a.snoreIntervention.runMode⟩

theorem cfg_eq {a b : AntiSnore}
    (hp : b.snoreIntervention.snoreInterventionPwm = a.snoreIntervention.snoreInterventionPwm)
    (ht : b.snoreIntervention.snoreInterventionTmr = a.snoreIntervention.snoreInterventionTmr)
    (hl : b.antiSnoreIntensity = a.antiSnoreIntensity) : b.cfg = a.cfg := by
  rw [cfg, hp, ht, hl, cfg]

theorem cfg_runTriggered (a : AntiSnore) (soft : Bool) : (a.runTriggered soft).cfg = a.cfg := by
  rw [runTriggered]
  split <;> rfl

theorem run_cfg (a : AntiSnore) (soft : Bool) : (a.run soft).cfg = a.cfg := by
  have hstart : a.runPrelude.cfg = a.cfg :=
    cfg_eq a.runPrelude_pwm a.runPrelude_tmr a.runPrelude_intensity
  have hd := a.sameClock_runDetect
  have hdetect : a.runDetect.cfg = a.cfg := (cfg_eq hd.pwm hd.tmr hd.intensity).trans hstart
  rw [run]
  split
  · split
    · exact (cfg_runTriggered _ soft).trans hdetect
    · exact hdetect
  · exact hstart

theorem cfg_changeMode (a : AntiSnore) (m : UInt8) : (a.changeMode m).cfg = a.cfg := by
  have hclear : ∀ c : AntiSnore, c.stateClear.cfg = c.cfg := fun _ => rfl
  have hflat : ∀ c : AntiSnore, c.snoringInterventFlatTimerClear.cfg = c.cfg := fun _ => rfl
  have hrefresh : ∀ c : AntiSnore, c.snoreRefreshTrigTimer.cfg = c.cfg := fun _ => rfl
  rw [changeMode, hrefresh, hflat, hclear]
  rfl

/-! ### `enable` -/

/-- `enable` says that the level is not zero. -/
def Enabled (a : AntiSnore) : Prop :=
  a.snoreIntervention.enable = (a.antiSnoreIntensity != 0)

section enabled
variable {a : AntiSnore} (h : a.Enabled)
include h

theorem enabled_changeLevel : a.changeLevel.Enabled := by
  rw [changeLevel]
  split
  · rfl
  · exact h

theorem enabled_openDetectionWindow : a.openDetectionWindow.Enabled := by
  rw [openDetectionWindow]
  split
  · exact h
  · exact h

theorem enabled_simulateDetectionPeriod : a.simulateDetectionPeriod.Enabled := by
  rw [simulateDetectionPeriod]
  have hopen := enabled_openDetectionWindow h
  generalize a.openDetectionWindow = c at *
  split
  · rfl
  · exact hopen

theorem enabled_runTriggered (soft : Bool) : (a.runTriggered soft).Enabled := by
  rw [runTriggered]
  split
  · exact h
  · exact h

end enabled

/-- After a run `enable` says whether the level is nonzero, whatever it said before. -/
theorem enabled_run (a : AntiSnore) (soft : Bool) : (a.run soft).Enabled := by
  have hp : a.runPrelude.Enabled := by
    rw [Enabled, runPrelude_enable, runPrelude_intensity]
  have hd : a.runDetect.Enabled := enabled_simulateDetectionPeriod (enabled_changeLevel hp)
  rw [run]
  generalize a.runDetect = c at *
  split
  · split
    · exact enabled_runTriggered hd soft
    · exact hd
  · exact hp

end AntiSnore

/-! ### What is written -/

theorem cfg_apply (a : AntiSnore) (op : AntiOp) :
    (op.apply a).cfg =
      match op with
      | .levelOff => { a.cfg with intensity := 0 }
      | .levelStep => { a.cfg with intensity := AntiSnore.nextLevel a.antiSnoreIntensity }
      | .configure pwm tmr l => ⟨pwm, tmr, l⟩
      | _ => a.cfg := by
  cases op with
  | configure pwm tmr l =>
      rw [AntiOp.apply, AntiSnore.configure]
      split <;> rfl
  | volume v counted =>
      rw [AntiOp.apply]
      split <;> rfl
  | mode m => exact a.cfg_changeMode m
  | run soft => exact a.run_cfg soft
  | _ => rfl

/-- An accepted setting of the anti-snore function. -/
def SetsCfg (value : List UInt8) : Prop :=
  Dock.Accepted value ∧ byteAt value 1 = bleDataPort ∧
    SetsSnore (value.drop 2) (byteAt value 0)

instance (value : List UInt8) : Decidable (SetsCfg value) := by unfold SetsCfg; infer_instance

/-- The three values of a setting. -/
def cfgOf (value : List UInt8) : SnoreCfg :=
  ⟨byteAt (value.drop 2) 2, byteAt (value.drop 2) 3, byteAt (value.drop 2) 4⟩

/-- An accepted setting of the run mode. -/
def SetsRunMode (value : List UInt8) : Prop :=
  Dock.Accepted value ∧ byteAt value 1 = bleDataPort ∧
    CarriesMode (value.drop 2) (byteAt value 0)

instance (value : List UInt8) : Decidable (SetsRunMode value) := by
  unfold SetsRunMode; infer_instance

/-- History: what was last accepted, from the APP or from key 3. -/
def Settings.next (c : Settings) (d : Dock) : Event → Settings
  | .control key =>
      if d.keys.LongPress3 key then { c with cfg := { c.cfg with intensity := 0 } }
      else if d.keys.Release3 key then
        { c with cfg := { c.cfg with intensity := AntiSnore.nextLevel c.cfg.intensity } }
      else c
  | .bleWrite value =>
      if SetsCfg value then { c with cfg := cfgOf value }
      else if SetsRunMode value then { c with mode := byteAt (value.drop 2) 2 }
      else c
  | .tick | .switchSample _ _ | .led | .charge _ | .snoreEdge | .snoreRun | .flashRun
  | .voiceFrame _ _ | .mfpFrame _ | .statusFrame _ | .connected _ | .disconnected
  | .notificationDone | .mtuChanged _ => c

/-- The history of a run: it begins with the values of the start and the production mode. -/
def settingsOf (b : Boot) (es : List Event) : Settings :=
  (exec (monitor step Settings.next) (boot b, ⟨(boot b).anti.cfg, snoreRunModeProd⟩) es).2

theorem settings_apply_keep {a : AntiSnore} {op : AntiOp}
    (hcfg : (op.apply a).cfg = a.cfg)
    (hmode : (op.apply a).snoreIntervention.runMode = a.snoreIntervention.runMode) :
    (op.apply a).settings = a.settings := by
  rw [AntiSnore.settings, hcfg, hmode, AntiSnore.settings]

/-- A frame on the data port, on the settings. -/
theorem settings_dataPort (a : AntiSnore) (p : List UInt8) (n : UInt8) :
    ((dataPortOp a p n).apply a).settings =
      if SetsSnore p n then { a.settings with cfg := ⟨byteAt p 2, byteAt p 3, byteAt p 4⟩ }
      else if CarriesMode p n then { a.settings with mode := byteAt p 2 } else a.settings := by
  rw [dataPortOp]
  split
  · rw [AntiSnore.settings, cfg_apply, runMode_apply]
    rfl
  split
  · next hset =>
    rw [if_pos ⟨hset.1, hset.2.1, hset.2.2.1, hset.2.2.2.1⟩, AntiSnore.settings, cfg_apply,
      runMode_apply]
    rfl
  · next hset =>
    split
    · next hm =>
      -- the mode is in force already, and so is not set again
      have heq : a.snoreIntervention.runMode = byteAt p 2 := by
        by_contra hne
        exact hset ⟨hm.1, hm.2.1, hm.2.2.1, hm.2.2.2, hne⟩
      rw [← heq]
      rfl
    · rfl

theorem settings_write (d : Dock) (value : List UInt8) :
    ((bleOp d.anti value).apply d.anti).settings =
      d.anti.settings.next d (.bleWrite value) := by
  simp only [bleOp, Settings.next]
  split
  · next ha =>
    split
    · next hp =>
      have hq : byteAt value 1 ≠ bleDataPort := hp ▸ bleDataPort_ne.symm
      rw [if_neg fun hc : SetsCfg value => hq hc.2.1,
        if_neg fun hc : SetsRunMode value => hq hc.2.1]
      rfl
    split
    · next hq =>
      have hcfg : SetsCfg value ↔ SetsSnore (value.drop 2) (byteAt value 0) :=
        ⟨fun hc => hc.2.2, fun hs => ⟨ha, hq, hs⟩⟩
      have hmode : SetsRunMode value ↔ CarriesMode (value.drop 2) (byteAt value 0) :=
        ⟨fun hc => hc.2.2, fun hm => ⟨ha, hq, hm⟩⟩
      rw [settings_dataPort]
      simp only [hcfg, hmode]
      rfl
    · next hq =>
      rw [if_neg fun hc : SetsCfg value => hq hc.2.1,
        if_neg fun hc : SetsRunMode value => hq hc.2.1]
      rfl
  · next ha =>
    rw [if_neg fun hc : SetsCfg value => ha hc.1, if_neg fun hc : SetsRunMode value => ha hc.1]
    rfl

/-- Every step changes the settings as the history says. -/
theorem settings_step (d : Dock) (e : Event) :
    (step d e).anti.settings = d.anti.settings.next d e := by
  rw [step_anti]
  cases e with
  | bleWrite value => exact settings_write d value
  | control key =>
      simp only [antiOp, Settings.next]
      split
      · rfl
      · split <;> rfl
  | voiceFrame cmd data =>
      simp only [antiOp, Settings.next, wordOp]
      split
      · split
        · split <;> rfl
        · rfl
      · rfl
  | statusFrame raw =>
      simp only [antiOp, Settings.next]
      split
      · exact settings_apply_keep (cfg_apply _ _) (runMode_apply _ _)
      · rfl
  | snoreRun => exact settings_apply_keep (cfg_apply _ _) (runMode_apply _ _)
  | _ => rfl

theorem settings_boot (b : Boot) :
    (boot b).anti.settings = ⟨(boot b).anti.cfg, snoreRunModeProd⟩ := by
  have hmode : (boot b).anti.snoreIntervention.runMode = snoreRunModeProd := by
    rw [boot, Dock.xUartInit, (Dock.background_ci1302Sync _ _).anti,
      Dock.anti_checkOfflineVoiceKeys, anti_snoringInterventionInit]
    rfl
  rw [AntiSnore.settings, hmode]

/-- In every run the record holds the history. -/
theorem settings_run (b : Boot) (es : List Event) :
    (runFrom b es).anti.settings = settingsOf b es := by
  refine monitor_invariant (I := fun (d : Dock) c => d.anti.settings = c) ?_ (settings_boot b) es
  intro d c e h
  rw [settings_step, h]

/-- Only the two modes are ever in force. -/
theorem runMode_le (b : Boot) (es : List Event) :
    (runFrom b es).anti.snoreIntervention.runMode ≤ snoreRunModeTest := by
  have hboot : (boot b).anti.snoreIntervention.runMode ≤ snoreRunModeTest :=
    (congrArg Settings.mode (settings_boot b)).trans_le UInt8.zero_le
  refine exec_invariant_all
    (I := fun d : Dock => d.anti.snoreIntervention.runMode ≤ snoreRunModeTest) ?_ hboot es
  intro d e h
  rw [step_anti, runMode_apply]
  have hop := antiOp_allowed d e
  generalize antiOp d e = op at *
  cases op with
  | mode m => exact hop.1
  | _ => exact h

/-! ### What is reported -/

/-- A frame that carries settings carries `c`: the answer of segment `0x11` speed, time, level and
run mode, that of segment `0x13` the run mode. -/
def Reports (c : Settings) (frame : List UInt8) : Prop :=
  byteAt frame 1 = bleDataPort →
    (byteAt frame 2 = 0x11 →
      byteAt frame 3 = 0xB4 ∧ byteAt frame 4 = c.cfg.pwm ∧ byteAt frame 5 = c.cfg.tmr ∧
        byteAt frame 6 = c.cfg.intensity ∧ c.cfg.intensity ≤ 3 ∧ byteAt frame 15 = c.mode) ∧
    (byteAt frame 2 = 0x13 → byteAt frame 3 = 0xB4 ∧ byteAt frame 4 = c.mode)

theorem runModeGet_eq {a : AntiSnore} (h : a.snoreIntervention.runMode ≤ snoreRunModeTest) :
    a.snoreRunModeGet = a.snoreIntervention.runMode := by
  rw [AntiSnore.snoreRunModeGet]
  split
  · next ht => exact ht.symm
  · next ht =>
    have hlt : a.snoreIntervention.runMode.toNat ≤ 1 := UInt8.le_iff_toNat_le.mp h
    have hne : a.snoreIntervention.runMode.toNat ≠ 1 := fun hc => ht (UInt8.toNat_inj.mp hc)
    refine UInt8.toNat_inj.mp ?_
    change 0 = _
    omega

/-- The answers carry the settings of the state they are built in. -/
theorem answer_reports {d : Dock} {value frame : List UInt8}
    (hl : d.anti.antiSnoreIntensity ≤ 3)
    (hm : d.anti.snoreIntervention.runMode ≤ snoreRunModeTest)
    (h : d.answer value = some frame) : Reports d.anti.settings frame := by
  have hlevel : (if d.anti.antiSnoreIntensity > 3 then 3 else d.anti.antiSnoreIntensity) =
      d.anti.antiSnoreIntensity := if_neg (UInt8.not_lt.mpr hl)
  -- a frame whose segment byte is `s` carries settings only for `0x11` and `0x13`
  have hother : ∀ {s : UInt8} {rest : List UInt8}, s ≠ 0x11 → s ≠ 0x13 → ∀ n,
      Reports d.anti.settings (n :: bleDataPort :: s :: rest) :=
    fun h1 h3 _ _ => ⟨fun hc => absurd hc h1, fun hc => absurd hc h3⟩
  rcases Dock.answer_cases h with
    ⟨-, rfl⟩ | ⟨data, rfl, -, ⟨-, rfl⟩ | ⟨-, rfl⟩ | ⟨-, rfl⟩ | ⟨-, rfl⟩⟩
  · intro hc
    exact absurd (show bleAppPortInner = bleDataPort from hc) (by decide)
  · exact hother (by decide) (by decide) _
  · exact fun _ => ⟨fun _ => ⟨rfl, rfl, rfl, hlevel, hl, runModeGet_eq hm⟩,
      fun hc => absurd (show (0x11 : UInt8) = 0x13 from hc) (by decide)⟩
  · exact hother (by decide) (by decide) _
  · exact fun _ => ⟨fun hc => absurd (show (0x13 : UInt8) = 0x11 from hc) (by decide),
      fun _ => ⟨rfl, runModeGet_eq hm⟩⟩

/-- In every run, in any order of settings, keys, words, flash and periodic runs: a step hands
nothing to the stack, or one frame, and this frame reports what was last accepted; and after a
periodic run `enable` is true exactly when the level last accepted is not zero. -/
theorem reported_settings (b : Boot) (es : List Event) (e : Event) :
    let d := runFrom b es
    let d' := runFrom b (es ++ [e])
    let c := settingsOf b (es ++ [e])
    (d'.air.notified = d.air.notified ∨
      ∃ frame, d'.air.notified = .notify d.link.connectId frame :: d.air.notified ∧
        Reports c frame) ∧
    (e = .snoreRun → (d'.anti.snoreIntervention.enable = true ↔ c.cfg.intensity ≠ 0)) := by
  have hlast : runFrom b (es ++ [e]) = step (runFrom b es) e := runFrom_concat b es e
  have hset := settings_run b (es ++ [e])
  have hlevel := intensity_le b (es ++ [e])
  have hmode := runMode_le b (es ++ [e])
  dsimp only
  rw [← hset]
  constructor
  · rw [hlast] at hlevel hmode ⊢
    rcases notified_step (runFrom b es) e with h | ⟨value, frame, rfl, -, hans, h⟩
    · exact .inl h
    · refine .inr ⟨frame, h, ?_⟩
      have hback : (step (runFrom b es) (.bleWrite value)).anti =
          ((runFrom b es).bleApply value).anti := by
        rw [step, Dock.uartServerWriteReq_eq]
        exact (Dock.background_deliver _ _).anti
      rw [hback] at hlevel hmode ⊢
      exact answer_reports hlevel hmode hans
  · rintro rfl
    have henabled : (runFrom b (es ++ [.snoreRun])).anti.Enabled := by
      rw [hlast, step_anti]
      exact AntiSnore.enabled_run _ _
    rw [henabled]
    exact bne_iff_ne

end ErgoDock
