import ErgoDock.Runs

/-! # What the steps announce

Which steps start a lift segment (`liftStarts`) and which execute a control word
(`voiceCmds`): a step adds at most one announcement to either list, and only the periodic
function adds to the first, only a frame of the voice chip to the second. -/

namespace ErgoDock

open Machine

/-- From `d` to `d'` no lift was started and no control word executed. -/
structure Silent (d d' : Dock) : Prop where
  liftStarts : d'.liftStarts = d.liftStarts
  voiceCmds : d'.voiceCmds = d.voiceCmds

namespace Silent

theorem refl (d : Dock) : Silent d d := ⟨rfl, rfl⟩

theorem trans {d₁ d₂ d₃ : Dock} (h : Silent d₁ d₂) (h' : Silent d₂ d₃) : Silent d₁ d₃ :=
  ⟨h'.liftStarts.trans h.liftStarts, h'.voiceCmds.trans h.voiceCmds⟩

theorem of_background {d d' : Dock} (h : Dock.Background d d') : Silent d d' :=
  ⟨h.liftStarts, h.voiceCmds⟩

theorem of_out {d d' : Dock} (h : d'.out = d.out) : Silent d d' := by
  constructor
  · rw [Dock.liftStarts, h, Dock.liftStarts]
  · rw [Dock.voiceCmds, h, Dock.voiceCmds]

end Silent

namespace Dock

section functions
variable (d : Dock)

/-! ### The controller -/

theorem liftBlind_out : LiftBlind out where
  mapAnti _ _ := rfl
  mfp _ _ := rfl
  ci1302 _ _ := rfl

theorem countBlind_out : CountBlind out where
  dbg _ _ := rfl
  bleTestinfo _ _ _ := rfl

/-- The announcement of `snore_lift_start`. -/
theorem out_liftStart (pwm tmrSegSec : UInt8) :
    ∃ o : Output, (d.snoreLiftStart pwm tmrSegSec).out = o :: d.out ∧
      ∃ p s e, o = .liftStart p s e := by
  obtain ⟨c, p, s, e, hstart, hc⟩ := liftBlind_out.snoreLiftStart d pwm tmrSegSec
  rw [hstart]
  exact ⟨_, congrArg (_ :: ·) hc, p, s, e, rfl⟩

theorem liftStarts_runTriggered_of_decided (h : d.anti.settle.LiftDecided) :
    ∃ o, d.runTriggered.liftStarts = o :: d.liftStarts := by
  have hd : (d.mapAnti AntiSnore.settle).anti.LiftDecided := h
  obtain ⟨o, ho, p, s, e, rfl⟩ := out_liftStart (d.mapAnti AntiSnore.settle)
    d.anti.snoreIntervention.snoreInterventionPwm d.anti.snoreLiftTmrSegSeconds
  refine ⟨.liftStart p s e, ?_⟩
  rw [runTriggered, if_pos hd, liftStarts_mapAnti]
  change List.filter _ (snoreLiftStart _ _ _).out = _
  rw [ho]
  rfl

theorem voiceCmds_runTriggered : d.runTriggered.voiceCmds = d.voiceCmds := by
  by_cases hd : (d.mapAnti AntiSnore.settle).anti.LiftDecided
  · obtain ⟨o, ho, p, s, e, rfl⟩ := out_liftStart (d.mapAnti AntiSnore.settle)
      d.anti.snoreIntervention.snoreInterventionPwm d.anti.snoreLiftTmrSegSeconds
    rw [runTriggered, if_pos hd, voiceCmds_mapAnti]
    change List.filter _ (snoreLiftStart _ _ _).out = _
    rw [ho]
    rfl
  · rw [runTriggered, if_neg hd, voiceCmds_mapAnti]

theorem silent_runTriggered_of_not_decided (h : ¬ d.anti.settle.LiftDecided) :
    Silent d d.runTriggered := by
  have hd : ¬ (d.mapAnti AntiSnore.settle).anti.LiftDecided := h
  rw [runTriggered, if_neg hd]
  exact .of_out rfl

theorem silent_runDetect : Silent d d.runDetect :=
  .of_out (liftBlind_out.runDetect d)

theorem enable_runPrelude : d.runPrelude.anti.snoreIntervention.enable =
    (d.anti.antiSnoreIntensity != 0) := by
  rw [anti_runPrelude, AntiSnore.runPrelude_enable]

theorem snoringInterventionRun_of_startsLift (h : d.anti.StartsLift) :
    d.snoringInterventionRun = d.runDetect.runTriggered := by
  rw [snoringInterventionRun, if_pos (by simpa [enable_runPrelude] using h.1), anti_runDetect,
    if_pos h.2.1]

theorem silent_run_of_not_startsLift (h : ¬ d.anti.StartsLift) :
    Silent d d.snoringInterventionRun := by
  rw [snoringInterventionRun]
  split
  · next he =>
    have hl : d.anti.antiSnoreIntensity ≠ 0 := by simpa [enable_runPrelude] using he
    split
    · next ht =>
      rw [anti_runDetect] at ht
      have hd : ¬ d.runDetect.anti.settle.LiftDecided := by
        rw [anti_runDetect, AntiSnore.liftDecided_settle]
        exact fun hd => h ⟨hl, ht, hd⟩
      exact d.silent_runDetect.trans (silent_runTriggered_of_not_decided _ hd)
    · exact d.silent_runDetect
  · exact .of_out (liftBlind_out.runPrelude d)

/-! ### Voice words -/

theorem out_offlineVoiceDataHandle (cmd : UInt8) :
    (d.offlineVoiceDataHandle cmd).out =
      if cmd = 0x21 ∨ cmd = 0x22 then d.out else .voiceCmd cmd :: d.out := by
  simp only [offlineVoiceDataHandle]
  split
  · exact countBlind_out.bleTestinfoVoiceDetailInc d cmd
  · rw [liftBlind_out.voiceDispatch, liftBlind_out.snoreInterventionCancelOnVoicePosition]
    exact congrArg (_ :: ·) (countBlind_out.bleTestinfoVoiceDetailInc d cmd)

/-- A frame of the voice chip announces the control word it executes, and nothing else. -/
theorem out_offlineVoiceHandle (cmd data : UInt8) :
    (d.offlineVoiceHandle cmd data).out =
      if d.ExecutesWord cmd data then .voiceCmd data :: d.out else d.out := by
  simp only [offlineVoiceHandle]
  by_cases hk : d.voice.keyEnable = false
  · have hne : ¬ d.ExecutesWord cmd data := fun he => by simp [he.1] at hk
    rw [if_pos hk, if_neg hne]
    split <;> rfl
  · rw [if_neg hk]
    have hopen : d.voiceState ≠ .disabled →
        (if cmd = 0x81 then { d.offlineVoiceDataHandle data with voiceState := .active }
          else if cmd = 0x82 then { d.offlineVoiceWakeOff with voiceState := .disabled }
          else d).out =
        if d.ExecutesWord cmd data then .voiceCmd data :: d.out else d.out := by
      intro hs
      by_cases hc : cmd = 0x81
      · rw [if_pos hc]
        refine (d.out_offlineVoiceDataHandle data).trans ?_
        by_cases hw : data = 0x21 ∨ data = 0x22
        · have hne : ¬ d.ExecutesWord cmd data := fun he => hw.elim he.2.2.2.1 he.2.2.2.2
          rw [if_pos hw, if_neg hne]
        · have he : d.ExecutesWord cmd data :=
            ⟨by simpa using hk, hs, hc, not_or.mp hw⟩
          rw [if_neg hw, if_pos he]
      · have hne : ¬ d.ExecutesWord cmd data := fun he => hc he.2.2.1
        rw [if_neg hc, if_neg hne]
        split <;> rfl
    cases hs : d.voiceState with
    | disabled =>
        have hne : ¬ d.ExecutesWord cmd data := fun he => he.2.1 hs
        rw [if_neg hne]
        dsimp only
        split
        · obtain ⟨c, hwake, hc⟩ := countBlind_out.offlineVoiceWakeUp_eq _
          exact (congrArg out hwake).trans hc
        · rfl
    | wakeWordDetected => exact hopen (by simp [hs])
    | active => exact hopen (by simp [hs])

/-! ### APP frames, keys and lines -/

theorem silent_bleSnoreConfigure (pwm tmr l : UInt8) :
    Silent d (d.bleSnoreConfigure pwm tmr l) := by
  simp only [bleSnoreConfigure]
  refine .trans ?_ (.of_background (background_flashSave _))
  split
  · exact .of_out (liftBlind_out.snoringInterventStateClear _)
  · exact .of_out rfl

theorem silent_dataPortEffect (p : List UInt8) (n : UInt8) : Silent d (d.dataPortEffect p n) := by
  rw [dataPortEffect]
  split
  · exact .of_out rfl
  · split
    · exact d.silent_bleSnoreConfigure _ _ _
    · split
      · exact .of_out (liftBlind_out.snoreRunModeSet d _)
      · exact .refl d

theorem silent_uartServerWriteReq (value : List UInt8) :
    Silent d (d.uartServerWriteReq value) := by
  refine .trans ?_ (.of_background (d.background_uartServerWriteReq value))
  rw [bleEffect]
  split
  · split
    · exact .of_out (liftBlind_out.bleAppKeyDispatch d _ _)
    · split
      · exact d.silent_dataPortEffect _ _
      · exact .refl d
  · exact .refl d

theorem silent_checkOfflineVoiceKeys (key1 key2 : UInt8) :
    Silent d (d.checkOfflineVoiceKeys key1 key2) := by
  have hsw : ∀ (c : Dock) (raw : UInt8), (c.applySwitch raw key1 key2).out = c.out := by
    intro c raw
    simp only [applySwitch]
    split
    · split <;> rfl
    · rfl
  simp only [checkOfflineVoiceKeys]
  split
  · exact .of_out rfl
  · refine .trans (.of_out ?_) (.of_background (background_ci1302Sync _ _))
    rw [hsw]

theorem silent_controlTimer10ms (key : UInt8) : Silent d (d.controlTimer10ms key) := by
  have hset : ∀ (c : Dock) k, Silent c (c.setKeys k) := fun _ _ => .of_out rfl
  have h4 : ∀ c : Dock, Silent c c.longPressKey4 := by
    intro c
    simp only [longPressKey4]
    split <;> exact ⟨rfl, rfl⟩
  simp only [controlTimer10ms]
  refine .trans ?_ (hset _ _)
  split
  · exact .refl d
  · split
    · split
      · exact ((hset _ _).trans (hset _ _)).trans (h4 _)
      · split
        · exact .of_out rfl
        · exact hset _ _
    · split
      · split
        · exact .of_out rfl
        · exact .refl d
      · exact hset _ _

theorem silent_xUart1DateReceiveHandle (raw : List UInt8) :
    Silent d (d.xUart1DateReceiveHandle raw) := by
  simp only [xUart1DateReceiveHandle]
  split
  · exact .of_out rfl
  · exact .refl d

end functions
end Dock

/-! ### The whole step -/

theorem silent_boot (b : Boot) : (boot b).liftStarts = [] ∧ (boot b).voiceCmds = [] := by
  have hd : Silent { flash := { page := b.page } }
      ({ flash := { page := b.page } : Dock }.flashLoad.snoringInterventionInit) :=
    .of_out ((Dock.liftBlind_out.snoringInterventionInit _).trans
      (Dock.liftBlind_out.flashLoad _ fun _ _ => rfl))
  rw [boot]
  generalize ({ flash := { page := b.page } : Dock }.flashLoad.snoringInterventionInit) = d at hd
  rw [Dock.xUartInit]
  have hk := d.silent_checkOfflineVoiceKeys b.key1 b.key2
  have hs := Silent.of_background
    (Dock.background_ci1302Sync (d.checkOfflineVoiceKeys b.key1 b.key2) true)
  have h := (hd.trans hk).trans hs
  exact ⟨h.liftStarts, h.voiceCmds⟩

theorem silent_step (d : Dock) {e : Event} (hr : e ≠ .snoreRun)
    (hv : ∀ cmd data, e ≠ .voiceFrame cmd data) : Silent d (step d e) := by
  cases e with
  | tick => exact .of_out rfl
  | switchSample key1 key2 => exact d.silent_checkOfflineVoiceKeys key1 key2
  | control key => exact d.silent_controlTimer10ms key
  | led => exact .of_background d.background_ledCtrl10msHandler
  | charge status => exact .of_background (d.background_controlTimer1000ms status)
  | snoreEdge => exact .of_out rfl
  | snoreRun => exact absurd rfl hr
  | flashRun => exact .of_background d.background_flashSave
  | voiceFrame cmd data => exact absurd rfl (hv cmd data)
  | mfpFrame raw => exact d.silent_xUart1DateReceiveHandle raw
  | statusFrame raw => exact .of_out (Dock.liftBlind_out.xUart3DateReceiveHandle d raw)
  | bleWrite value => exact d.silent_uartServerWriteReq value
  | connected conIdx => exact .of_background (d.background_gapConnected conIdx)
  | disconnected => exact .of_background d.background_gapDisconnected
  | notificationDone => exact .of_out rfl
  | mtuChanged mtu => exact .of_out rfl

/-- Exactly the runs that start a lift announce one, and they announce one. -/
theorem liftStarts_step (d : Dock) (e : Event) :
    (step d e).liftStarts.length =
      d.liftStarts.length + if e = .snoreRun ∧ d.anti.StartsLift then 1 else 0 := by
  by_cases hr : e = .snoreRun
  · subst hr
    by_cases h : d.anti.StartsLift
    · have hd : d.runDetect.anti.settle.LiftDecided := by
        rw [Dock.anti_runDetect, AntiSnore.liftDecided_settle]
        exact h.2.2
      obtain ⟨o, ho⟩ := d.runDetect.liftStarts_runTriggered_of_decided hd
      rw [if_pos ⟨rfl, h⟩, step, d.snoringInterventionRun_of_startsLift h, ho,
        d.silent_runDetect.liftStarts]
      rfl
    · rw [if_neg fun hc => h hc.2]
      exact congrArg List.length (d.silent_run_of_not_startsLift h).liftStarts
  · rw [if_neg fun hc => hr hc.1]
    by_cases hv : ∃ cmd data, e = .voiceFrame cmd data
    · obtain ⟨cmd, data, rfl⟩ := hv
      have hout := d.out_offlineVoiceHandle cmd data
      rw [step, Dock.liftStarts, hout]
      split <;> rfl
    · have hs := silent_step d hr fun cmd data he => hv ⟨cmd, data, he⟩
      exact congrArg List.length hs.liftStarts

/-- Exactly the voice frames that execute a word announce one. -/
theorem voiceCmds_step (d : Dock) (e : Event) :
    (step d e).voiceCmds =
      match e with
      | .voiceFrame cmd data =>
          if d.ExecutesWord cmd data then .voiceCmd data :: d.voiceCmds else d.voiceCmds
      | _ => d.voiceCmds := by
  cases e with
  | voiceFrame cmd data =>
      rw [step, Dock.voiceCmds, d.out_offlineVoiceHandle cmd data]
      dsimp only
      split <;> rfl
  | snoreRun =>
      by_cases h : d.anti.StartsLift
      · rw [step, d.snoringInterventionRun_of_startsLift h, Dock.voiceCmds_runTriggered,
          d.silent_runDetect.voiceCmds]
      · exact (d.silent_run_of_not_startsLift h).voiceCmds
  | _ => exact (silent_step d (by simp) (by simp)).voiceCmds

end ErgoDock
