import ErgoDock.Controller
import ErgoDock.Views

/-! # The link, the flash and what was sent

The part of the state that the answers to the APP and the configuration record depend on besides
the anti-snore record: the statics of the notification channel, the flash with its shadow copies,
and the notifications handed to the BLE stack so far.  `air_step` says what a step can do to it:
a write is read off its effect and its answer, and every other event changes one field at most. -/

namespace ErgoDock

open Machine

structure Air where
  link : BleLink
  flash : FlashModule
  /-- The number of words counted for segment `0x12`. -/
  words : ℕ
  /-- The notifications handed to the stack, latest first. -/
  notified : List Output

namespace Dock

def air (d : Dock) : Air where
  link := d.link
  flash := d.flash
  words := d.sys.bleTestinfo.voiceDetail.length
  notified := d.out.filter Output.isNotify

theorem air_emit (d : Dock) {o : Output} (ho : o.isNotify = false) : (d.emit o).air = d.air := by
  have hfilter : (o :: d.out).filter Output.isNotify = d.out.filter Output.isNotify :=
    List.filter_cons_of_neg (by simp [ho])
  simp only [air, emit, hfilter]

theorem aside_air : Aside air where
  mapAnti _ _ := rfl
  mfp _ _ := rfl
  ci1302 _ _ := rfl
  dbg _ _ := rfl
  bleTestinfo d t h := by simp only [air, h]
  setLed _ _ := rfl
  ble _ _ := rfl
  emit d _ ho := d.air_emit ho

section functions
variable (d : Dock)

/-! ### Events that leave it alone -/

theorem air_ci1302Sync (force : Bool) : (d.ci1302Uart2VoiceConfigSync force).air = d.air := by
  simp only [ci1302Uart2VoiceConfigSync]
  split
  · rfl
  · exact air_emit _ rfl

theorem air_checkOfflineVoiceKeys (key1 key2 : UInt8) :
    (d.checkOfflineVoiceKeys key1 key2).air = d.air := by
  have hsw : ∀ (c : Dock) (raw : UInt8), (c.applySwitch raw key1 key2).air = c.air := by
    intro c raw
    simp only [applySwitch]
    split
    · split <;> rfl
    · rfl
  simp only [checkOfflineVoiceKeys]
  split
  · rfl
  · rw [air_ci1302Sync, hsw]
    rfl

theorem air_controlTimer10ms (key : UInt8) : (d.controlTimer10ms key).air = d.air := by
  have hset : ∀ (c : Dock) k, (c.setKeys k).air = c.air := fun _ _ => rfl
  have h4 : ∀ c : Dock, c.longPressKey4.air = c.air := by
    intro c
    simp only [longPressKey4]
    split
    · rw [aside_air.setLed]
      exact air_emit _ rfl
    · rw [aside_air.setLed]
      exact air_emit _ rfl
  have h3 : ∀ c : Dock, c.longPressKey3.air = c.air ∧ c.releaseKey3.air = c.air :=
    fun _ => ⟨rfl, rfl⟩
  simp only [controlTimer10ms]
  rw [hset]
  split
  · rfl
  · split
    · split
      · rw [h4, hset, hset]
      · split
        · rw [(h3 _).1, hset, hset]
        · exact hset d _
    · split
      · split
        · exact (h3 d).2
        · rfl
      · exact hset d _

theorem air_offlineVoiceHandle (cmd data : UInt8) :
    (d.offlineVoiceHandle cmd data).air = d.air := by
  have hvoice : ∀ (c : Dock) v s, { c with voice := v, voiceState := s }.air = c.air :=
    fun _ _ _ => rfl
  have hstate : ∀ (c : Dock) s, { c with voiceState := s }.air = c.air := fun _ _ => rfl
  have hword : ∀ c : Dock, (c.offlineVoiceDataHandle data).air = c.air := by
    intro c
    simp only [offlineVoiceDataHandle]
    split
    · rw [aside_air.setLed, aside_air.countWake, aside_air.bleTestinfoVoiceDetailInc]
    · rw [aside_air.voiceDispatch, aside_air.snoreInterventionCancelOnVoicePosition,
        aside_air.countResp, aside_air.setLed, air_emit _ rfl]
      exact aside_air.bleTestinfoVoiceDetailInc c data
  simp only [offlineVoiceHandle]
  split
  · split <;> rfl
  · split
    · split
      · rw [aside_air.offlineVoiceWakeUp, hvoice]
      · rfl
    all_goals
      split
      · rw [hstate, hword]
      · split <;> rfl

/-! ### The link -/

theorem air_gapConnected (conIdx : UInt8) :
    (d.gapConnected conIdx).air =
      { d.air with link := { d.link with connectId := conIdx } } := by
  simp only [gapConnected]
  split <;> rfl

theorem air_gapDisconnected :
    d.gapDisconnected.air =
      { d.air with link := { d.link with connectId := 0xFF, uartServerMtu := 200 } } := by
  simp only [gapDisconnected]
  split
  · split
    · rw [aside_air.setLed, air_emit _ rfl]
      rfl
    · rw [air_emit _ rfl]
      rfl
  · rfl

end functions
end Dock

/-! ### The send function -/

/-- The test of the send function, for a frame that is not empty. -/
def BleLink.Open (l : BleLink) : Prop := l.connectId ≠ 0xFF ∧ l.uartServerNtfDone = true

instance (l : BleLink) : Decidable l.Open := by unfold BleLink.Open; infer_instance

/-- A frame is handed to the stack. -/
def Air.hand (r : Air) (frame : List UInt8) : Air :=
  { r with
    link := { r.link with uartServerNtfDone := false }
    notified := .notify r.link.connectId frame :: r.notified }

/-- The frame of an answer, if there is one, is handed on as far as the channel is open. -/
def Air.deliver (r : Air) : Option (List UInt8) → Air
  | none => r
  | some frame => if r.link.Open then r.hand frame else r

@[simp] theorem Air.flash_deliver (r : Air) (frame : Option (List UInt8)) :
    (r.deliver frame).flash = r.flash := by
  cases frame with
  | none => rfl
  | some frame =>
      rw [Air.deliver]
      split <;> rfl

@[simp] theorem Air.words_deliver (r : Air) (frame : Option (List UInt8)) :
    (r.deliver frame).words = r.words := by
  cases frame with
  | none => rfl
  | some frame =>
      rw [Air.deliver]
      split <;> rfl

namespace Dock

section functions
variable (d : Dock)

theorem air_deliver {frame : Option (List UInt8)} (hne : ∀ f, frame = some f → f ≠ []) :
    (d.deliver frame).air = d.air.deliver frame := by
  cases frame with
  | none => rfl
  | some f =>
      have hlen : f.length ≠ 0 := fun h0 => hne f rfl (List.length_eq_zero_iff.mp h0)
      simp only [deliver, Air.deliver, lsBleupServerSendNotification]
      by_cases ho : d.link.Open
      · have hopen : d.air.link.Open := ho
        rw [if_pos hopen, if_pos ⟨ho.1, hlen, ho.2⟩]
        rfl
      · have hshut : ¬ d.air.link.Open := ho
        rw [if_neg hshut, if_neg fun hc => ho ⟨hc.1, hc.2.2⟩]
        rfl

/-! ### Writes -/

theorem air_flashSave :
    d.flashSaveSnoreCfgIfChanged.air =
      { d.air with flash := d.flashSaveSnoreCfgIfChanged.flash } := by
  simp only [flashSaveSnoreCfgIfChanged]
  split <;> rfl

/-- A setting of the anti-snore function ends with saving it; what is before concerns neither the
link nor the flash. -/
theorem bleSnoreConfigure_saves (pwm tmr l : UInt8) :
    ∃ c : Dock, d.bleSnoreConfigure pwm tmr l = c.flashSaveSnoreCfgIfChanged ∧
      c.air = d.air ∧ c.anti = d.anti.configure pwm tmr l := by
  refine ⟨_, rfl, ?_, ?_⟩
  · split
    · rw [aside_air.snoringInterventStateClear, aside_air.mapAnti, aside_air.mapAnti]
    · exact aside_air.mapAnti d _
  · rw [← anti_bleSnoreConfigure]
    exact (background_flashSave _).anti.symm

theorem air_bleSnoreConfigure (pwm tmr l : UInt8) :
    (d.bleSnoreConfigure pwm tmr l).air =
      { d.air with flash := (d.bleSnoreConfigure pwm tmr l).flash } := by
  obtain ⟨c, hc, hair, -⟩ := d.bleSnoreConfigure_saves pwm tmr l
  rw [hc, air_flashSave, hair]

/-- Before it is answered, a write changes at most the flash. -/
theorem air_bleApply (value : List UInt8) :
    (d.bleApply value).air = { d.air with flash := (d.bleApply value).flash } := by
  have hview : ∀ c : Dock, c.air = d.air → c.air = { d.air with flash := c.flash } := by
    intro c hc
    rw [← hc]
    rfl
  have hport : ∀ p n, (d.dataPortEffect p n).air =
      { d.air with flash := (d.dataPortEffect p n).flash } := by
    intro p n
    rw [dataPortEffect]
    split
    · rfl
    · split
      · exact d.air_bleSnoreConfigure _ _ _
      · split
        · exact hview _ (aside_air.snoreRunModeSet d _)
        · rfl
  rw [bleApply]
  split
  · split
    · refine hview _ ?_
      rw [reportTriging, aside_air.mapAnti, aside_air.bleAppKeyDispatch]
    · split
      · simp only [dataPortApply]
        split
        · exact hport _ _
        · exact hport _ _
      · rfl
  · rfl

/-- A write, on this part of the state: the flash as the effect leaves it, and the answer. -/
theorem air_write (value : List UInt8) :
    (step d (.bleWrite value)).air =
      ({ d.air with flash := (d.bleApply value).flash } : Air).deliver
        ((d.bleApply value).answer value) := by
  rw [step, uartServerWriteReq_eq, air_deliver _ fun f hf => answer_ne_nil hf, air_bleApply]

end functions
end Dock

/-! ### Steps -/

/-- The link after an event that is not a write. -/
def BleLink.next (l : BleLink) : Event → BleLink
  | .connected conIdx => { l with connectId := conIdx }
  | .disconnected => { l with connectId := 0xFF, uartServerMtu := 200 }
  | .notificationDone => { l with uartServerNtfDone := true }
  | .mtuChanged mtu => { l with uartServerMtu := mtu }
  | .tick | .switchSample _ _ | .control _ | .led | .charge _ | .snoreEdge | .snoreRun
  | .flashRun | .voiceFrame _ _ | .mfpFrame _ | .statusFrame _ | .bleWrite _ => l

/-- What a step can do: a write is answered, `flash_run` saves, and the other events concern at
most the link. -/
theorem air_step (d : Dock) (e : Event) :
    (step d e).air =
      match e with
      | .bleWrite value =>
          ({ d.air with flash := (d.bleApply value).flash } : Air).deliver
            ((d.bleApply value).answer value)
      | .flashRun => { d.air with flash := d.flashSaveSnoreCfgIfChanged.flash }
      | e => { d.air with link := d.link.next e } := by
  cases e with
  | tick => rfl
  | switchSample key1 key2 => exact d.air_checkOfflineVoiceKeys key1 key2
  | control key => exact d.air_controlTimer10ms key
  | led => exact Dock.aside_air.ledCtrl10msHandler d
  | charge status => rfl
  | snoreEdge => rfl
  | snoreRun => exact Dock.aside_air.blind.snoringInterventionRun d
  | flashRun => exact d.air_flashSave
  | voiceFrame cmd data => exact d.air_offlineVoiceHandle cmd data
  | mfpFrame raw =>
      simp only [step, Dock.xUart1DateReceiveHandle]
      split
      · simp only [Dock.uart1CmdHandle]
        split <;> rfl
      · rfl
  | statusFrame raw => exact Dock.aside_air.xUart3DateReceiveHandle d raw
  | bleWrite value => exact d.air_write value
  | connected conIdx => exact d.air_gapConnected conIdx
  | disconnected => exact d.air_gapDisconnected
  | notificationDone => rfl
  | mtuChanged mtu => rfl

/-- Only a write has anything handed to the stack, and then one answer. -/
theorem notified_step (d : Dock) (e : Event) :
    (step d e).air.notified = d.air.notified ∨
      ∃ value frame, e = .bleWrite value ∧ d.link.Open ∧
        (d.bleApply value).answer value = some frame ∧
        (step d e).air.notified = .notify d.link.connectId frame :: d.air.notified := by
  rw [air_step]
  cases e with
  | bleWrite value =>
      dsimp only
      cases ha : (d.bleApply value).answer value with
      | none => exact .inl rfl
      | some frame =>
          by_cases ho : d.link.Open
          · refine .inr ⟨value, frame, rfl, ho, ha, ?_⟩
            rw [Air.deliver, if_pos (show d.air.link.Open from ho)]
            rfl
          · refine .inl ?_
            rw [Air.deliver, if_neg (show ¬ d.air.link.Open from ho)]
  | _ => exact .inl rfl

/-- The start loads the flash and does nothing else to this part of the state. -/
theorem air_boot (b : Boot) :
    (boot b).air = { ({} : Dock).air with
      flash := ({ flash := { page := b.page } : Dock }.flashLoad).flash } := by
  rw [boot, Dock.xUartInit, Dock.air_ci1302Sync, Dock.air_checkOfflineVoiceKeys,
    Dock.aside_air.snoringInterventionInit]
  simp only [Dock.flashLoad]
  split <;> rfl

end ErgoDock
