import ErgoDock.LedPins
import ErgoDock.LedPriority

/-! # The pairing window

A long press of key 4 opens the window: the flag is set, advertising starts, and LED 3 runs the
pairing task, whose end by timeout closes the window.  `step_window` says what an event does to the
window, `third_of_weak` which calls leave the pairing task alone.

* The window closes within 3000 calls of the LED handler if and only if nothing switches LED 3 off
  meanwhile and no connection comes after the first 100 ms step (`window_closes_iff`).
* A disconnection in the open window does nothing (`disconnect_follows_window_iff`).
* When the pairing task ends, LED 3 shows the voice session, except after a timeout in an open
  session (`session_shown_iff`). -/

namespace ErgoDock

open Machine

/-! ### The window -/

def Output.isAdv : Output → Bool
  | .startAdv | .stopAdv => true
  | .uart2 _ | .notify _ _ | .flashErase | .flashProgram _ | .liftStart _ _ _ | .voiceCmd _ => false

/-- The window, and the calls that start and stop advertising, latest first. -/
structure Window where
  flag : UInt8
  time : UInt16
  adv : List Output
deriving DecidableEq

def Window.opened (w : Window) : Window := ⟨1, 3000, .startAdv :: w.adv⟩

def Window.closed (w : Window) : Window := ⟨0, 0, .stopAdv :: w.adv⟩

/-- The callback that closes the window runs at the end of the task. -/
def LedCtrl.Closes (c : LedCtrl) (is100msTick : Bool) : Prop :=
  c.Expires is100msTick ∧ c.callback = some .btPairingTimeout

instance (c : LedCtrl) (b : Bool) : Decidable (c.Closes b) := by
  unfold LedCtrl.Closes; infer_instance

namespace Dock

def window (d : Dock) : Window :=
  ⟨d.sys.ble.blePairFlag, d.sys.ble.blePairTime, d.out.filter Output.isAdv⟩

/-- The second of a long press of key 4. -/
def LongPress (d : Dock) (key : UInt8) : Prop :=
  d.keys.lastKey = key ∧ key = appKeyNum4 ∧ satInc d.keys.keyRepeat = 200

instance (d : Dock) (key : UInt8) : Decidable (d.LongPress key) := by
  unfold LongPress; infer_instance

theorem window_emit (d : Dock) {o : Output} (ho : o.isAdv = false) :
    (d.emit o).window = d.window := by
  have hfilter : (o :: d.out).filter Output.isAdv = d.out.filter Output.isAdv :=
    List.filter_cons_of_neg (by simp [ho])
  simp only [window, emit, hfilter]

theorem blind_window : Blind window where
  mapAnti _ _ := rfl
  mfp _ _ := rfl
  ci1302 _ _ := rfl
  dbg _ _ := rfl
  bleTestinfo _ _ _ := rfl
  emit d o ho := d.window_emit (by cases o <;> first | rfl | cases ho)

theorem narrow_window : Narrow window where
  toLiftBlind := blind_window.toLiftBlind
  setLed _ _ := rfl
  voice _ _ := rfl
  voiceState _ _ := rfl
  charge _ _ := rfl
  flash _ _ := rfl
  link _ _ := rfl
  setBletx _ _ := rfl
  uart1CmdHandle d raw := by
    simp only [Dock.uart1CmdHandle]
    split <;> rfl
  notify d _ _ := d.window_emit rfl
  flashErase d := d.window_emit rfl
  flashProgram d _ := d.window_emit rfl

section functions
variable (d : Dock)

/-! ### What an event does to it -/

theorem window_ci1302Sync (force : Bool) :
    (d.ci1302Uart2VoiceConfigSync force).window = d.window := by
  simp only [ci1302Uart2VoiceConfigSync]
  split
  · rfl
  · exact window_emit _ rfl

theorem window_checkOfflineVoiceKeys (key1 key2 : UInt8) :
    (d.checkOfflineVoiceKeys key1 key2).window = d.window := by
  have happly : ∀ (c : Dock) raw, (c.applySwitch raw key1 key2).window = c.window := by
    intro c raw
    simp only [applySwitch]
    split
    · split <;> rfl
    · rfl
  simp only [checkOfflineVoiceKeys]
  split
  · rfl
  · rw [window_ci1302Sync, happly]
    rfl

/-- The keys open and close the window by a long press of key 4. -/
theorem window_controlTimer10ms (key : UInt8) :
    (d.controlTimer10ms key).window =
      if d.LongPress key then if d.window.flag = 0 then d.window.opened else d.window.closed
      else d.window := by
  have hset : ∀ (c : Dock) k, (c.setKeys k).window = c.window := fun _ _ => rfl
  have h4 : ∀ c : Dock, c.longPressKey4.window =
      if c.window.flag = 0 then c.window.opened else c.window.closed := by
    intro c
    have hflag : c.sys.ble.blePairFlag = c.window.flag := rfl
    simp only [longPressKey4, hflag]
    split <;> rfl
  have h3 : ∀ c : Dock, c.longPressKey3.window = c.window ∧ c.releaseKey3.window = c.window :=
    fun _ => ⟨rfl, rfl⟩
  have hzero : appKeyNum4 ≠ 0 := by decide
  simp only [controlTimer10ms, hset]
  by_cases hlong : d.LongPress key
  · obtain ⟨hlast, hkey, hrep⟩ := hlong
    rw [if_pos (show d.LongPress key from ⟨hlast, hkey, hrep⟩)]
    subst hkey
    rw [if_neg (by rw [hlast]; exact fun h => hzero h.1), if_pos ⟨hlast, hzero⟩, if_pos ⟨hrep, rfl⟩,
      h4]
    rfl
  · rw [if_neg hlong]
    split
    · rfl
    split
    · next hhold =>
      rw [if_neg fun h => hlong ⟨hhold.1, h.2, h.1⟩]
      split
      · exact (h3 _).1
      · rfl
    split
    · split
      · exact (h3 d).2
      · rfl
    · rfl

theorem window_gapConnected (conIdx : UInt8) : (d.gapConnected conIdx).window = d.window := by
  simp only [gapConnected]
  split <;> rfl

theorem window_gapDisconnected :
    d.gapDisconnected.window =
      if d.window.time ≠ 3000 then { d.window with adv := .startAdv :: d.window.adv }
      else d.window := by
  have htime : d.window.time = d.sys.ble.blePairTime := rfl
  simp only [gapDisconnected, htime]
  split
  · next h =>
    rw [if_pos (show d.sys.ble.blePairTime ≠ 3000 from h)]
    split <;> rfl
  · next h =>
    rw [if_neg (show ¬ d.sys.ble.blePairTime ≠ 3000 from h)]
    rfl

theorem window_ledTask10ms (b : Bool) (i : Fin 4) :
    (ledTask10ms b d i).window =
      if (d.led.ledCtrl i).Closes b then d.window.closed else d.window := by
  rw [ledTask10ms_eq]
  by_cases he : (d.led.ledCtrl i).Expires b
  · rw [if_pos he, afterTask]
    by_cases hc : (d.led.ledCtrl i).callback = some .btPairingTimeout
    · rw [if_pos hc, if_pos ⟨he, hc⟩]
      rfl
    · rw [if_neg hc, if_neg fun h => hc h.2]
      rfl
  · rw [if_neg he, if_neg fun h => he h.1]
    rfl

end functions
end Dock

/-! ### The pairing task -/

/-- A task without a flash count does not get one. -/
theorem LedCtrl.flashTimes_aged {c : LedCtrl} (b : Bool) (h : c.flashTimes = 0) :
    (c.aged b).flashTimes = 0 := by
  have hflashed : c.flashed.flashTimes = 0 := by
    unfold flashed
    split
    · simp [h]
    · split <;> exact h
  unfold aged
  split <;> exact hflashed

/-- The record of the pairing task. -/
structure LedCtrl.Pairs (c : LedCtrl) : Prop where
  running : c.mode ≠ .off
  priority : c.priority = ledPriorityHigh
  callback : c.callback = some .btPairingTimeout

/-- The calls that do not touch a task of high priority on LED 3. -/
def LedCall.Mild : LedCall → Prop
  | .setOn .. | .setFlash .. | .btPairing _ | .btPairingStop _ | .handler => False
  | .forceOff ledId => ledId ≠ 3
  | .snoreLevelSet _ | .snoreDisabledFlash | .voiceWakeup | .voiceCommandConfirm
  | .voiceCloseFlash | .chargeNormal | .chargeError | .chargeStop | .redOff => True

namespace LedModule

variable {m : LedModule}

theorem not_yields_of_pairs {c : LedCtrl} (h : c.Pairs) : ¬ Yields c ledPriorityNormal := by
  refine not_yields.mpr ⟨h.running, ?_⟩
  rw [h.priority]
  decide

theorem third_of_mild (h : (m.ledCtrl 3).Pairs) {c : LedCall} (hc : c.Mild) :
    (ledStep m c).ledCtrl 3 = m.ledCtrl 3 := by
  have hno := not_yields_of_pairs h
  have hother : ∀ {c'' : LedCtrl} {ledId : ℕ} {p : UInt8}, ledId ≠ 3 →
      (c'' = m.ledCtrl 3 ∨ ledId = (3 : Fin 4) ∧ Yields (m.ledCtrl 3) p) → c'' = m.ledCtrl 3 :=
    fun hne h => h.resolve_right fun h => hne h.1
  cases c with
  | setOn ledId color timeoutS priority callback => exact hc.elim
  | setFlash ledId color intervalMs times timeoutS priority callback => exact hc.elim
  | btPairing connected => exact hc.elim
  | btPairingStop enabled => exact hc.elim
  | handler => exact hc.elim
  | redOff => exact congrFun (ledCtrl_ledHwSetPin m (some .redAll) false) 3
  | forceOff ledId => exact (m.ledCtrl_setOff ledId 3).trans (if_neg hc)
  | snoreLevelSet level =>
      by_cases hle : level ≤ 3
      · have hset := ledCtrl_snoreLevelSet (m := m) hle 3
        rw [if_neg fun h => h.1 rfl] at hset
        exact hset.resolve_right fun h => h.1 rfl
      · have h0 : level ≠ 0 := fun h0 => hle (h0 ▸ by decide)
        simp only [ledStep, ledSnoreLevelSet]
        rw [if_neg h0, if_neg hle]
  | snoreDisabledFlash => exact (ledCtrl_snoreDisabledFlash 3).resolve_right fun h => h.1 rfl
  | voiceWakeup => exact (ledCtrl_voiceWakeup 3).resolve_right fun h => hno h.2
  | voiceCommandConfirm => exact (ledCtrl_voiceCommandConfirm 3).resolve_right fun h => hno h.2
  | voiceCloseFlash =>
      exact (m.ledCtrl_setFlash 3 .blue 200 2 3 ledPriorityNormal none 3).resolve_right
        fun h => hno h.2
  | chargeNormal =>
      simp only [ledStep, ledChargeNormal]
      split
      · rfl
      · exact hother (by decide) (m.ledCtrl_setOn 1 .green 15 ledPriorityNormal none 3)
  | chargeError =>
      have halarm := ledCtrl_chargeError (m := m) 3
      rw [if_neg fun h => h.1 rfl] at halarm
      exact halarm.resolve_right fun h => h.1 rfl
  | chargeStop =>
      simp only [ledStep, ledChargeStop]
      split
      · exact (m.ledCtrl_setOff 1 3).trans (if_neg (by decide))
      · rfl

/-! ### The 100 ms step of the handler -/

theorem timer100ms_ledHwTurnOff (i : ℕ) (color : LedColor) :
    (m.ledHwTurnOff i color).timer100ms = m.timer100ms := timer100ms_ledHwSetPin ..

theorem timer100ms_request {ledId : ℕ} {color : LedColor} {p : UInt8}
    {accept : LedModule → Fin 4 → LedCtrl → LedModule}
    (haccept : ∀ (m : LedModule) i c, (accept m i c).timer100ms = m.timer100ms) :
    (m.ledCtrlRequest ledId color p accept).2.timer100ms = m.timer100ms := by
  by_cases hinv : ledIdMax ≤ ledId ∨ color = .none ∨ ledGetPinByColor ledId color = none
  · rw [ledCtrlRequest_invalid m hinv]
  · obtain ⟨hlt, hc, hp⟩ := not_or.mp hinv |>.imp_right not_or.mp
    obtain ⟨i, rfl⟩ : ∃ i : Fin 4, ledId = i := ⟨⟨ledId, Nat.lt_of_not_le hlt⟩, rfl⟩
    rw [ledCtrlRequest_eq m i hc hp]
    split
    · rw [haccept]
      split
      · exact timer100ms_ledHwTurnOff ..
      · rfl
    · rfl

theorem timer100ms_setOn (ledId : ℕ) (color : LedColor) (timeoutS : UInt16) (p : UInt8)
    (callback : Option LedCallback) :
    (m.ledCtrlSetOn ledId color timeoutS p callback).2.timer100ms = m.timer100ms :=
  timer100ms_request fun _ _ _ => timer100ms_ledHwSetPin ..

theorem timer100ms_setFlash (ledId : ℕ) (color : LedColor) (intervalMs : UInt16) (times : UInt8)
    (timeoutS : UInt16) (p : UInt8) (callback : Option LedCallback) :
    (m.ledCtrlSetFlash ledId color intervalMs times timeoutS p callback).2.timer100ms =
      m.timer100ms :=
  timer100ms_request fun _ _ _ => timer100ms_ledHwSetPin ..

theorem timer100ms_setOff (ledId : ℕ) : (m.ledCtrlSetOff ledId).timer100ms = m.timer100ms := by
  simp only [ledCtrlSetOff]
  split
  · change (if _ then _ else _ : LedModule).timer100ms = _
    split
    · exact timer100ms_ledHwTurnOff ..
    · rfl
  · rfl

theorem timer100ms_foldl {α : Type} {f : LedModule → α → LedModule}
    (hf : ∀ m a, (f m a).timer100ms = m.timer100ms) (as : List α) :
    (as.foldl f m).timer100ms = m.timer100ms := by
  induction as generalizing m with
  | nil => rfl
  | cons a as ih => exact ih.trans (hf m a)

theorem timer100ms_voiceWakeup : m.ledVoiceWakeup.timer100ms = m.timer100ms := by
  unfold ledVoiceWakeup
  split
  · rfl
  · exact timer100ms_setOn ..

/-- Only the handler counts. -/
theorem timer100ms_ledStep {c : LedCall} (hc : c ≠ .handler) :
    (ledStep m c).timer100ms = m.timer100ms := by
  cases c with
  | setOn ledId color timeoutS priority callback => exact timer100ms_setOn ..
  | setFlash ledId color intervalMs times timeoutS priority callback =>
      exact timer100ms_setFlash ..
  | forceOff ledId => exact timer100ms_setOff ledId
  | snoreLevelSet level =>
      simp only [ledStep, ledSnoreLevelSet]
      split
      · rw [timer100ms_setOff, timer100ms_setOff, timer100ms_setOff]
      · split
        · rw [timer100ms_setOn, timer100ms_foldl fun _ _ => timer100ms_setOff _]
        · rfl
  | snoreDisabledFlash => exact timer100ms_foldl (fun _ _ => timer100ms_setFlash ..) _
  | voiceWakeup => exact timer100ms_voiceWakeup
  | voiceCommandConfirm =>
      simp only [ledStep, ledVoiceCommandConfirm]
      split
      · rfl
      · exact timer100ms_setOn ..
  | voiceCloseFlash => exact timer100ms_setFlash ..
  | chargeNormal =>
      simp only [ledStep, ledChargeNormal]
      split
      · rfl
      · exact timer100ms_setOn ..
  | chargeError =>
      have hround : ∀ (m : LedModule) i, (m.clearSnoreLed i).timer100ms = m.timer100ms := by
        intro m i
        unfold clearSnoreLed
        split
        · exact timer100ms_retask ..
        · rfl
      simp only [ledStep, ledChargeError]
      rw [timer100ms_setOn, ledCtrlClearAllSnoreLeds_eq, timer100ms_foldl hround]
  | chargeStop =>
      simp only [ledStep, ledChargeStop]
      split
      · exact timer100ms_setOff 1
      · rfl
  | redOff => exact timer100ms_ledHwSetPin ..
  | btPairing connected =>
      simp only [ledStep, ledBtPairing]
      split
      · exact timer100ms_setOn ..
      · exact timer100ms_setFlash ..
  | btPairingStop enabled =>
      simp only [ledStep, ledBtPairingStop]
      split
      · rw [timer100ms_voiceWakeup, timer100ms_setOff]
      · exact timer100ms_setOff 3
  | handler => exact absurd rfl hc

theorem timer100ms_task10ms (b : Bool) (i : Fin 4) :
    (task10ms b m i).timer100ms = m.timer100ms := by
  simp only [task10ms]
  split
  · rfl
  split
  · simp only [finish, ledVoiceRestoreBlue]
    split
    · split
      · rw [timer100ms_setOn, timer100ms_retask]
      · exact timer100ms_retask ..
    · exact timer100ms_retask ..
  · exact timer100ms_retask ..

theorem timer100ms_handler :
    m.ledCtrl10msHandler.timer100ms = if m.is100msTick then 0 else m.timer100ms + 1 :=
  timer100ms_foldl (fun _ _ => timer100ms_task10ms ..) _

theorem mild_calls (h : (m.ledCtrl 3).Pairs) {cs : List LedCall} (hcs : ∀ c ∈ cs, c.Mild) :
    (cs.foldl ledStep m).ledCtrl 3 = m.ledCtrl 3 ∧
      (cs.foldl ledStep m).timer100ms = m.timer100ms := by
  induction cs generalizing m with
  | nil => exact ⟨rfl, rfl⟩
  | cons c cs ih =>
      have hc := hcs c (List.mem_cons_self ..)
      have hctrl := third_of_mild h hc
      have htimer : (ledStep m c).timer100ms = m.timer100ms :=
        timer100ms_ledStep fun hh => (hh ▸ hc : LedCall.handler.Mild)
      obtain ⟨hctrl', htimer'⟩ := ih (hctrl ▸ h) fun c' hc' => hcs c' (List.mem_cons_of_mem c hc')
      exact ⟨hctrl'.trans hctrl, htimer'.trans htimer⟩

theorem timer100ms_le (h : m.timer100ms ≤ 9) (c : LedCall) : (ledStep m c).timer100ms ≤ 9 := by
  by_cases hc : c = .handler
  · subst hc
    change m.ledCtrl10msHandler.timer100ms ≤ 9
    rw [timer100ms_handler]
    split
    · decide
    · next ht =>
      rw [is100msTick, decide_eq_true_eq, ge_iff_le, UInt8.le_iff_toNat_le] at ht
      exact UInt8.le_iff_toNat_le.mpr (Nat.le_of_lt_succ (Nat.not_le.mp ht))
  · rw [timer100ms_ledStep hc]
    exact h

end LedModule

/-! ### What an event does -/

open LedModule

namespace Dock

/-- An event that switches LED 3 off because the voice function is off. -/
def ForcesOff (d : Dock) : Event → Prop
  | .switchSample key1 key2 => d.SwitchesOff key1 key2
  | .voiceFrame _ _ => d.voice.keyEnable = false ∧ (d.voice.enabled ∨ d.voiceState ≠ .disabled)
  | _ => False

variable {d : Dock} {e : Event}

theorem ledCalls_of_forcesOff (h : d.ForcesOff e) : d.ledCalls e = [.forceOff 3] := by
  cases e with
  | switchSample key1 key2 => exact if_pos h
  | voiceFrame cmd data => exact (if_pos h.1).trans (if_pos h.2)
  | _ => exact h.elim

theorem mild_voiceCalls {cmd data : UInt8} (h : ¬ d.ForcesOff (.voiceFrame cmd data)) :
    ∀ c ∈ d.voiceCalls cmd data, c.Mild := by
  have hopen : ∀ c ∈ (if cmd = 0x81 then
      if data = 0x21 ∨ data = 0x22 then [LedCall.voiceWakeup] else [.voiceCommandConfirm]
      else if cmd = 0x82 then [.voiceCloseFlash] else []), c.Mild := by
    split
    · split <;> simp [LedCall.Mild]
    · split <;> simp [LedCall.Mild]
  unfold voiceCalls
  split
  · next hk =>
    rw [if_neg fun hs => h ⟨hk, hs⟩]
    simp
  · cases d.voiceState with
    | disabled =>
        dsimp only
        split <;> simp [LedCall.Mild]
    | wakeWordDetected => exact hopen
    | active => exact hopen

theorem mild_keyCalls {key : UInt8} (h : ¬ d.LongPress key) : ∀ c ∈ d.keyCalls key, c.Mild := by
  simp only [keyCalls]
  split
  · simp
  split
  · next hhold =>
    rw [if_neg fun hp => h ⟨hhold.1, hp.2, hp.1⟩]
    split <;> simp [LedCall.Mild]
  split
  · split <;> simp [LedCall.Mild]
  · simp

/-- Besides the handler, the long press and the connection, only the events that force LED 3 off
touch its pairing task. -/
theorem mild_ledCalls (hoff : ¬ d.ForcesOff e) (hled : e ≠ .led)
    (hkey : ∀ key, e = .control key → ¬ d.LongPress key) (hconn : ∀ conIdx, e ≠ .connected conIdx)
    (htime : d.window.time = 3000) : ∀ c ∈ d.ledCalls e, c.Mild := by
  cases e with
  | switchSample key1 key2 =>
      rw [ledCalls, if_neg (show ¬ d.SwitchesOff key1 key2 from hoff)]
      simp
  | control key => exact mild_keyCalls (hkey key rfl)
  | led => exact absurd rfl hled
  | charge status =>
      simp only [ledCalls, chargeCalls]
      split
      · split <;> simp [LedCall.Mild]
      split
      · split
        · split <;> simp [LedCall.Mild]
        · simp
      split
      · split <;> split <;> simp [LedCall.Mild]
      · simp
  | voiceFrame cmd data => exact mild_voiceCalls hoff
  | bleWrite value =>
      simp only [ledCalls]
      split <;> simp [LedCall.Mild]
  | connected conIdx => exact absurd rfl (hconn conIdx)
  | disconnected =>
      have hno : ¬ (d.sys.ble.blePairTime ≠ 3000 ∧ d.PairingOpen) := fun h => h.1 htime
      rw [ledCalls, if_neg hno]
      simp
  | _ => simp [ledCalls]

/-- The turns of the LEDs 0 to 2 touch neither LED 3 nor the window. -/
theorem handler_third {P : Fin 4 → Prop} (h : Shown P d.led) :
    ∃ d' : Dock, d'.led.ledCtrl 3 = d.led.ledCtrl 3 ∧ d'.window = d.window ∧
      d.ledCtrl10msHandler = ledTask10ms d.led.is100msTick d' 3 := by
  have hturn : ∀ (d' : Dock) (i : Fin 4), i ≠ 3 →
      (Shown P d'.led ∧ d'.led.ledCtrl 3 = d.led.ledCtrl 3 ∧ d'.window = d.window) →
      Shown P (ledTask10ms d.led.is100msTick d' i).led ∧
        (ledTask10ms d.led.is100msTick d' i).led.ledCtrl 3 = d.led.ledCtrl 3 ∧
        (ledTask10ms d.led.is100msTick d' i).window = d.window := by
    intro d' i hi ⟨hs, hctrl, hw⟩
    have hcb := (hs.fits i).callback hi
    rw [led_ledTask10ms, window_ledTask10ms, if_neg fun hc => by cases hcb.symm.trans hc.2]
    refine ⟨shown_task10ms hs _ i, ?_, hw⟩
    exact ((d'.led.ledCtrl_task10ms_of_ne i _ (Ne.symm hi)).resolve_right fun hr => by
      cases hcb.symm.trans hr.2.2.1).trans hctrl
  have h₀ := hturn
    (d.setLed { d.led with timer100ms := if d.led.is100msTick then 0 else d.led.timer100ms + 1 })
    0 (by decide) ⟨shown_timer100ms h _, rfl, rfl⟩
  obtain ⟨-, hctrl, hw⟩ := hturn _ 2 (by decide) (hturn _ 1 (by decide) h₀)
  refine ⟨_, hctrl, hw, ?_⟩
  simp only [Dock.ledCtrl10msHandler, List.foldl_cons, List.foldl_nil]
  rfl

/-- What an event does to the window. -/
theorem step_window {P : Fin 4 → Prop} (h : Shown P d.led) (e : Event) :
    (step d e).window =
      match e with
      | .control key =>
          if d.LongPress key then if d.window.flag = 0 then d.window.opened else d.window.closed
          else d.window
      | .led => if (d.led.ledCtrl 3).Closes d.led.is100msTick then d.window.closed else d.window
      | .disconnected =>
          if d.window.time ≠ 3000 then { d.window with adv := .startAdv :: d.window.adv }
          else d.window
      | _ => d.window := by
  cases e with
  | switchSample key1 key2 => exact d.window_checkOfflineVoiceKeys key1 key2
  | control key => exact d.window_controlTimer10ms key
  | led =>
      obtain ⟨d', hctrl, hw, heq⟩ := handler_third h
      change d.ledCtrl10msHandler.window = _
      rw [heq, window_ledTask10ms, hctrl, hw]
  | charge status => exact narrow_window.controlTimer1000ms d status
  | snoreRun => exact blind_window.snoringInterventionRun d
  | flashRun => exact narrow_window.flashSaveSnoreCfgIfChanged d
  | voiceFrame cmd data => exact narrow_window.offlineVoiceHandle d blind_window cmd data
  | mfpFrame raw => exact narrow_window.xUart1DateReceiveHandle d raw
  | statusFrame raw => exact narrow_window.xUart3DateReceiveHandle d raw
  | bleWrite value => exact narrow_window.uartServerWriteReq d value
  | connected conIdx => exact d.window_gapConnected conIdx
  | disconnected => exact d.window_gapDisconnected
  | _ => rfl

/-- The long press that opens the window. -/
def Opens (d : Dock) (e : Event) : Prop :=
  ∃ key, e = .control key ∧ d.LongPress key ∧ d.window.flag = 0

/-- The window is closed, by another long press or at the end of the task. -/
inductive Shuts (d : Dock) : Event → Prop where
  | longPress {key : UInt8} (h : d.LongPress key) (hopen : d.window.flag ≠ 0) :
      Shuts d (.control key)
  | timeout (h : (d.led.ledCtrl 3).Closes d.led.is100msTick) : Shuts d .led

/-- The window opens, closes, or stays as it is. -/
theorem window_cases {P : Fin 4 → Prop} (h : Shown P d.led) (e : Event) :
    d.Opens e ∧ (step d e).window = d.window.opened ∨
      d.Shuts e ∧ (step d e).window = d.window.closed ∨
      ¬ d.Opens e ∧ ¬ d.Shuts e ∧ (step d e).window.flag = d.window.flag ∧
        (step d e).window.time = d.window.time := by
  rw [step_window h]
  cases e with
  | control key =>
      dsimp only
      by_cases hl : d.LongPress key
      · rw [if_pos hl]
        by_cases hf : d.window.flag = 0
        · rw [if_pos hf]
          exact .inl ⟨⟨key, rfl, hl, hf⟩, rfl⟩
        · rw [if_neg hf]
          exact .inr (.inl ⟨.longPress hl hf, rfl⟩)
      · rw [if_neg hl]
        refine .inr (.inr ⟨fun ⟨_, heq, hl', _⟩ => ?_, fun hs => ?_, rfl, rfl⟩)
        · cases heq
          exact hl hl'
        · cases hs with
          | longPress hl' _ => exact hl hl'
  | led =>
      dsimp only
      by_cases hc : (d.led.ledCtrl 3).Closes d.led.is100msTick
      · rw [if_pos hc]
        exact .inr (.inl ⟨.timeout hc, rfl⟩)
      · rw [if_neg hc]
        refine .inr (.inr ⟨nofun, fun hs => ?_, rfl, rfl⟩)
        cases hs with
        | timeout hc' => exact hc hc'
  | disconnected =>
      dsimp only
      split <;> exact .inr (.inr ⟨nofun, nofun, rfl, rfl⟩)
  | _ => exact .inr (.inr ⟨nofun, nofun, rfl, rfl⟩)

end Dock

/-! ### The window closes in time -/

/-- The calls of the handler since the window was opened. -/
def pairingAge (n : ℕ) (d : Dock) (e : Event) : ℕ :=
  if d.window.flag = 0 then 0 else if e = .led then n + 1 else n

/-- An event keeps the window: while the flag is set, LED 3 runs the pairing task and less than 30 s
have passed; when it is cleared, advertising stops; and a connection does not prolong the task. -/
structure WindowKept (p : Dock × ℕ) (e : Event) : Prop where
  pairs : (step p.1 e).window.flag ≠ 0 → ((step p.1 e).led.ledCtrl 3).Pairs
  inTime : (step p.1 e).window.flag ≠ 0 → pairingAge p.2 p.1 e < 3000
  stops : p.1.window.flag ≠ 0 → (step p.1 e).window.flag = 0 →
    (step p.1 e).window.adv = .stopAdv :: p.1.window.adv
  connects : ∀ conIdx, e = .connected conIdx → p.1.window.flag ≠ 0 →
    ((step p.1 e).led.ledCtrl 3).timeout100ms ≤ (p.1.led.ledCtrl 3).timeout100ms

/-- In the open window nothing switches LED 3 off, and no connection comes after the first 100 ms
step. -/
structure WindowUndisturbed (d : Dock) (e : Event) : Prop where
  lit : d.window.flag ≠ 0 → ¬ d.ForcesOff e
  fresh : ∀ conIdx, e = .connected conIdx → d.window.flag ≠ 0 →
    (d.led.ledCtrl 3).timeout100ms = 300

namespace LedModule

variable {P : Fin 4 → Prop} {m m' : LedModule} {n : ℕ}

/-- LED 3 runs a pairing task of the age `n`, which only its timeout can end. -/
structure Counting (m : LedModule) (n : ℕ) : Prop where
  pairs : (m.ledCtrl 3).Pairs
  endless : (m.ledCtrl 3).mode = .flash → (m.ledCtrl 3).flashTimes = 0
  pos : 0 < (m.ledCtrl 3).timeout100ms.toNat
  le : (m.ledCtrl 3).timeout100ms.toNat ≤ 300
  aged : n + 10 * (m.ledCtrl 3).timeout100ms.toNat ≤ 3000 + m.timer100ms.toNat

theorem Counting.congr (h : Counting m n) (hctrl : m'.ledCtrl 3 = m.ledCtrl 3)
    (ht : m'.timer100ms = m.timer100ms) : Counting m' n := by
  obtain ⟨hp, he, hpos, hle, hage⟩ := h
  rw [← hctrl] at hp he hpos hle hage
  exact ⟨hp, he, hpos, hle, ht ▸ hage⟩

theorem third_yields (h : Shown P m) : Yields (m.ledCtrl 3) ledPriorityHigh :=
  .inr ((h.fits 3).priority rfl)

/-- The pairing task starts, or starts anew. -/
theorem third_btPairing (h : Shown P m) (connected : Bool) :
    ((m.ledBtPairing connected).ledCtrl 3).Pairs ∧
      ((m.ledBtPairing connected).ledCtrl 3).timeout100ms = 300 ∧
      (((m.ledBtPairing connected).ledCtrl 3).mode = .flash →
        ((m.ledBtPairing connected).ledCtrl 3).flashTimes = 0) := by
  have hy := third_yields h
  unfold ledBtPairing
  split
  · change ((m.ledCtrlSetOn (3 : Fin 4) .blue 30 ledPriorityHigh _).2.ledCtrl 3).Pairs ∧ _
    rw [show m.ledCtrlSetOn 3 .blue 30 ledPriorityHigh (some .btPairingTimeout) =
      m.ledCtrlSetOn (3 : Fin 4) .blue 30 ledPriorityHigh (some .btPairingTimeout) from rfl,
      ledCtrlSetOn_eq m 3 (by decide) (by decide), if_pos hy, ledCtrl_retask, Function.update_self]
    exact ⟨⟨nofun, rfl, rfl⟩, rfl, nofun⟩
  · rw [show m.ledCtrlSetFlash 3 .blue 500 0 30 ledPriorityHigh (some .btPairingTimeout) =
      m.ledCtrlSetFlash (3 : Fin 4) .blue 500 0 30 ledPriorityHigh (some .btPairingTimeout)
        from rfl, ledCtrlSetFlash_eq m 3 (by decide) (by decide), if_pos hy, ledCtrl_retask,
      Function.update_self]
    exact ⟨⟨nofun, rfl, rfl⟩, rfl, fun _ => rfl⟩

theorem timer100ms_btPairing (connected : Bool) :
    (m.ledBtPairing connected).timer100ms = m.timer100ms :=
  timer100ms_ledStep (c := .btPairing connected) nofun

theorem counting_btPairing (h : Shown P m) (connected : Bool) (hn : n ≤ m.timer100ms.toNat) :
    Counting (m.ledBtPairing connected) n := by
  obtain ⟨hp, ht, hf⟩ := third_btPairing h connected
  have h300 : ((m.ledBtPairing connected).ledCtrl 3).timeout100ms.toNat = 300 := ht ▸ rfl
  refine ⟨hp, hf, by omega, by omega, ?_⟩
  rw [timer100ms_btPairing]
  omega

/-- The handler counts the task, unless it expires. -/
theorem counting_handler (h : Counting m n) (ht : m.timer100ms ≤ 9)
    (hexp : ¬ (m.ledCtrl 3).Expires m.is100msTick) : Counting m.ledCtrl10msHandler (n + 1) := by
  obtain ⟨hp, he, hpos, hle, hage⟩ := h
  have hctrl : m.ledCtrl10msHandler.ledCtrl 3 = (m.ledCtrl 3).aged m.is100msTick :=
    (m.ledCtrl_handler 3 hp.running hexp).resolve_right fun h => by
      have hlow := h.2.2
      rw [hp.priority] at hlow
      exact absurd hlow (by decide)
  have hten : m.is100msTick = true ↔ 10 ≤ (m.timer100ms + 1).toNat := by
    rw [is100msTick, decide_eq_true_eq, ge_iff_le, UInt8.le_iff_toNat_le]
    rfl
  have hnine : m.timer100ms.toNat ≤ 9 := UInt8.le_iff_toNat_le.mp ht
  have hsucc : (m.timer100ms + 1).toNat = m.timer100ms.toNat + 1 := by
    rw [UInt8.toNat_add]
    exact Nat.mod_eq_of_lt (by change _ + 1 < 2 ^ 8; omega)
  have htime : (m.ledCtrl10msHandler.ledCtrl 3).timeout100ms.toNat =
      if m.is100msTick then (m.ledCtrl 3).timeout100ms.toNat - 1
      else (m.ledCtrl 3).timeout100ms.toNat := by
    have hgt : (m.ledCtrl 3).timeout100ms > 0 := UInt16.lt_iff_toNat_lt.mpr hpos
    rw [hctrl, LedCtrl.timeout100ms_aged]
    by_cases hb : m.is100msTick = true
    · rw [if_pos hb, if_pos ⟨hb, hgt⟩]
      exact UInt16.toNat_sub_of_le _ _ (UInt16.le_iff_toNat_le.mpr hpos)
    · rw [if_neg hb, if_neg fun h => hb h.1]
  have hone : m.is100msTick = true → (m.ledCtrl 3).timeout100ms.toNat ≠ 1 := fun hb h1 =>
    hexp (.inr ⟨hp.running, hb, UInt16.toNat_inj.mp h1⟩)
  have htimer : m.ledCtrl10msHandler.timer100ms.toNat =
      if m.is100msTick then 0 else m.timer100ms.toNat + 1 := by
    rw [timer100ms_handler]
    split
    · rfl
    · exact hsucc
  refine ⟨⟨?_, ?_, ?_⟩, fun hm => ?_, ?_, ?_, ?_⟩
  · rw [hctrl, LedCtrl.mode_aged]
    exact hp.running
  · rw [hctrl, LedCtrl.priority_aged]
    exact hp.priority
  · rw [hctrl, LedCtrl.callback_aged]
    exact hp.callback
  · rw [hctrl, LedCtrl.mode_aged] at hm
    rw [hctrl]
    exact LedCtrl.flashTimes_aged _ (he hm)
  · rw [htime]
    split
    · next hb =>
      have hne := hone hb
      omega
    · exact hpos
  · rw [htime]
    split <;> omega
  · rw [htime, htimer]
    split
    · next hb =>
      have hge := hten.mp hb
      omega
    · omega

end LedModule

structure PairingInv (p : Dock × ℕ) : Prop where
  shown : Shown (fun _ => False) p.1.led
  timer : p.1.led.timer100ms ≤ 9
  time : p.1.window.flag ≠ 0 → p.1.window.time = 3000
  counting : p.1.window.flag ≠ 0 → Counting p.1.led p.2

variable {p : Dock × ℕ} {e : Event}

/-- The call that the long press of key 4 makes. -/
theorem ledCalls_longPress {d : Dock} {key : UInt8} (h : d.LongPress key) :
    d.ledCalls (.control key) =
      if d.window.flag = 0 then [.btPairing false] else [.btPairingStop d.voice.enabled] := by
  obtain ⟨hlast, hkey, hrep⟩ := h
  subst hkey
  simp only [Dock.ledCalls, Dock.keyCalls]
  rw [if_neg fun h => absurd (hlast.symm.trans h.1) (by decide), if_pos ⟨hlast, by decide⟩,
    if_pos ⟨hrep, trivial⟩]
  rfl

theorem led_of_opens {d : Dock} (h : d.Opens e) : (step d e).led = d.led.ledBtPairing false := by
  obtain ⟨key, rfl, hlong, hflag⟩ := h
  rw [step_led, ledCalls_longPress hlong, if_pos hflag]
  rfl

theorem pairingOpen_of_inv (h : PairingInv p) (hopen : p.1.window.flag ≠ 0) : p.1.PairingOpen := by
  have htime : p.1.sys.ble.blePairTime = 3000 := h.time hopen
  refine ⟨hopen, ?_⟩
  rw [htime]
  decide

theorem led_of_connected (h : PairingInv p) (hopen : p.1.window.flag ≠ 0) (conIdx : UInt8) :
    (step p.1 (.connected conIdx)).led = p.1.led.ledBtPairing true := by
  rw [step_led, Dock.ledCalls, if_pos (pairingOpen_of_inv h hopen)]
  rfl

/-- The task in the open window, after an event that does not disturb it. -/
theorem counting_step (h : PairingInv p) (hu : WindowUndisturbed p.1 e)
    (hopen : (step p.1 e).window.flag ≠ 0) :
    Counting (step p.1 e).led (pairingAge p.2 p.1 e) := by
  rcases Dock.window_cases h.shown e with ⟨ho, -⟩ | ⟨-, hw⟩ | ⟨-, hns, hflag, -⟩
  · have hage : pairingAge p.2 p.1 e = 0 := if_pos ho.choose_spec.2.2
    rw [led_of_opens ho, hage]
    exact counting_btPairing h.shown false (Nat.zero_le _)
  · rw [hw] at hopen
    exact absurd rfl hopen
  rw [hflag] at hopen
  have hc := h.counting hopen
  simp only [pairingAge, if_neg hopen]
  by_cases hled : e = .led
  · subst hled
    have hexp : ¬ (p.1.led.ledCtrl 3).Expires p.1.led.is100msTick := fun hexp =>
      hns (.timeout ⟨hexp, hc.pairs.callback⟩)
    change Counting p.1.ledCtrl10msHandler.led _
    rw [if_pos rfl, Dock.led_ledCtrl10msHandler]
    exact counting_handler hc h.timer hexp
  rw [if_neg hled]
  by_cases hconn : ∃ conIdx, e = .connected conIdx
  · obtain ⟨conIdx, rfl⟩ := hconn
    have h300 : (p.1.led.ledCtrl 3).timeout100ms.toNat = 300 := hu.fresh conIdx rfl hopen ▸ rfl
    have hage := hc.aged
    rw [led_of_connected h hopen]
    exact counting_btPairing h.shown true (by omega)
  · have hkey : ∀ key, e = .control key → ¬ p.1.LongPress key := fun key he hl =>
      hns (he ▸ .longPress hl hopen)
    have hmild := Dock.mild_ledCalls (hu.lit hopen) hled hkey (fun c hc => hconn ⟨c, hc⟩)
      (h.time hopen)
    obtain ⟨hctrl, htimer⟩ := mild_calls hc.pairs hmild
    rw [step_led]
    exact hc.congr hctrl htimer

theorem pairingInv_step (h : PairingInv p) (hu : WindowUndisturbed p.1 e) :
    PairingInv (monitor step pairingAge p e) where
  shown := shown_step h.shown fun h0 => h0.elim
  timer := by
    have hcalls : ∀ (cs : List LedCall) (m : LedModule), m.timer100ms ≤ 9 →
        (cs.foldl ledStep m).timer100ms ≤ 9 := fun cs => by
      induction cs with
      | nil => exact fun _ hm => hm
      | cons c cs ih => exact fun m hm => ih _ (timer100ms_le hm c)
    change (step p.1 e).led.timer100ms ≤ 9
    rw [step_led]
    exact hcalls _ _ h.timer
  time hopen := by
    change (step p.1 e).window.time = 3000
    rcases Dock.window_cases h.shown e with ⟨-, hw⟩ | ⟨-, hw⟩ | ⟨-, -, hflag, htime⟩
    · rw [hw]
      rfl
    · exact absurd (congrArg Window.flag hw) hopen
    · exact htime.trans (h.time (hflag ▸ hopen))
  counting hopen := counting_step h hu hopen

/-- What an event leaves of the window if and only if it does not disturb it. -/
theorem windowKept_iff (h : PairingInv p) (e : Event) :
    WindowUndisturbed p.1 e ↔ WindowKept p e := by
  constructor
  · intro hu
    refine ⟨fun hopen => (counting_step h hu hopen).pairs, fun hopen => ?_, fun hopen hshut => ?_,
      fun conIdx he hopen => ?_⟩
    · have hc := counting_step h hu hopen
      have hpos := hc.pos
      have hage := hc.aged
      have hnine := UInt8.le_iff_toNat_le.mp (pairingInv_step h hu).timer
      change (step p.1 e).led.timer100ms.toNat ≤ 9 at hnine
      omega
    · rcases Dock.window_cases h.shown e with ⟨ho, -⟩ | ⟨-, hw⟩ | ⟨-, -, hflag, -⟩
      · exact absurd ho.choose_spec.2.2 hopen
      · rw [hw]
        rfl
      · exact absurd (hflag.symm.trans hshut) hopen
    · subst he
      rw [led_of_connected h hopen, (third_btPairing h.shown true).2.1, hu.fresh conIdx rfl hopen]
      exact UInt16.le_refl 300
  · intro hk
    refine ⟨fun hopen hoff => ?_, fun conIdx he hopen => ?_⟩
    · -- LED 3 is off, and the window still open
      have hctrl : (step p.1 e).led.ledCtrl 3 = cleared (p.1.led.ledCtrl 3) := by
        rw [step_led, Dock.ledCalls_of_forcesOff hoff]
        exact (p.1.led.ledCtrl_setOff 3 3).trans (if_pos rfl)
      have hstays : (step p.1 e).window = p.1.window := by
        rw [Dock.step_window h.shown]
        cases e <;> first | rfl | exact hoff.elim
      exact (hk.pairs (hstays ▸ hopen)).running (hctrl ▸ rfl)
    · subst he
      have hle := UInt16.le_iff_toNat_le.mp (hk.connects conIdx rfl hopen)
      rw [led_of_connected h hopen, (third_btPairing h.shown true).2.1] at hle
      refine UInt16.toNat_inj.mp (Nat.le_antisymm (h.counting hopen).le ?_)
      exact hle

theorem window_boot (b : Boot) : (boot b).window = ⟨0, 0, []⟩ := by
  rw [boot, Dock.xUartInit, Dock.window_ci1302Sync, Dock.window_checkOfflineVoiceKeys,
    Dock.narrow_window.snoringInterventionInit,
    Dock.narrow_window.flashLoad _ Dock.narrow_window.flash]
  rfl

theorem pairingInv_boot (b : Boot) : PairingInv (boot b, 0) := by
  have hflag : (boot b).window.flag = 0 := congrArg Window.flag (window_boot b)
  refine ⟨shown_boot _ b, ?_, fun h => absurd hflag h, fun h => absurd hflag h⟩
  change (boot b).led.timer100ms ≤ 9
  rw [led_boot]
  decide

/-- In every run: each step keeps the window, if and only if no step disturbs it. -/
theorem window_closes_iff (b : Boot) (es : List Event) :
    Along (monitor step pairingAge) WindowKept (boot b, 0) es ↔
      Along step WindowUndisturbed (boot b) es :=
  (along_iff_of_invariant (I := PairingInv) (fun _ _ => pairingInv_step) (fun _ e h =>
    windowKept_iff h e) (pairingInv_boot b) es).symm.trans (along_monitor_iff pairingAge 0)

/-- The window is opened and the voice function switched off: the device advertises, the flag is
set, and nothing will ever clear it but another long press. -/
theorem window_left_open :
    ¬ ∀ (b : Boot) (es : List Event),
      Along (monitor step pairingAge) WindowKept (boot b, 0) es := by
  intro h
  let es : List Event := List.replicate 2 (Event.switchSample 0 1) ++
    List.replicate 201 (Event.control appKeyNum4) ++ List.replicate 2 (Event.switchSample 1 1)
  obtain ⟨hlast, -⟩ := ((along_append _ es [.switchSample 1 1]).mp (h ⟨[], 0, 1⟩ _)).2
  have hpairs := hlast.pairs
  rw [exec_monitor_fst] at hpairs
  exact (hpairs (by decide +kernel)).running (by decide +kernel)

/-! ### Disconnections -/

/-- A disconnection in the open window restarts advertising and the flash of the pairing task. -/
structure Resumes (d : Dock) (e : Event) : Prop where
  advertises : e = .disconnected → d.window.flag ≠ 0 →
    (step d e).window.adv = .startAdv :: d.window.adv
  flashes : e = .disconnected → d.window.flag ≠ 0 →
    ((step d e).led.ledCtrl 3).Pairs ∧ ((step d e).led.ledCtrl 3).mode = .flash

/-- The time of the open window stays at its start value. -/
structure UncountedInv (d : Dock) : Prop where
  shown : Shown (fun _ => False) d.led
  time : d.window.flag ≠ 0 → d.window.time = 3000

theorem uncountedInv_step {d : Dock} (h : UncountedInv d) (e : Event) :
    UncountedInv (step d e) := by
  refine ⟨shown_step h.shown fun h0 => h0.elim, fun hopen => ?_⟩
  rcases Dock.window_cases h.shown e with ⟨-, hw⟩ | ⟨-, hw⟩ | ⟨-, -, hflag, htime⟩
  · rw [hw]
    rfl
  · exact absurd (congrArg Window.flag hw) hopen
  · exact htime.trans (h.time (hflag ▸ hopen))

theorem uncountedInv_boot (b : Boot) : UncountedInv (boot b) :=
  ⟨shown_boot _ b, fun h => absurd (congrArg Window.flag (window_boot b)) h⟩

/-- A disconnection in the open window does not restart advertising. -/
theorem resumes_iff {d : Dock} (h : UncountedInv d) (e : Event) :
    Resumes d e ↔ (e = .disconnected → d.window.flag = 0) := by
  constructor
  · rintro hr rfl
    by_contra hopen
    have hadv := hr.advertises rfl hopen
    have hsame : (step d .disconnected).window = d.window := by
      rw [Dock.step_window h.shown]
      exact if_neg fun hne => hne (h.time hopen)
    rw [hsame] at hadv
    exact List.cons_ne_self _ _ hadv.symm
  · exact fun hclosed => ⟨fun he hopen => absurd (hclosed he) hopen,
      fun he hopen => absurd (hclosed he) hopen⟩

/-- In every run: the disconnections follow the window, if and only if none comes while it is
open. -/
theorem disconnect_follows_window_iff (b : Boot) (es : List Event) :
    Along step Resumes (boot b) es ↔
      Along step (fun d e => e = .disconnected → d.window.flag = 0) (boot b) es :=
  along_iff_of_invariant (I := UncountedInv) (fun _ e h _ => uncountedInv_step h e)
    (fun _ e h => resumes_iff h e) (uncountedInv_boot b) es

/-- The window is opened, a peer connects and disconnects. -/
theorem disconnect_in_open_window :
    ¬ ∀ (b : Boot) (es : List Event), Along step Resumes (boot b) es := by
  intro h
  let es : List Event := List.replicate 201 (Event.control appKeyNum4) ++ [Event.connected 0]
  obtain ⟨hlast, -⟩ := ((along_append _ es [.disconnected]).mp (h ⟨[], 1, 1⟩ _)).2
  exact absurd (hlast.advertises rfl (by decide +kernel)) (by decide +kernel)

/-! ### The voice session after the pairing -/

/-- The pairing task ends: at its timeout, or by the long press that closes the window. -/
inductive PairingEnds (d : Dock) : Event → Prop where
  | timeout (h : (d.led.ledCtrl 3).Pairs) (hexp : (d.led.ledCtrl 3).Expires d.led.is100msTick) :
      PairingEnds d .led
  | longPress {key : UInt8} (h : (d.led.ledCtrl 3).Pairs) (hkey : d.LongPress key)
      (hopen : d.window.flag ≠ 0) : PairingEnds d (.control key)

/-- LED 3 shows whether a voice session is open. -/
structure LedModule.ShowsSession (m : LedModule) (enabled : Bool) : Prop where
  session : enabled = true → (m.ledCtrl 3).mode = .onPermanent ∧ (m.ledCtrl 3).color = .blue
  noSession : enabled = false → (m.ledCtrl 3).mode = .off
  blue : m.level .blue3 = !enabled
  green : m.level .green3 = true

/-- The pairing task runs out while a voice session is open. -/
structure TimesOutInSession (d : Dock) (e : Event) : Prop where
  event : e = .led
  pairs : (d.led.ledCtrl 3).Pairs
  expires : (d.led.ledCtrl 3).Expires d.led.is100msTick
  enabled : d.voice.enabled = true

namespace LedModule

/-- The pins of LED 3 follow from its record. -/
theorem showsSession_of_record {m : LedModule} {enabled : Bool} (h : Shown (fun i => i = 3) m)
    (hsession : enabled = true →
      (m.ledCtrl 3).mode = .onPermanent ∧ (m.ledCtrl 3).color = .blue)
    (hno : enabled = false → (m.ledCtrl 3).mode = .off) : ShowsSession m enabled := by
  have hdark : ∀ (color : LedColor) {pin : LedPin}, color ≠ .red →
      ledGetPinByColor (3 : Fin 4) color = some pin → (m.ledCtrl 3).color ≠ color →
        m.level pin = true := by
    intro color pin hred hpin hne
    by_contra hlevel
    have hlow : m.level pin = false := Bool.eq_false_iff.mpr hlevel
    exact hne (h.owned 3 color (fun hr => absurd hr hred) (lit_iff.mpr ⟨pin, hpin, hlow⟩))
  cases enabled with
  | false =>
      have hnone : (m.ledCtrl 3).color = .none := (h.fits 3).off_iff.mp (hno rfl)
      refine ⟨hsession, hno, hdark .blue nofun rfl ?_, hdark .green nofun rfl ?_⟩
      · rw [hnone]
        nofun
      · rw [hnone]
        nofun
  | true =>
      obtain ⟨hmode, hcolor⟩ := hsession rfl
      obtain ⟨pin, hpin, hlevel⟩ := lit_iff.mp (h.lit 3 rfl (.inr hmode))
      rw [hcolor] at hpin
      cases hpin
      refine ⟨hsession, hno, hlevel, hdark .green nofun rfl ?_⟩
      rw [hcolor]
      nofun

theorem third_btPairingStop (m : LedModule) (enabled : Bool) :
    if enabled then ((m.ledBtPairingStop enabled).ledCtrl 3).mode = .onPermanent ∧
        ((m.ledBtPairingStop enabled).ledCtrl 3).color = .blue
    else ((m.ledBtPairingStop enabled).ledCtrl 3).mode = .off := by
  have hoff : (m.ledCtrlSetOff 3).ledCtrl 3 = cleared (m.ledCtrl 3) :=
    (m.ledCtrl_setOff 3 3).trans (if_pos rfl)
  cases enabled with
  | false => exact congrArg LedCtrl.mode hoff
  | true =>
      have hy : Yields ((m.ledCtrlSetOff 3).ledCtrl 3) ledPriorityNormal := hoff ▸ .inl rfl
      have hstop : m.ledBtPairingStop true =
          ((m.ledCtrlSetOff 3).ledCtrlSetOn (3 : Fin 4) .blue 0 ledPriorityNormal none).2 := by
        simp only [ledBtPairingStop, ledVoiceWakeup, hoff]
        rfl
      rw [if_pos rfl, hstop, ledCtrlSetOn_eq _ 3 (by decide) (by decide), if_pos hy,
        ledCtrl_retask, Function.update_self]
      exact ⟨rfl, rfl⟩

end LedModule

theorem led_of_shuts {d : Dock} {key : UInt8} (h : d.LongPress key) (hopen : d.window.flag ≠ 0) :
    (step d (.control key)).led = d.led.ledBtPairingStop d.voice.enabled := by
  rw [step_led, ledCalls_longPress h, if_neg hopen]
  rfl

/-- After its timeout the pairing task leaves LED 3 off. -/
theorem third_of_timeout {P : Fin 4 → Prop} {d : Dock} (h : Shown P d.led)
    (hp : (d.led.ledCtrl 3).Pairs) (hexp : (d.led.ledCtrl 3).Expires d.led.is100msTick) :
    ((step d .led).led.ledCtrl 3).mode = .off := by
  obtain ⟨d', hctrl, -, heq⟩ := Dock.handler_third h
  have hstep : step d .led = d.ledCtrl10msHandler := rfl
  have hcb : (d.led.ledCtrl 3).flashed.callback ≠ some .voiceRestoreBlue := by
    rw [LedCtrl.callback_flashed, hp.callback]
    nofun
  rw [hstep, heq, Dock.led_ledTask10ms, task10ms, hctrl, if_neg hp.running, if_pos hexp, finish,
    if_neg hcb, ledCtrl_retask, Function.update_self]
  rfl

theorem session_shown_step_iff {d : Dock} (h : Shown (fun i => i = 3) d.led) (e : Event) :
    (PairingEnds d e → LedModule.ShowsSession (step d e).led d.voice.enabled) ↔
      ¬ TimesOutInSession d e := by
  have hnext : Shown (fun i => i = 3) (step d e).led :=
    shown_step h fun h0 => absurd h0 (by decide)
  constructor
  · rintro hshows ⟨rfl, hp, hexp, hen⟩
    have hblue := (hshows (.timeout hp hexp)).session hen
    rw [third_of_timeout h hp hexp] at hblue
    exact nomatch hblue.1
  · intro hno hends
    refine showsSession_of_record hnext (fun hen => ?_) fun hen => ?_
    · cases hends with
      | timeout hp hexp => exact absurd ⟨rfl, hp, hexp, hen⟩ hno
      | longPress hp hkey hopen =>
          have hstop := d.led.third_btPairingStop d.voice.enabled
          rw [if_pos hen] at hstop
          rw [led_of_shuts hkey hopen]
          exact hstop
    · cases hends with
      | timeout hp hexp => exact third_of_timeout h hp hexp
      | longPress hp hkey hopen =>
          have hstop := d.led.third_btPairingStop d.voice.enabled
          rw [if_neg (by rw [hen]; exact Bool.false_ne_true)] at hstop
          rw [led_of_shuts hkey hopen]
          exact hstop

/-- In every run: at each end of the pairing task LED 3 shows the voice session, if and only if no
pairing task runs out while a session is open. -/
theorem session_shown_iff (b : Boot) (es : List Event) :
    Along step (fun d e =>
        PairingEnds d e → LedModule.ShowsSession (step d e).led d.voice.enabled) (boot b) es ↔
      Along step (fun d e => ¬ TimesOutInSession d e) (boot b) es :=
  along_iff_of_invariant (I := fun d : Dock => Shown (fun i => i = 3) d.led)
    (fun _ _ h _ => shown_step h fun h0 => absurd h0 (by decide))
    (fun _ e h => session_shown_step_iff h e) (shown_boot _ b) es

/-- As long as the task does not run out in the session, the handler only counts it. -/
theorem counted_in_session {d : Dock} {n k : ℕ} (h : PairingInv (d, n)) (hopen : d.window.flag ≠ 0)
    (hen : d.voice.enabled = true)
    (ha : Along step (fun d e => ¬ TimesOutInSession d e) d (List.replicate k .led)) :
    ∃ d', PairingInv (d', n + k) ∧ d'.window.flag ≠ 0 := by
  induction k generalizing d n with
  | zero => exact ⟨d, h, hopen⟩
  | succ k ih =>
      obtain ⟨hno, hrest⟩ := ha
      have hu : WindowUndisturbed d .led := ⟨fun _ hoff => hoff, nofun⟩
      have hage : pairingAge n d .led = n + 1 := (if_neg hopen).trans (if_pos rfl)
      have hnext : PairingInv (step d .led, pairingAge n d .led) := pairingInv_step h hu
      rw [hage] at hnext
      have hflag : (step d .led).window.flag ≠ 0 := by
        rcases Dock.window_cases h.shown .led with ⟨⟨_, hk, -⟩, -⟩ | ⟨hs, -⟩ | ⟨-, -, hsame, -⟩
        · cases hk
        · cases hs with
          | timeout hc => exact absurd ⟨rfl, (h.counting hopen).pairs, hc.1, hen⟩ hno
        · rw [hsame]
          exact hopen
      have hvoice : (step d .led).voice.enabled = true := by
        have hdesk := congrArg (fun s : Desk => s.voice.enabled) (step_desk d .led)
        exact hdesk.trans hen
      obtain ⟨d', hI, hopen'⟩ := ih hnext hflag hvoice hrest
      exact ⟨d', by rwa [Nat.add_right_comm] at hI, hopen'⟩

/-- The window is opened, a voice session begins, and 30 s pass: LED 3 is off in the session. -/
theorem session_dark_after_timeout :
    ¬ ∀ (b : Boot) (es : List Event), Along step (fun d e =>
        PairingEnds d e → LedModule.ShowsSession (step d e).led d.voice.enabled) (boot b) es := by
  intro h
  let es : List Event := List.replicate 2 (Event.switchSample 0 1) ++
    List.replicate 201 (Event.control appKeyNum4) ++ [Event.voiceFrame 0x81 0x22]
  have hshown : Shown (fun i => i = 3) (boot ⟨[], 0, 1⟩).led := shown_boot _ _
  have hrun := (along_iff_of_invariant (I := fun d : Dock => Shown (fun i => i = 3) d.led)
    (fun _ _ h _ => shown_step h fun h0 => absurd h0 (by decide))
    (fun _ e h => session_shown_step_iff h e) hshown
    (es ++ List.replicate 3000 Event.led)).mp (h _ _)
  have hcount := ((along_append _ es _).mp hrun).2
  obtain ⟨d, hd⟩ : ∃ d, d = exec step (boot ⟨[], 0, 1⟩) es := ⟨_, rfl⟩
  have hstate : (d.led.ledCtrl 3, d.led.timer100ms, d.window, d.voice.enabled) =
      (⟨.blue, .flash, 300, 50, 0, 0, ledPriorityHigh, some .btPairingTimeout⟩, 0,
        ⟨1, 3000, [.startAdv]⟩, true) := by
    rw [hd]
    decide +kernel
  obtain ⟨hctrl, htimer, hwindow, hen⟩ : _ ∧ _ ∧ _ ∧ _ := by
    simpa only [Prod.mk.injEq] using hstate
  have hcounting : Counting d.led 0 := by
    refine ⟨⟨?_, ?_, ?_⟩, fun _ => ?_, ?_, ?_, ?_⟩ <;> rw [hctrl]
    · nofun
    · decide
    · decide
    · rw [htimer]
      decide
  have hinv : PairingInv (d, 0) := by
    refine ⟨?_, ?_, fun _ => congrArg Window.time hwindow, fun _ => hcounting⟩
    · rw [hd]
      exact shown_run ⟨[], 0, 1⟩ not_false es
    · change d.led.timer100ms ≤ 9
      rw [htimer]
      decide
  have hopen : d.window.flag ≠ 0 := by
    rw [hwindow]
    decide
  obtain ⟨d', hend, hstill⟩ := counted_in_session hinv hopen hen (hd ▸ hcount)
  obtain ⟨-, -, hpos, -, hage⟩ : Counting d'.led (0 + 3000) := hend.counting hstill
  have hnine : d'.led.timer100ms.toNat ≤ 9 := UInt8.le_iff_toNat_le.mp hend.timer
  omega

end ErgoDock
