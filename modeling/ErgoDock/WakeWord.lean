import ErgoDock.Desk
import ErgoDock.Outputs

/-! # The wake word

The voice session lives in two places: `enabled` of the switch record, and the static state
of `offline_voice_Handle`.  Switching off clears only the first; the second is cleared by the
next frame of the chip, if one comes before the switch is on again.  `SessionInv` relates both to
the session as a user sees it (`sessionOpen`). -/

namespace ErgoDock

open Machine

namespace Dock

/-- What the session depends on, besides the configured word. -/
def session (d : Dock) : Bool × Bool × VoiceState :=
  (d.voice.keyEnable, d.voice.enabled, d.voiceState)

end Dock

/-! ### Only the switch and the chip touch the session -/

/-- The session is read off the desk. -/
def Desk.session (s : Desk) : Bool × Bool × VoiceState :=
  (s.voice.keyEnable, s.voice.enabled, s.voiceState)

theorem session_of_desk {d : Dock} {s : Desk} (h : d.desk = s) : d.session = s.session :=
  congrArg Desk.session h

theorem session_step (d : Dock) {e : Event} (hk : ∀ key1 key2, e ≠ .switchSample key1 key2)
    (hv : ∀ cmd data, e ≠ .voiceFrame cmd data) : (step d e).session = d.session := by
  rw [session_of_desk (step_desk d e)]
  cases e with
  | switchSample key1 key2 => exact absurd rfl (hk key1 key2)
  | voiceFrame cmd data => exact absurd rfl (hv cmd data)
  | mfpFrame raw | bleWrite value =>
      simp only [Desk.step]
      split <;> rfl
  | _ => rfl

/-- A sample of the switch leaves the session alone, ends it, or enables the voice function. -/
theorem session_checkOfflineVoiceKeys (d : Dock) (key1 key2 : UInt8) :
    let d' := d.checkOfflineVoiceKeys key1 key2
    d'.voiceState = d.voiceState ∧
    ((d'.voice.keyEnable = d.voice.keyEnable ∧ d'.voice.enabled = d.voice.enabled) ∨
      (d'.voice.keyEnable = false ∧
        d'.voice.enabled = if d.voice.keyEnable then false else d.voice.enabled) ∨
      (d'.voice.keyEnable = true ∧ d'.voice.enabled = d.voice.enabled)) := by
  intro d'
  have hvoice : d'.voice = (d.desk.sample key1 key2).voice :=
    congrArg Desk.voice (d.desk_checkOfflineVoiceKeys key1 key2)
  have hstate : d'.voiceState = (d.desk.sample key1 key2).voiceState :=
    congrArg Desk.voiceState (d.desk_checkOfflineVoiceKeys key1 key2)
  rw [hvoice, hstate]
  simp only [Desk.sample]
  split
  · exact ⟨rfl, .inl ⟨rfl, rfl⟩⟩
  · refine ⟨rfl, .inr ?_⟩
    simp only [Desk.switchVoice]
    split
    · exact .inl ⟨rfl, rfl⟩
    · exact .inr ⟨rfl, rfl⟩

theorem session_offlineVoiceDataHandle (d : Dock) (cmd : UInt8) :
    (d.offlineVoiceDataHandle cmd).session = d.session := by
  rw [session_of_desk (d.desk_offlineVoiceDataHandle cmd)]
  split <;> rfl

theorem session_offlineVoiceWakeUp (d : Dock) : d.offlineVoiceWakeUp.session = d.session :=
  session_of_desk (Dock.aside_desk.offlineVoiceWakeUp d)

/-! ### The session of the user -/

/-- History: a wake word that matched the configured one has come since the switch last became
enabled and since the last end of a session. -/
def watchSession (s : Bool) (d : Dock) : Event → Bool
  | .switchSample key1 key2 =>
      s && d.voice.keyEnable && (d.checkOfflineVoiceKeys key1 key2).voice.keyEnable
  | .voiceFrame cmd data =>
      if d.voice.keyEnable = true ∧ Dock.IsWake d.voice cmd data then true
      else if cmd = 0x82 then false else s
  | _ => s

/-- The session is open at the end of the run. -/
def sessionOpen (b : Boot) (es : List Event) : Bool :=
  (exec (monitor step watchSession) (boot b, false) es).2

/-- The sample of the switch that enables the voice function while `offline_voice_Handle` has
not seen that it was off. -/
def StaleEnable (d : Dock) : Event → Prop
  | .switchSample key1 key2 =>
      d.voice.keyEnable = false ∧ (d.checkOfflineVoiceKeys key1 key2).voice.keyEnable = true ∧
        d.voiceState ≠ .disabled
  | _ => False

instance (d : Dock) : (e : Event) → Decidable (StaleEnable d e)
  | .switchSample _ _ => inferInstanceAs (Decidable (_ ∧ _ ∧ _))
  | .tick | .control _ | .led | .charge _ | .snoreEdge | .snoreRun | .flashRun | .voiceFrame _ _
  | .mfpFrame _ | .statusFrame _ | .bleWrite _ | .connected _ | .disconnected | .notificationDone
  | .mtuChanged _ => .isFalse id

/-- The session of the user in the two places of the firmware. -/
structure SessionInv (d : Dock) (s : Bool) : Prop where
  enabled : d.voice.enabled = s
  keyEnable : s = true → d.voice.keyEnable = true
  state : d.voice.keyEnable = true → (d.voiceState ≠ .disabled ↔ s = true)

theorem SessionInv.of_session {d d' : Dock} {s : Bool} (h : SessionInv d s)
    (hs : d'.session = d.session) : SessionInv d' s := by
  obtain ⟨hk, hp⟩ := Prod.mk.inj hs
  obtain ⟨he, hv⟩ := Prod.mk.inj hp
  refine ⟨he.trans h.enabled, fun ht => hk.trans (h.keyEnable ht), fun hk' => ?_⟩
  rw [hv]
  exact h.state (hk.symm.trans hk')

theorem sessionInv_switchSample {d : Dock} {s : Bool} (key1 key2 : UInt8) (h : SessionInv d s)
    (hok : ¬ StaleEnable d (.switchSample key1 key2)) :
    SessionInv (d.checkOfflineVoiceKeys key1 key2)
      (s && d.voice.keyEnable && (d.checkOfflineVoiceKeys key1 key2).voice.keyEnable) := by
  have hc := session_checkOfflineVoiceKeys d key1 key2
  rw [StaleEnable] at hok
  generalize d.checkOfflineVoiceKeys key1 key2 = d' at *
  obtain ⟨hstate, hcase⟩ := hc
  have hen := h.enabled
  have hon := h.keyEnable
  have hst := h.state
  rw [← hstate] at hst hok
  cases hk : d.voice.keyEnable with
  | true =>
      -- the function was enabled: the session goes on, or ends with the switch
      have hst := hst hk
      rcases hcase with ⟨hk', he'⟩ | ⟨hk', he'⟩ | ⟨hk', he'⟩
      · rw [hk', hk, Bool.and_true, Bool.and_true]
        exact ⟨he'.trans hen, fun _ => hk'.trans hk, fun _ => hst⟩
      · rw [hk', Bool.and_false]
        refine ⟨he'.trans (if_pos hk), fun hf => ?_, fun hf => ?_⟩
        · cases hf
        · rw [hk'] at hf
          cases hf
      · rw [hk', Bool.and_true, Bool.and_true]
        exact ⟨he'.trans hen, fun _ => hk', fun _ => hst⟩
  | false =>
      have hs : s = false := by
        cases s with
        | false => rfl
        | true =>
            rw [hon rfl] at hk
            cases hk
      have hfalse : d.voice.enabled = false := hen.trans hs
      rw [Bool.and_false, Bool.false_and]
      have hen' : d'.voice.enabled = false := by
        rcases hcase with ⟨-, he'⟩ | ⟨-, he'⟩ | ⟨-, he'⟩
        · rw [he', hfalse]
        · rw [he', hfalse, ite_self]
        · rw [he', hfalse]
      exact ⟨hen', fun hf => absurd hf Bool.false_ne_true, fun hk' =>
        ⟨fun hd => absurd ⟨hk, hk', hd⟩ hok, fun hf => absurd hf Bool.false_ne_true⟩⟩

theorem sessionInv_voiceFrame {d : Dock} {s : Bool} (cmd data : UInt8) (h : SessionInv d s) :
    SessionInv (d.offlineVoiceHandle cmd data) (watchSession s d (.voiceFrame cmd data)) := by
  obtain ⟨hen, hon, hst⟩ := id h
  simp only [Dock.offlineVoiceHandle, watchSession]
  by_cases hk : d.voice.keyEnable = false
  · have hs : s = false := by
      by_contra hs
      rw [hon (by simpa using hs)] at hk
      cases hk
    have hwake : ¬ (d.voice.keyEnable = true ∧ Dock.IsWake d.voice cmd data) := by simp [hk]
    rw [if_pos hk, if_neg hwake, hs, ite_self]
    refine ⟨?_, fun hf => absurd hf Bool.false_ne_true, fun hk' => ?_⟩
    · split
      · rfl
      · next hc => simpa using (not_or.mp hc).1
    · have : d.voice.keyEnable = true := by
        split at hk' <;> exact hk'
      rw [this] at hk
      cases hk
  have hk' : d.voice.keyEnable = true := by simpa using hk
  have hst := hst hk'
  rw [if_neg hk]
  -- in a session: the words, the end, or nothing
  have hopen : d.voiceState ≠ .disabled →
      SessionInv
        (if cmd = 0x81 then { d.offlineVoiceDataHandle data with voiceState := .active }
          else if cmd = 0x82 then { d.offlineVoiceWakeOff with voiceState := .disabled }
          else d)
        (if d.voice.keyEnable = true ∧ Dock.IsWake d.voice cmd data then true
          else if cmd = 0x82 then false else s) := by
    intro hne
    have hs := hst.mp hne
    by_cases h81 : cmd = 0x81
    · have h82 : cmd ≠ 0x82 := by
        rw [h81]
        decide
      have hsess := session_offlineVoiceDataHandle d data
      obtain ⟨hk₁, hp⟩ := Prod.mk.inj hsess
      obtain ⟨he₁, -⟩ := Prod.mk.inj hp
      rw [if_pos h81, if_neg h82, hs, ite_self]
      exact ⟨he₁.trans (hen.trans hs), fun _ => hk₁.trans hk',
        fun _ => ⟨fun _ => rfl, fun _ => (by decide : VoiceState.active ≠ .disabled)⟩⟩
    · have hwake : ¬ (d.voice.keyEnable = true ∧ Dock.IsWake d.voice cmd data) := by
        rintro ⟨-, ⟨hc, -, -⟩ | ⟨hc, -, -⟩⟩ <;> exact h81 hc
      rw [if_neg h81, if_neg hwake]
      by_cases h82 : cmd = 0x82
      · rw [if_pos h82, if_pos h82]
        exact ⟨rfl, fun hf => absurd hf Bool.false_ne_true,
          fun _ => ⟨fun hd => absurd rfl hd, fun hf => absurd hf Bool.false_ne_true⟩⟩
      · rw [if_neg h82, if_neg h82]
        exact h
  cases hv : d.voiceState with
  | disabled =>
      have hs : s = false := by
        by_contra hs
        exact hst.mpr (by simpa using hs) hv
      dsimp only
      by_cases hw : Dock.IsWake d.voice cmd data
      · have hwake : d.voice.keyEnable = true ∧ Dock.IsWake d.voice cmd data := ⟨hk', hw⟩
        rw [if_pos hw, if_pos hwake]
        refine SessionInv.of_session ?_ (session_offlineVoiceWakeUp _)
        exact ⟨rfl, fun _ => hk',
          fun _ => ⟨fun _ => rfl, fun _ => (by decide : VoiceState.wakeWordDetected ≠ .disabled)⟩⟩
      · have hwake : ¬ (d.voice.keyEnable = true ∧ Dock.IsWake d.voice cmd data) :=
          fun hc => hw hc.2
        rw [if_neg hw, if_neg hwake, hs, ite_self]
        exact hs ▸ h
  | wakeWordDetected => exact hopen (by simp [hv])
  | active => exact hopen (by simp [hv])

theorem sessionInv_step (d : Dock) (s : Bool) (e : Event) (h : SessionInv d s)
    (hok : ¬ StaleEnable d e) : SessionInv (step d e) (watchSession s d e) := by
  by_cases hk : ∃ key1 key2, e = .switchSample key1 key2
  · obtain ⟨key1, key2, rfl⟩ := hk
    exact sessionInv_switchSample key1 key2 h hok
  by_cases hv : ∃ cmd data, e = .voiceFrame cmd data
  · obtain ⟨cmd, data, rfl⟩ := hv
    exact sessionInv_voiceFrame cmd data h
  have hwatch : watchSession s d e = s := by
    cases e with
    | switchSample key1 key2 => exact absurd ⟨key1, key2, rfl⟩ hk
    | voiceFrame cmd data => exact absurd ⟨cmd, data, rfl⟩ hv
    | _ => rfl
  rw [hwatch]
  exact h.of_session (session_step d (fun key1 key2 he => hk ⟨key1, key2, he⟩)
    fun cmd data he => hv ⟨cmd, data, he⟩)

/-- Two samples do not make a stable switch: a start finds the voice function disabled. -/
theorem sessionInv_boot (b : Boot) : SessionInv (boot b) false := by
  have hcnt : ∀ raw, (Dock.debounce {} raw).rawCnt < 3 := by
    intro raw
    simp only [Dock.debounce]
    split
    · decide
    · exact (by decide : (1 : UInt8) < 3)
  have hs : (boot b).session = (false, false, .disabled) := by
    rw [session_of_desk (desk_boot b), Desk.sample, if_pos (.inl (hcnt _))]
    rfl
  obtain ⟨hk, hp⟩ := Prod.mk.inj hs
  obtain ⟨he, -⟩ := Prod.mk.inj hp
  refine ⟨he, fun hf => absurd hf Bool.false_ne_true, fun hk' => ?_⟩
  rw [hk] at hk'
  cases hk'

/-- In any run in which the voice function is never enabled with a stale state: `enabled` says
exactly that a session is open, and a control word is executed only in an open session. -/
theorem wake_word_gate (b : Boot) (es : List Event)
    (h : Along step (fun d e => ¬ StaleEnable d e) (boot b) es) :
    ((runFrom b es).voice.enabled = true ↔ sessionOpen b es = true) ∧
    ∀ e, (step (runFrom b es) e).voiceCmds ≠ (runFrom b es).voiceCmds →
      sessionOpen b es = true := by
  have hI : SessionInv (runFrom b es) (sessionOpen b es) :=
    monitor_invariant_along (fun d s e hd hok => sessionInv_step d s e hd hok)
      (sessionInv_boot b) (along_monitor watchSession false h)
  refine ⟨by rw [hI.enabled], fun e he => ?_⟩
  rw [voiceCmds_step] at he
  cases e with
  | voiceFrame cmd data =>
      by_cases hx : (runFrom b es).ExecutesWord cmd data
      · exact (hI.state hx.1).mp hx.2.1
      · exact absurd (if_neg hx) he
  | _ => exact absurd rfl he

/-- The first session after a start. -/
theorem wake_word_gate_first_session :
    Along step (fun d e => ¬ StaleEnable d e) (boot (bootAt 3)) openSession ∧
    (((runFrom (bootAt 3) openSession).voice.enabled = true ↔
        sessionOpen (bootAt 3) openSession = true) ∧
      ∀ e, (step (runFrom (bootAt 3) openSession) e).voiceCmds ≠
          (runFrom (bootAt 3) openSession).voiceCmds →
        sessionOpen (bootAt 3) openSession = true) := by
  have h : Along step (fun d e => ¬ StaleEnable d e) (boot (bootAt 3)) openSession := by
    decide +kernel
  exact ⟨h, wake_word_gate (bootAt 3) openSession h⟩

/-- After a session the switch goes off and on again, and the chip sends nothing meanwhile: no
session is open, and the word that lifts the bed is executed all the same. -/
theorem word_without_wake :
    let es := openSession ++ List.replicate 3 (.switchSample 1 1) ++
      List.replicate 3 (.switchSample 1 0)
    let d := runFrom (bootAt 3) es
    sessionOpen (bootAt 3) es = false ∧ d.voice.enabled = false ∧
    (step d (.voiceFrame 0x81 0x24)).voiceCmds.length = d.voiceCmds.length + 1 ∧
    (step d (.voiceFrame 0x81 0x24)).mfp.motorActs.length = d.mfp.motorActs.length + 1 := by
  decide +kernel

end ErgoDock
