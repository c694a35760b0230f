import ErgoDock.LedTasks
import ErgoDock.Runs

/-! # The pins and the tasks of the LEDs

A pin is lit by a task of its colour only, and a task that is to shine has its pin lit.  The first
half is kept by every call (`Sound`).  The second is kept LED by LED (`Shines`), except that the
write to the common red pin darkens the alarm of LED 0 without ending it: that happens when the
charger disappears while its alarm shines (`DarkensRed`).  A run keeps pins and tasks in agreement
if and only if this never happens in it (`pins_agree_iff`). -/

namespace ErgoDock

open Machine

/-- No two colours of an LED have one pin. -/
theorem ledGetPinByColor_inj : ∀ {i : Fin 4} {c c' : LedColor} {p : LedPin},
    ledGetPinByColor i c = some p → ledGetPinByColor i c' = some p → c = c' := by
  intro i c c' p h h'
  fin_cases i <;> cases c <;> cases h <;> cases c' <;> cases h' <;> rfl

/-- Two LEDs share the red pin at most. -/
theorem ledGetPinByColor_shared {i j : Fin 4} {c c' : LedColor} {p : LedPin} (hij : i ≠ j)
    (h : ledGetPinByColor i c = some p) (h' : ledGetPinByColor j c' = some p) :
    c = .red ∧ c' = .red := by
  fin_cases i <;> cases c <;> cases h <;> fin_cases j <;> cases c' <;> cases h' <;>
    first | exact ⟨rfl, rfl⟩ | exact absurd rfl hij

theorem ledGetPinByColor_redAll : ∀ {i : Fin 4} {c : LedColor},
    ledGetPinByColor i c = some .redAll → c = .red := by
  intro i c h
  fin_cases i <;> cases c <;> cases h <;> rfl

/-- The calls that go through the records of the tasks, with the arguments of the firmware. -/
def LedCall.Business : LedCall → Prop
  | .setOn .. | .setFlash .. | .redOff => False
  | .forceOff _ | .snoreLevelSet _ | .snoreDisabledFlash | .voiceWakeup | .voiceCommandConfirm
  | .voiceCloseFlash | .chargeNormal | .chargeError | .chargeStop | .btPairing _
  | .btPairingStop _ | .handler => True

namespace LedModule

/-! ### Agreement -/

/-- A colour of an LED is lit. -/
def Lit (m : LedModule) (i : Fin 4) (color : LedColor) : Prop :=
  (ledGetPinByColor i color).map m.level = some false

instance (m : LedModule) (i : Fin 4) (color : LedColor) : Decidable (m.Lit i color) := by
  unfold Lit; infer_instance

/-- The task of an LED is to shine all the time. -/
def Steady (c : LedCtrl) : Prop := c.mode = .on ∨ c.mode = .onPermanent

instance (c : LedCtrl) : Decidable (Steady c) := by unfold Steady; infer_instance

/-- The pins agree with the tasks. -/
structure Agree (m : LedModule) : Prop where
  owned : ∀ pin, m.level pin = false →
    ∃ i, (m.ledCtrl i).mode ≠ .off ∧ ledGetPinByColor i (m.ledCtrl i).color = some pin
  lit : ∀ i, Steady (m.ledCtrl i) → m.Lit i (m.ledCtrl i).color

/-! ### The invariant -/

/-- What every task that the firmware starts on an LED has. -/
structure Fits (i : Fin 4) (c : LedCtrl) : Prop where
  off_iff : c.mode = .off ↔ c.color = .none
  red : c.color = .red → i = 0
  pin : c.color ≠ .none → ledGetPinByColor i c.color ≠ none
  callback : i ≠ 3 → c.callback = none
  priority : i = 3 → c.priority ≤ ledPriorityHigh

/-- The records are such tasks, and a pin of an LED is lit in the colour of its task only; the red
pin counts as a pin of LED 0.  The LEDs of `P` shine when they are to. -/
structure Shown (P : Fin 4 → Prop) (m : LedModule) : Prop where
  fits : ∀ i, Fits i (m.ledCtrl i)
  owned : ∀ i color, (color = .red → i = 0) → m.Lit i color → (m.ledCtrl i).color = color
  lit : ∀ i, P i → Steady (m.ledCtrl i) → m.Lit i (m.ledCtrl i).color

variable {P : Fin 4 → Prop} {m : LedModule} {i : Fin 4} {c : LedCtrl}

theorem lit_iff {color : LedColor} :
    m.Lit i color ↔ ∃ p, ledGetPinByColor i color = some p ∧ m.level p = false :=
  Option.map_eq_some_iff

theorem Shown.agree (h : Shown (fun _ => True) m) : m.Agree := by
  have howned : ∀ (i : Fin 4) (color : LedColor) (pin : LedPin), color ≠ .none →
      (color = .red → i = 0) → ledGetPinByColor i color = some pin → m.level pin = false →
        ∃ i, (m.ledCtrl i).mode ≠ .off ∧ ledGetPinByColor i (m.ledCtrl i).color = some pin := by
    intro i color pin hc hred hpin hlit
    have hcolor := h.owned i color hred (lit_iff.mpr ⟨pin, hpin, hlit⟩)
    exact ⟨i, fun hoff => hc (hcolor.symm.trans ((h.fits i).off_iff.mp hoff)), hcolor ▸ hpin⟩
  refine ⟨fun pin => ?_, fun i => h.lit i trivial⟩
  cases pin with
  | blue0 => exact howned 0 .blue _ nofun nofun rfl
  | blue1 => exact howned 1 .blue _ nofun nofun rfl
  | blue2 => exact howned 2 .blue _ nofun nofun rfl
  | blue3 => exact howned 3 .blue _ nofun nofun rfl
  | green1 => exact howned 1 .green _ nofun nofun rfl
  | green3 => exact howned 3 .green _ nofun nofun rfl
  | redAll => exact howned 0 .red _ nofun (fun _ => rfl) rfl

theorem Shown.mono {Q : Fin 4 → Prop} (h : Shown P m) (hQ : ∀ i, Q i → P i) : Shown Q m :=
  ⟨h.fits, h.owned, fun i hi => h.lit i (hQ i hi)⟩

theorem shown_timer100ms (h : Shown P m) (t : UInt8) : Shown P { m with timer100ms := t } :=
  ⟨h.fits, h.owned, h.lit⟩

/-! ### One operation -/

theorem level_retask (lit : Bool) (p : LedPin) :
    (m.retask i c lit).level p =
      if ledGetPinByColor i c.color = some p then !lit
      else if ledGetPinByColor i (m.ledCtrl i).color = some p then true
      else m.level p := by
  have hset : ∀ (m : LedModule) (pin : Option LedPin) (on : Bool),
      (m.ledHwSetPin pin on).level p = if pin = some p then !on else m.level p := by
    intro m pin on
    cases pin with
    | none => rfl
    | some q =>
        by_cases hq : q = p
        · subst hq
          simp [ledHwSetPin]
        · simp [ledHwSetPin, Function.update_of_ne (Ne.symm hq), hq]
  rw [retask, hset]
  refine if_congr Iff.rfl rfl ?_
  exact hset m _ false

/-- A task that fits replaces another: the pins of the other LEDs are not touched. -/
theorem shown_retask {lit : Bool} (h : Shown P m) (hc : Fits i c)
    (hlit : P i → Steady c → lit = true) : Shown P (m.retask i c lit) := by
  have hself : (m.retask i c lit).ledCtrl i = c := by simp
  have hother : ∀ j, j ≠ i → (m.retask i c lit).ledCtrl j = m.ledCtrl j := fun j hj => by
    rw [ledCtrl_retask, Function.update_of_ne hj]
  refine ⟨fun j => ?_, fun j color hred hj => ?_, fun j hP hs => ?_⟩
  · by_cases hji : j = i
    · subst hji
      rw [hself]
      exact hc
    · rw [hother j hji]
      exact h.fits j
  · obtain ⟨p, hp, hlevel⟩ := lit_iff.mp hj
    rw [level_retask] at hlevel
    by_cases hji : j = i
    · subst hji
      rw [hself]
      split at hlevel
      · next hnew => exact ledGetPinByColor_inj hnew hp
      · next hnew =>
        split at hlevel
        · cases hlevel
        · next hold => exact absurd (h.owned j color hred (lit_iff.mpr ⟨p, hp, hlevel⟩) ▸ hp) hold
    · rw [hother j hji]
      split at hlevel
      · next hnew =>
        obtain ⟨hr, hr'⟩ := ledGetPinByColor_shared hji hp hnew
        exact absurd ((hred hr).trans (hc.red hr').symm) hji
      · split at hlevel
        · cases hlevel
        · exact h.owned j color hred (lit_iff.mpr ⟨p, hp, hlevel⟩)
  · by_cases hji : j = i
    · subst hji
      rw [hself] at hs ⊢
      have hcolor : c.color ≠ .none := fun h0 => by
        have := hc.off_iff.mpr h0
        rcases hs with hs | hs <;> simp [this] at hs
      obtain ⟨p, hp⟩ := Option.ne_none_iff_exists'.mp (hc.pin hcolor)
      refine lit_iff.mpr ⟨p, hp, ?_⟩
      rw [level_retask, if_pos hp, hlit hP hs]
      rfl
    · rw [hother j hji] at hs ⊢
      obtain ⟨p, hp, hlevel⟩ := lit_iff.mp (h.lit j hP hs)
      refine lit_iff.mpr ⟨p, hp, ?_⟩
      have hdis : ∀ (c' : LedCtrl), Fits i c' → ledGetPinByColor i c'.color ≠ some p := by
        intro c' hc' hp'
        obtain ⟨hr, hr'⟩ := ledGetPinByColor_shared hji hp hp'
        exact hji (((h.fits j).red hr).trans (hc'.red hr').symm)
      rw [level_retask, if_neg (hdis c hc), if_neg (hdis _ (h.fits i)), hlevel]

/-! ### The calls -/

theorem fits_of_off (hm : c.mode = .off) (hc : c.color = .none) (hp : c.priority = 0)
    (hcb : c.callback = none) : Fits i c :=
  ⟨iff_of_true hm hc, fun h => (by rw [hc] at h; cases h), fun h => absurd hc h, fun _ => hcb,
    fun _ => hp ▸ (by decide)⟩

theorem not_steady_of_off (hm : c.mode = .off) : ¬ Steady c := by
  rintro (h | h)
  · rw [hm] at h
    cases h
  · rw [hm] at h
    cases h

/-- What the firmware asks of an LED. -/
structure Asks (i : Fin 4) (color : LedColor) (p : UInt8) (callback : Option LedCallback) :
    Prop where
  some_color : color ≠ .none
  pin : ledGetPinByColor i color ≠ none
  red : color = .red → i = 0
  callback : i ≠ 3 → callback = none
  priority : i = 3 → p ≤ ledPriorityHigh

theorem asks_third {color : LedColor} {p : UInt8} {callback : Option LedCallback}
    (hc : color = .blue ∨ color = .green) (hp : p ≤ ledPriorityHigh) : Asks 3 color p callback := by
  rcases hc with rfl | rfl
  · exact ⟨nofun, nofun, nofun, fun h => absurd rfl h, fun _ => hp⟩
  · exact ⟨nofun, nofun, nofun, fun h => absurd rfl h, fun _ => hp⟩

theorem asks_blue (hi : i ≠ 3) (p : UInt8) : Asks i .blue p none :=
  ⟨nofun, by fin_cases i <;> nofun, nofun, fun _ => rfl, fun h => absurd h hi⟩

theorem Asks.fits {color : LedColor} {p : UInt8} {callback : Option LedCallback}
    (h : Asks i color p callback) (hc : c.color = color) (hp : c.priority = p)
    (hcb : c.callback = callback) (hm : c.mode ≠ .off) : Fits i c := by
  subst hc hp hcb
  exact ⟨iff_of_false hm h.some_color, h.red, fun _ => h.pin, h.callback, h.priority⟩

theorem shown_setOn {color : LedColor} {p : UInt8} {callback : Option LedCallback}
    (h : Shown P m) (ha : Asks i color p callback) (timeoutS : UInt16) :
    Shown P (m.ledCtrlSetOn i color timeoutS p callback).2 := by
  rw [ledCtrlSetOn_eq m i ha.some_color ha.pin]
  split
  · refine shown_retask h (ha.fits rfl rfl rfl ?_) fun _ _ => rfl
    dsimp only
    split <;> nofun
  · exact h

theorem shown_setFlash {color : LedColor} {p : UInt8} {callback : Option LedCallback}
    (h : Shown P m) (ha : Asks i color p callback) (intervalMs : UInt16) (times : UInt8)
    (timeoutS : UInt16) :
    Shown P (m.ledCtrlSetFlash i color intervalMs times timeoutS p callback).2 := by
  rw [ledCtrlSetFlash_eq m i ha.some_color ha.pin]
  split
  · refine shown_retask h (ha.fits rfl rfl rfl nofun) fun _ hs => ?_
    rcases hs with hs | hs <;> cases hs
  · exact h

theorem shown_cleared (h : Shown P m) (hm : c.mode = .off) (hc : c.color = .none)
    (hp : c.priority = 0) (hcb : c.callback = none) : Shown P (m.retask i c false) :=
  shown_retask h (fits_of_off hm hc hp hcb) fun _ hs => absurd hs (not_steady_of_off hm)

theorem shown_setOff (h : Shown P m) (ledId : ℕ) : Shown P (m.ledCtrlSetOff ledId) := by
  by_cases hlt : ledId < ledIdMax
  · obtain ⟨i, rfl⟩ : ∃ i : Fin 4, ledId = i := ⟨⟨ledId, hlt⟩, rfl⟩
    rw [ledCtrlSetOff_eq]
    exact shown_cleared h rfl rfl rfl rfl
  · rw [ledCtrlSetOff, dif_neg hlt]
    exact h

theorem shown_voiceWakeup (h : Shown P m) : Shown P m.ledVoiceWakeup := by
  unfold ledVoiceWakeup
  split
  · exact h
  · exact shown_setOn h (asks_third (.inl rfl) (by decide)) 0

theorem shown_foldl {α : Type} {f : LedModule → α → LedModule}
    (hf : ∀ m a, Shown P m → Shown P (f m a)) (as : List α) (h : Shown P m) :
    Shown P (as.foldl f m) := by
  induction as generalizing m with
  | nil => exact h
  | cons a as ih => exact ih (hf m a h)

theorem shown_clearAllSnoreLeds (h : Shown P m) : Shown P m.ledCtrlClearAllSnoreLeds := by
  rw [ledCtrlClearAllSnoreLeds_eq]
  refine shown_foldl (fun m i h => ?_) _ h
  unfold clearSnoreLed
  split
  · exact shown_cleared h rfl rfl rfl rfl
  · exact h

theorem shown_finish (h : Shown P m) (c : LedCtrl) : Shown P (m.finish i c) := by
  have hoff : Shown P (m.retask i (cleared c) false) := shown_cleared h rfl rfl rfl rfl
  simp only [finish, ledVoiceRestoreBlue]
  split
  · split
    · exact shown_setOn hoff (asks_third (.inl rfl) (by decide)) 0
    · exact hoff
  · exact hoff

theorem shown_task10ms (h : Shown P m) (b : Bool) (i : Fin 4) : Shown P (task10ms b m i) := by
  simp only [task10ms]
  split
  · exact h
  split
  · exact shown_finish h _
  · have hfits := h.fits i
    refine shown_retask h ?_ fun hP hs => ?_
    · exact ⟨by simpa using hfits.off_iff, by simpa using hfits.red, by simpa using hfits.pin,
        by simpa using hfits.callback, by simpa using hfits.priority⟩
    · -- a task that is to shine does not flash, and its pin stays as it is
      have hs' : Steady (m.ledCtrl i) := by simpa [Steady] using hs
      have hlit : (ledGetPinByColor i (m.ledCtrl i).color).map m.level = some false :=
        h.lit i hP hs'
      have hflash : ¬ (m.ledCtrl i).FlashDue := fun hd => by
        rcases hs' with hs' | hs' <;> rw [hd.1] at hs' <;> cases hs'
      simp [litAfter, hflash, hlit]

theorem shown_handler (h : Shown P m) : Shown P m.ledCtrl10msHandler :=
  shown_foldl (fun _ i h => shown_task10ms h _ i) _ (shown_timer100ms h _)

/-- The red pin goes dark. -/
theorem shown_redOff (h : Shown P m)
    (hdark : P 0 → ¬ ((m.ledCtrl 0).color = .red ∧ Steady (m.ledCtrl 0))) :
    Shown P (m.ledHwSetPin (some .redAll) false) := by
  have hlevel : ∀ p, (m.ledHwSetPin (some .redAll) false).level p = false ↔
      p ≠ .redAll ∧ m.level p = false := by
    intro p
    by_cases hp : p = .redAll
    · subst hp
      simp [ledHwSetPin]
    · simp [ledHwSetPin, hp]
  refine ⟨h.fits, fun i color hred hlit => ?_, fun i hP hs => ?_⟩
  · obtain ⟨p, hp, hl⟩ := lit_iff.mp hlit
    exact h.owned i color hred (lit_iff.mpr ⟨p, hp, ((hlevel p).mp hl).2⟩)
  · obtain ⟨p, hp, hl⟩ := lit_iff.mp (h.lit i hP hs)
    refine lit_iff.mpr ⟨p, hp, (hlevel p).mpr ⟨fun hr => ?_, hl⟩⟩
    subst hr
    have hc : (m.ledCtrl i).color = .red := ledGetPinByColor_redAll hp
    have hi : i = 0 := (h.fits i).red hc
    subst hi
    exact hdark hP ⟨hc, hs⟩

/-- The red pin goes dark and the alarm of LED 0 is ended. -/
theorem shown_redOff_forceOff (h : Shown P m) :
    Shown P ((m.ledHwSetPin (some .redAll) false).ledCtrlSetOff 0) := by
  have hrest : Shown (fun i => P i ∧ i ≠ 0) (m.ledHwSetPin (some .redAll) false) :=
    shown_redOff (h.mono fun _ hi => hi.1) fun hi => absurd rfl hi.2
  have hoff := shown_setOff hrest 0
  refine ⟨hoff.fits, hoff.owned, fun i hP hs => hoff.lit i ⟨hP, fun h0 => ?_⟩ hs⟩
  subst h0
  rw [ledCtrl_setOff] at hs
  exact not_steady_of_off rfl hs

theorem shown_snoreLevelSet (h : Shown P m) (level : UInt8) :
    Shown P (m.ledSnoreLevelSet level) := by
  simp only [ledSnoreLevelSet]
  split
  · exact shown_setOff (shown_setOff (shown_setOff h 0) 1) 2
  split
  · next hle =>
    have hnat : level.toNat ≤ 3 := UInt8.le_iff_toNat_le.mp hle
    have hoff := shown_foldl (f := ledCtrlSetOff) (fun _ ledId h => shown_setOff h ledId)
      ([0, 1, 2].filter (· ≠ level.toNat - 1)) h
    have hi : (⟨level.toNat - 1, by omega⟩ : Fin 4) ≠ 3 := fun h3 => by
      have := congrArg Fin.val h3
      change level.toNat - 1 = 3 at this
      omega
    exact shown_setOn hoff (asks_blue hi _) 10
  · exact h

theorem shown_ledStep {c : LedCall} (hc : c.Business) (h : Shown P m) :
    Shown P (ledStep m c) := by
  cases c with
  | setOn ledId color timeoutS priority callback => exact hc.elim
  | setFlash ledId color intervalMs times timeoutS priority callback => exact hc.elim
  | redOff => exact hc.elim
  | forceOff ledId => exact shown_setOff h ledId
  | snoreLevelSet level => exact shown_snoreLevelSet h level
  | snoreDisabledFlash =>
      have hflash : ∀ (i : Fin 4), i ≠ 3 → ∀ m, Shown P m →
          Shown P (m.ledCtrlSetFlash i .blue 200 2 3 ledPriorityCritical none).2 :=
        fun i hi m h => shown_setFlash h (asks_blue hi _) 200 2 3
      exact hflash 2 (by decide) _ (hflash 1 (by decide) _ (hflash 0 (by decide) _ h))
  | voiceWakeup => exact shown_voiceWakeup h
  | voiceCommandConfirm =>
      change Shown P m.ledVoiceCommandConfirm
      unfold ledVoiceCommandConfirm
      split
      · exact h
      · exact shown_setOn h (asks_third (.inr rfl) (by decide)) 3
  | voiceCloseFlash => exact shown_setFlash h (asks_third (.inl rfl) (by decide)) 200 2 3
  | chargeNormal =>
      have hgreen : Asks 1 .green ledPriorityNormal none :=
        ⟨nofun, nofun, nofun, fun _ => rfl, nofun⟩
      change Shown P m.ledChargeNormal
      unfold ledChargeNormal
      split
      · exact h
      · exact shown_setOn h hgreen 15
  | chargeError =>
      have hred : Asks 0 .red ledPriorityCritical none :=
        ⟨nofun, nofun, fun _ => rfl, fun _ => rfl, nofun⟩
      exact shown_setOn (shown_clearAllSnoreLeds h) hred 30
  | chargeStop =>
      change Shown P m.ledChargeStop
      unfold ledChargeStop
      split
      · exact shown_setOff h 1
      · exact h
  | btPairing connected =>
      change Shown P (m.ledBtPairing connected)
      unfold ledBtPairing
      split
      · exact shown_setOn h (asks_third (.inl rfl) (by decide)) 30
      · exact shown_setFlash h (asks_third (.inl rfl) (by decide)) 500 0 30
  | btPairingStop enabled =>
      simp only [ledStep, ledBtPairingStop]
      split
      · exact shown_voiceWakeup (shown_setOff h 3)
      · exact shown_setOff h 3
  | handler => exact shown_handler h

theorem shown_calls {cs : List LedCall} (hcs : ∀ c ∈ cs, c.Business) (h : Shown P m) :
    Shown P (cs.foldl ledStep m) := by
  induction cs generalizing m with
  | nil => exact h
  | cons c cs ih =>
      exact ih (fun c' hc' => hcs c' (List.mem_cons_of_mem c hc'))
        (shown_ledStep (hcs c (List.mem_cons_self ..)) h)

end LedModule

/-! ### The firmware -/

open LedModule

/-- The charger disappears while its alarm shines: the red pin goes dark under the task. -/
structure DarkensRed (d : Dock) (e : Event) : Prop where
  event : e = .charge 0xFF
  abnormal : d.charge.chargeAbnormalFlag = true
  red : (d.led.ledCtrl 0).color = .red
  steady : Steady (d.led.ledCtrl 0)

theorem business_voiceCalls (d : Dock) (cmd data : UInt8) :
    ∀ c ∈ d.voiceCalls cmd data, c.Business := by
  have hopen : ∀ c ∈ (if cmd = 0x81 then
      if data = 0x21 ∨ data = 0x22 then [LedCall.voiceWakeup] else [.voiceCommandConfirm]
      else if cmd = 0x82 then [.voiceCloseFlash] else []), c.Business := by
    split
    · split <;> simp [LedCall.Business]
    · split <;> simp [LedCall.Business]
  unfold Dock.voiceCalls
  split
  · split <;> simp [LedCall.Business]
  · cases d.voiceState with
    | disabled =>
        dsimp only
        split <;> simp [LedCall.Business]
    | wakeWordDetected => exact hopen
    | active => exact hopen

theorem business_keyCalls (d : Dock) (key : UInt8) : ∀ c ∈ d.keyCalls key, c.Business := by
  simp only [Dock.keyCalls]
  split
  · simp
  split
  · split
    · split <;> simp [LedCall.Business]
    · split <;> simp [LedCall.Business]
  split
  · split <;> simp [LedCall.Business]
  · simp

theorem business_ledCalls (d : Dock) {e : Event} (he : ∀ status, e ≠ .charge status) :
    ∀ c ∈ d.ledCalls e, c.Business := by
  cases e with
  | switchSample key1 key2 =>
      simp only [Dock.ledCalls]
      split <;> simp [LedCall.Business]
  | control key => exact business_keyCalls d key
  | led =>
      intro c hc
      rw [List.mem_singleton.mp hc]
      trivial
  | charge status => exact absurd rfl (he status)
  | voiceFrame cmd data => exact business_voiceCalls d cmd data
  | bleWrite value =>
      simp only [Dock.ledCalls]
      split <;> simp [LedCall.Business]
  | connected conIdx =>
      simp only [Dock.ledCalls]
      split <;> simp [LedCall.Business]
  | disconnected =>
      simp only [Dock.ledCalls]
      split <;> simp [LedCall.Business]
  | _ => simp [Dock.ledCalls]

/-- The end of the charging indication does not touch LED 0. -/
theorem ledCtrl_zero_chargeStop (m : LedModule) : m.ledChargeStop.ledCtrl 0 = m.ledCtrl 0 := by
  unfold ledChargeStop
  split
  · rw [ledCtrl_setOff]
    rfl
  · rfl

theorem shown_charge {P : Fin 4 → Prop} {d : Dock} {status : UInt8} (h : Shown P d.led)
    (hdark : P 0 → ¬ DarkensRed d (.charge status)) :
    Shown P ((Dock.chargeCalls d.charge status).foldl ledStep d.led) := by
  have hstop : ∀ c ∈ (if d.charge.lastChargeStatus = 1 then [LedCall.chargeStop] else []),
      c.Business := by
    split <;> simp [LedCall.Business]
  simp only [Dock.chargeCalls]
  split
  · rw [List.foldl_append]
    exact shown_ledStep (c := .chargeError) trivial (shown_calls hstop h)
  split
  · split
    · rw [List.foldl_append]
      refine shown_ledStep (c := .chargeNormal) trivial ?_
      split
      · exact shown_redOff_forceOff h
      · exact h
    · exact h
  split
  · next hs =>
    have hrec : ((if d.charge.lastChargeStatus = 1 then [LedCall.chargeStop] else []).foldl ledStep
        d.led).ledCtrl 0 = d.led.ledCtrl 0 := by
      split
      · exact ledCtrl_zero_chargeStop d.led
      · rfl
    have hstopped := shown_calls hstop h
    rw [List.foldl_append]
    by_cases habn : d.charge.chargeAbnormalFlag = true
    · rw [if_pos habn]
      refine shown_redOff hstopped fun hP hr => hdark hP ?_
      rw [hrec] at hr
      exact ⟨congrArg Event.charge hs, habn, hr.1, hr.2⟩
    · rw [if_neg habn]
      exact hstopped
  · exact h

theorem shown_step {P : Fin 4 → Prop} {d : Dock} {e : Event} (h : Shown P d.led)
    (hdark : P 0 → ¬ DarkensRed d e) : Shown P (step d e).led := by
  rw [step_led]
  by_cases he : ∃ status, e = .charge status
  · obtain ⟨status, rfl⟩ := he
    exact shown_charge h hdark
  · exact shown_calls (business_ledCalls d fun status h => he ⟨status, h⟩) h

theorem led_boot (b : Boot) : (boot b).led = {} := by
  have hdesk : ({ flash := { page := b.page } : Dock }.flashLoad.snoringInterventionInit).desk =
      ({} : Dock).desk := by
    rw [Dock.aside_desk.snoringInterventionInit,
      Dock.aside_desk.flashLoad _ fun _ _ => rfl]
    rfl
  have hoff : ¬ (({ flash := { page := b.page } : Dock }.flashLoad
      ).snoringInterventionInit).SwitchesOff b.key1 b.key2 := fun h => by
    have hk := congrArg (fun s : Desk => s.voice.keyEnable) hdesk
    cases hk.symm.trans h.2.2
  rw [boot, Dock.xUartInit, Dock.led_ci1302Sync, Dock.led_checkOfflineVoiceKeys, Dock.ledCalls,
    if_neg hoff]
  exact (Dock.blind_led.snoringInterventionInit _).trans
    (Dock.blind_led.flashLoad _ fun _ _ => rfl)

theorem shown_boot (P : Fin 4 → Prop) (b : Boot) : Shown P (boot b).led := by
  rw [led_boot]
  refine ⟨fun i => fits_of_off rfl rfl rfl rfl, fun i color _ hlit => ?_,
    fun i _ hs => absurd hs (not_steady_of_off rfl)⟩
  obtain ⟨p, hp, hl⟩ := lit_iff.mp hlit
  cases hl

/-- In any run: the LEDs agree with their tasks, but for the steadiness of those outside `P`. -/
theorem shown_run {P : Fin 4 → Prop} (b : Boot) (hP : ¬ P 0) (es : List Event) :
    Shown P (runFrom b es).led :=
  exec_invariant_all (I := fun d : Dock => Shown P d.led)
    (fun _ _ h => shown_step h fun h0 => absurd h0 hP) (shown_boot P b) es

/-- The charger disappears during an alarm: the red pin is dark, and LED 0 as it was. -/
theorem dark_of_disappears {d : Dock} (habn : d.charge.chargeAbnormalFlag = true) :
    (step d (.charge 0xFF)).led.level .redAll = true ∧
      (step d (.charge 0xFF)).led.ledCtrl 0 = d.led.ledCtrl 0 := by
  have hcalls : d.ledCalls (.charge 0xFF) =
      (if d.charge.lastChargeStatus = 1 then [LedCall.chargeStop] else []) ++ [.redOff] := by
    simp [Dock.ledCalls, Dock.chargeCalls, habn]
  rw [step_led, hcalls, List.foldl_append]
  have hdark : ∀ m : LedModule, (m.ledHwSetPin (some .redAll) false).level .redAll = true :=
    fun m => by simp [ledHwSetPin]
  refine ⟨hdark _, ?_⟩
  split
  · exact ledCtrl_zero_chargeStop d.led
  · rfl

/-- Pins and tasks agree when the timers start, and they agree after every step of a run if and
only if the charger never disappears while its alarm shines. -/
theorem pins_agree_iff (b : Boot) (es : List Event) :
    (boot b).led.Agree ∧
      (Along step (fun d e => (step d e).led.Agree) (boot b) es ↔
        Along step (fun d e => ¬ DarkensRed d e) (boot b) es) := by
  refine ⟨(shown_boot _ b).agree, fun h => h.mono fun d e ha hd => ?_, fun h => ?_⟩
  · obtain ⟨rfl, habn, hred, hs⟩ := hd
    obtain ⟨hdark, hrec⟩ := dark_of_disappears habn
    have hlit := ha.lit 0 (hrec.symm ▸ hs)
    rw [hrec, hred] at hlit
    exact absurd hlit (by simp [Lit, ledGetPinByColor, hdark])
  · exact h.of_invariant (I := fun d : Dock => Shown (fun _ => True) d.led)
      (fun _ _ hI hd => shown_step hI fun _ => hd)
      (fun _ _ hI hd => (shown_step hI fun _ => hd).agree) (shown_boot _ b)

/-- An alarm starts, and the charger disappears. -/
theorem alarm_dark_under_its_task :
    ¬ ∀ (b : Boot) (es : List Event), (runFrom b es).led.Agree := by
  intro h
  have hlit := (h ⟨[], 1, 1⟩ [.charge 0, .charge 0xFF]).lit 0 (by decide +kernel)
  exact absurd hlit (by decide +kernel)

end ErgoDock
