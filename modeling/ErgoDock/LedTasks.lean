import ErgoDock.Air
import ErgoDock.Desk

/-! # The tasks of the LEDs (`app_led_ctrl.c`)

Whatever happens to an LED is one operation: its pin goes dark, its record is replaced, and the
pin of the new colour is set (`retask`).  Requests, endings and the 10 ms handler are read off as
such operations, with the record they write.  `LedCall` lists the calls of the LED module, and
`step_led` says which of them an event of the firmware makes. -/

namespace ErgoDock

/-! ### Records -/

namespace LedCtrl

/-- The handler toggles the pin of the LED. -/
def FlashDue (c : LedCtrl) : Prop :=
  c.mode = .flash ∧ c.flashCounter + 1 ≥ c.flashInterval10ms

instance (c : LedCtrl) : Decidable c.FlashDue := by unfold FlashDue; infer_instance

/-- The record after the flash part of the handler. -/
def flashed (c : LedCtrl) : LedCtrl :=
  if c.FlashDue then
    { c with
      flashCounter := 0
      flashTimes := if c.flashTimes > 0 then c.flashTimes - 1 else c.flashTimes }
  else if c.mode = .flash then { c with flashCounter := c.flashCounter + 1 }
  else c

/-- The record after the handler has counted the flash and the timeout. -/
def aged (is100msTick : Bool) (c : LedCtrl) : LedCtrl :=
  if is100msTick ∧ c.timeout100ms > 0 then
    { c.flashed with timeout100ms := c.timeout100ms - 1 }
  else c.flashed

/-- The handler ends the task: the flash count or the timeout has run out. -/
def Expires (is100msTick : Bool) (c : LedCtrl) : Prop :=
  c.FlashDue ∧ c.flashTimes = 1 ∨
    c.mode ≠ .off ∧ is100msTick = true ∧ c.timeout100ms = 1

instance (is100msTick : Bool) (c : LedCtrl) : Decidable (c.Expires is100msTick) := by
  unfold Expires; infer_instance

variable (c : LedCtrl) (b : Bool)

/-- The flash part changes counters only. -/
theorem flashed_eq : ∃ n k, c.flashed = { c with flashCounter := n, flashTimes := k } := by
  unfold flashed
  split
  · exact ⟨_, _, rfl⟩
  · split
    · exact ⟨_, c.flashTimes, rfl⟩
    · exact ⟨c.flashCounter, c.flashTimes, rfl⟩

theorem aged_eq : ∃ n k t,
    c.aged b = { c with flashCounter := n, flashTimes := k, timeout100ms := t } := by
  obtain ⟨n, k, h⟩ := c.flashed_eq
  unfold aged
  rw [h]
  split
  · exact ⟨n, k, _, rfl⟩
  · exact ⟨n, k, c.timeout100ms, rfl⟩

@[simp] theorem color_flashed : c.flashed.color = c.color := by
  obtain ⟨n, k, h⟩ := c.flashed_eq
  rw [h]

@[simp] theorem callback_flashed : c.flashed.callback = c.callback := by
  obtain ⟨n, k, h⟩ := c.flashed_eq
  rw [h]

@[simp] theorem timeout100ms_flashed : c.flashed.timeout100ms = c.timeout100ms := by
  obtain ⟨n, k, h⟩ := c.flashed_eq
  rw [h]

@[simp] theorem color_aged : (c.aged b).color = c.color := by
  obtain ⟨n, k, t, h⟩ := c.aged_eq b
  rw [h]

@[simp] theorem mode_aged : (c.aged b).mode = c.mode := by
  obtain ⟨n, k, t, h⟩ := c.aged_eq b
  rw [h]

@[simp] theorem priority_aged : (c.aged b).priority = c.priority := by
  obtain ⟨n, k, t, h⟩ := c.aged_eq b
  rw [h]

@[simp] theorem callback_aged : (c.aged b).callback = c.callback := by
  obtain ⟨n, k, t, h⟩ := c.aged_eq b
  rw [h]

theorem timeout100ms_aged : (c.aged b).timeout100ms =
    if b ∧ c.timeout100ms > 0 then c.timeout100ms - 1 else c.timeout100ms := by
  unfold aged
  split
  · rfl
  · exact c.timeout100ms_flashed

end LedCtrl

/-! ### One operation -/

theorem ledGetPinByColor_none (ledId : ℕ) : ledGetPinByColor ledId .none = none := by
  unfold ledGetPinByColor
  split <;> first | rfl | contradiction

namespace LedModule

/-- The task of an LED is replaced: its pin goes dark, and the pin of the new colour is set. -/
def retask (m : LedModule) (i : Fin 4) (c : LedCtrl) (lit : Bool) : LedModule :=
  ((m.ledHwTurnOff i (m.ledCtrl i).color).setCtrl i c).ledHwSetPin
    (ledGetPinByColor i c.color) lit

variable (m : LedModule) (i : Fin 4)

@[simp] theorem ledCtrl_ledHwSetPin (pin : Option LedPin) (on : Bool) :
    (m.ledHwSetPin pin on).ledCtrl = m.ledCtrl := by
  cases pin <;> rfl

@[simp] theorem timer100ms_ledHwSetPin (pin : Option LedPin) (on : Bool) :
    (m.ledHwSetPin pin on).timer100ms = m.timer100ms := by
  cases pin <;> rfl

theorem ledHwSetPin_ledHwSetPin (pin : Option LedPin) (on on' : Bool) :
    (m.ledHwSetPin pin on).ledHwSetPin pin on' = m.ledHwSetPin pin on' := by
  cases pin with
  | none => rfl
  | some p =>
      simp only [ledHwSetPin, Function.update_idem]

theorem ledHwSetPin_setCtrl (pin : Option LedPin) (on : Bool) (c : LedCtrl) :
    (m.setCtrl i c).ledHwSetPin pin on = (m.ledHwSetPin pin on).setCtrl i c := by
  cases pin <;> rfl

theorem setCtrl_setCtrl (c c' : LedCtrl) : (m.setCtrl i c).setCtrl i c' = m.setCtrl i c' := by
  simp only [setCtrl, Function.update_idem]

@[simp] theorem ledCtrl_retask (c : LedCtrl) (lit : Bool) :
    (m.retask i c lit).ledCtrl = Function.update m.ledCtrl i c := by
  rw [retask, ledCtrl_ledHwSetPin, setCtrl, ledHwTurnOff, ledCtrl_ledHwSetPin]

@[simp] theorem timer100ms_retask (c : LedCtrl) (lit : Bool) :
    (m.retask i c lit).timer100ms = m.timer100ms := by
  rw [retask, timer100ms_ledHwSetPin]
  exact timer100ms_ledHwSetPin ..

/-- With the colour unchanged, the pin need not go dark before. -/
theorem retask_same {c : LedCtrl} (h : c.color = (m.ledCtrl i).color) (lit : Bool) :
    m.retask i c lit =
      (m.ledHwSetPin (ledGetPinByColor i (m.ledCtrl i).color) lit).setCtrl i c := by
  rw [retask, ledHwTurnOff, h, ledHwSetPin_setCtrl, ledHwSetPin_ledHwSetPin]

/-- A pin that is set to the level it has. -/
theorem ledHwSetPin_self (pin : Option LedPin) :
    m.ledHwSetPin pin (!(pin.map m.level).getD false) = m := by
  cases pin with
  | none => rfl
  | some p => simp [ledHwSetPin]

theorem retask_setCtrl {c c' : LedCtrl} (h : c'.color = c.color) (lit : Bool) :
    (m.retask i c lit).setCtrl i c' = m.retask i c' lit := by
  rw [retask, retask, ledHwSetPin_setCtrl, setCtrl_setCtrl, ledHwSetPin_setCtrl, h]

/-- Of two tasks in a row, the first of the same colour as before, the first leaves no trace. -/
theorem retask_retask {c : LedCtrl} (h : c.color = (m.ledCtrl i).color) (lit : Bool)
    (c' : LedCtrl) (lit' : Bool) :
    (m.retask i c lit).retask i c' lit' = m.retask i c' lit' := by
  have hc : (m.retask i c lit).ledCtrl i = c := by simp
  have hpin : ((m.ledHwSetPin (ledGetPinByColor i c.color) lit).setCtrl i c).ledHwTurnOff i
      c.color =
      (m.ledHwTurnOff i c.color).setCtrl i c := by
    rw [ledHwTurnOff, ledHwSetPin_setCtrl, ledHwSetPin_ledHwSetPin]
    rfl
  rw [retask, hc, retask_same m i h, ← h, hpin, setCtrl_setCtrl, retask, h]

/-! ### Requests -/

/-- A request is accepted, as far as priorities go. -/
def Yields (c : LedCtrl) (priority : UInt8) : Prop := c.mode = .off ∨ c.priority ≤ priority

instance (c : LedCtrl) (priority : UInt8) : Decidable (Yields c priority) := by
  unfold Yields; infer_instance

theorem not_yields {c : LedCtrl} {p : UInt8} : ¬ Yields c p ↔ c.mode ≠ .off ∧ c.priority > p := by
  unfold Yields
  rw [not_or, UInt8.not_le]

theorem ledCtrlRequest_eq {color : LedColor} (hc : color ≠ .none)
    (hp : ledGetPinByColor i color ≠ none) (p : UInt8)
    (accept : LedModule → Fin 4 → LedCtrl → LedModule) :
    (m.ledCtrlRequest i color p accept).2 =
      if Yields (m.ledCtrl i) p then
        accept (if (m.ledCtrl i).color ≠ .none ∧ (m.ledCtrl i).color ≠ color then
          m.ledHwTurnOff i (m.ledCtrl i).color else m) i (m.ledCtrl i)
      else m := by
  simp only [ledCtrlRequest]
  rw [dif_pos (show i.val < ledIdMax from i.isLt), if_neg hc, if_neg hp]
  by_cases hy : Yields (m.ledCtrl i) p
  · rw [if_pos hy, if_neg fun hn => not_yields.mpr hn hy]
  · rw [if_neg hy, if_pos (not_yields.mp hy)]

/-- A request for an LED that does not exist, or does not have the colour, does nothing. -/
theorem ledCtrlRequest_invalid {ledId : ℕ} {color : LedColor}
    (h : ledIdMax ≤ ledId ∨ color = .none ∨ ledGetPinByColor ledId color = none) (p : UInt8)
    (accept : LedModule → Fin 4 → LedCtrl → LedModule) :
    (m.ledCtrlRequest ledId color p accept).2 = m := by
  simp only [ledCtrlRequest]
  split
  · next hlt =>
    split
    · rfl
    · split
      · rfl
      · next hc hp =>
        rcases h with h | h | h
        · omega
        · exact absurd h hc
        · exact absurd h hp
  · rfl

/-- What a request does first, and the pin of the new colour, is a replaced task. -/
theorem accept_eq_retask {color : LedColor} (c : LedCtrl) (hc : c.color = color) (lit : Bool) :
    ((if (m.ledCtrl i).color ≠ .none ∧ (m.ledCtrl i).color ≠ color then
        m.ledHwTurnOff i (m.ledCtrl i).color else m).setCtrl i c).ledHwSetPin
          (ledGetPinByColor i color) lit = m.retask i c lit := by
  subst hc
  by_cases hsame : (m.ledCtrl i).color = c.color
  · rw [if_neg fun h => h.2 hsame, retask_same m i hsame.symm, ledHwSetPin_setCtrl, hsame]
  · by_cases hnone : (m.ledCtrl i).color = .none
    · rw [if_neg fun h => h.1 hnone, retask, ledHwTurnOff, hnone, ledGetPinByColor_none]
      rfl
    · rw [if_pos ⟨hnone, hsame⟩]
      rfl

theorem ledCtrlSetOn_eq {color : LedColor} (hc : color ≠ .none)
    (hp : ledGetPinByColor i color ≠ none) (timeoutS : UInt16) (p : UInt8)
    (callback : Option LedCallback) :
    (m.ledCtrlSetOn i color timeoutS p callback).2 =
      if Yields (m.ledCtrl i) p then
        m.retask i
          { m.ledCtrl i with
            color := color
            mode := if timeoutS = 0 then .onPermanent else .on
            timeout100ms := timeoutS * 10
            priority := p
            callback := callback } true
      else m := by
  rw [ledCtrlSetOn, ledCtrlRequest_eq m i hc hp]
  split
  · exact accept_eq_retask m i _ rfl true
  · rfl

theorem ledCtrlSetFlash_eq {color : LedColor} (hc : color ≠ .none)
    (hp : ledGetPinByColor i color ≠ none) (intervalMs : UInt16) (times : UInt8)
    (timeoutS : UInt16) (p : UInt8) (callback : Option LedCallback) :
    (m.ledCtrlSetFlash i color intervalMs times timeoutS p callback).2 =
      if Yields (m.ledCtrl i) p then
        m.retask i
          { m.ledCtrl i with
            color := color
            mode := .flash
            flashInterval10ms := intervalMs / 10
            flashCounter := 0
            flashTimes := times * 2
            timeout100ms := timeoutS * 10
            priority := p
            callback := callback } false
      else m := by
  rw [ledCtrlSetFlash, ledCtrlRequest_eq m i hc hp]
  split
  · exact accept_eq_retask m i _ rfl false
  · rfl

theorem ledCtrlSetOff_eq : m.ledCtrlSetOff i = m.retask i (cleared (m.ledCtrl i)) false := by
  simp only [ledCtrlSetOff]
  rw [dif_pos (show i.val < ledIdMax from i.isLt), retask]
  by_cases hnone : (m.ledCtrl i).color = .none
  · simp [cleared, hnone, ledHwTurnOff, ledGetPinByColor_none, ledHwSetPin]
  · simp [cleared, hnone, ledGetPinByColor_none, ledHwSetPin]

/-! ### What the operations do to the records -/

/-- A request replaces the record of its LED if that yields, and touches no other. -/
theorem ledCtrl_request {ledId : ℕ} {color : LedColor} {p : UInt8}
    {accept : LedModule → Fin 4 → LedCtrl → LedModule} (j : Fin 4)
    (haccept : ∀ (m : LedModule) i c, i ≠ j → (accept m i c).ledCtrl j = m.ledCtrl j) :
    (m.ledCtrlRequest ledId color p accept).2.ledCtrl j = m.ledCtrl j ∨
      ledId = j ∧ Yields (m.ledCtrl j) p := by
  by_cases hinv : ledIdMax ≤ ledId ∨ color = .none ∨ ledGetPinByColor ledId color = none
  · rw [ledCtrlRequest_invalid m hinv]
    exact .inl rfl
  obtain ⟨hlt, hc, hp⟩ := not_or.mp hinv |>.imp_right not_or.mp
  obtain ⟨i, rfl⟩ : ∃ i : Fin 4, ledId = i := ⟨⟨ledId, Nat.lt_of_not_le hlt⟩, rfl⟩
  rw [ledCtrlRequest_eq m i hc hp]
  split
  · next hy =>
    by_cases hij : i = j
    · subst hij
      exact .inr ⟨rfl, hy⟩
    · refine .inl ((haccept _ _ _ hij).trans ?_)
      split
      · exact congrFun (ledCtrl_ledHwSetPin ..) j
      · rfl
  · exact .inl rfl

theorem ledCtrl_setOn (ledId : ℕ) (color : LedColor) (timeoutS : UInt16) (p : UInt8)
    (callback : Option LedCallback) (j : Fin 4) :
    (m.ledCtrlSetOn ledId color timeoutS p callback).2.ledCtrl j = m.ledCtrl j ∨
      ledId = j ∧ Yields (m.ledCtrl j) p := by
  refine m.ledCtrl_request j fun m i c hij => ?_
  rw [ledHwTurnOn, ledCtrl_ledHwSetPin]
  exact Function.update_of_ne (Ne.symm hij) ..

theorem ledCtrl_setFlash (ledId : ℕ) (color : LedColor) (intervalMs : UInt16) (times : UInt8)
    (timeoutS : UInt16) (p : UInt8) (callback : Option LedCallback) (j : Fin 4) :
    (m.ledCtrlSetFlash ledId color intervalMs times timeoutS p callback).2.ledCtrl j =
        m.ledCtrl j ∨ ledId = j ∧ Yields (m.ledCtrl j) p := by
  refine m.ledCtrl_request j fun m i c hij => ?_
  rw [ledHwTurnOff, ledCtrl_ledHwSetPin]
  exact Function.update_of_ne (Ne.symm hij) ..

theorem ledCtrl_setOff (ledId : ℕ) (j : Fin 4) :
    (m.ledCtrlSetOff ledId).ledCtrl j =
      if ledId = j then cleared (m.ledCtrl j) else m.ledCtrl j := by
  by_cases hlt : ledId < ledIdMax
  · obtain ⟨i, rfl⟩ : ∃ i : Fin 4, ledId = i := ⟨⟨ledId, hlt⟩, rfl⟩
    rw [ledCtrlSetOff_eq, ledCtrl_retask]
    by_cases hij : i = j
    · subst hij
      rw [if_pos rfl, Function.update_self]
    · rw [if_neg fun h => hij (Fin.ext h), Function.update_of_ne (Ne.symm hij)]
  · have hne : ledId ≠ j := fun h => hlt (h ▸ j.isLt)
    rw [ledCtrlSetOff, dif_neg hlt, if_neg hne]

/-- Switching some LEDs off. -/
theorem ledCtrl_foldl_setOff (ledIds : List ℕ) (j : Fin 4) :
    (ledIds.foldl ledCtrlSetOff m).ledCtrl j =
      if (j : ℕ) ∈ ledIds then cleared (m.ledCtrl j) else m.ledCtrl j := by
  induction ledIds generalizing m with
  | nil => rfl
  | cons ledId ledIds ih =>
      rw [List.foldl_cons, ih, ledCtrl_setOff]
      by_cases hj : ledId = j
      · subst hj
        rw [if_pos rfl, if_pos (List.mem_cons_self ..)]
        split <;> rfl
      · have hne : (j : ℕ) ≠ ledId := fun h => hj h.symm
        simp [hj, hne]

/-- The record of a blue task that is cleared for an alarm. -/
def clearedBlue (c : LedCtrl) : LedCtrl :=
  { c with color := .none, mode := .off, priority := 0, callback := none }

/-- One round of `led_ctrl_clear_all_snore_leds`. -/
def clearSnoreLed (m : LedModule) (i : Fin 4) : LedModule :=
  if (m.ledCtrl i).color = .blue then m.retask i (clearedBlue (m.ledCtrl i)) false else m

theorem ledCtrlClearAllSnoreLeds_eq :
    m.ledCtrlClearAllSnoreLeds = [(0 : Fin 4), 1, 2].foldl clearSnoreLed m := by
  have hround : ∀ (m : LedModule) (i : Fin 4),
      (let ctrl := m.ledCtrl i
        if ctrl.color = .blue then
          (m.ledHwTurnOff i .blue).setCtrl i
            { ctrl with color := .none, mode := .off, priority := 0, callback := none }
        else m) = m.clearSnoreLed i := by
    intro m i
    simp only [clearSnoreLed]
    split
    · next hb =>
      rw [retask, hb, show (clearedBlue (m.ledCtrl i)).color = .none from rfl,
        ledGetPinByColor_none]
      rfl
    · rfl
  simp only [ledCtrlClearAllSnoreLeds, List.foldl_cons, List.foldl_nil, hround]

theorem ledCtrl_clearSnoreLed (j : Fin 4) :
    (m.clearSnoreLed i).ledCtrl j =
      if i = j ∧ (m.ledCtrl j).color = .blue then clearedBlue (m.ledCtrl j) else m.ledCtrl j := by
  unfold clearSnoreLed
  by_cases hij : i = j
  · subst hij
    split
    · next hb => rw [if_pos ⟨rfl, hb⟩, ledCtrl_retask, Function.update_self]
    · next hb => rw [if_neg fun h => hb h.2]
  · rw [if_neg (not_and_of_not_left _ hij)]
    split
    · rw [ledCtrl_retask, Function.update_of_ne (Ne.symm hij)]
    · rfl

theorem ledCtrl_clearAllSnoreLeds (j : Fin 4) :
    m.ledCtrlClearAllSnoreLeds.ledCtrl j =
      if j.val ≠ 3 ∧ (m.ledCtrl j).color = .blue then clearedBlue (m.ledCtrl j)
      else m.ledCtrl j := by
  simp only [ledCtrlClearAllSnoreLeds_eq, List.foldl_cons, List.foldl_nil, ledCtrl_clearSnoreLed]
  fin_cases j <;> simp

/-! ### The handler -/

/-- The pin of a task after the handler has counted its flash. -/
def litAfter (m : LedModule) (i : Fin 4) : Bool :=
  let high := ((ledGetPinByColor i (m.ledCtrl i).color).map m.level).getD false
  if (m.ledCtrl i).FlashDue then high else !high

/-- The end of the task `c` of an LED, as far as the LEDs go. -/
def finish (m : LedModule) (i : Fin 4) (c : LedCtrl) : LedModule :=
  let m₁ := m.retask i (cleared c) false
  if c.callback = some .voiceRestoreBlue then m₁.ledVoiceRestoreBlue else m₁

theorem finish_retask {m : LedModule} {i : Fin 4} {c : LedCtrl}
    (h : c.color = (m.ledCtrl i).color) (lit : Bool) :
    (m.retask i c lit).finish i c = m.finish i c := by
  unfold finish
  rw [retask_retask m i h]

/-- The body of the handler's loop on the LEDs. -/
def task10ms (is100msTick : Bool) (m : LedModule) (i : Fin 4) : LedModule :=
  let c := m.ledCtrl i
  if c.mode = .off then m
  else if c.Expires is100msTick then m.finish i c.flashed
  else m.retask i (c.aged is100msTick) (m.litAfter i)

theorem finRange_four : List.finRange 4 = [0, 1, 2, 3] := rfl

def is100msTick (m : LedModule) : Bool := m.timer100ms + 1 ≥ 10

/-- `led_ctrl_10ms_handler` on the LEDs. -/
def ledCtrl10msHandler (m : LedModule) : LedModule :=
  (List.finRange 4).foldl (task10ms m.is100msTick)
    { m with timer100ms := if m.is100msTick then 0 else m.timer100ms + 1 }

/-- The end of a task leaves the other LEDs alone, but for the voice session's LED if it is to be
restored. -/
theorem ledCtrl_finish_of_ne {j : Fin 4} (hij : j ≠ i) (c : LedCtrl) :
    (m.finish i c).ledCtrl j = m.ledCtrl j ∨
      j = 3 ∧ c.callback = some .voiceRestoreBlue ∧ (m.ledCtrl j).priority ≤ ledPriorityNormal := by
  have hother : (m.retask i (cleared c) false).ledCtrl j = m.ledCtrl j := by
    rw [ledCtrl_retask, Function.update_of_ne hij]
  simp only [finish, ledVoiceRestoreBlue]
  split
  · next hcb =>
    split
    · next hp =>
      rcases ledCtrl_setOn (m.retask i (cleared c) false) 3 .blue 0 ledPriorityNormal none j with
        h | ⟨h, -⟩
      · exact .inl (h.trans hother)
      · have h3 : j = 3 := Fin.ext h.symm
        subst h3
        exact .inr ⟨rfl, hcb, hother ▸ hp⟩
    · exact .inl hother
  · exact .inl hother

theorem ledCtrl_task10ms_of_ne (b : Bool) {j : Fin 4} (hij : j ≠ i) :
    (task10ms b m i).ledCtrl j = m.ledCtrl j ∨
      j = 3 ∧ (m.ledCtrl i).Expires b ∧ (m.ledCtrl i).callback = some .voiceRestoreBlue ∧
        (m.ledCtrl j).priority ≤ ledPriorityNormal := by
  simp only [task10ms]
  split
  · exact .inl rfl
  split
  · next he =>
    refine (m.ledCtrl_finish_of_ne i hij _).imp_right fun ⟨h3, hcb, hp⟩ => ⟨h3, he, ?_, hp⟩
    rwa [LedCtrl.callback_flashed] at hcb
  · rw [ledCtrl_retask, Function.update_of_ne hij]
    exact .inl rfl

theorem ledCtrl_task10ms_self (b : Bool) (hm : (m.ledCtrl i).mode ≠ .off)
    (he : ¬ (m.ledCtrl i).Expires b) : (task10ms b m i).ledCtrl i = (m.ledCtrl i).aged b := by
  simp only [task10ms]
  rw [if_neg hm, if_neg he, ledCtrl_retask, Function.update_self]

/-- Some task ends whose callback restores the voice session's LED. -/
def Restores (m : LedModule) : Prop :=
  ∃ i, (m.ledCtrl i).Expires m.is100msTick ∧ (m.ledCtrl i).callback = some .voiceRestoreBlue

instance (m : LedModule) : Decidable m.Restores := by unfold Restores; infer_instance

/-- A running task that does not expire is counted, unless the voice session takes its LED. -/
theorem ledCtrl_handler (hm : (m.ledCtrl i).mode ≠ .off)
    (he : ¬ (m.ledCtrl i).Expires m.is100msTick) :
    m.ledCtrl10msHandler.ledCtrl i = (m.ledCtrl i).aged m.is100msTick ∨
      i = 3 ∧ m.Restores ∧ (m.ledCtrl i).priority ≤ ledPriorityNormal := by
  have hkeep : ∀ (m' : LedModule) (j k : Fin 4), j ≠ k → j ≠ 3 →
      (task10ms m.is100msTick m' k).ledCtrl j = m'.ledCtrl j := fun m' j k hjk hj =>
    (m'.ledCtrl_task10ms_of_ne k _ hjk).resolve_right fun h => hj h.1
  have hself : ∀ m' : LedModule, m'.ledCtrl i = m.ledCtrl i →
      (task10ms m.is100msTick m' i).ledCtrl i = (m.ledCtrl i).aged m.is100msTick := by
    intro m' h
    rw [← h] at hm he ⊢
    exact m'.ledCtrl_task10ms_self i _ hm he
  -- before the turn of LED 3, its record is as it was or the voice session may take it
  have hthird : ∀ (m' : LedModule) (k : Fin 4), 3 ≠ k → m'.ledCtrl k = m.ledCtrl k →
      (m'.ledCtrl 3 = m.ledCtrl 3 ∨ m.Restores ∧ (m.ledCtrl 3).priority ≤ ledPriorityNormal) →
      ((task10ms m.is100msTick m' k).ledCtrl 3 = m.ledCtrl 3 ∨
        m.Restores ∧ (m.ledCtrl 3).priority ≤ ledPriorityNormal) := by
    intro m' k hk hrec h
    rcases h with h | h
    · rcases m'.ledCtrl_task10ms_of_ne k m.is100msTick hk with h' | ⟨-, he', hcb, hp⟩
      · exact .inl (h'.trans h)
      · rw [hrec] at he' hcb
        exact .inr ⟨⟨k, he', hcb⟩, h ▸ hp⟩
    · exact .inr h
  simp only [ledCtrl10msHandler, finRange_four, List.foldl_cons, List.foldl_nil]
  generalize hm₀ : ({ m with timer100ms := _ } : LedModule) = m₀
  have h₀ : m₀.ledCtrl = m.ledCtrl := by rw [← hm₀]
  match i with
  | 0 =>
      rw [hkeep _ 0 3 (by decide) (by decide), hkeep _ 0 2 (by decide) (by decide),
        hkeep _ 0 1 (by decide) (by decide), hself _ (congrFun h₀ 0)]
      exact .inl rfl
  | 1 =>
      rw [hkeep _ 1 3 (by decide) (by decide), hkeep _ 1 2 (by decide) (by decide), hself]
      · exact .inl rfl
      · rw [hkeep _ 1 0 (by decide) (by decide), h₀]
  | 2 =>
      rw [hkeep _ 2 3 (by decide) (by decide), hself]
      · exact .inl rfl
      · rw [hkeep _ 2 1 (by decide) (by decide), hkeep _ 2 0 (by decide) (by decide), h₀]
  | 3 =>
      have h1 := hthird m₀ 0 (by decide) (congrFun h₀ 0) (.inl (congrFun h₀ 3))
      have h2 := hthird _ 1 (by decide)
        ((hkeep m₀ 1 0 (by decide) (by decide)).trans (congrFun h₀ 1)) h1
      have h3 := hthird _ 2 (by decide) ((hkeep _ 2 1 (by decide) (by decide)).trans
        ((hkeep m₀ 2 0 (by decide) (by decide)).trans (congrFun h₀ 2))) h2
      exact h3.imp (hself _) fun h => ⟨rfl, h⟩

end LedModule

namespace Dock

variable (d : Dock) (i : Fin 4)

/-- What remains to be done at the end of a task with the callback. -/
def afterTask (d : Dock) (callback : Option LedCallback) (m : LedModule) : Dock :=
  if callback = some .btPairingTimeout then (d.setLed m).ledBtPairingTimeoutCallback
  else d.setLed m

theorem ledTaskFinish_eq :
    d.ledTaskFinish i =
      d.afterTask (d.led.ledCtrl i).callback (d.led.finish i (d.led.ledCtrl i)) := by
  have hm : (d.led.ledHwTurnOff i (d.led.ledCtrl i).color).setCtrl i
      (LedModule.cleared (d.led.ledCtrl i)) =
        d.led.retask i (LedModule.cleared (d.led.ledCtrl i)) false := by
    rw [LedModule.retask, show (LedModule.cleared (d.led.ledCtrl i)).color = .none from rfl,
      ledGetPinByColor_none]
    rfl
  simp only [ledTaskFinish, hm, afterTask, LedModule.finish]
  cases hc : (d.led.ledCtrl i).callback with
  | none => rfl
  | some callback => cases callback <;> rfl

/-- The end of a task that the handler has counted. -/
theorem ledTaskFinish_retask {c : LedCtrl} (hc : c.color = (d.led.ledCtrl i).color) (lit : Bool) :
    (d.setLed (d.led.retask i c lit)).ledTaskFinish i =
      d.afterTask c.callback (d.led.finish i c) := by
  have hctrl : (d.setLed (d.led.retask i c lit)).led.ledCtrl i = c := by
    change (d.led.retask i c lit).ledCtrl i = c
    simp
  rw [ledTaskFinish_eq, hctrl]
  exact congrArg ((d.setLed (d.led.retask i c lit)).afterTask c.callback)
    (LedModule.finish_retask hc lit)

theorem ledFlash10ms_eq (hm : (d.led.ledCtrl i).mode = .flash) :
    d.ledFlash10ms i =
      let c := d.led.ledCtrl i
      let d₁ := d.setLed (d.led.retask i c.flashed (d.led.litAfter i))
      if c.FlashDue ∧ c.flashTimes = 1 then (true, d₁.ledTaskFinish i) else (false, d₁) := by
  have hdue : (d.led.ledCtrl i).flashCounter + 1 ≥ (d.led.ledCtrl i).flashInterval10ms ↔
      (d.led.ledCtrl i).FlashDue := ⟨fun h => ⟨hm, h⟩, fun h => h.2⟩
  dsimp only
  rw [LedModule.retask_same _ _ (LedCtrl.color_flashed _)]
  simp only [ledFlash10ms, hdue, LedCtrl.flashed, LedModule.litAfter]
  by_cases hd : (d.led.ledCtrl i).FlashDue
  · rw [if_pos hd, if_pos hd, if_pos hd]
    by_cases ht : (d.led.ledCtrl i).flashTimes > 0
    · have hone : (d.led.ledCtrl i).flashTimes - 1 = 0 ↔ (d.led.ledCtrl i).flashTimes = 1 := by
        rw [sub_eq_zero]
      simp only [if_pos ht, hone, hd, true_and]
    · have hone : ¬ (d.led.ledCtrl i).flashTimes = 1 := fun h => ht (by rw [h]; decide)
      simp only [if_neg ht, hd, hone, and_false, if_false]
  · simp only [hd, hm, if_false, if_true, false_and, LedModule.ledHwSetPin_self]

/-- A task that is not flashing keeps its record and its pin. -/
theorem retask_flashed_of_not_flash (m : LedModule) (hm : (m.ledCtrl i).mode ≠ .flash) :
    m.retask i (m.ledCtrl i).flashed (m.litAfter i) = m := by
  have hd : ¬ (m.ledCtrl i).FlashDue := fun h => hm h.1
  rw [LedModule.retask_same _ _ (LedCtrl.color_flashed _), LedModule.litAfter, if_neg hd,
    LedModule.ledHwSetPin_self, LedCtrl.flashed, if_neg hd, if_neg hm]
  simp only [LedModule.setCtrl, Function.update_eq_self]

/-- The timeout part, on a task that the flash part has left running. -/
theorem ledTimeout10ms_flashed (b : Bool) (hn : ¬ ((d.led.ledCtrl i).FlashDue ∧
    (d.led.ledCtrl i).flashTimes = 1)) (hm : (d.led.ledCtrl i).mode ≠ .off) :
    (d.setLed (d.led.retask i (d.led.ledCtrl i).flashed (d.led.litAfter i))).ledTimeout10ms b i =
      if (d.led.ledCtrl i).Expires b then
        d.afterTask (d.led.ledCtrl i).callback (d.led.finish i (d.led.ledCtrl i).flashed)
      else d.setLed (d.led.retask i ((d.led.ledCtrl i).aged b) (d.led.litAfter i)) := by
  have hexp : (d.led.ledCtrl i).Expires b ↔ b = true ∧ (d.led.ledCtrl i).timeout100ms = 1 := by
    unfold LedCtrl.Expires
    exact ⟨fun h => (h.resolve_left hn).2, fun h => .inr ⟨hm, h⟩⟩
  have hctrl : (d.setLed (d.led.retask i (d.led.ledCtrl i).flashed
      (d.led.litAfter i))).led.ledCtrl i = (d.led.ledCtrl i).flashed := by
    change (d.led.retask i _ _).ledCtrl i = _
    simp
  have hset : ∀ t, (d.led.retask i (d.led.ledCtrl i).flashed (d.led.litAfter i)).setCtrl i
      { (d.led.ledCtrl i).flashed with timeout100ms := t } =
        d.led.retask i { (d.led.ledCtrl i).flashed with timeout100ms := t } (d.led.litAfter i) :=
    fun t => LedModule.retask_setCtrl _ _ (by rfl) _
  have hfinish : ∀ t, (d.setLed (d.led.retask i
      { (d.led.ledCtrl i).flashed with timeout100ms := t } (d.led.litAfter i))).ledTaskFinish i =
        d.afterTask (d.led.ledCtrl i).callback (d.led.finish i (d.led.ledCtrl i).flashed) := by
    intro t
    refine (ledTaskFinish_retask d i (by exact LedCtrl.color_flashed (d.led.ledCtrl i)) _).trans ?_
    change d.afterTask (d.led.ledCtrl i).flashed.callback _ = _
    rw [LedCtrl.callback_flashed]
    rfl
  simp only [ledTimeout10ms, hctrl, LedCtrl.timeout100ms_flashed, hexp, LedCtrl.aged]
  by_cases ht : b = true ∧ (d.led.ledCtrl i).timeout100ms > 0
  · rw [if_pos ht, if_pos ht]
    by_cases h1 : (d.led.ledCtrl i).timeout100ms = 1
    · rw [if_pos (sub_eq_zero.mpr h1), if_pos ⟨ht.1, h1⟩]
      exact (congrArg (fun m => (d.setLed m).ledTaskFinish i) (hset _)).trans (hfinish _)
    · rw [if_neg fun h0 => h1 (sub_eq_zero.mp h0), if_neg fun h => h1 h.2]
      exact congrArg d.setLed (hset _)
  · rw [if_neg ht, if_neg ht, if_neg fun h => ht ⟨h.1, by rw [h.2]; decide⟩]

/-- The handler on one LED: what becomes of the LEDs, and the end of the pairing window if a
pairing task expires. -/
theorem ledTask10ms_eq (b : Bool) :
    ledTask10ms b d i =
      if (d.led.ledCtrl i).Expires b then
        d.afterTask (d.led.ledCtrl i).callback (d.led.task10ms b i)
      else d.setLed (d.led.task10ms b i) := by
  simp only [ledTask10ms, LedModule.task10ms]
  by_cases hoff : (d.led.ledCtrl i).mode = .off
  · have hexp : ¬ (d.led.ledCtrl i).Expires b := by
      rintro (⟨⟨h, -⟩, -⟩ | ⟨h, -⟩)
      · rw [hoff] at h
        cases h
      · exact h hoff
    rw [if_pos hoff, if_neg hexp, if_pos hoff]
    rfl
  rw [if_neg hoff, if_neg hoff]
  by_cases hn : (d.led.ledCtrl i).FlashDue ∧ (d.led.ledCtrl i).flashTimes = 1
  · have hexp : (d.led.ledCtrl i).Expires b := .inl hn
    obtain ⟨n, k, hf⟩ := (d.led.ledCtrl i).flashed_eq
    rw [if_pos hn.1.1, ledFlash10ms_eq _ _ hn.1.1, if_pos hn, if_pos hexp, if_pos hexp]
    dsimp only
    rw [if_pos rfl, ledTaskFinish_retask _ _ (LedCtrl.color_flashed _), hf]
  · have hrest := d.ledTimeout10ms_flashed i b hn hoff
    by_cases hm : (d.led.ledCtrl i).mode = .flash
    · rw [if_pos hm, ledFlash10ms_eq _ _ hm, if_neg hn]
      dsimp only
      rw [if_neg Bool.false_ne_true, hrest]
      split <;> rfl
    · rw [retask_flashed_of_not_flash i _ hm] at hrest
      rw [if_neg hm]
      refine hrest.trans ?_
      split <;> rfl

@[simp] theorem led_afterTask (callback : Option LedCallback) (m : LedModule) :
    (d.afterTask callback m).led = m := by
  unfold afterTask
  split <;> rfl

theorem led_ledTask10ms (b : Bool) : (ledTask10ms b d i).led = d.led.task10ms b i := by
  rw [ledTask10ms_eq]
  split
  · exact d.led_afterTask _ _
  · rfl

theorem led_ledCtrl10msHandler : d.ledCtrl10msHandler.led = d.led.ledCtrl10msHandler := by
  simp only [ledCtrl10msHandler, LedModule.ledCtrl10msHandler, LedModule.finRange_four,
    List.foldl_cons, List.foldl_nil, led_ledTask10ms]
  rfl

end Dock

/-! ### Calls -/

/-- The calls of the LED module.  `redOff` is the write to the red pin with which
`control_timer1000ms` ends an alarm. -/
inductive LedCall where
  | setOn (ledId : ℕ) (color : LedColor) (timeoutS : UInt16) (priority : UInt8)
      (callback : Option LedCallback)
  | setFlash (ledId : ℕ) (color : LedColor) (intervalMs : UInt16) (times : UInt8)
      (timeoutS : UInt16) (priority : UInt8) (callback : Option LedCallback)
  | forceOff (ledId : ℕ)
  | snoreLevelSet (level : UInt8)
  | snoreDisabledFlash
  | voiceWakeup
  | voiceCommandConfirm
  | voiceCloseFlash
  | chargeNormal
  | chargeError
  | chargeStop
  | redOff
  | btPairing (connected : Bool)
  | btPairingStop (enabled : Bool)
  | handler
deriving DecidableEq

def ledStep (m : LedModule) : LedCall → LedModule
  | .setOn ledId color timeoutS priority callback =>
      (m.ledCtrlSetOn ledId color timeoutS priority callback).2
  | .setFlash ledId color intervalMs times timeoutS priority callback =>
      (m.ledCtrlSetFlash ledId color intervalMs times timeoutS priority callback).2
  | .forceOff ledId => m.ledCtrlSetOff ledId
  | .snoreLevelSet level => m.ledSnoreLevelSet level
  | .snoreDisabledFlash => m.ledSnoreDisabledFlash
  | .voiceWakeup => m.ledVoiceWakeup
  | .voiceCommandConfirm => m.ledVoiceCommandConfirm
  | .voiceCloseFlash => m.ledVoiceCloseFlash
  | .chargeNormal => m.ledChargeNormal
  | .chargeError => m.ledChargeError
  | .chargeStop => m.ledChargeStop
  | .redOff => m.ledHwSetPin (some .redAll) false
  | .btPairing connected => m.ledBtPairing connected
  | .btPairingStop enabled => m.ledBtPairingStop enabled
  | .handler => m.ledCtrl10msHandler

namespace Dock

/-- A sample that makes the off position stable while the voice function is on. -/
def SwitchesOff (d : Dock) (key1 key2 : UInt8) : Prop :=
  let raw := switchRaw key1 key2
  let sw := debounce d.switch raw
  ¬ (sw.rawCnt < 3 ∨ raw = sw.stable) ∧ raw = switchOff ∧ d.voice.keyEnable = true

instance (d : Dock) (key1 key2 : UInt8) : Decidable (d.SwitchesOff key1 key2) := by
  unfold SwitchesOff; infer_instance

/-- The calls of `control_timer10ms`. -/
def keyCalls (d : Dock) (key : UInt8) : List LedCall :=
  let k := d.keys
  let rep := satInc k.keyRepeat
  if k.lastKey = 0 ∧ key ≠ 0 then []
  else if k.lastKey = key ∧ key ≠ 0 then
    if rep = 200 ∧ key = appKeyNum4 then
      if d.sys.ble.blePairFlag = 0 then [.btPairing false] else [.btPairingStop d.voice.enabled]
    else if rep = 500 ∧ key = appKeyNum3 then [.snoreDisabledFlash]
    else []
  else if k.lastKey ≠ 0 ∧ key = 0 then
    if k.lastKey = appKeyNum3 ∧ k.keysIgnore = false then
      [.snoreLevelSet (AntiSnore.nextLevel d.anti.antiSnoreIntensity)]
    else []
  else []

/-- The calls of `control_timer1000ms`. -/
def chargeCalls (c : ChargeStatics) (status : UInt8) : List LedCall :=
  let stop : List LedCall := if c.lastChargeStatus = 1 then [.chargeStop] else []
  if status = 0 ∧ c.chargeAbnormalFlag = false then stop ++ [.chargeError]
  else if status = 1 then
    if c.lastChargeStatus ≠ 1 then
      (if c.lastChargeStatus = 0 then [.redOff, .forceOff 0] else []) ++ [.chargeNormal]
    else []
  else if status = 0xFF then stop ++ if c.chargeAbnormalFlag then [.redOff] else []
  else []

/-- The calls of `offline_voice_Handle`. -/
def voiceCalls (d : Dock) (cmd data : UInt8) : List LedCall :=
  if d.voice.keyEnable = false then
    if d.voice.enabled ∨ d.voiceState ≠ .disabled then [.forceOff 3] else []
  else
    match d.voiceState with
    | .disabled => if IsWake d.voice cmd data then [.voiceWakeup] else []
    | .wakeWordDetected | .active =>
        if cmd = 0x81 then
          if data = 0x21 ∨ data = 0x22 then [.voiceWakeup] else [.voiceCommandConfirm]
        else if cmd = 0x82 then [.voiceCloseFlash]
        else []

/-- The calls of the LED module that an event makes. -/
def ledCalls (d : Dock) : Event → List LedCall
  | .switchSample key1 key2 => if d.SwitchesOff key1 key2 then [.forceOff 3] else []
  | .control key => d.keyCalls key
  | .led => [.handler]
  | .charge status => chargeCalls d.charge status
  | .voiceFrame cmd data => d.voiceCalls cmd data
  | .bleWrite value =>
      if Accepted value ∧ byteAt value 1 = bleDataPort ∧
          SetsSnore (value.drop 2) (byteAt value 0) then
        [.snoreLevelSet (byteAt (value.drop 2) 4)]
      else []
  | .connected _ => if d.PairingOpen then [.btPairing true] else []
  | .disconnected =>
      if d.sys.ble.blePairTime ≠ 3000 ∧ d.PairingOpen then [.btPairing false] else []
  | .tick | .snoreEdge | .snoreRun | .flashRun | .mfpFrame _ | .statusFrame _
  | .notificationDone | .mtuChanged _ => []

/-! ### The firmware makes these calls -/

theorem blind_led : Blind Dock.led where
  mapAnti _ _ := rfl
  mfp _ _ := rfl
  ci1302 _ _ := rfl
  dbg _ _ := rfl
  bleTestinfo _ _ _ := rfl
  emit _ _ _ := rfl

theorem answerBlind_led : AnswerBlind Dock.led where
  flash _ _ := rfl
  link _ _ := rfl
  setBletx _ _ := rfl
  notify _ _ _ := rfl
  flashErase _ := rfl
  flashProgram _ _ := rfl

section functions
variable (d : Dock)

theorem led_uartServerWriteReq (value : List UInt8) :
    (d.uartServerWriteReq value).led = (d.ledCalls (.bleWrite value)).foldl ledStep d.led := by
  have hlevel : ∀ pwm tmr l, (d.anti.configure pwm tmr l).antiSnoreIntensity = l := by
    intro pwm tmr l
    simp only [AntiSnore.configure]
    split <;> rfl
  rw [uartServerWriteReq_eq, answerBlind_led.deliver, bleApply, ledCalls]
  by_cases ha : Accepted value
  · rw [if_pos ha]
    by_cases hp : byteAt value 1 = bleDataPort
    · rw [if_neg (hp ▸ bleDataPort_ne), if_pos hp, dataPortApply]
      by_cases hs : SetsSnore (value.drop 2) (byteAt value 0)
      · have hb : ¬ SetsBed (value.drop 2) (byteAt value 0) := fun hb => by
          have := hs.2.1.symm.trans hb.2.1
          contradiction
        rw [if_pos hs, if_pos ⟨ha, hp, hs⟩, dataPortEffect, if_neg hb, if_pos hs,
          anti_bleSnoreConfigure, hlevel]
        exact congrArg (LedModule.ledSnoreLevelSet · _) (blind_led.bleSnoreConfigure d answerBlind_led _ _ _)
      · rw [if_neg hs, if_neg fun h => hs h.2.2, dataPortEffect, if_neg hs]
        split
        · rfl
        · split
          · exact blind_led.snoreRunModeSet d _
          · rfl
    · have hno : ¬ (Accepted value ∧ byteAt value 1 = bleDataPort ∧
          SetsSnore (value.drop 2) (byteAt value 0)) := fun h => hp h.2.1
      rw [if_neg hp, if_neg hno]
      split
      · exact blind_led.bleAppKeyDispatch d _ _
      · rfl
  · rw [if_neg ha, if_neg fun h => ha h.1]
    rfl

theorem led_applySwitch (raw key1 key2 : UInt8) :
    (d.applySwitch raw key1 key2).led =
      if raw = switchOff ∧ d.voice.keyEnable then d.led.ledCtrlSetOff 3 else d.led := by
  simp only [applySwitch]
  by_cases hoff : raw = switchOff
  · rw [if_pos hoff]
    by_cases hk : d.voice.keyEnable = true
    · rw [if_pos hk, if_pos ⟨hoff, hk⟩]
      rfl
    · rw [if_neg hk, if_neg (not_and_of_not_right _ hk)]
  · rw [if_neg hoff, if_neg (not_and_of_not_left _ hoff)]

theorem led_ci1302Sync (force : Bool) : (d.ci1302Uart2VoiceConfigSync force).led = d.led := by
  simp only [ci1302Uart2VoiceConfigSync]
  split <;> rfl

theorem led_checkOfflineVoiceKeys (key1 key2 : UInt8) :
    (d.checkOfflineVoiceKeys key1 key2).led =
      (d.ledCalls (.switchSample key1 key2)).foldl ledStep d.led := by
  have hset : ∀ sw, ({ d with switch := sw }.applySwitch (switchRaw key1 key2) key1 key2).led =
      if switchRaw key1 key2 = switchOff ∧ d.voice.keyEnable then d.led.ledCtrlSetOff 3
      else d.led := fun sw => led_applySwitch { d with switch := sw } _ key1 key2
  simp only [checkOfflineVoiceKeys, ledCalls]
  by_cases hb : (debounce d.switch (switchRaw key1 key2)).rawCnt < 3 ∨
      switchRaw key1 key2 = (debounce d.switch (switchRaw key1 key2)).stable
  · rw [if_pos hb, if_neg (show ¬ d.SwitchesOff key1 key2 from fun h => h.1 hb)]
    rfl
  · rw [if_neg hb, led_ci1302Sync, hset]
    by_cases hoff : switchRaw key1 key2 = switchOff ∧ d.voice.keyEnable = true
    · rw [if_pos hoff, if_pos (show d.SwitchesOff key1 key2 from ⟨hb, hoff⟩)]
      rfl
    · rw [if_neg hoff, if_neg (show ¬ d.SwitchesOff key1 key2 from fun h => hoff h.2)]
      rfl

theorem led_longPressKey4 : d.longPressKey4.led =
    if d.sys.ble.blePairFlag = 0 then d.led.ledBtPairing false
    else d.led.ledBtPairingStop d.voice.enabled := by
  simp only [longPressKey4]
  split <;> rfl

theorem led_controlTimer10ms (key : UInt8) :
    (d.controlTimer10ms key).led = (d.keyCalls key).foldl ledStep d.led := by
  have hset : ∀ (c : Dock) k, (c.setKeys k).led = c.led := fun _ _ => rfl
  simp only [controlTimer10ms, keyCalls, hset]
  split
  · rfl
  split
  · split
    · rw [led_longPressKey4]
      split
      · next hf => exact (if_pos hf).symm ▸ rfl
      · next hf => exact (if_neg hf).symm ▸ rfl
    · split <;> rfl
  split
  · split <;> rfl
  · rfl

theorem led_controlTimer1000ms (status : UInt8) :
    (d.controlTimer1000ms status).led = (chargeCalls d.charge status).foldl ledStep d.led := by
  have hled : ∀ (c : Dock) m k, { c.setLed m with charge := k }.led = m := fun _ _ _ => rfl
  simp only [controlTimer1000ms, chargeCalls, hled]
  split
  · split <;> simp only [List.foldl_append, List.foldl_cons, List.foldl_nil, ledStep]
  split
  · split
    · split <;> rfl
    · rfl
  split
  · rw [List.foldl_append]
    split <;> split <;> rfl
  · rfl

theorem led_offlineVoiceHandle (cmd data : UInt8) :
    (d.offlineVoiceHandle cmd data).led = (d.voiceCalls cmd data).foldl ledStep d.led := by
  have hword : ∀ c : Dock, (c.offlineVoiceDataHandle data).led =
      if data = 0x21 ∨ data = 0x22 then c.led.ledVoiceWakeup else c.led.ledVoiceCommandConfirm := by
    intro c
    have hinc := blind_led.bleTestinfoVoiceDetailInc c data
    simp only [offlineVoiceDataHandle]
    split
    · exact congrArg LedModule.ledVoiceWakeup ((blind_led.countWake _).trans hinc)
    · rw [blind_led.voiceDispatch, blind_led.snoreInterventionCancelOnVoicePosition,
        blind_led.countResp]
      exact congrArg LedModule.ledVoiceCommandConfirm hinc
  have hwake : ∀ c : Dock, c.offlineVoiceWakeUp.led = c.led.ledVoiceWakeup := by
    intro c
    obtain ⟨c', hset, hled⟩ := blind_led.offlineVoiceWakeUp_eq c
    rw [hset]
    exact congrArg LedModule.ledVoiceWakeup hled
  have hstate : ∀ (c : Dock) v, { c with voiceState := v }.led = c.led := fun _ _ => rfl
  have hopen :
      (if cmd = 0x81 then { d.offlineVoiceDataHandle data with voiceState := .active }
        else if cmd = 0x82 then { d.offlineVoiceWakeOff with voiceState := .disabled }
        else d).led =
      (if cmd = 0x81 then
          if data = 0x21 ∨ data = 0x22 then [.voiceWakeup] else [.voiceCommandConfirm]
        else if cmd = 0x82 then [.voiceCloseFlash]
        else []).foldl ledStep d.led := by
    split
    · rw [hstate, hword]
      split <;> rfl
    · split <;> rfl
  simp only [offlineVoiceHandle, voiceCalls]
  by_cases hk : d.voice.keyEnable = false
  · rw [if_pos hk, if_pos hk]
    split <;> rfl
  rw [if_neg hk, if_neg hk]
  cases d.voiceState with
  | disabled =>
      dsimp only
      split
      · exact hwake _
      · rfl
  | wakeWordDetected => exact hopen
  | active => exact hopen

end functions
end Dock

theorem step_led (d : Dock) (e : Event) : (step d e).led = (d.ledCalls e).foldl ledStep d.led := by
  cases e with
  | switchSample key1 key2 => exact d.led_checkOfflineVoiceKeys key1 key2
  | control key => exact d.led_controlTimer10ms key
  | led =>
      simp only [step, Dock.ledCalls, List.foldl_cons, List.foldl_nil, ledStep]
      exact d.led_ledCtrl10msHandler
  | charge status => exact d.led_controlTimer1000ms status
  | snoreRun => exact Dock.blind_led.snoringInterventionRun d
  | flashRun => exact Dock.answerBlind_led.flashSaveSnoreCfgIfChanged d
  | voiceFrame cmd data => exact d.led_offlineVoiceHandle cmd data
  | mfpFrame raw =>
      simp only [step, Dock.xUart1DateReceiveHandle]
      split <;> rfl
  | statusFrame raw => exact Dock.blind_led.xUart3DateReceiveHandle d raw
  | bleWrite value => exact d.led_uartServerWriteReq value
  | connected conIdx =>
      simp only [step, Dock.gapConnected, Dock.ledCalls]
      split <;> rename_i h
      · rw [if_pos (show d.PairingOpen from h)]
        rfl
      · rw [if_neg (show ¬ d.PairingOpen from h)]
        rfl
  | disconnected =>
      simp only [step, Dock.gapDisconnected, Dock.ledCalls]
      split
      · next ht =>
        split
        · next hp =>
          rw [if_pos (show d.sys.ble.blePairTime ≠ 3000 ∧ d.PairingOpen from ⟨ht, hp⟩)]
          rfl
        · next hp =>
          rw [if_neg fun h : d.sys.ble.blePairTime ≠ 3000 ∧ d.PairingOpen => hp h.2]
          rfl
      · next ht =>
        rw [if_neg fun h : d.sys.ble.blePairTime ≠ 3000 ∧ d.PairingOpen => ht h.1]
        rfl
  | _ => rfl

end ErgoDock
