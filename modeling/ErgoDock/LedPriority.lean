import ErgoDock.LedTasks

/-! # Who may end a task of an LED

A task ends at its own timeout or flash count, at a request on its LED of at least its priority,
or when its owner clears the LED.  Every call of the LED module keeps to this, but for two that
switch LEDs off without asking for the priority: the level indication on the LEDs of the other
levels, and the charging alarm on blue tasks.  A sequence of calls respects the priorities if and
only if it has no such call at a time it would end a more important task
(`priorities_respected_iff`). -/

namespace ErgoDock

open Machine

namespace LedModule

/-! ### The rule -/

/-- The priority of the request a call makes on an LED.  The indications of the level, of the
switched-off function and of the charging alarm are on the LEDs 0 to 2 together. -/
def demand (m : LedModule) (i : Fin 4) : LedCall → Option UInt8
  | .setOn ledId _ _ priority _ | .setFlash ledId _ _ _ _ priority _ =>
      if ledId = i then some priority else none
  | .snoreLevelSet level => if i.val ≠ 3 ∧ level ≤ 3 then some ledPriorityNormal else none
  | .snoreDisabledFlash | .chargeError => if i.val ≠ 3 then some ledPriorityCritical else none
  | .chargeNormal => if i.val = 1 then some ledPriorityNormal else none
  | .voiceWakeup | .voiceCommandConfirm | .voiceCloseFlash =>
      if i.val = 3 then some ledPriorityNormal else none
  | .btPairing _ => if i.val = 3 then some ledPriorityHigh else none
  | .handler => if i.val = 3 ∧ m.Restores then some ledPriorityNormal else none
  | .forceOff _ | .chargeStop | .redOff | .btPairingStop _ => none

/-- A call by which the owner of the LED clears it. -/
def OwnerClears (m : LedModule) (i : Fin 4) : LedCall → Prop
  | .forceOff ledId => ledId = i
  | .chargeStop => i.val = 1 ∧ (m.ledCtrl i).color = .green
  | .btPairingStop _ => i.val = 3
  | _ => False

/-- The record of a task that goes on. -/
def kept (m : LedModule) (i : Fin 4) : LedCall → LedCtrl
  | .handler => (m.ledCtrl i).aged m.is100msTick
  | _ => m.ledCtrl i

/-- Every running task goes on, runs out, gives way to a request of at least its priority, or is
cleared by its owner. -/
def Respects (m : LedModule) (c : LedCall) : Prop :=
  ∀ i, (m.ledCtrl i).mode ≠ .off →
    (ledStep m c).ledCtrl i = m.kept i c ∨
    c = .handler ∧ (m.ledCtrl i).Expires m.is100msTick ∨
    (∃ p, m.demand i c = some p ∧ (m.ledCtrl i).priority ≤ p) ∨
    m.OwnerClears i c

/-- A call that switches a more important task off. -/
def Inverts (m : LedModule) : LedCall → Prop
  | .snoreLevelSet level =>
      level ≤ 3 ∧ ∃ i : Fin 4, i.val ≠ 3 ∧ i.val + 1 ≠ level.toNat ∧
        (m.ledCtrl i).mode ≠ .off ∧ (m.ledCtrl i).priority > ledPriorityNormal
  | .chargeError =>
      ∃ i : Fin 4, i.val ≠ 3 ∧ (m.ledCtrl i).color = .blue ∧
        (m.ledCtrl i).mode ≠ .off ∧ (m.ledCtrl i).priority > ledPriorityCritical
  | _ => False

instance (m : LedModule) : (c : LedCall) → Decidable (m.Inverts c)
  | .snoreLevelSet _ => inferInstanceAs (Decidable (_ ∧ ∃ _, _))
  | .chargeError => inferInstanceAs (Decidable (∃ _, _))
  | .setOn .. | .setFlash .. | .forceOff _ | .snoreDisabledFlash | .voiceWakeup
  | .voiceCommandConfirm | .voiceCloseFlash | .chargeNormal | .chargeStop | .redOff
  | .btPairing _ | .btPairingStop _ | .handler => inferInstanceAs (Decidable False)

variable {m : LedModule} {i : Fin 4}

/-! ### Level and alarm -/

/-- The LEDs that the level indication switches off. -/
def levelOff (level : UInt8) : List ℕ := [0, 1, 2].filter (· + 1 ≠ level.toNat)

theorem toNat_pos {level : UInt8} (h : level ≠ 0) : 0 < level.toNat := by
  rw [Nat.pos_iff_ne_zero]
  exact fun hz => h (UInt8.toNat_inj.mp hz)

theorem ledSnoreLevelSet_eq {level : UInt8} (h : level ≤ 3) :
    m.ledSnoreLevelSet level =
      if level = 0 then (levelOff level).foldl ledCtrlSetOff m
      else ((((levelOff level).foldl ledCtrlSetOff m).ledCtrlSetOn (level.toNat - 1) .blue 10
        ledPriorityNormal none)).2 := by
  simp only [ledSnoreLevelSet]
  split
  · next h0 =>
    subst h0
    rfl
  · next h0 =>
    have hpos := toNat_pos h0
    have hoff : [0, 1, 2].filter (fun ledId => decide (ledId ≠ level.toNat - 1)) =
        levelOff level := by
      refine List.filter_congr fun ledId _ => decide_eq_decide.mpr ?_
      omega
    rw [hoff]

theorem mem_levelOff {level : UInt8} :
    (i : ℕ) ∈ levelOff level ↔ i.val ≠ 3 ∧ i.val + 1 ≠ level.toNat := by
  unfold levelOff
  rw [List.mem_filter, decide_eq_true_iff]
  refine and_congr_left fun _ => ?_
  fin_cases i <;> decide

/-- What the level indication does to an LED: off, a request, or nothing. -/
theorem ledCtrl_snoreLevelSet {level : UInt8} (h : level ≤ 3) (i : Fin 4) :
    if i.val ≠ 3 ∧ i.val + 1 ≠ level.toNat then
      (m.ledSnoreLevelSet level).ledCtrl i = cleared (m.ledCtrl i)
    else (m.ledSnoreLevelSet level).ledCtrl i = m.ledCtrl i ∨
      i.val ≠ 3 ∧ Yields (m.ledCtrl i) ledPriorityNormal := by
  have hoff := m.ledCtrl_foldl_setOff (levelOff level) i
  rw [ledSnoreLevelSet_eq h]
  by_cases hi : i.val ≠ 3 ∧ i.val + 1 ≠ level.toNat
  · rw [if_pos (mem_levelOff.mpr hi)] at hoff
    rw [if_pos hi]
    split
    · exact hoff
    · next h0 =>
      rcases ledCtrl_setOn ((levelOff level).foldl ledCtrlSetOff m) (level.toNat - 1) .blue 10
        ledPriorityNormal none i with hon | ⟨hon, -⟩
      · exact hon.trans hoff
      · have hpos := toNat_pos h0
        omega
  · rw [if_neg fun h => hi (mem_levelOff.mp h)] at hoff
    rw [if_neg hi]
    split
    · exact .inl hoff
    · next h0 =>
      rcases ledCtrl_setOn ((levelOff level).foldl ledCtrlSetOff m) (level.toNat - 1) .blue 10
        ledPriorityNormal none i with hon | ⟨hon, hy⟩
      · exact .inl (hon.trans hoff)
      · have hle : level.toNat ≤ 3 := UInt8.le_iff_toNat_le.mp h
        exact .inr ⟨by omega, hoff ▸ hy⟩

/-- What the charging alarm does to an LED: a blue task is cleared. -/
theorem ledCtrl_chargeError (i : Fin 4) :
    if i.val ≠ 3 ∧ (m.ledCtrl i).color = .blue then m.ledChargeError.ledCtrl i ≠ m.ledCtrl i
    else m.ledChargeError.ledCtrl i = m.ledCtrl i ∨
      i.val ≠ 3 ∧ Yields (m.ledCtrl i) ledPriorityCritical := by
  have hclear := m.ledCtrl_clearAllSnoreLeds i
  have hon := ledCtrl_setOn m.ledCtrlClearAllSnoreLeds 0 .red 30 ledPriorityCritical none i
  by_cases hb : i.val ≠ 3 ∧ (m.ledCtrl i).color = .blue
  · rw [if_pos hb] at hclear ⊢
    intro heq
    have hblue : (m.ledChargeError.ledCtrl i).color = .blue := heq ▸ hb.2
    rcases hon with hon | ⟨h0, -⟩
    · have hnone : (m.ledChargeError.ledCtrl i).color = .none := by
        rw [show m.ledChargeError.ledCtrl i = _ from hon, hclear]
        rfl
      rw [hnone] at hblue
      cases hblue
    · -- LED 0 shows the alarm
      have hi : i = 0 := Fin.ext h0.symm
      subst hi
      have hred : (m.ledChargeError.ledCtrl 0).color = .red := by
        have hoff : Yields (m.ledCtrlClearAllSnoreLeds.ledCtrl 0) ledPriorityCritical := by
          rw [hclear]
          exact .inl rfl
        rw [ledChargeError]
        change ((m.ledCtrlClearAllSnoreLeds.ledCtrlSetOn (0 : Fin 4) .red 30 _
          none).2.ledCtrl 0).color = _
        rw [ledCtrlSetOn_eq _ _ (by decide) (by decide), if_pos hoff, ledCtrl_retask,
          Function.update_self]
      rw [hred] at hblue
      cases hblue
  · rw [if_neg hb] at hclear ⊢
    rcases hon with hon | ⟨h0, hy⟩
    · exact .inl (hon.trans hclear)
    · exact .inr ⟨by omega, hclear ▸ hy⟩

/-- The flash that shows the function switched off. -/
theorem ledCtrl_snoreDisabledFlash (i : Fin 4) :
    m.ledSnoreDisabledFlash.ledCtrl i = m.ledCtrl i ∨
      i.val ≠ 3 ∧ Yields (m.ledCtrl i) ledPriorityCritical := by
  have hflash : ∀ (ledIds : List ℕ) (m : LedModule),
      (ledIds.foldl (fun m ledId =>
        (m.ledCtrlSetFlash ledId .blue 200 2 3 ledPriorityCritical none).2) m).ledCtrl i =
          m.ledCtrl i ∨ (i : ℕ) ∈ ledIds ∧ Yields (m.ledCtrl i) ledPriorityCritical := by
    intro ledIds
    induction ledIds with
    | nil => exact fun _ => .inl rfl
    | cons ledId ledIds ih =>
        intro m
        rcases m.ledCtrl_setFlash ledId .blue 200 2 3 ledPriorityCritical none i with h | ⟨h, hy⟩
        · have hrest := ih (m.ledCtrlSetFlash ledId .blue 200 2 3 ledPriorityCritical none).2
          rw [h] at hrest
          exact hrest.imp_right fun h => ⟨List.mem_cons_of_mem _ h.1, h.2⟩
        · exact .inr ⟨h ▸ List.mem_cons_self .., hy⟩
  refine (hflash [0, 1, 2] m).imp_right fun ⟨h, hy⟩ => ⟨fun h3 => ?_, hy⟩
  rw [h3] at h
  exact absurd h (by decide)

theorem ledCtrl_voiceWakeup (i : Fin 4) :
    m.ledVoiceWakeup.ledCtrl i = m.ledCtrl i ∨
      i.val = 3 ∧ Yields (m.ledCtrl i) ledPriorityNormal := by
  unfold ledVoiceWakeup
  split
  · exact .inl rfl
  · exact (m.ledCtrl_setOn 3 .blue 0 ledPriorityNormal none i).imp_right
      fun ⟨h, hy⟩ => ⟨h.symm, hy⟩

theorem ledCtrl_voiceCommandConfirm (i : Fin 4) :
    m.ledVoiceCommandConfirm.ledCtrl i = m.ledCtrl i ∨
      i.val = 3 ∧ Yields (m.ledCtrl i) ledPriorityNormal := by
  unfold ledVoiceCommandConfirm
  split
  · exact .inl rfl
  · exact (m.ledCtrl_setOn 3 .green 3 ledPriorityNormal _ i).imp_right
      fun ⟨h, hy⟩ => ⟨h.symm, hy⟩

/-! ### The rule, call by call -/

theorem respects_of_request {c : LedCall} (hk : ∀ i, m.kept i c = m.ledCtrl i)
    (h : ∀ i, (m.ledCtrl i).mode ≠ .off → (ledStep m c).ledCtrl i = m.ledCtrl i ∨
      ∃ p, m.demand i c = some p ∧ Yields (m.ledCtrl i) p) : m.Respects c := by
  intro i hm
  rcases h i hm with h | ⟨p, hp, hy⟩
  · exact .inl (h.trans (hk i).symm)
  · exact .inr (.inr (.inl ⟨p, hp, hy.resolve_left hm⟩))

/-- A call whose request is too weak for a task that it ends. -/
theorem not_respects {c : LedCall} {p : UInt8} (hm : (m.ledCtrl i).mode ≠ .off)
    (hc : c ≠ .handler) (hk : m.kept i c = m.ledCtrl i)
    (hends : (ledStep m c).ledCtrl i ≠ m.ledCtrl i) (hd : m.demand i c = some p)
    (hp : (m.ledCtrl i).priority > p) (ho : ¬ m.OwnerClears i c) : ¬ m.Respects c := by
  intro hr
  rcases hr i hm with h | ⟨h, -⟩ | ⟨p', hd', hle⟩ | h
  · exact hends (h.trans hk)
  · exact hc h
  · cases hd.symm.trans hd'
    exact UInt8.not_lt.mpr hle hp
  · exact ho h

theorem respects_snoreLevelSet_iff {level : UInt8} :
    m.Respects (.snoreLevelSet level) ↔ ¬ m.Inverts (.snoreLevelSet level) := by
  by_cases hle : level ≤ 3
  · constructor
    · rintro hr ⟨-, i, h3, hne, hm, hp⟩
      refine not_respects (c := .snoreLevelSet level) hm nofun rfl ?_ (if_pos ⟨h3, hle⟩) hp id
        hr
      have hoff := m.ledCtrl_snoreLevelSet hle i
      rw [if_pos ⟨h3, hne⟩] at hoff
      intro heq
      exact hm (congrArg LedCtrl.mode (heq.symm.trans hoff))
    · intro hno
      refine respects_of_request (fun _ => rfl) fun i hm => ?_
      have hoff := m.ledCtrl_snoreLevelSet hle i
      by_cases hi : i.val ≠ 3 ∧ i.val + 1 ≠ level.toNat
      · refine .inr ⟨_, if_pos ⟨hi.1, hle⟩, .inr (UInt8.not_lt.mp fun hp => ?_)⟩
        exact hno ⟨hle, i, hi.1, hi.2, hm, hp⟩
      · rw [if_neg hi] at hoff
        exact hoff.imp_right fun ⟨h3, hy⟩ => ⟨_, if_pos ⟨h3, hle⟩, hy⟩
  · have hnone : m.ledSnoreLevelSet level = m := by
      simp only [ledSnoreLevelSet]
      have h0 : level ≠ 0 := fun h0 => hle (by rw [h0]; decide)
      rw [if_neg h0, if_neg hle]
    exact iff_of_true (fun i _ => .inl (congrFun (congrArg ledCtrl hnone) i)) fun h => hle h.1

theorem respects_chargeError_iff : m.Respects .chargeError ↔ ¬ m.Inverts .chargeError := by
  constructor
  · rintro hr ⟨i, h3, hb, hm, hp⟩
    refine not_respects (c := .chargeError) hm nofun rfl ?_ (if_pos h3) hp id hr
    have hoff := m.ledCtrl_chargeError i
    rwa [if_pos ⟨h3, hb⟩] at hoff
  · intro hno
    refine respects_of_request (fun _ => rfl) fun i hm => ?_
    have hoff := m.ledCtrl_chargeError i
    by_cases hi : i.val ≠ 3 ∧ (m.ledCtrl i).color = .blue
    · refine .inr ⟨_, if_pos hi.1, .inr (UInt8.not_lt.mp fun hp => ?_)⟩
      exact hno ⟨i, hi.1, hi.2, hm, hp⟩
    · rw [if_neg hi] at hoff
      exact hoff.imp_right fun ⟨h3, hy⟩ => ⟨_, if_pos h3, hy⟩

theorem respects_chargeStop : m.Respects .chargeStop := by
  intro i hm
  change m.ledChargeStop.ledCtrl i = _ ∨ _
  unfold ledChargeStop
  split
  · next hg =>
    rw [ledCtrl_setOff]
    split
    · next h1 =>
      have hi : i = 1 := Fin.ext h1.symm
      exact .inr (.inr (.inr ⟨h1.symm, hi ▸ hg.1⟩))
    · exact .inl rfl
  · exact .inl rfl

theorem respects_btPairing (connected : Bool) : m.Respects (.btPairing connected) := by
  refine respects_of_request (fun _ => rfl) fun i _ => ?_
  change (m.ledBtPairing connected).ledCtrl i = _ ∨ _
  unfold ledBtPairing
  split
  · refine (m.ledCtrl_setOn 3 .blue 30 ledPriorityHigh _ i).imp_right fun ⟨h, hy⟩ => ?_
    exact ⟨_, if_pos h.symm, hy⟩
  · refine (m.ledCtrl_setFlash 3 .blue 500 0 30 ledPriorityHigh _ i).imp_right fun ⟨h, hy⟩ => ?_
    exact ⟨_, if_pos h.symm, hy⟩

theorem respects_btPairingStop (enabled : Bool) : m.Respects (.btPairingStop enabled) := by
  intro i hm
  by_cases h3 : i.val = 3
  · exact .inr (.inr (.inr h3))
  · refine .inl ?_
    have hoff : (m.ledCtrlSetOff 3).ledCtrl i = m.ledCtrl i := by
      rw [ledCtrl_setOff]
      exact if_neg fun h => h3 h.symm
    change (m.ledBtPairingStop enabled).ledCtrl i = _
    unfold ledBtPairingStop
    dsimp only
    split
    · exact ((ledCtrl_voiceWakeup i).resolve_right fun h => h3 h.1).trans hoff
    · exact hoff

/-- A call respects the priorities, or it is one of the two that do not ask for them. -/
theorem respects_iff (c : LedCall) : m.Respects c ↔ ¬ m.Inverts c := by
  cases c with
  | setOn ledId color timeoutS priority callback =>
      refine iff_of_true (respects_of_request (fun _ => rfl) fun i _ => ?_) id
      refine (m.ledCtrl_setOn ledId color timeoutS priority callback i).imp_right fun ⟨h, hy⟩ => ?_
      exact ⟨priority, if_pos h, hy⟩
  | setFlash ledId color intervalMs times timeoutS priority callback =>
      refine iff_of_true (respects_of_request (fun _ => rfl) fun i _ => ?_) id
      refine (m.ledCtrl_setFlash ledId color intervalMs times timeoutS priority callback
        i).imp_right fun ⟨h, hy⟩ => ?_
      exact ⟨priority, if_pos h, hy⟩
  | forceOff ledId =>
      refine iff_of_true (fun i _ => ?_) id
      change (m.ledCtrlSetOff ledId).ledCtrl i = _ ∨ _
      rw [ledCtrl_setOff]
      split
      · next h => exact .inr (.inr (.inr h))
      · exact .inl rfl
  | handler =>
      refine iff_of_true (fun i hm => ?_) id
      by_cases he : (m.ledCtrl i).Expires m.is100msTick
      · exact .inr (.inl ⟨rfl, he⟩)
      · rcases m.ledCtrl_handler i hm he with h | ⟨h3, hr, hp⟩
        · exact .inl h
        · exact .inr (.inr (.inl ⟨_, if_pos ⟨congrArg Fin.val h3, hr⟩, hp⟩))
  | snoreLevelSet level =>
      exact respects_snoreLevelSet_iff
  | snoreDisabledFlash =>
      refine iff_of_true (respects_of_request (fun _ => rfl) fun i _ => ?_) id
      exact (m.ledCtrl_snoreDisabledFlash i).imp_right fun ⟨h, hy⟩ => ⟨_, if_pos h, hy⟩
  | voiceWakeup =>
      refine iff_of_true (respects_of_request (fun _ => rfl) fun i _ => ?_) id
      exact (m.ledCtrl_voiceWakeup i).imp_right fun ⟨h, hy⟩ => ⟨_, if_pos h, hy⟩
  | voiceCommandConfirm =>
      refine iff_of_true (respects_of_request (fun _ => rfl) fun i _ => ?_) id
      exact (m.ledCtrl_voiceCommandConfirm i).imp_right fun ⟨h, hy⟩ => ⟨_, if_pos h, hy⟩
  | voiceCloseFlash =>
      refine iff_of_true (respects_of_request (fun _ => rfl) fun i _ => ?_) id
      refine (m.ledCtrl_setFlash 3 .blue 200 2 3 ledPriorityNormal none i).imp_right
        fun ⟨h, hy⟩ => ?_
      exact ⟨_, if_pos h.symm, hy⟩
  | chargeNormal =>
      refine iff_of_true (respects_of_request (fun _ => rfl) fun i _ => ?_) id
      change m.ledChargeNormal.ledCtrl i = _ ∨ _
      unfold ledChargeNormal
      split
      · exact .inl rfl
      · refine (m.ledCtrl_setOn 1 .green 15 ledPriorityNormal none i).imp_right fun ⟨h, hy⟩ => ?_
        exact ⟨_, if_pos h.symm, hy⟩
  | chargeError =>
      exact respects_chargeError_iff
  | chargeStop =>
      exact iff_of_true respects_chargeStop id
  | redOff =>
      exact iff_of_true (fun _ _ => .inl rfl) id
  | btPairing connected =>
      exact iff_of_true (respects_btPairing connected) id
  | btPairingStop enabled =>
      exact iff_of_true (respects_btPairingStop enabled) id

end LedModule

/-! ### Sequences of calls -/

/-- Whatever is called, in any order and from any state: the priorities are respected if and only
if no level indication and no charging alarm switches a more important task off. -/
theorem priorities_respected_iff (m : LedModule) (cs : List LedCall) :
    Along ledStep LedModule.Respects m cs ↔ Along ledStep (fun m c => ¬ m.Inverts c) m cs :=
  ⟨fun h => h.mono fun _ c hr => (LedModule.respects_iff c).mp hr,
    fun h => h.mono fun _ c hi => (LedModule.respects_iff c).mpr hi⟩

/-- The charging alarm is on, and the level is changed to the second: the alarm goes out. -/
theorem alarm_extinguished :
    ¬ ∀ cs : List LedCall, Along ledStep LedModule.Respects {} cs := by
  intro h
  obtain ⟨-, hlevel, -⟩ := h [.chargeError, .snoreLevelSet 2]
  exact absurd ((LedModule.respects_iff _).mp hlevel) (by decide)

end ErgoDock
