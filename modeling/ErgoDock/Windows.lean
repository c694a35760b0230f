import ErgoDock.Outputs

/-! # Detection windows

The code remembers an open window by its start tick and the snore count of that moment, both
in wrapping counters.  `WindowLog` is the unbounded history: the ticks and the snore edges
since the window was opened, each edge with the circumstances it came in.  `WindowInv` ties
the two together over any run; from it follow exactly when a lift is started, which snores no
window counts and, as long as no open window survives a switch-off, where the counted snores come
from. -/

namespace ErgoDock

open Machine

/-! ### The history -/

/-- A snore edge: was the function on, and after how many switch-ons did it come. -/
structure EdgeStamp where
  enabled : Bool
  epoch : ℕ
deriving DecidableEq, Repr

/-- What happened to the detection windows. -/
structure WindowLog where
  /-- Ticks since the last window was opened. -/
  ticks : ℕ := 0
  /-- Snore edges since the last window was opened. -/
  edges : List EdgeStamp := []
  /-- Changes of the level from 0 to another so far. -/
  epoch : ℕ := 0
  /-- The open window has seen a long press of key 3. -/
  crossed : Bool := false
  /-- Windows closed so far. -/
  closed : ℕ := 0
deriving DecidableEq, Repr

/-- The step is the long press of key 3 that switches the function off. -/
def Dock.LongPressOff (d : Dock) : Event → Prop
  | .control key => d.keys.LongPress3 key
  | _ => False

instance (d : Dock) : (e : Event) → Decidable (d.LongPressOff e)
  | .control key => inferInstanceAs (Decidable (d.keys.LongPress3 key))
  | .tick | .switchSample _ _ | .led | .charge _ | .snoreEdge | .snoreRun | .flashRun
  | .voiceFrame _ _ | .mfpFrame _ | .statusFrame _ | .bleWrite _ | .connected _ | .disconnected
  | .notificationDone | .mtuChanged _ => .isFalse id

def watchWindow (w : WindowLog) (d : Dock) (e : Event) : WindowLog :=
  let opened : Prop := e = .snoreRun ∧ d.anti.OpensWindow
  let switchedOn : Prop := d.anti.antiSnoreIntensity = 0 ∧ (step d e).anti.antiSnoreIntensity ≠ 0
  { ticks := if opened then 0 else if e = .tick then w.ticks + 1 else w.ticks
    edges := if opened then [] else if e = .snoreEdge then
        ⟨d.anti.antiSnoreIntensity ≠ 0, w.epoch⟩ :: w.edges else w.edges
    epoch := if switchedOn then w.epoch + 1 else w.epoch
    crossed := if opened ∨ (step d e).anti.snoreIntervention.timerS = 0 then false
      else if d.LongPressOff e then true else w.crossed
    closed := if e = .snoreRun ∧ d.anti.ClosesWindow then w.closed + 1 else w.closed }

/-- The history of the run so far. -/
def windowLog (b : Boot) (es : List Event) : WindowLog :=
  (exec (monitor step watchWindow) (boot b, {}) es).2

/-! ### Steps and windows -/

theorem snoreNub_apply (a : AntiSnore) (op : AntiOp) :
    (op.apply a).sf.snoreNub = if op = .edge then a.sf.snoreNub + 1 else a.sf.snoreNub := by
  cases op with
  | configure pwm tmr l =>
      rw [AntiOp.apply, AntiSnore.configure]
      split <;> rfl
  | volume v counted =>
      rw [AntiOp.apply]
      split <;> rfl
  | mode m => exact (a.sameInputs_changeMode m).snoreNub
  | run soft => exact a.run_snoreNub soft
  | _ => rfl

theorem timer_apply (a : AntiSnore) (op : AntiOp) :
    (op.apply a).timer = if op = .tick then a.timer + 1 else a.timer := by
  cases op with
  | configure pwm tmr l =>
      rw [AntiOp.apply, AntiSnore.configure]
      split <;> rfl
  | volume v counted =>
      rw [AntiOp.apply]
      split <;> rfl
  | mode m => exact (a.sameInputs_changeMode m).timer
  | run soft => exact a.run_timer soft
  | _ => rfl

theorem trig_apply (a : AntiSnore) (op : AntiOp) (h : a.snoreIntervention.trig = 0) :
    (op.apply a).snoreIntervention.trig = 0 := by
  cases op with
  | configure pwm tmr l =>
      rw [AntiOp.apply, AntiSnore.configure]
      split
      · rfl
      · exact h
  | volume v counted =>
      rw [AntiOp.apply]
      split <;> exact h
  | run soft => exact a.run_trig soft h
  | mode m => rfl
  | clear => rfl
  | flat => rfl
  | _ => exact h

/-- Apart from the periodic function, an operation keeps the open window or leaves none. -/
theorem window_apply (a : AntiSnore) (op : AntiOp) (h : ∀ soft, op ≠ .run soft) :
    (op.apply a).snoreIntervention.timerS = 0 ∨ AntiSnore.KeepsWindow a (op.apply a) := by
  cases op with
  | configure pwm tmr l =>
      rw [AntiOp.apply, AntiSnore.configure]
      split
      · exact .inl rfl
      · exact .inr ⟨rfl, rfl, rfl, rfl⟩
  | volume v counted =>
      rw [AntiOp.apply]
      split <;> exact .inr ⟨rfl, rfl, rfl, rfl⟩
  | run soft => exact absurd rfl (h soft)
  | mode m => exact .inl rfl
  | clear => exact .inl rfl
  | flat => exact .inl rfl
  | _ => exact .inr ⟨rfl, rfl, rfl, rfl⟩

section steps
variable (d : Dock) (e : Event)

theorem timer_step :
    (step d e).anti.timer = if e = .tick then d.anti.timer + 1 else d.anti.timer := by
  have hiff : antiOp d e = .tick ↔ e = .tick := ⟨(antiOp_kind d e).2.1, fun h => by rw [h]; rfl⟩
  rw [step_anti, timer_apply]
  simp only [hiff]

theorem trig_step (h : d.anti.snoreIntervention.trig = 0) :
    (step d e).anti.snoreIntervention.trig = 0 := by
  rw [step_anti]
  exact trig_apply _ _ h

theorem snoreNub_step :
    (step d e).anti.sf.snoreNub =
      if e = .snoreEdge then d.anti.sf.snoreNub + 1 else d.anti.sf.snoreNub := by
  have hiff : antiOp d e = .edge ↔ e = .snoreEdge :=
    ⟨(antiOp_kind d e).2.2.1, fun h => by rw [h]; rfl⟩
  rw [step_anti, snoreNub_apply]
  simp only [hiff]

theorem window_step (h : ¬ (e = .snoreRun ∧ d.anti.OpensWindow)) :
    (step d e).anti.snoreIntervention.timerS = 0 ∨
      AntiSnore.KeepsWindow d.anti (step d e).anti := by
  rw [step_anti]
  by_cases he : e = .snoreRun
  · subst he
    exact AntiSnore.run_of_not_opensWindow _ _ fun ho => h ⟨rfl, ho⟩
  · exact window_apply _ _ fun soft hs => he ((antiOp_kind d e).1 soft hs)

end steps

/-! ### The invariant -/

/-- The counters of an open window count its history. -/
structure WindowOpen (a : AntiSnore) (w : WindowLog) : Prop where
  trigTimer : a.snoreIntervention.trigTimer = a.snoreWindowTicks
  timer : a.timer = a.snoreIntervention.timerS + UInt32.ofNat w.ticks
  snoreNub : a.sf.snoreNub =
    a.snoreIntervention.oldsnoreNub.toUInt16 + UInt16.ofNat w.edges.length

structure WindowInv (a : AntiSnore) (w : WindowLog) : Prop where
  intensity : a.antiSnoreIntensity ≤ 3
  trig : a.snoreIntervention.trig = 0
  refreshed : a.snoreIntervention.trigTimer = 0 ∨
    a.snoreIntervention.trigTimer = a.snoreWindowTicks
  opened : a.snoreIntervention.timerS ≠ 0 → WindowOpen a w

theorem Initial.windowInv {a : AntiSnore} (h : Initial a) : WindowInv a {} := by
  refine ⟨h.intensity, h.trig, ?_, fun ht => absurd h.timerS ht⟩
  rw [h.trigTimer]
  split
  · exact .inl rfl
  · exact .inr rfl

/-- Every refresh stores 0 or the window of the mode. -/
theorem refreshed_apply (a : AntiSnore) (op : AntiOp) (hle : a.antiSnoreIntensity ≤ 3)
    (h : a.snoreIntervention.trigTimer = 0 ∨
      a.snoreIntervention.trigTimer = a.snoreWindowTicks) :
    (op.apply a).snoreIntervention.trigTimer = 0 ∨
      (op.apply a).snoreIntervention.trigTimer = (op.apply a).snoreWindowTicks := by
  by_cases hm : ∃ m, op = .mode m
  · obtain ⟨m, rfl⟩ := hm
    rw [trigTimer_apply _ _ hle]
    dsimp only
    split
    · exact .inl rfl
    · exact .inr rfl
  · have hwin : (op.apply a).snoreWindowTicks = a.snoreWindowTicks := by
      refine AntiSnore.snoreWindowTicks_congr ?_
      rw [runMode_apply]
      split
      · exact absurd ⟨_, rfl⟩ hm
      · rfl
    rw [trigTimer_apply _ _ hle, hwin]
    split
    · exact absurd ⟨_, rfl⟩ hm
    · split
      · exact .inr rfl
      · exact h
    · exact h

/-- A window opens with empty counters. -/
theorem windowOpen_of_opens (d : Dock) (w : WindowLog) (h : WindowInv d.anti w)
    (ho : d.anti.OpensWindow) :
    WindowOpen (step d .snoreRun).anti (watchWindow w d .snoreRun) := by
  obtain ⟨hs, hold, htrig⟩ :=
    AntiSnore.run_of_opensWindow d.anti d.mfpMainboxSupportsSoftStart ho
  have hr := refreshed_apply d.anti (antiOp d .snoreRun) h.intensity h.refreshed
  rw [watchWindow, step_anti]
  simp only [antiOp, AntiOp.apply] at hr ⊢
  refine ⟨hr.resolve_left fun h0 => ?_, ?_, ?_⟩
  · rw [htrig] at h0
    exact absurd ho.2.2 (by rw [h0]; exact UInt32.lt_irrefl 0)
  · simp [hs, ho]
  · simp [hold, ho]

theorem windowInv_step (d : Dock) (w : WindowLog) (e : Event) (h : WindowInv d.anti w) :
    WindowInv (step d e).anti (watchWindow w d e) := by
  refine ⟨?_, ?_, ?_, fun hopen => ?_⟩
  · rw [step_anti]
    exact intensity_apply_le _ _ (antiOp_allowed d e) h.intensity
  · rw [step_anti]
    exact trig_apply _ _ h.trig
  · rw [step_anti]
    exact refreshed_apply _ _ h.intensity h.refreshed
  · by_cases ho : e = .snoreRun ∧ d.anti.OpensWindow
    · obtain ⟨rfl, ho⟩ := ho
      exact windowOpen_of_opens d w h ho
    · have hk := (window_step d e ho).resolve_left hopen
      obtain ⟨htrig, htimer, hnub⟩ := h.opened (hk.timerS ▸ hopen)
      refine ⟨?_, ?_, ?_⟩
      · rw [hk.trigTimer, htrig]
        exact AntiSnore.snoreWindowTicks_congr hk.runMode.symm
      · rw [timer_step, hk.timerS, htimer, watchWindow]
        simp only [if_neg ho]
        split
        · rw [UInt32.ofNat_add, UInt32.add_assoc]
          rfl
        · rfl
      · rw [snoreNub_step, hk.oldsnoreNub, hnub, watchWindow]
        simp only [if_neg ho]
        split
        · rw [List.length_cons, UInt16.ofNat_add, UInt16.add_assoc]
          rfl
        · rfl

theorem windowInv_runFrom (b : Boot) (es : List Event) :
    WindowInv (runFrom b es).anti (windowLog b es) :=
  monitor_invariant (fun d w e h => windowInv_step d w e h) (initial_boot b).windowInv es

/-! ### When a lift starts -/

section closing
variable {a : AntiSnore} {w : WindowLog}

/-- A window that closes has lasted longer than the window of the mode. -/
theorem ticks_of_closes (h : WindowInv a w) (hc : a.ClosesWindow) :
    a.snoreWindowTicks.toNat < w.ticks := by
  obtain ⟨-, -, ht, hlt⟩ := a.closesWindow_iff.mp hc
  obtain ⟨htrig, htimer, -⟩ := h.opened ht
  have hsub : a.timer - a.snoreIntervention.timerS = UInt32.ofNat w.ticks := by
    rw [htimer, UInt32.add_comm, UInt32.add_sub_cancel]
  rw [hsub, htrig, gt_iff_lt, UInt32.lt_iff_toNat_lt, UInt32.toNat_ofNat'] at hlt
  exact Nat.lt_of_lt_of_le hlt (Nat.mod_le _ _)

/-- The count a closing window is judged by is the number of its edges, modulo `2 ^ 16`. -/
theorem windowCount_of_closes (h : WindowInv a w) (hc : a.ClosesWindow) :
    a.windowCount.toNat = w.edges.length % 2 ^ 16 := by
  obtain ⟨-, -, ht, -⟩ := a.closesWindow_iff.mp hc
  obtain ⟨-, -, hnub⟩ := h.opened ht
  have hsub : a.windowCount = UInt16.ofNat w.edges.length := by
    rw [AntiSnore.windowCount, UInt32.toUInt16_sub, UInt16.toUInt16_toUInt32, hnub,
      UInt16.add_comm, UInt16.add_sub_cancel]
  rw [hsub, UInt16.toNat_ofNat']

/-- The levels that can trigger have a threshold. -/
theorem threshold_ne (a : AntiSnore) {l : UInt8} (h0 : l ≠ 0) (hle : l ≤ 3) :
    a.snorePeriodThreshold l ≠ 0xFFFF := by
  have h123 : l = 1 ∨ l = 2 ∨ l = 3 := by
    rw [ne_eq, ← UInt8.toNat_inj] at h0
    rw [UInt8.le_iff_toNat_le] at hle
    simp only [← UInt8.toNat_inj, UInt8.reduceToNat] at *
    omega
  rw [AntiSnore.snorePeriodThreshold]
  rcases h123 with rfl | rfl | rfl <;> split <;> decide

/-- The periodic function resets the cycle with `snore_try_cycle_reset_tick`. -/
theorem liftStage_cycleReset (a : AntiSnore) :
    a.runPrelude.snoreIntervention.liftStage =
      a.readAntiSnoreIntensity.snoreTryCycleResetTick.snoreIntervention.liftStage := by
  rw [AntiSnore.runPrelude, AntiSnore.processTick]
  split <;> rfl

theorem startsLift_of_windowInv (h : WindowInv a w) :
    a.StartsLift ↔
      a.ClosesWindow ∧ a.snoreWindowTicks.toNat < w.ticks ∧
      (1 ≤ a.antiSnoreIntensity ∧ a.antiSnoreIntensity ≤ 3) ∧
      (a.snorePeriodThreshold a.antiSnoreIntensity).toNat ≤ w.edges.length % 2 ^ 16 ∧
      a.readAntiSnoreIntensity.snoreTryCycleResetTick.snoreIntervention.liftStage < siSegMax := by
  rw [a.startsLift_iff h.trig, AntiSnore.Triggers, liftStage_cycleReset]
  constructor
  · rintro ⟨⟨hc, hthr⟩, -, hstage⟩
    rw [UInt16.le_iff_toNat_le, windowCount_of_closes h hc] at hthr
    exact ⟨hc, ticks_of_closes h hc, ⟨AntiSnore.intensity_ge_one hc.1, h.intensity⟩, hthr, hstage⟩
  · rintro ⟨hc, -, -, hthr, hstage⟩
    rw [← windowCount_of_closes h hc, ← UInt16.le_iff_toNat_le] at hthr
    exact ⟨⟨hc, hthr⟩, threshold_ne a hc.1 h.intensity, hstage⟩

end closing

/-- Not more lifts than closed windows. -/
theorem liftStarts_le_closed (b : Boot) (es : List Event) :
    (runFrom b es).liftStarts.length ≤ (windowLog b es).closed := by
  have hboot : (boot b).liftStarts.length ≤ ({} : WindowLog).closed := by
    rw [(silent_boot b).1]
    exact Nat.le_refl 0
  refine (monitor_invariant
    (I := fun (d : Dock) w => WindowInv d.anti w ∧ d.liftStarts.length ≤ w.closed) ?_
    ⟨(initial_boot b).windowInv, hboot⟩ es).2
  · rintro d w e ⟨h, hle⟩
    refine ⟨windowInv_step d w e h, ?_⟩
    rw [liftStarts_step, watchWindow]
    dsimp only
    by_cases hs : e = .snoreRun ∧ d.anti.StartsLift
    · have hc := ((startsLift_of_windowInv h).mp hs.2).1
      rw [if_pos hs, if_pos ⟨hs.1, hc⟩]
      omega
    · rw [if_neg hs]
      split <;> omega

/-- In any run: a lift is started exactly by a call of the periodic function in which a window
closes that has lasted longer than the window of the mode, with at least the threshold's number
of snore edges (modulo `2 ^ 16`) at a level in 1..3, and a stage left after the cycle reset.  A
step starts at most one lift, and there are at most as many as closed windows. -/
theorem lift_started_iff (b : Boot) (es : List Event) (e : Event) :
    let d := runFrom b es
    let w := windowLog b es
    ((step d e).liftStarts.length = d.liftStarts.length + 1 ↔
      e = .snoreRun ∧ d.anti.ClosesWindow ∧ d.anti.snoreWindowTicks.toNat < w.ticks ∧
      (1 ≤ d.anti.antiSnoreIntensity ∧ d.anti.antiSnoreIntensity ≤ 3) ∧
      (d.anti.snorePeriodThreshold d.anti.antiSnoreIntensity).toNat ≤ w.edges.length % 2 ^ 16 ∧
      d.anti.readAntiSnoreIntensity.snoreTryCycleResetTick.snoreIntervention.liftStage <
        siSegMax) ∧
    d.liftStarts.length ≤ (step d e).liftStarts.length ∧
    (step d e).liftStarts.length ≤ d.liftStarts.length + 1 ∧
    d.liftStarts.length ≤ w.closed := by
  intro d w
  rw [← startsLift_of_windowInv (windowInv_runFrom b es), liftStarts_step]
  refine ⟨?_, ?_, ?_, liftStarts_le_closed b es⟩
  · by_cases hs : e = .snoreRun ∧ (runFrom b es).anti.StartsLift
    · simp [hs, d]
    · simp [hs, d]
  · omega
  · split <;> omega

/-! ### Where the counted snores come from -/

/-- As long as the open window has seen no long press, the function has been on since it was
opened. -/
structure EdgesInv (a : AntiSnore) (w : WindowLog) : Prop where
  enabled : a.snoreIntervention.timerS ≠ 0 → w.crossed = false → a.antiSnoreIntensity ≠ 0
  edges : a.snoreIntervention.timerS ≠ 0 → w.crossed = false →
    ∀ s ∈ w.edges, s.enabled = true ∧ s.epoch = w.epoch

theorem nextLevel_ne (l : UInt8) : AntiSnore.nextLevel l ≠ 0 := by
  rw [AntiSnore.nextLevel]
  split
  · next h =>
    rw [UInt8.lt_iff_toNat_lt] at h
    rw [ne_eq, ← UInt8.toNat_inj, UInt8.toNat_add]
    simp only [UInt8.reduceToNat] at *
    omega
  · decide

/-- The level goes to 0 by the long press, or with the open window. -/
theorem intensity_step_ne (d : Dock) (e : Event) (hl : d.anti.antiSnoreIntensity ≠ 0)
    (hp : ¬ d.LongPressOff e) (ht : (step d e).anti.snoreIntervention.timerS ≠ 0) :
    (step d e).anti.antiSnoreIntensity ≠ 0 := by
  rw [step_anti] at ht ⊢
  rw [intensity_apply]
  cases hcase : antiOp d e with
  | levelOff =>
      obtain ⟨key, rfl, hk⟩ := (antiOp_kind d e).2.2.2 hcase
      exact absurd hk hp
  | levelStep => exact nextLevel_ne _
  | configure pwm tmr l =>
      rintro rfl
      rw [hcase] at ht
      exact ht rfl
  | _ => exact hl

theorem edgesInv_step (d : Dock) (w : WindowLog) (e : Event) (h : EdgesInv d.anti w) :
    EdgesInv (step d e).anti (watchWindow w d e) := by
  by_cases ho : e = .snoreRun ∧ d.anti.OpensWindow
  · obtain ⟨rfl, ho⟩ := ho
    refine ⟨fun _ _ => ?_, fun _ _ => ?_⟩
    · rw [step_anti, intensity_apply]
      exact ho.1
    · simp [watchWindow, ho]
  · -- the window open before the step is still open, and the step is no long press
    have hkeep : (step d e).anti.snoreIntervention.timerS ≠ 0 →
        (watchWindow w d e).crossed = false →
        d.anti.snoreIntervention.timerS ≠ 0 ∧ ¬ d.LongPressOff e ∧ w.crossed = false := by
      intro ht hc
      have hk := (window_step d e ho).resolve_left ht
      have hn : ¬ ((e = .snoreRun ∧ d.anti.OpensWindow) ∨
          (step d e).anti.snoreIntervention.timerS = 0) := not_or.mpr ⟨ho, ht⟩
      simp only [watchWindow, if_neg hn] at hc
      refine ⟨hk.timerS ▸ ht, ?_, ?_⟩
      · intro hp
        simp [hp] at hc
      · by_contra hne
        simp [hne] at hc
    refine ⟨fun ht hc => ?_, fun ht hc => ?_⟩
    · obtain ⟨ht₀, hp, hc₀⟩ := hkeep ht hc
      exact intensity_step_ne d e (h.enabled ht₀ hc₀) hp ht
    · obtain ⟨ht₀, -, hc₀⟩ := hkeep ht hc
      have hl := h.enabled ht₀ hc₀
      have hold := h.edges ht₀ hc₀
      have hepoch : (watchWindow w d e).epoch = w.epoch := if_neg fun hs => hl hs.1
      rw [hepoch]
      simp only [watchWindow, if_neg ho]
      split
      · intro s hs
        rcases List.mem_cons.mp hs with rfl | hs
        · exact ⟨by simpa using hl, rfl⟩
        · exact hold s hs
      · exact hold

theorem Initial.edgesInv {a : AntiSnore} (h : Initial a) : EdgesInv a {} :=
  ⟨fun ht => absurd h.timerS ht, fun ht => absurd h.timerS ht⟩

theorem edgesInv_runFrom (b : Boot) (es : List Event) :
    EdgesInv (runFrom b es).anti (windowLog b es) :=
  monitor_invariant (fun d w e h => edgesInv_step d w e h) (initial_boot b).edgesInv es

/-- In any run: a window that closes and has seen no long press is judged by snores that all
came while the function was on, after it was switched on last. -/
theorem counted_snores (b : Boot) (es : List Event)
    (hc : (runFrom b es).anti.ClosesWindow) (hx : (windowLog b es).crossed = false) :
    (step (runFrom b es) .snoreRun).anti.sf.snoreNubperiod.toNat =
        (windowLog b es).edges.length % 2 ^ 16 ∧
      ∀ s ∈ (windowLog b es).edges, s.enabled = true ∧ s.epoch = (windowLog b es).epoch := by
  have ht := ((AntiSnore.closesWindow_iff _).mp hc).2.2.1
  refine ⟨?_, (edgesInv_runFrom b es).edges ht hx⟩
  rw [step_anti]
  refine (congrArg UInt16.toNat (AntiSnore.run_snoreNubperiod_of_closes _ _ hc)).trans ?_
  exact windowCount_of_closes (windowInv_runFrom b es) hc

/-- Without key presses no window is crossed. -/
theorem crossed_of_no_key (b : Boot) (es : List Event) (h : ∀ e ∈ es, ∀ key, e ≠ .control key) :
    (windowLog b es).crossed = false := by
  refine monitor_invariant_along
    (I := fun _ (w : WindowLog) => w.crossed = false) ?_ rfl (along_of_forall fun e he _ => h e he)
  intro d w e hw he
  have hp : ¬ d.LongPressOff e := by
    cases e with
    | control key => exact absurd rfl (he key)
    | _ => exact id
  simp [watchWindow, hp, hw]

/-- Two snores in a window that closes undisturbed. -/
theorem counted_snores_undisturbed :
    let es := [.tick, setMode 1, .snoreRun] ++ List.replicate 2 .snoreEdge ++ wait 6001
    (runFrom (bootAt 3) es).anti.ClosesWindow ∧ (windowLog (bootAt 3) es).crossed = false ∧
    (step (runFrom (bootAt 3) es) .snoreRun).anti.sf.snoreNubperiod.toNat =
        (windowLog (bootAt 3) es).edges.length % 2 ^ 16 ∧
      ∀ s ∈ (windowLog (bootAt 3) es).edges,
        s.enabled = true ∧ s.epoch = (windowLog (bootAt 3) es).epoch := by
  intro es
  have hc : (runFrom (bootAt 3) es).anti.ClosesWindow := by
    rw [runFrom_append, exec_wait]
    decide +kernel
  have hx : (windowLog (bootAt 3) es).crossed = false := by
    refine crossed_of_no_key _ _ fun e he key => ?_
    rcases List.mem_append.mp he with he | he
    · rintro rfl
      simp [setMode] at he
    · rw [eq_tick_of_mem_wait he]
      simp
  exact ⟨hc, hx, counted_snores (bootAt 3) es hc hx⟩

/-- A window that is open when key 3 switches the function off stays open: five snores of the
disabled period are counted after the function is on again at the same level, and they lift. -/
theorem snores_counted_while_off :
    let d₁ := exec step (runFrom (bootAt 3) [.tick, setMode 1, .snoreRun]) holdKey3
    let d₂ := exec step d₁ (List.replicate 5 .snoreEdge)
    let d₃ := exec step d₂ (setLevel 3 :: wait 6001)
    d₁.anti.antiSnoreIntensity = 0 ∧ d₂.anti.antiSnoreIntensity = 0 ∧ d₃.anti.ClosesWindow ∧
    (step d₃ .snoreRun).anti.sf.snoreNubperiod = 5 ∧
    (step d₃ .snoreRun).liftStarts.length = 1 := by
  have h₁ := exec_holdKey3 (runFrom (bootAt 3) [.tick, setMode 1, .snoreRun])
    (by decide +kernel) (by decide +kernel)
  simp only [h₁]
  rw [exec_cons, exec_wait]
  decide +kernel

/-! ### Snores between the windows

A window is closed in one call and the next one opened in a later call; `snore_debug_window_tick`
starts its next window, with a new base, in the call that ends one. -/

/-- The snore edges beside the counts the code stores for its windows. -/
structure SnoreLedger where
  /-- The counts of the closed windows, added up. -/
  total : ℕ := 0
  /-- Edges from the opening of the first closed window to the closing of the last. -/
  span : ℕ := 0
  /-- Those of them that came outside of every closed window. -/
  missed : ℕ := 0
  /-- How many times the count of a closed window has wrapped. -/
  wraps : ℕ := 0
  /-- A window has been closed. -/
  started : Bool := false
  /-- Edges since the last closing; before the first, since the last opening. -/
  pending : ℕ := 0
  /-- Edges of the window opened last. -/
  here : ℕ := 0
deriving DecidableEq, Repr

def countSnores (g : SnoreLedger) (d : Dock) (e : Event) : SnoreLedger :=
  if e = .snoreRun ∧ d.anti.ClosesWindow then
    { total := g.total + (step d e).anti.sf.snoreNubperiod.toNat
      span := g.span + g.pending
      missed := g.missed + (g.pending - g.here)
      wraps := g.wraps + g.here / 2 ^ 16
      started := true }
  else if e = .snoreRun ∧ d.anti.OpensWindow then
    { g with here := 0, pending := if g.started then g.pending else 0 }
  else if e = .snoreEdge then
    { g with
      pending := g.pending + 1
      here := if d.anti.snoreIntervention.timerS = 0 then g.here else g.here + 1 }
  else g

/-- The ledger of a run that starts after `es`: a window that is open keeps its edges. -/
def openLedger (b : Boot) (es : List Event) : SnoreLedger :=
  if (runFrom b es).anti.snoreIntervention.timerS = 0 then {}
  else { pending := (windowLog b es).edges.length, here := (windowLog b es).edges.length }

/-- The ledger of the run `es` after `es₀`. -/
def snoreLedger (b : Boot) (es₀ es : List Event) : SnoreLedger :=
  (exec (monitor step countSnores) (runFrom b es₀, openLedger b es₀) es).2

/-- Level and run mode stay what they are, and the level is not 0. -/
def ConstantLevel (d : Dock) (e : Event) : Prop :=
  d.anti.antiSnoreIntensity ≠ 0 ∧
    (step d e).anti.antiSnoreIntensity = d.anti.antiSnoreIntensity ∧
    (step d e).anti.snoreIntervention.runMode = d.anti.snoreIntervention.runMode

/-- Every edge of the span is in the total, is missed or has wrapped away. -/
structure LedgerInv (a : AntiSnore) (w : WindowLog) (g : SnoreLedger) : Prop where
  balance : g.span = g.total + g.missed + 2 ^ 16 * g.wraps
  here_le : g.here ≤ g.pending
  opened : a.snoreIntervention.timerS ≠ 0 → g.here = w.edges.length

theorem ledgerInv_openLedger (b : Boot) (es : List Event) :
    LedgerInv (runFrom b es).anti (windowLog b es) (openLedger b es) := by
  rw [openLedger]
  split
  · next h => exact ⟨rfl, Nat.le_refl _, fun ht => absurd h ht⟩
  · exact ⟨rfl, Nat.le_refl _, fun _ => rfl⟩

theorem ledgerInv_step (d : Dock) (w : WindowLog) (g : SnoreLedger) (e : Event)
    (hw : WindowInv d.anti w) (h : LedgerInv d.anti w g) :
    LedgerInv (step d e).anti (watchWindow w d e) (countSnores g d e) := by
  obtain ⟨hbal, hle, hopen⟩ := h
  rw [countSnores]
  split
  · next hc =>
    -- the closed window takes its edges, modulo `2 ^ 16`, into the total
    obtain ⟨rfl, hc⟩ := hc
    have ht := ((AntiSnore.closesWindow_iff _).mp hc).2.2.1
    have hn : (step d .snoreRun).anti.sf.snoreNubperiod.toNat = g.here % 2 ^ 16 := by
      rw [hopen ht, ← windowCount_of_closes hw hc, step_anti]
      exact congrArg UInt16.toNat (AntiSnore.run_snoreNubperiod_of_closes _ _ hc)
    have hclosed : (step d .snoreRun).anti.snoreIntervention.timerS = 0 := by
      rw [step_anti]
      exact AntiSnore.run_timerS_of_closes _ _ hc
    refine ⟨?_, Nat.le_refl 0, fun hne => absurd hclosed hne⟩
    have hdiv := Nat.div_add_mod g.here (2 ^ 16)
    simp only [hn]
    omega
  · split
    · next ho =>
      refine ⟨hbal, Nat.zero_le _, fun _ => ?_⟩
      simp [watchWindow, ho]
    · next ho =>
      have hkeep := window_step d e ho
      split
      · next he =>
        subst he
        refine ⟨hbal, ?_, fun hne => ?_⟩
        · dsimp only
          split <;> omega
        · have ht := (hkeep.resolve_left hne).timerS ▸ hne
          simp [watchWindow, ht, hopen ht]
      · next he =>
        refine ⟨hbal, hle, fun hne => ?_⟩
        have ht := (hkeep.resolve_left hne).timerS ▸ hne
        simp [watchWindow, ho, he, hopen ht]

theorem ledgerInv_snoreLedger (b : Boot) (es₀ es : List Event) :
    ∃ w, LedgerInv (exec step (runFrom b es₀) es).anti w (snoreLedger b es₀ es) := by
  obtain ⟨w, -, h⟩ : ∃ w, WindowInv (exec step (runFrom b es₀) es).anti w ∧
      LedgerInv (exec step (runFrom b es₀) es).anti w (snoreLedger b es₀ es) :=
    monitor_invariant (I := fun (d : Dock) g => ∃ w, WindowInv d.anti w ∧ LedgerInv d.anti w g)
      (fun d g e ⟨w, hw, h⟩ => ⟨_, windowInv_step d w e hw, ledgerInv_step d w g e hw h⟩)
      ⟨_, windowInv_runFrom b es₀, ledgerInv_openLedger b es₀⟩ es
  exact ⟨w, h⟩

/-- In any run, from any state: the counts of the closed windows add up to the edges from the
opening of the first to the closing of the last, if and only if none of these edges came outside
of the windows and none of the windows has 2^16 edges or more. -/
theorem windows_lossless_iff (b : Boot) (es₀ es : List Event) :
    let g := snoreLedger b es₀ es
    g.total = g.span ↔ g.missed = 0 ∧ g.wraps = 0 := by
  obtain ⟨w, hbal, -, -⟩ := ledgerInv_snoreLedger b es₀ es
  intro g
  change g.span = g.total + g.missed + 2 ^ 16 * g.wraps at hbal
  omega

/-- The clock, the snore edges and the periodic call change neither the level nor the mode. -/
theorem along_constantLevel {d : Dock} {es : List Event} (hd : d.anti.antiSnoreIntensity ≠ 0)
    (h : ∀ e ∈ es, e = .tick ∨ e = .snoreEdge ∨ e = .snoreRun) :
    Along step ConstantLevel d es := by
  have hkeep : ∀ (d : Dock) (e : Event), e = .tick ∨ e = .snoreEdge ∨ e = .snoreRun →
      (step d e).anti.antiSnoreIntensity = d.anti.antiSnoreIntensity ∧
        (step d e).anti.snoreIntervention.runMode = d.anti.snoreIntervention.runMode := by
    rintro d e he
    rw [step_anti, intensity_apply, runMode_apply]
    rcases he with rfl | rfl | rfl <;> exact ⟨rfl, rfl⟩
  refine Along.of_invariant (I := fun d => d.anti.antiSnoreIntensity ≠ 0)
    (fun d e hd he => ?_) (fun d e hd he => ⟨hd, hkeep d e he⟩) hd
    (along_of_forall fun e he _ => h e he)
  rw [(hkeep d e he).1]
  exact hd

theorem exec_countSnores_wait (d : Dock) (g : SnoreLedger) (n : ℕ) :
    exec (monitor step countSnores) (d, g) (wait n) = (exec step d (wait n), g) := by
  have hticks : Along (monitor step countSnores) (fun _ e => e = .tick) (d, g) (wait n) :=
    along_of_forall fun e he _ => eq_tick_of_mem_wait he
  refine Prod.ext (exec_monitor_fst ..) ?_
  refine exec_constant (I := fun _ => True) (f := Prod.snd) (fun _ _ _ _ => trivial)
    (fun p e _ he => ?_) trivial hticks
  subst he
  rfl

/-- A snore between the call that closes a window and the one that opens the next is counted in
none. -/
theorem snore_between_windows : ¬ ∀ (b : Boot) (es₀ es : List Event),
    Along step ConstantLevel (runFrom b es₀) es →
      (snoreLedger b es₀ es).total = (snoreLedger b es₀ es).span := by
  intro h
  have hconst : Along step ConstantLevel (runFrom (bootAt 3) [.tick, setMode 1])
      ([.snoreRun] ++ wait 6001 ++ [.snoreRun, .snoreEdge, .snoreRun] ++ wait 6001 ++
        [.snoreRun]) := by
    refine along_constantLevel (by decide +kernel) fun e he => ?_
    simp only [List.mem_append, List.mem_cons, List.not_mem_nil, or_false] at he
    rcases he with (((rfl | he) | rfl | rfl | rfl) | he) | rfl
    case inl.inl.inl.inr | inl.inr => exact .inl (eq_tick_of_mem_wait he)
    all_goals simp
  have hsum := h _ _ _ hconst
  simp only [snoreLedger, exec_append, exec_cons, exec_nil, monitor, exec_countSnores_wait,
    exec_wait] at hsum
  revert hsum
  decide +kernel

end ErgoDock
