import ErgoDock.LedRequests
import ErgoDock.Pairing
import ErgoDock.Lib.Tally

/-! # How long the tasks of the LEDs last

A request counts its time in 100 ms steps and its flashes in toggles, in fields of 16 and 8 bits.
As long as nothing else reaches the LED (`Undisturbed`), its task is counted down by the handler
alone: `OnInv` and `FlashInv` say where it is after so many calls, and from them follow exactly when
it ends. -/

namespace ErgoDock

open Machine

namespace LedModule

/-! ### One LED -/

/-- What there is of an LED: its record, and the level of the pin of its colour. -/
def view (m : LedModule) (i : Fin 4) : LedCtrl × Option Bool :=
  (m.ledCtrl i, (ledGetPinByColor i (m.ledCtrl i).color).map m.level)

/-- What a callback does to the LEDs. -/
def afterCallback (callback : Option LedCallback) (m : LedModule) : LedModule :=
  if callback = some .voiceRestoreBlue then m.ledVoiceRestoreBlue else m

/-- The history of a task: the calls of the handler, those at which it inverted the pin, and the
ends of the task, each with the callback that was run. -/
structure TaskLog where
  calls : ℕ := 0
  toggled : List ℕ := []
  ended : List (Option LedCallback) := []
deriving DecidableEq

def watchTask (i : Fin 4) (w : TaskLog) (m : LedModule) : LedCall → TaskLog
  | .handler =>
      { calls := w.calls + 1
        toggled := if (m.ledCtrl i).FlashDue then w.toggled ++ [w.calls + 1] else w.toggled
        ended := if (m.ledCtrl i).Expires m.is100msTick then w.ended ++ [(m.ledCtrl i).callback]
          else w.ended }
  | _ => w

/-- The calls so far, with the history of the LED's task. -/
def taskRun (i : Fin 4) (m : LedModule) (cs : List LedCall) : LedModule × TaskLog :=
  exec (monitor ledStep (watchTask i)) (m, {}) cs

def taskLog (i : Fin 4) (m : LedModule) (cs : List LedCall) : TaskLog := (taskRun i m cs).2

/-- Until the task ends, the handler does to the LED what the LED's own turn does, and the other
calls do nothing to it. -/
def Undisturbed (i : Fin 4) (p : LedModule × TaskLog) (c : LedCall) : Prop :=
  p.2.ended = [] →
    if c = .handler then (ledStep p.1 c).view i = (task10ms p.1.is100msTick p.1 i).view i
    else (ledStep p.1 c).view i = p.1.view i

/-- The handler ends the task: the LED is off and its pin is dark when the callback is run. -/
def EndsOff (m : LedModule) (i : Fin 4) (color : LedColor) (callback : Option LedCallback) : Prop :=
  ∃ off : LedModule, (off.ledCtrl i).mode = .off ∧ (off.ledCtrl i).callback = none ∧
    ¬ off.Lit i color ∧ (ledStep m .handler).view i = (off.afterCallback callback).view i

section turn
variable (m : LedModule) (i : Fin 4) (b : Bool)

theorem lit_of_view {m' : LedModule} (h : m'.view i = m.view i) {color : LedColor}
    (hc : (m.ledCtrl i).color = color) : m'.Lit i color ↔ m.Lit i color := by
  have h₁ : m'.ledCtrl i = m.ledCtrl i := congrArg Prod.fst h
  have h₂ := congrArg Prod.snd h
  simp only [view, h₁, hc] at h₂
  rw [Lit, Lit, h₂]

/-- The own turn of a task that goes on: it is counted, and a due flash inverts the pin. -/
theorem turn_running (hm : (m.ledCtrl i).mode ≠ .off) (he : ¬ (m.ledCtrl i).Expires b)
    (hp : ledGetPinByColor i (m.ledCtrl i).color ≠ none) :
    (task10ms b m i).ledCtrl i = (m.ledCtrl i).aged b ∧
      ((task10ms b m i).Lit i (m.ledCtrl i).color ↔
        if (m.ledCtrl i).FlashDue then ¬ m.Lit i (m.ledCtrl i).color
        else m.Lit i (m.ledCtrl i).color) := by
  refine ⟨m.ledCtrl_task10ms_self i b hm he, ?_⟩
  obtain ⟨pin, hpin⟩ := Option.ne_none_iff_exists'.mp hp
  have hlevel : (task10ms b m i).level pin = !m.litAfter i := by
    simp only [task10ms]
    rw [if_neg hm, if_neg he, level_retask, LedCtrl.color_aged, if_pos hpin]
  simp only [Lit, hpin, Option.map_some, Option.some.injEq, hlevel, litAfter, Option.getD_some]
  split <;> cases m.level pin <;> simp

/-- The own turn that ends the task. -/
theorem turn_expires (he : (m.ledCtrl i).Expires b) :
    task10ms b m i = (m.retask i (cleared (m.ledCtrl i).flashed) false).afterCallback
      (m.ledCtrl i).callback := by
  have hm : (m.ledCtrl i).mode ≠ .off := by
    rcases he with ⟨⟨h, -⟩, -⟩ | ⟨h, -⟩
    · rw [h]
      decide
    · exact h
  simp only [task10ms]
  rw [if_neg hm, if_pos he]
  simp only [finish, LedCtrl.callback_flashed]
  rfl

theorem endsOff_of_expires (he : (m.ledCtrl i).Expires m.is100msTick)
    (hu : (ledStep m .handler).view i = (task10ms m.is100msTick m i).view i) :
    EndsOff m i (m.ledCtrl i).color (m.ledCtrl i).callback := by
  refine ⟨m.retask i (cleared (m.ledCtrl i).flashed) false, ?_, ?_, ?_, ?_⟩
  · rw [ledCtrl_retask, Function.update_self]
    rfl
  · rw [ledCtrl_retask, Function.update_self]
    rfl
  · rw [lit_iff]
    rintro ⟨pin, hpin, hlevel⟩
    rw [level_retask, if_pos hpin] at hlevel
    split at hlevel <;> cases hlevel
  · rw [hu, turn_expires m i _ he]

end turn

/-! ### Until the end -/

section run
variable {i : Fin 4} {p : LedModule × TaskLog} {c : LedCall} {cs : List LedCall}

theorem ended_monitor (h : (monitor ledStep (watchTask i) p c).2.ended = []) : p.2.ended = [] := by
  cases c with
  | handler =>
      simp only [monitor_snd, watchTask] at h
      split at h
      · exact absurd h (List.append_ne_nil_of_right_ne_nil _ (List.cons_ne_nil _ _))
      · exact h
  | _ => exact h

theorem ended_exec (h : (exec (monitor ledStep (watchTask i)) p cs).2.ended = []) :
    p.2.ended = [] := by
  induction cs generalizing p with
  | nil => exact h
  | cons c cs ih => exact ended_monitor (ih h)

/-- The rule for a task that goes on: what the undisturbed calls keep that do not end it. -/
theorem running_invariant {I : LedModule × TaskLog → Prop}
    (hstep : ∀ p c, I p → Undisturbed i p c → p.2.ended = [] →
      (monitor ledStep (watchTask i) p c).2.ended = [] → I (monitor ledStep (watchTask i) p c))
    (h : I p) (hu : Along (monitor ledStep (watchTask i)) (Undisturbed i) p cs)
    (hend : (exec (monitor ledStep (watchTask i)) p cs).2.ended = []) :
    I (exec (monitor ledStep (watchTask i)) p cs) := by
  induction cs generalizing p with
  | nil => exact h
  | cons c cs ih =>
      have hnext := ended_exec (p := monitor ledStep (watchTask i) p c) hend
      exact ih (hstep p c h hu.1 (ended_monitor hnext) hnext) hu.2 hend

variable {m : LedModule}

theorem taskRun_fst : (taskRun i m cs).1 = exec ledStep m cs := exec_monitor_fst ..

theorem taskRun_append (cs cs' : List LedCall) : taskRun i m (cs ++ cs') =
    exec (monitor ledStep (watchTask i)) (taskRun i m cs) cs' := exec_append ..

theorem taskRun_eq : taskRun i m cs = (exec ledStep m cs, taskLog i m cs) :=
  Prod.ext taskRun_fst rfl

theorem taskLog_handler (pre : List LedCall) : taskLog i m (pre ++ [.handler]) =
    watchTask i (taskLog i m pre) (exec ledStep m pre) .handler := by
  rw [taskLog, taskRun_append, taskRun_eq]
  rfl

/-- A task that has ended was ended by a call of the handler. -/
theorem exists_end (h : (taskLog i m cs).ended ≠ []) : ∃ pre post, cs = pre ++ .handler :: post ∧
    (taskLog i m pre).ended = [] ∧
      ((exec ledStep m pre).ledCtrl i).Expires (exec ledStep m pre).is100msTick := by
  obtain ⟨pre, c, post, rfl, hpre, hpost⟩ : ∃ pre c post, cs = pre ++ c :: post ∧
      ¬ (taskRun i m pre).2.ended ≠ [] ∧
        (monitor ledStep (watchTask i) (taskRun i m pre) c).2.ended ≠ [] :=
    exists_first_change (P := fun p : LedModule × TaskLog => p.2.ended ≠ []) (fun h => h rfl) h
  have hend : (taskLog i m pre).ended = [] := not_not.mp hpre
  cases c with
  | handler =>
      refine ⟨pre, post, rfl, hend, ?_⟩
      by_contra he
      have hlog := taskLog_handler (i := i) (m := m) pre
      rw [watchTask, if_neg he] at hlog
      rw [taskLog, taskRun_append] at hlog
      exact hpost ((congrArg TaskLog.ended hlog).trans hend)
  | _ => exact absurd hend hpost

end run

/-- The pin is lit until a call of the handler, not before the call `lo` nor after the call `hi`,
ends the task; its callback is run there and not before. -/
def LastsFor (m : LedModule) (i : Fin 4) (color : LedColor) (callback : Option LedCallback)
    (lo hi : ℕ) (cs : List LedCall) : Prop :=
  ∃ pre post, cs = pre ++ .handler :: post ∧
    lo ≤ (taskLog i m pre).calls + 1 ∧ (taskLog i m pre).calls + 1 ≤ hi ∧
    (∀ q, q <+: pre → (exec ledStep m q).Lit i color) ∧
    (taskLog i m pre).ended = [] ∧ (taskLog i m (pre ++ [.handler])).ended = [callback] ∧
    EndsOff (exec ledStep m pre) i color callback

/-- The handler inverts the pin, dark at first, exactly `n` times, every `interval` calls; the last
of these calls ends the task; its callback is run there and not before. -/
def FlashesFor (m : LedModule) (i : Fin 4) (color : LedColor) (callback : Option LedCallback)
    (n interval : ℕ) (cs : List LedCall) : Prop :=
  ∃ pre post, cs = pre ++ .handler :: post ∧
    (taskLog i m (pre ++ [.handler])).toggled = (List.range n).map (fun k => (k + 1) * interval) ∧
    (taskLog i m (pre ++ [.handler])).calls = n * interval ∧
    (∀ q, q <+: pre →
      ((exec ledStep m q).Lit i color ↔ (taskLog i m q).toggled.length % 2 = 1)) ∧
    (taskLog i m pre).ended = [] ∧ (taskLog i m (pre ++ [.handler])).ended = [callback] ∧
    EndsOff (exec ledStep m pre) i color callback

/-! ### The 100 ms step -/

theorem tick_iff {m : LedModule} {n : ℕ} (h : m.timer100ms.toNat = n % 10) :
    m.is100msTick = true ↔ (n + 1) % 10 = 0 := by
  rw [is100msTick, decide_eq_true_eq, ge_iff_le, UInt8.le_iff_toNat_le, UInt8.toNat_add, h]
  simp only [UInt8.reduceToNat]
  omega

theorem timer_handler {m : LedModule} {n : ℕ} (h : m.timer100ms.toNat = n % 10) :
    (ledStep m .handler).timer100ms.toNat = (n + 1) % 10 := by
  change m.ledCtrl10msHandler.timer100ms.toNat = _
  rw [timer100ms_handler]
  by_cases ht : m.is100msTick = true
  · rw [if_pos ht, (tick_iff h).mp ht]
    rfl
  · rw [if_neg ht, UInt8.toNat_add, h]
    rw [tick_iff h] at ht
    simp only [UInt8.reduceToNat]
    omega

/-! ### Undisturbed calls -/

section undisturbed
variable {i : Fin 4} {m : LedModule} {w : TaskLog} {c : LedCall}

/-- The handler, on an undisturbed task that goes on. -/
theorem undisturbed_handler (hu : Undisturbed i (m, w) .handler) (hend : w.ended = [])
    (hm : (m.ledCtrl i).mode ≠ .off) (he : ¬ (m.ledCtrl i).Expires m.is100msTick)
    (hp : ledGetPinByColor i (m.ledCtrl i).color ≠ none) :
    (ledStep m .handler).ledCtrl i = (m.ledCtrl i).aged m.is100msTick ∧
      ((ledStep m .handler).Lit i (m.ledCtrl i).color ↔
        if (m.ledCtrl i).FlashDue then ¬ m.Lit i (m.ledCtrl i).color
        else m.Lit i (m.ledCtrl i).color) := by
  have hview := hu hend
  rw [if_pos rfl] at hview
  obtain ⟨hrec, hlit⟩ := m.turn_running i m.is100msTick hm he hp
  have hcolor : ((task10ms m.is100msTick m i).ledCtrl i).color = (m.ledCtrl i).color := by
    rw [hrec, LedCtrl.color_aged]
  exact ⟨(congrArg Prod.fst hview).trans hrec, (lit_of_view _ i hview hcolor).trans hlit⟩

/-- The other calls, on an undisturbed task. -/
theorem undisturbed_other (hu : Undisturbed i (m, w) c) (hend : w.ended = []) (hc : c ≠ .handler) :
    (ledStep m c).ledCtrl i = m.ledCtrl i ∧
      ((ledStep m c).Lit i (m.ledCtrl i).color ↔ m.Lit i (m.ledCtrl i).color) ∧
      (ledStep m c).timer100ms = m.timer100ms ∧ watchTask i w m c = w := by
  have hview := hu hend
  rw [if_neg hc] at hview
  refine ⟨congrArg Prod.fst hview, lit_of_view m i hview rfl, timer100ms_ledStep hc, ?_⟩
  cases c with
  | handler => exact absurd rfl hc
  | _ => rfl

theorem not_expires_of_ended (h : (watchTask i w m .handler).ended = []) :
    ¬ (m.ledCtrl i).Expires m.is100msTick := by
  intro he
  rw [watchTask, if_pos he] at h
  exact List.append_ne_nil_of_right_ne_nil _ (List.cons_ne_nil _ _) h

end undisturbed

/-! ### A lit task -/

/-- Where an undisturbed task of `led_ctrl_set_on` is, with `k` steps of 100 ms to run: `phase` is
the count of the 100 ms step at the request. -/
structure OnInv (i : Fin 4) (color : LedColor) (callback : Option LedCallback) (k phase : ℕ)
    (p : LedModule × TaskLog) : Prop where
  timer : p.1.timer100ms.toNat = (phase + p.2.calls) % 10
  mode_eq : (p.1.ledCtrl i).mode = .on
  color_eq : (p.1.ledCtrl i).color = color
  callback_eq : (p.1.ledCtrl i).callback = callback
  timeout : (p.1.ledCtrl i).timeout100ms.toNat = k - (phase + p.2.calls) / 10
  lit : p.1.Lit i color
  running : k = 0 ∨ phase + p.2.calls < 10 * k

section on
variable {i : Fin 4} {color : LedColor} {callback : Option LedCallback} {k phase : ℕ}
  {p : LedModule × TaskLog}

theorem OnInv.mode_ne (h : OnInv i color callback k phase p) : (p.1.ledCtrl i).mode ≠ .off := by
  rw [h.mode_eq]
  decide

theorem OnInv.not_due (h : OnInv i color callback k phase p) : ¬ (p.1.ledCtrl i).FlashDue := by
  rintro ⟨hm, -⟩
  rw [h.mode_eq] at hm
  cases hm

/-- The call that ends the task. -/
theorem OnInv.expires_iff (h : OnInv i color callback k phase p) :
    (p.1.ledCtrl i).Expires p.1.is100msTick ↔ k ≠ 0 ∧ phase + (p.2.calls + 1) = 10 * k := by
  have hone : (p.1.ledCtrl i).timeout100ms = 1 ↔ k - (phase + p.2.calls) / 10 = 1 := by
    rw [← UInt16.toNat_inj, h.timeout]
    rfl
  have hrun := h.running
  unfold LedCtrl.Expires
  rw [tick_iff h.timer, hone]
  constructor
  · rintro (⟨hd, -⟩ | ⟨-, ht, h1⟩)
    · exact absurd hd h.not_due
    · omega
  · rintro ⟨hk, he⟩
    exact .inr ⟨h.mode_ne, by omega, by omega⟩

/-- The timeout counts the 100 ms steps. -/
theorem OnInv.timeout_aged (h : OnInv i color callback k phase p) :
    ((p.1.ledCtrl i).aged p.1.is100msTick).timeout100ms.toNat =
      k - (phase + (p.2.calls + 1)) / 10 := by
  have hrun := h.running
  have htimeout := h.timeout
  have hpos : (p.1.ledCtrl i).timeout100ms > 0 ↔ 0 < k - (phase + p.2.calls) / 10 := by
    rw [gt_iff_lt, UInt16.lt_iff_toNat_lt, htimeout]
    rfl
  simp only [LedCtrl.timeout100ms_aged, tick_iff h.timer, hpos]
  split
  · next ht =>
    rw [UInt16.toNat_sub_of_le _ _ (UInt16.le_iff_toNat_le.mpr (by rw [htimeout]; exact ht.2)),
      htimeout]
    simp only [UInt16.reduceToNat]
    omega
  · rw [htimeout]
    omega

theorem OnInv.step (hp : ledGetPinByColor i color ≠ none) (p : LedModule × TaskLog) (c : LedCall)
    (h : OnInv i color callback k phase p) (hu : Undisturbed i p c) (hend : p.2.ended = [])
    (hnext : (monitor ledStep (watchTask i) p c).2.ended = []) :
    OnInv i color callback k phase (monitor ledStep (watchTask i) p c) := by
  obtain ⟨m, w⟩ := p
  obtain rfl := h.color_eq
  by_cases hc : c = .handler
  · subst hc
    have he := not_expires_of_ended hnext
    have hgo := mt h.expires_iff.mpr he
    obtain ⟨hrec, hlit⟩ := undisturbed_handler hu hend h.mode_ne he hp
    rw [if_neg h.not_due] at hlit
    refine ⟨?_, ?_, ?_, ?_, ?_, ?_, ?_⟩
    all_goals simp only [monitor_fst, monitor_snd, hrec]
    · exact timer_handler h.timer
    · exact (LedCtrl.mode_aged ..).trans h.mode_eq
    · exact LedCtrl.color_aged ..
    · exact (LedCtrl.callback_aged ..).trans h.callback_eq
    · exact h.timeout_aged
    · exact hlit.mpr h.lit
    · have hrun : k = 0 ∨ phase + w.calls < 10 * k := h.running
      simp only [not_and] at hgo
      simp only [watchTask]
      omega
  · obtain ⟨hrec, hlit, htimer, hw⟩ := undisturbed_other hu hend hc
    refine ⟨?_, ?_, ?_, ?_, ?_, ?_, ?_⟩
    all_goals simp only [monitor_fst, monitor_snd, hrec, htimer, hw]
    · exact h.timer
    · exact h.mode_eq
    · exact h.callback_eq
    · exact h.timeout
    · exact hlit.mpr h.lit
    · exact h.running

end on

/-! ### A flashing task -/

/-- Where an undisturbed task of `led_ctrl_set_flash` without a timeout is: every `I` calls it
inverts the pin, `T` times in all, or for ever if `T` is 0. -/
structure FlashInv (i : Fin 4) (color : LedColor) (callback : Option LedCallback)
    (interval : UInt16) (T I : ℕ) (p : LedModule × TaskLog) : Prop where
  mode_eq : (p.1.ledCtrl i).mode = .flash
  color_eq : (p.1.ledCtrl i).color = color
  callback_eq : (p.1.ledCtrl i).callback = callback
  timeout : (p.1.ledCtrl i).timeout100ms = 0
  interval_eq : (p.1.ledCtrl i).flashInterval10ms = interval
  counter : (p.1.ledCtrl i).flashCounter.toNat = p.2.calls % I
  times : (p.1.ledCtrl i).flashTimes.toNat = T - p.2.calls / I
  toggled : p.2.toggled = (List.range (p.2.calls / I)).map fun k => (k + 1) * I
  lit : p.1.Lit i color ↔ p.2.toggled.length % 2 = 1
  running : T = 0 ∨ p.2.calls < T * I

/-- The divider of a flash: after one more call the quotient or the remainder has grown. -/
theorem succ_div_mod {n I : ℕ} (hI : 0 < I) :
    (n % I + 1 = I → (n + 1) % I = 0 ∧ (n + 1) / I = n / I + 1 ∧ n + 1 = (n / I + 1) * I) ∧
      (n % I + 1 ≠ I → (n + 1) % I = n % I + 1 ∧ (n + 1) / I = n / I) := by
  have hn : n = I * (n / I) + n % I := (Nat.div_add_mod n I).symm
  have hlt : n % I < I := Nat.mod_lt n hI
  constructor
  · intro h
    have he : n + 1 = (n / I + 1) * I := by
      rw [Nat.add_mul, Nat.one_mul, Nat.mul_comm]
      omega
    rw [he]
    exact ⟨Nat.mul_mod_left .., Nat.mul_div_cancel _ hI, rfl⟩
  · intro h
    have he : n + 1 = n % I + 1 + I * (n / I) := by omega
    rw [he, Nat.add_mul_mod_self_left, Nat.add_mul_div_left _ _ hI,
      Nat.mod_eq_of_lt (show n % I + 1 < I by omega),
      Nat.div_eq_of_lt (show n % I + 1 < I by omega)]
    exact ⟨rfl, Nat.zero_add _⟩

section flash
variable {i : Fin 4} {color : LedColor} {callback : Option LedCallback} {interval : UInt16}
  {T I : ℕ} {p : LedModule × TaskLog}

theorem FlashInv.mode_ne (h : FlashInv i color callback interval T I p) :
    (p.1.ledCtrl i).mode ≠ .off := by
  rw [h.mode_eq]
  decide

/-- The calls at which the pin is inverted. -/
theorem FlashInv.due_iff (hI : I = max 1 interval.toNat)
    (h : FlashInv i color callback interval T I p) :
    (p.1.ledCtrl i).FlashDue ↔ p.2.calls % I + 1 = I := by
  have hlt : p.2.calls % I < I := Nat.mod_lt _ (by omega)
  have hb := interval.toNat_lt
  have hsucc : ((p.1.ledCtrl i).flashCounter + 1).toNat = p.2.calls % I + 1 := by
    rw [UInt16.toNat_add, h.counter]
    simp only [UInt16.reduceToNat]
    omega
  unfold LedCtrl.FlashDue
  rw [and_iff_right h.mode_eq, h.interval_eq, ge_iff_le, UInt16.le_iff_toNat_le, hsucc]
  omega

/-- The call that ends the task. -/
theorem FlashInv.expires_iff (hI : I = max 1 interval.toNat)
    (h : FlashInv i color callback interval T I p) :
    (p.1.ledCtrl i).Expires p.1.is100msTick ↔ T ≠ 0 ∧ p.2.calls + 1 = T * I := by
  have hone : (p.1.ledCtrl i).flashTimes = 1 ↔ T - p.2.calls / I = 1 := by
    rw [← UInt8.toNat_inj, h.times]
    rfl
  have hno : ¬ (p.1.ledCtrl i).timeout100ms = 1 := by
    rw [h.timeout]
    decide
  have hIpos : 0 < I := by omega
  unfold LedCtrl.Expires
  rw [h.due_iff hI, hone]
  constructor
  · rintro (⟨hdue, h1⟩ | ⟨-, -, h1⟩)
    · have hT : T = p.2.calls / I + 1 := by omega
      rw [hT]
      exact ⟨Nat.succ_ne_zero _, ((succ_div_mod hIpos).1 hdue).2.2⟩
    · exact absurd h1 hno
  · rintro ⟨hT, he⟩
    have hdiv : p.2.calls / I = T - 1 := by
      refine Nat.div_eq_of_lt_le ?_ ?_
      · rw [Nat.sub_mul]
        omega
      · rw [Nat.sub_add_cancel (Nat.one_le_iff_ne_zero.mpr hT)]
        omega
    refine .inl ⟨?_, by omega⟩
    by_contra hne
    obtain ⟨hmod, -⟩ := (succ_div_mod hIpos).2 hne
    rw [he, Nat.mul_mod_left] at hmod
    omega

/-- One more call, in the counters and in the history. -/
theorem FlashInv.counting (hI : I = max 1 interval.toNat)
    (h : FlashInv i color callback interval T I p)
    (hgo : ¬ (T ≠ 0 ∧ p.2.calls + 1 = T * I)) :
    ((p.1.ledCtrl i).flashed).flashCounter.toNat = (p.2.calls + 1) % I ∧
      ((p.1.ledCtrl i).flashed).flashTimes.toNat = T - (p.2.calls + 1) / I ∧
      (if p.2.calls % I + 1 = I then p.2.toggled ++ [p.2.calls + 1] else p.2.toggled) =
        (List.range ((p.2.calls + 1) / I)).map (fun k => (k + 1) * I) ∧
      (T = 0 ∨ p.2.calls + 1 < T * I) := by
  have hIpos : 0 < I := by omega
  have hlast : T = 0 ∨ p.2.calls + 1 < T * I := by
    have hrun := h.running
    omega
  have htimes := h.times
  unfold LedCtrl.flashed
  by_cases hq : p.2.calls % I + 1 = I
  · obtain ⟨hmod, hdiv, hmul⟩ := (succ_div_mod hIpos).1 hq
    rw [if_pos ((h.due_iff hI).mpr hq), if_pos hq, hmod, hdiv]
    refine ⟨rfl, ?_, ?_, hlast⟩
    · dsimp only
      split
      · next hpos =>
        have hone : 1 ≤ (p.1.ledCtrl i).flashTimes :=
          UInt8.le_iff_toNat_le.mpr (UInt8.lt_iff_toNat_lt.mp hpos)
        rw [UInt8.toNat_sub_of_le _ _ hone, htimes, Nat.sub_sub]
        rfl
      · next hzero =>
        rw [gt_iff_lt, UInt8.not_lt, UInt8.le_iff_toNat_le, htimes] at hzero
        rw [htimes]
        simp only [UInt8.reduceToNat] at hzero
        omega
    · rw [List.range_succ, List.map_append, ← h.toggled, hmul]
      rfl
  · obtain ⟨hmod, hdiv⟩ := (succ_div_mod hIpos).2 hq
    rw [if_neg fun hd => hq ((h.due_iff hI).mp hd), if_pos h.mode_eq, if_neg hq, hmod, hdiv]
    refine ⟨?_, htimes, h.toggled, hlast⟩
    have hlt : p.2.calls % I < I := Nat.mod_lt _ hIpos
    have hb := interval.toNat_lt
    rw [UInt16.toNat_add, h.counter]
    simp only [UInt16.reduceToNat]
    omega

theorem FlashInv.step (hI : I = max 1 interval.toNat) (hp : ledGetPinByColor i color ≠ none)
    (p : LedModule × TaskLog) (c : LedCall) (h : FlashInv i color callback interval T I p)
    (hu : Undisturbed i p c) (hend : p.2.ended = [])
    (hnext : (monitor ledStep (watchTask i) p c).2.ended = []) :
    FlashInv i color callback interval T I (monitor ledStep (watchTask i) p c) := by
  obtain ⟨m, w⟩ := p
  obtain rfl := h.color_eq
  by_cases hc : c = .handler
  · subst hc
    have he := not_expires_of_ended hnext
    have hgo := mt (h.expires_iff hI).mpr he
    obtain ⟨hrec, hlit⟩ := undisturbed_handler hu hend h.mode_ne he hp
    have hdue : (m.ledCtrl i).FlashDue ↔ w.calls % I + 1 = I := h.due_iff hI
    have haged : (m.ledCtrl i).aged m.is100msTick = (m.ledCtrl i).flashed := by
      have ht : ¬ (m.ledCtrl i).timeout100ms > 0 := by
        rw [show (m.ledCtrl i).timeout100ms = 0 from h.timeout]
        decide
      rw [LedCtrl.aged, if_neg (not_and_of_not_right _ ht)]
    obtain ⟨n, j, hf⟩ := (m.ledCtrl i).flashed_eq
    have htask : ((m.ledCtrl i).flashed).mode = .flash ∧
        ((m.ledCtrl i).flashed).color = (m.ledCtrl i).color ∧
        ((m.ledCtrl i).flashed).callback = callback ∧
        ((m.ledCtrl i).flashed).timeout100ms = 0 ∧
        ((m.ledCtrl i).flashed).flashInterval10ms = interval := by
      rw [hf]
      exact ⟨h.mode_eq, rfl, h.callback_eq, h.timeout, h.interval_eq⟩
    obtain ⟨hmode, hcolor, hcallback, htimeout, hinterval⟩ := htask
    rw [haged] at hrec
    have hnext' : (watchTask i w m .handler).toggled =
        if w.calls % I + 1 = I then w.toggled ++ [w.calls + 1] else w.toggled := by
      simp only [watchTask, hdue]
    have hcount := h.counting hI hgo
    refine ⟨?_, ?_, ?_, ?_, ?_, ?_, ?_, ?_, ?_, ?_⟩
    all_goals simp only [monitor_fst, monitor_snd, hrec]
    · exact hmode
    · exact hcolor
    · exact hcallback
    · exact htimeout
    · exact hinterval
    · exact hcount.1
    · exact hcount.2.1
    · exact hnext'.trans hcount.2.2.1
    · have hodd : m.Lit i (m.ledCtrl i).color ↔ w.toggled.length % 2 = 1 := h.lit
      rw [hlit, hnext']
      by_cases hq : w.calls % I + 1 = I
      · rw [if_pos (hdue.mpr hq), if_pos hq, hodd, List.length_append, List.length_singleton]
        omega
      · rw [if_neg fun hd => hq (hdue.mp hd), if_neg hq]
        exact hodd
    · exact hcount.2.2.2
  · obtain ⟨hrec, hlit, htimer, hw⟩ := undisturbed_other hu hend hc
    refine ⟨?_, ?_, ?_, ?_, ?_, ?_, ?_, ?_, ?_, ?_⟩
    all_goals simp only [monitor_fst, monitor_snd, hrec, hw]
    · exact h.mode_eq
    · exact h.callback_eq
    · exact h.timeout
    · exact h.interval_eq
    · exact h.counter
    · exact h.times
    · exact h.toggled
    · exact hlit.trans h.lit
    · exact h.running

end flash

/-! ### The end of the task -/

section ends
variable {i : Fin 4} {m : LedModule} {cs pre post : List LedCall} {color : LedColor}
  {callback : Option LedCallback}

theorem along_pre (hu : Along (monitor ledStep (watchTask i)) (Undisturbed i) (m, {})
    (pre ++ .handler :: post)) :
    Along (monitor ledStep (watchTask i)) (Undisturbed i) (m, {}) pre ∧
      Undisturbed i (exec ledStep m pre, taskLog i m pre) .handler := by
  obtain ⟨h₁, h₂, -⟩ := (along_append _ _ _).mp hu
  exact ⟨h₁, taskRun_eq ▸ h₂⟩

theorem ended_of_initial {q : List LedCall} (hq : q <+: pre) (hend : (taskLog i m pre).ended = []) :
    (taskLog i m q).ended = [] := by
  obtain ⟨r, rfl⟩ := hq
  rw [taskLog, taskRun_append] at hend
  exact ended_exec hend

/-- The call that ends a task: the callback is run, once, when the LED is off. -/
theorem end_of_expires (hu : Undisturbed i (exec ledStep m pre, taskLog i m pre) .handler)
    (hend : (taskLog i m pre).ended = [])
    (he : ((exec ledStep m pre).ledCtrl i).Expires (exec ledStep m pre).is100msTick)
    (hcolor : ((exec ledStep m pre).ledCtrl i).color = color)
    (hcallback : ((exec ledStep m pre).ledCtrl i).callback = callback) :
    (taskLog i m (pre ++ [.handler])).ended = [callback] ∧
      EndsOff (exec ledStep m pre) i color callback := by
  have hview := hu hend
  rw [if_pos rfl] at hview
  refine ⟨?_, hcolor ▸ hcallback ▸ endsOff_of_expires _ i he hview⟩
  rw [taskLog_handler, watchTask, if_pos he]
  simp only [hend, hcallback, List.nil_append]

theorem expires_of_end (hend : (taskLog i m pre).ended = [])
    (h : (taskLog i m (pre ++ [.handler])).ended = [callback]) :
    ((exec ledStep m pre).ledCtrl i).Expires (exec ledStep m pre).is100msTick := by
  by_contra he
  rw [taskLog_handler, watchTask, if_neg he] at h
  rw [show (taskLog i m pre).ended = [callback] from h] at hend
  cases hend

end ends

/-! ### Requests -/

section requests
variable {m : LedModule} {i : Fin 4} {color : LedColor} {p : UInt8}
  {callback : Option LedCallback} {cs : List LedCall}

theorem setOn_accepted {timeoutS : UInt16}
    (h : (m.ledCtrlSetOn i color timeoutS p callback).1 = true) :
    ledGetPinByColor i color ≠ none ∧ (m.ledCtrlSetOn i color timeoutS p callback).2 =
      m.retask i
        { m.ledCtrl i with
          color := color
          mode := if timeoutS = 0 then .onPermanent else .on
          timeout100ms := timeoutS * 10
          priority := p
          callback := callback } true := by
  obtain ⟨j, hj, hp, hy⟩ := (m.ledCtrlRequest_fst i color p _).mp h
  obtain rfl := Fin.ext hj
  have hc : color ≠ .none := fun hc => hp (hc ▸ ledGetPinByColor_none i)
  exact ⟨hp, by rw [ledCtrlSetOn_eq m i hc hp, if_pos hy]⟩

theorem setFlash_accepted {intervalMs : UInt16} {times : UInt8} {timeoutS : UInt16}
    (h : (m.ledCtrlSetFlash i color intervalMs times timeoutS p callback).1 = true) :
    ledGetPinByColor i color ≠ none ∧
      (m.ledCtrlSetFlash i color intervalMs times timeoutS p callback).2 =
      m.retask i
        { m.ledCtrl i with
          color := color
          mode := .flash
          flashInterval10ms := intervalMs / 10
          flashCounter := 0
          flashTimes := times * 2
          timeout100ms := timeoutS * 10
          priority := p
          callback := callback } false := by
  obtain ⟨j, hj, hp, hy⟩ := (m.ledCtrlRequest_fst i color p _).mp h
  obtain rfl := Fin.ext hj
  have hc : color ≠ .none := fun hc => hp (hc ▸ ledGetPinByColor_none i)
  exact ⟨hp, by rw [ledCtrlSetFlash_eq m i hc hp, if_pos hy]⟩

theorem lit_retask {c : LedCtrl} (hp : ledGetPinByColor i c.color ≠ none) (lit : Bool) :
    (m.retask i c lit).Lit i c.color ↔ lit = true := by
  obtain ⟨pin, hpin⟩ := Option.ne_none_iff_exists'.mp hp
  rw [lit_iff]
  constructor
  · rintro ⟨q, hq, hl⟩
    rw [level_retask, if_pos hq] at hl
    simpa using hl
  · rintro rfl
    exact ⟨pin, hpin, by rw [level_retask, if_pos hpin]; rfl⟩

/-- An accepted `led_ctrl_set_on` with a timeout. -/
theorem onInv_setOn {timeoutS : UInt16} (ht : timeoutS ≠ 0) (h9 : m.timer100ms ≤ 9)
    (h : (m.ledCtrlSetOn i color timeoutS p callback).1 = true) :
    OnInv i color callback (timeoutS * 10).toNat m.timer100ms.toNat
      ((m.ledCtrlSetOn i color timeoutS p callback).2, {}) := by
  obtain ⟨hp, heq⟩ := setOn_accepted h
  have hlt : m.timer100ms.toNat ≤ 9 := UInt8.le_iff_toNat_le.mp h9
  rw [heq]
  refine ⟨?_, ?_, ?_, ?_, ?_, (lit_retask hp true).mpr rfl, ?_⟩
  all_goals simp only [ledCtrl_retask, Function.update_self, timer100ms_retask]
  · omega
  · rw [if_neg ht]
  · omega
  · omega

/-- An accepted `led_ctrl_set_flash` without a timeout. -/
theorem flashInv_setFlash {intervalMs : UInt16} {times : UInt8} {I : ℕ} (hI : 0 < I)
    (h : (m.ledCtrlSetFlash i color intervalMs times 0 p callback).1 = true) :
    FlashInv i color callback (intervalMs / 10) (times * 2).toNat I
      ((m.ledCtrlSetFlash i color intervalMs times 0 p callback).2, {}) := by
  obtain ⟨hp, heq⟩ := setFlash_accepted h
  rw [heq]
  refine ⟨?_, ?_, ?_, ?_, ?_, ?_, ?_, ?_, ?_, ?_⟩
  all_goals simp only [ledCtrl_retask, Function.update_self, Nat.zero_div, Nat.zero_mod]
  · rfl
  · rfl
  · rfl
  · rfl
  · rw [lit_retask (c := _) hp false]
    simp
  · rcases Nat.eq_zero_or_pos (times * 2).toNat with h0 | hpos
    · exact .inl h0
    · exact .inr (Nat.mul_pos hpos hI)

end requests

/-! ### How long a task lasts -/

section lasting
variable {m : LedModule} {i : Fin 4} {color : LedColor} {callback : Option LedCallback}
  {cs pre : List LedCall}

theorem onInv_run {k phase : ℕ} (h : OnInv i color callback k phase (m, {}))
    (hp : ledGetPinByColor i color ≠ none)
    (hu : Along (monitor ledStep (watchTask i)) (Undisturbed i) (m, {}) pre)
    (hend : (taskLog i m pre).ended = []) :
    OnInv i color callback k phase (exec ledStep m pre, taskLog i m pre) :=
  taskRun_eq ▸ running_invariant (OnInv.step hp) h hu hend

theorem flashInv_run {interval : UInt16} {T I : ℕ} (hI : I = max 1 interval.toNat)
    (h : FlashInv i color callback interval T I (m, {})) (hp : ledGetPinByColor i color ≠ none)
    (hu : Along (monitor ledStep (watchTask i)) (Undisturbed i) (m, {}) pre)
    (hend : (taskLog i m pre).ended = []) :
    FlashInv i color callback interval T I (exec ledStep m pre, taskLog i m pre) :=
  taskRun_eq ▸ running_invariant (FlashInv.step hI hp) h hu hend

/-- An undisturbed lit task with `k` steps to run ends at the call `10 * k - phase`. -/
theorem lastsFor_iff {k phase lo hi : ℕ} (h : OnInv i color callback k phase (m, {}))
    (hp : ledGetPinByColor i color ≠ none)
    (hu : Along (monitor ledStep (watchTask i)) (Undisturbed i) (m, {}) cs)
    (hhi : hi ≤ (taskLog i m cs).calls) :
    LastsFor m i color callback lo hi cs ↔
      k ≠ 0 ∧ lo + phase ≤ 10 * k ∧ 10 * k ≤ hi + phase := by
  constructor
  · rintro ⟨pre, post, rfl, hlo, hup, -, hend, hended, -⟩
    obtain ⟨hpre, -⟩ := along_pre hu
    have hinv := onInv_run h hp hpre hend
    obtain ⟨hk, hcalls⟩ := hinv.expires_iff.mp (expires_of_end hend hended)
    dsimp only at hcalls
    exact ⟨hk, by omega, by omega⟩
  · rintro ⟨hk, hlo, hup⟩
    have hended : (taskLog i m cs).ended ≠ [] := by
      intro hend
      have hrun := (onInv_run h hp hu hend).running
      dsimp only at hrun
      omega
    obtain ⟨pre, post, rfl, hend, he⟩ := exists_end hended
    obtain ⟨hpre, hhandler⟩ := along_pre hu
    have hinv := onInv_run h hp hpre hend
    obtain ⟨-, hcalls⟩ := hinv.expires_iff.mp he
    dsimp only at hcalls
    have hfinish := end_of_expires hhandler hend he hinv.color_eq hinv.callback_eq
    refine ⟨pre, post, rfl, by omega, by omega, fun q hq => ?_, hend, hfinish.1, hfinish.2⟩
    exact (onInv_run h hp (hpre.initial hq) (ended_of_initial hq hend)).lit

/-- An undisturbed flashing task with `T` toggles to go ends with the last of them. -/
theorem flashesFor_iff {interval : UInt16} {T I n : ℕ} (hI : I = max 1 interval.toNat)
    (h : FlashInv i color callback interval T I (m, {})) (hp : ledGetPinByColor i color ≠ none)
    (hu : Along (monitor ledStep (watchTask i)) (Undisturbed i) (m, {}) cs)
    (hn : n * I ≤ (taskLog i m cs).calls) :
    FlashesFor m i color callback n I cs ↔ T ≠ 0 ∧ T = n := by
  have hIpos : 0 < I := by omega
  constructor
  · rintro ⟨pre, post, rfl, -, hcalls, -, hend, hended, -⟩
    obtain ⟨hpre, -⟩ := along_pre hu
    have hinv := flashInv_run hI h hp hpre hend
    obtain ⟨hT, hlast⟩ := (hinv.expires_iff hI).mp (expires_of_end hend hended)
    rw [taskLog_handler] at hcalls
    have hmul : T * I = n * I := hlast.symm.trans hcalls
    exact ⟨hT, Nat.eq_of_mul_eq_mul_right hIpos hmul⟩
  · rintro ⟨hT, rfl⟩
    have hended : (taskLog i m cs).ended ≠ [] := by
      intro hend
      have hrun := (flashInv_run hI h hp hu hend).running
      dsimp only at hrun
      omega
    obtain ⟨pre, post, rfl, hend, he⟩ := exists_end hended
    obtain ⟨hpre, hhandler⟩ := along_pre hu
    have hinv := flashInv_run hI h hp hpre hend
    obtain ⟨-, hlast⟩ := (hinv.expires_iff hI).mp he
    have hfinish := end_of_expires hhandler hend he hinv.color_eq hinv.callback_eq
    -- the call that ends the task inverts the pin once more
    have hdue : ((exec ledStep m pre).ledCtrl i).FlashDue := by
      rcases he with ⟨hd, -⟩ | ⟨-, -, h1⟩
      · exact hd
      · have h0 : ((exec ledStep m pre).ledCtrl i).timeout100ms = 0 := hinv.timeout
        rw [h0] at h1
        exact absurd h1 (by decide)
    have hquot : (taskLog i m pre).calls % I + 1 = I := (hinv.due_iff hI).mp hdue
    have hmul := ((succ_div_mod hIpos).1 hquot).2.2
    have hT' : (taskLog i m pre).calls / I + 1 = T :=
      Nat.eq_of_mul_eq_mul_right hIpos (hmul.symm.trans hlast)
    have htoggled : (taskLog i m pre).toggled =
        (List.range ((taskLog i m pre).calls / I)).map fun k => (k + 1) * I := hinv.toggled
    refine ⟨pre, post, rfl, ?_, ?_, fun q hq => ?_, hend, hfinish.1, hfinish.2⟩
    · rw [taskLog_handler, watchTask, if_pos hdue]
      dsimp only
      rw [htoggled, hmul, ← hT', List.range_succ, List.map_append]
      rfl
    · rw [taskLog_handler]
      exact hlast
    · exact (flashInv_run hI h hp (hpre.initial hq) (ended_of_initial hq hend)).lit

end lasting

/-! ### A task of its own -/

section alone
variable {m : LedModule} {i : Fin 4}

theorem task10ms_off (b : Bool) (h : (m.ledCtrl i).mode = .off) : task10ms b m i = m := by
  simp only [task10ms]
  rw [if_pos h]

theorem task10ms_timer100ms (b : Bool) (t : UInt8)
    (hcb : (m.ledCtrl i).callback ≠ some .voiceRestoreBlue) :
    task10ms b { m with timer100ms := t } i = { task10ms b m i with timer100ms := t } := by
  have hretask : ∀ (c : LedCtrl) (lit : Bool), { m with timer100ms := t }.retask i c lit =
      { m.retask i c lit with timer100ms := t } := by
    intro c lit
    unfold retask ledHwTurnOff
    dsimp only
    cases ledGetPinByColor i (m.ledCtrl i).color <;> cases ledGetPinByColor i c.color <;> rfl
  have hlit : litAfter { m with timer100ms := t } i = m.litAfter i := rfl
  simp only [task10ms, finish, LedCtrl.callback_flashed, if_neg hcb, hretask, hlit]
  split
  · rfl
  split <;> rfl

/-- While the other LEDs are off, the handler is the turn of the LED. -/
theorem handler_alone (h : ∀ j, j ≠ i → (m.ledCtrl j).mode = .off)
    (hcb : (m.ledCtrl i).callback ≠ some .voiceRestoreBlue) :
    m.ledCtrl10msHandler =
      { task10ms m.is100msTick m i with
        timer100ms := if m.is100msTick then 0 else m.timer100ms + 1 } := by
  have hkeep : ∀ (m : LedModule) (b : Bool), (∀ j, j ≠ i → (m.ledCtrl j).mode = .off) →
      (m.ledCtrl i).callback ≠ some .voiceRestoreBlue →
      ∀ j, j ≠ i → ((task10ms b m i).ledCtrl j).mode = .off := by
    intro m b h hcb j hj
    rw [(m.ledCtrl_task10ms_of_ne i b hj).resolve_right fun h => hcb h.2.2.1]
    exact h j hj
  rw [← task10ms_timer100ms _ _ hcb]
  simp only [ledCtrl10msHandler, finRange_four, List.foldl_cons, List.foldl_nil]
  generalize hm₀ : ({ m with timer100ms := _ } : LedModule) = m₀
  have h₀ : ∀ j, j ≠ i → (m₀.ledCtrl j).mode = .off := by
    rw [← hm₀]
    exact h
  have hcb₀ : (m₀.ledCtrl i).callback ≠ some .voiceRestoreBlue := by
    rw [← hm₀]
    exact hcb
  have hafter := hkeep m₀ m.is100msTick h₀ hcb₀
  have hi : i = 0 ∨ i = 1 ∨ i = 2 ∨ i = 3 := by omega
  rcases hi with rfl | rfl | rfl | rfl
  · rw [task10ms_off _ (hafter 1 (by decide)), task10ms_off _ (hafter 2 (by decide)),
      task10ms_off _ (hafter 3 (by decide))]
  · rw [task10ms_off _ (h₀ 0 (by decide)), task10ms_off _ (hafter 2 (by decide)),
      task10ms_off _ (hafter 3 (by decide))]
  · rw [task10ms_off _ (h₀ 0 (by decide)), task10ms_off _ (h₀ 1 (by decide)),
      task10ms_off _ (hafter 3 (by decide))]
  · rw [task10ms_off _ (h₀ 0 (by decide)), task10ms_off _ (h₀ 1 (by decide)),
      task10ms_off _ (h₀ 2 (by decide))]

theorem callback_task10ms (b : Bool) (hcb : (m.ledCtrl i).callback ≠ some .voiceRestoreBlue) :
    ((task10ms b m i).ledCtrl i).callback ≠ some .voiceRestoreBlue := by
  by_cases hm : (m.ledCtrl i).mode = .off
  · rw [task10ms_off b hm]
    exact hcb
  by_cases he : (m.ledCtrl i).Expires b
  · rw [turn_expires m i b he, afterCallback, if_neg hcb, ledCtrl_retask, Function.update_self]
    have hnone : (cleared (m.ledCtrl i).flashed).callback = none := rfl
    rw [hnone]
    decide
  · rw [ledCtrl_task10ms_self m i b hm he, LedCtrl.callback_aged]
    exact hcb

/-- Then the calls of the handler leave the task undisturbed. -/
theorem undisturbed_alone (w : TaskLog) (n : ℕ) (h : ∀ j, j ≠ i → (m.ledCtrl j).mode = .off)
    (hcb : (m.ledCtrl i).callback ≠ some .voiceRestoreBlue) :
    Along (monitor ledStep (watchTask i)) (Undisturbed i) (m, w) (List.replicate n .handler) := by
  induction n generalizing m w with
  | zero => trivial
  | succ n ih =>
      have heq := handler_alone h hcb
      refine ⟨fun _ => ?_, ih _ (fun j hj => ?_) ?_⟩
      · rw [if_pos rfl]
        exact congrArg (fun m => m.view i) heq
      · change (m.ledCtrl10msHandler.ledCtrl j).mode = .off
        rw [heq]
        change ((task10ms m.is100msTick m i).ledCtrl j).mode = .off
        rw [(m.ledCtrl_task10ms_of_ne i _ hj).resolve_right fun h => hcb h.2.2.1]
        exact h j hj
      · change (m.ledCtrl10msHandler.ledCtrl i).callback ≠ _
        rw [heq]
        exact callback_task10ms _ hcb

theorem calls_replicate (n : ℕ) : (taskLog i m (List.replicate n .handler)).calls = n := by
  induction n with
  | zero => rfl
  | succ n ih =>
      rw [List.replicate_succ', taskLog_handler]
      exact congrArg (· + 1) ih

end alone

/-- The steps of 100 ms in a field of 16 bits, against the time requested. -/
theorem on_range_iff {t phase : ℕ} (ht : t ≠ 0) (hb : t < 2 ^ 16) (hphase : phase ≤ 9) :
    (t * 10 % 2 ^ 16 ≠ 0 ∧ 100 * t - 9 + phase ≤ 10 * (t * 10 % 2 ^ 16) ∧
      10 * (t * 10 % 2 ^ 16) ≤ 100 * t + phase) ↔ t ≤ 6553 := by
  constructor
  · rintro ⟨-, hlo, -⟩
    by_contra hgt
    have hmod := Nat.mod_lt (t * 10) (show 0 < 2 ^ 16 by decide)
    omega
  · intro hle
    rw [Nat.mod_eq_of_lt (by omega)]
    omega

/-- In every state the calls can lead to, for every request that is accepted and then undisturbed:
a `led_ctrl_set_on` with a timeout keeps its pin lit for the time requested and ends with its
callback if and only if the timeout is at most 6553 s, and a `led_ctrl_set_flash` without one
inverts its pin twice for each flash, at the interval requested, and ends with its callback if and
only if there are at most 127 flashes. -/
theorem led_durations_iff (cs₀ : List LedCall) (i : Fin 4) (color : LedColor) (priority : UInt8)
    (callback : Option LedCallback) (cs : List LedCall) :
    (∀ (timeoutS : UInt16) (m : LedModule), timeoutS ≠ 0 →
      (exec ledStep {} cs₀).ledCtrlSetOn i color timeoutS priority callback = (true, m) →
      Along (monitor ledStep (watchTask i)) (Undisturbed i) (m, {}) cs →
      100 * timeoutS.toNat ≤ (taskLog i m cs).calls →
        (LastsFor m i color callback (100 * timeoutS.toNat - 9) (100 * timeoutS.toNat) cs ↔
          timeoutS.toNat ≤ 6553)) ∧
    (∀ (intervalMs : UInt16) (times : UInt8) (m : LedModule), times ≠ 0 →
      (exec ledStep {} cs₀).ledCtrlSetFlash i color intervalMs times 0 priority callback =
        (true, m) →
      Along (monitor ledStep (watchTask i)) (Undisturbed i) (m, {}) cs →
      2 * times.toNat * max 1 (intervalMs.toNat / 10) ≤ (taskLog i m cs).calls →
        (FlashesFor m i color callback (2 * times.toNat) (max 1 (intervalMs.toNat / 10)) cs ↔
          times.toNat ≤ 127)) := by
  have h9 : (exec ledStep {} cs₀).timer100ms ≤ 9 :=
    exec_invariant_all (I := fun m : LedModule => m.timer100ms ≤ 9)
      (fun m c h => timer100ms_le h c) (by decide) cs₀
  constructor
  · intro timeoutS m ht hreq hu hlong
    have hacc := congrArg Prod.fst hreq
    obtain rfl := congrArg Prod.snd hreq
    rw [lastsFor_iff (onInv_setOn ht h9 hacc) (setOn_accepted hacc).1 hu hlong, UInt16.toNat_mul]
    have hpos : timeoutS.toNat ≠ 0 := fun h0 => ht (UInt16.toNat_inj.mp h0)
    exact on_range_iff hpos timeoutS.toNat_lt (UInt8.le_iff_toNat_le.mp h9)
  · intro intervalMs times m ht hreq hu hlong
    have hacc := congrArg Prod.fst hreq
    obtain rfl := congrArg Prod.snd hreq
    have hI : max 1 (intervalMs.toNat / 10) = max 1 (intervalMs / 10).toNat := by
      rw [UInt16.toNat_div]
      rfl
    have hIpos : 0 < max 1 (intervalMs.toNat / 10) := by omega
    rw [flashesFor_iff hI (flashInv_setFlash hIpos hacc) (setFlash_accepted hacc).1 hu hlong,
      UInt8.toNat_mul]
    have hb := times.toNat_lt
    have hpos : times.toNat ≠ 0 := fun h0 => ht (UInt8.toNat_inj.mp h0)
    simp only [UInt8.reduceToNat] at *
    omega

/-- LED 0 is to be on for 6554 s. -/
def longRequest : Bool × LedModule :=
  ({} : LedModule).ledCtrlSetOn 0 .blue 6554 ledPriorityNormal none

/-- LED 0 is to flash 128 times. -/
def manyFlashes : Bool × LedModule :=
  ({} : LedModule).ledCtrlSetFlash 0 .blue 10 128 0 ledPriorityNormal none

/-- The first goes out after 0.4 s, the second does not end. -/
theorem long_requests_fail :
    longRequest.1 = true ∧ manyFlashes.1 = true ∧
      LastsFor longRequest.2 0 .blue none 40 40 (List.replicate 655400 .handler) ∧
      ¬ LastsFor longRequest.2 0 .blue none 655391 655400 (List.replicate 655400 .handler) ∧
      ¬ FlashesFor manyFlashes.2 0 .blue none 256 1 (List.replicate 256 .handler) := by
  have hon : longRequest.1 = true := by decide
  have hflash : manyFlashes.1 = true := by decide
  have hothers : (∀ j, j ≠ 0 → (longRequest.2.ledCtrl j).mode = .off) ∧
      ∀ j, j ≠ 0 → (manyFlashes.2.ledCtrl j).mode = .off := by decide
  have hon' : OnInv 0 .blue none 4 0 (longRequest.2, {}) :=
    @onInv_setOn {} 0 .blue ledPriorityNormal none 6554 (by decide) (by decide) hon
  have hflash' : FlashInv 0 .blue none 1 0 1 (manyFlashes.2, {}) :=
    @flashInv_setFlash {} 0 .blue ledPriorityNormal none 10 128 1 (by decide) hflash
  have hpin : ledGetPinByColor (0 : Fin 4) .blue ≠ none := by decide
  have huOn := undisturbed_alone (i := 0) {} 655400 hothers.1 (by decide)
  have huFlash := undisturbed_alone (i := 0) {} 256 hothers.2 (by decide)
  refine ⟨hon, hflash, ?_, ?_, ?_⟩
  · rw [lastsFor_iff hon' hpin huOn (by rw [calls_replicate]; decide)]
    decide
  · rw [lastsFor_iff hon' hpin huOn (by rw [calls_replicate])]
    decide
  · rw [flashesFor_iff (by decide) hflash' hpin huFlash (by rw [calls_replicate])]
    decide

end LedModule
end ErgoDock
