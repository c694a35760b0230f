import ErgoDock.SwTimerRuns

/-! # When the timers run (`sw_timer.c`)

What an application gets from the timers, over any run: the queue is never without its
interrupt and every call comes to its end (`sw_timers_reliable`), callbacks are made in the
order of their deadlines (`callbacks_in_order`), a timer whose callback asks for another period
runs once for each period from the moment it was started, however late the single callbacks are
(`periodic_timer_on_schedule`), and any other timer runs once (`one_shot_timer_fires_once`). -/

namespace ErgoDock

variable {ν σ : Type} {cb : ν → σ → Bool × σ} {P L H : ℕ} {s : TimerDevice ν σ} {q : List ν}
  {t : ν}

/-- Periods of the timers as they are configured before use. -/
def Configured (cb : ν → σ → Bool × σ) (P : ℕ) (env : ν → SwTimerEnv) : Prop :=
  ∀ t, (env t).period.toNat ≤ P ∧ (Repeats cb t → 0 < (env t).period.toNat)

theorem queued_reset {env : ν → SwTimerEnv} (hcfg : Configured cb P env) (app : σ) (clk : ℕ) :
    Queued cb P L (swTimerModuleReset env app clk) [] where
  holds := ⟨rfl, Links.ring_nil _⟩
  unlinked := fun _ _ => ⟨rfl, rfl⟩
  ordered := List.Pairwise.nil
  window := by simp
  target := by simp
  period := fun t => (hcfg t).1
  repeating := fun t => (hcfg t).2

theorem armed_nil (s : TimerDevice ν σ) : MatchArmed s [] := by simp [MatchArmed]

theorem kept_true (cb : ν → σ → Bool × σ) (P L : ℕ) :
    Kept cb P L (fun _ => True) (fun _ _ => True) :=
  ⟨fun _ _ _ _ _ _ => trivial, fun _ _ _ _ _ _ => trivial, fun _ _ _ _ _ _ _ _ _ _ => trivial,
    fun _ _ _ _ _ _ _ _ _ _ => trivial⟩

theorem TimerRun.mono [DecidableEq ν] {ok ok' : TimerEvent ν → Prop} (h : ∀ e, ok e → ok' e)
    {s' : TimerDevice ν σ} (run : TimerRun cb P L ok s s') : TimerRun cb P L ok' s s' := by
  induction run with
  | refl => exact TimerRun.refl
  | step _ hok hallowed htimely hclk hreturns ih =>
    exact TimerRun.step ih (h _ hok) hallowed htimely hclk hreturns

/-- The readings of a call that takes no time. -/
theorem timely_zero (cb : ν → σ → Bool × σ) (P L H : ℕ) : Timely cb P L H (fun _ => 0) where
  within := fun _ h => h
  prompt := by
    intro s q hq t ht
    have h := (hq.window t ht).1
    push_cast at h ⊢
    omega

/-- The timer `sw_timer_list_pick` names is the one due first. -/
theorem Queued.pick (hq : Queued cb P L s q) : swTimerListPick s = q.head? := hq.holds.first

/-! ### Two timers -/

/-- One timer runs every 3 half slots, the other once, 5 after it is started. -/
def twoTimers (t : Bool) : SwTimerEnv := ⟨if t then 3 else 5, 0⟩

/-- The callback of the first asks for another period. -/
def twoCallbacks (t : Bool) (app : Unit) : Bool × Unit := (t, app)

/-- The two timers after one of them has been started. -/
def twoStarted (t : Bool) : TimerDevice Bool Unit :=
  ((swTimerModuleReset twoTimers () 0).step twoCallbacks (fun _ => 0) 2 (.start t)).get
    (by cases t <;> rfl)

/-- The interrupt 5 half slots later. -/
def twoServed (t : Bool) : TimerDevice Bool Unit :=
  (((twoStarted t).advance 5).step twoCallbacks (fun _ => 0) 3 .isr).get (by cases t <;> rfl)

theorem configured_two : Configured twoCallbacks 5 twoTimers := by
  intro t
  cases t <;> simp [twoTimers]

theorem started_two (t : Bool) :
    Returns twoCallbacks (fun _ => 0) (swTimerModuleReset twoTimers () 0) (.start t)
      (twoStarted t) :=
  returns_of_step 2 (fun k => by cases t <;> rfl)

theorem served_two (t : Bool) :
    Returns twoCallbacks (fun _ => 0) ((twoStarted t).advance 5) .isr (twoServed t) :=
  returns_of_step 3 (fun k => by cases t <;> rfl)

theorem late_two (t : Bool) : TimerRun twoCallbacks 5 2 (fun e => ¬ e.Concerns t)
    (twoStarted t) ((twoStarted t).advance 5) := by
  have hwait : Allowed twoCallbacks 5 2 (twoStarted t) (.wait 5) := by
    unfold Allowed
    cases t <;> decide
  have hret : Returns twoCallbacks (fun _ => 0) (twoStarted t) (.wait 5)
    ((twoStarted t).advance 5) := ⟨0, fun _ _ => rfl⟩
  exact TimerRun.step TimerRun.refl (by simp [TimerEvent.Concerns]) hwait (timely_zero _ _ _ 0)
    (by cases t <;> decide) hret

theorem run_two (t : Bool) : TimerRun twoCallbacks 5 2 (fun e => ∀ t target, e ≠ .insert t target)
    (swTimerModuleReset twoTimers () 0) (twoServed t) := by
  have hwait : Allowed twoCallbacks 5 2 (twoStarted t) (.wait 5) := by
    unfold Allowed
    cases t <;> decide
  have hret : Returns twoCallbacks (fun _ => 0) (twoStarted t) (.wait 5)
    ((twoStarted t).advance 5) := ⟨0, fun _ _ => rfl⟩
  have hstart : Allowed twoCallbacks 5 2 (swTimerModuleReset twoTimers () 0) (.start t) := rfl
  refine TimerRun.step (TimerRun.step (TimerRun.step TimerRun.refl (by simp) hstart
    (timely_zero _ _ _ 5) ?_ (started_two t)) (by simp) hwait (timely_zero _ _ _ 5) ?_ hret)
    (by simp)
    (show Allowed twoCallbacks 5 2 _ .isr from trivial) (timely_zero _ _ _ 5) ?_ (served_two t)
  · exact Nat.zero_le 5
  · cases t <;> decide
  · cases t <;> decide

/-! ### The queue and its interrupt -/

/-- Over any run the timer due first is known and its interrupt is set and unmasked, pending if
the clock has reached the deadline; without a first timer none is active; and every call that
is allowed comes to its end. -/
theorem sw_timers_reliable [DecidableEq ν] (hPL : P + L < 2 ^ 27) {env : ν → SwTimerEnv}
    (hcfg : Configured cb P env) (app : σ) (clk : ℕ)
    (run : TimerRun cb P L (fun _ => True) (swTimerModuleReset env app clk) s) :
    (∀ t, swTimerListPick s = some t → swTimerActive s t = true ∧
      (∀ u, swTimerActive s u = true → s.deadline t ≤ s.deadline u) ∧
      s.irqMasked = false ∧ s.clkTarget = (s.env t).target ∧
      (s.clk < s.deadline t ∨ s.irqPending = true)) ∧
    (swTimerListPick s = none → ∀ u, swTimerActive s u = false) ∧
    ∀ e lag H, Allowed cb P L s e → Timely cb P L H lag → s.clk ≤ H →
      ∃ s', Returns cb lag s e s' := by
  obtain ⟨q, hq, harmed, -⟩ := run.invariant hPL (kept_true cb P L) (queued_reset hcfg app clk)
    (armed_nil _) trivial
  refine ⟨fun t ht => ?_, fun hn u => ?_, fun e lag H hallowed hlag hH => ?_⟩
  · rw [hq.pick] at ht
    obtain ⟨htarget, hmasked, hdue⟩ := harmed t ht
    refine ⟨(hq.active_iff t).mpr (List.mem_of_mem_head? ht), fun u hu => ?_, hmasked, htarget,
      hdue.imp_left (fun h => ?_)⟩
    · have huq := (hq.active_iff u).mp hu
      cases q with
      | nil => simp at huq
      | cons a q =>
        obtain rfl : a = t := by simpa using ht
        rcases List.mem_cons.mp huq with rfl | huq
        · exact le_refl _
        · have h := (List.pairwise_cons.mp hq.ordered).1 u huq
          unfold TimerDevice.deadline
          omega
    · unfold TimerDevice.deadline
      omega
  · rw [hq.pick, List.head?_eq_none_iff] at hn
    have hu : ¬ swTimerActive s u = true := by
      rw [hq.active_iff, hn]
      simp
    exact Bool.eq_false_iff.mpr hu
  · obtain ⟨s', q', hret, -⟩ := timerDevice_step hPL (kept_true cb P L) hq harmed trivial trivial
      hallowed hlag hH
    exact ⟨s', hret⟩

theorem two_timers_reliable : (twoServed true).irqMasked = false ∧
    (twoServed true).clkTarget = 6 := by
  have h := sw_timers_reliable (by decide) configured_two () 0
    ((run_two true).mono (fun _ _ => trivial))
  obtain ⟨-, -, hmask, htarget, -⟩ := h.1 true rfl
  exact ⟨hmask, htarget.trans rfl⟩

/-! ### The order of the callbacks -/

/-- The callbacks made are in order, none was early or more than `L` late, and no timer of the
queue is due before one that has had its turn. -/
structure InOrder (L : ℕ) (s : TimerDevice ν σ) (q : List ν) : Prop where
  sorted : s.calls.Pairwise (fun c d => c.due ≤ d.due)
  past : ∀ c ∈ s.calls, c.due ≤ s.clk
  ahead : ∀ c ∈ s.calls, ∀ t ∈ q, c.due ≤ s.deadline t
  timely : ∀ c ∈ s.calls, c.due ≤ c.clk ∧ (c.clk : ℤ) ≤ c.due + L

/-- After its turn a timer is in the queue only for a later deadline. -/
theorem Fired.deadline_le {s' : TimerDevice ν σ} {q' : List ν} (hf : Fired cb s s' t q q')
    (hq : Queued cb P L s (t :: q)) {u : ν} (hu : u ∈ q') : s.deadline t ≤ s'.deadline u := by
  by_cases hut : u = t
  · subst hut
    cases hagain : (cb u s.app).1 with
    | true =>
      rw [hf.deadline hagain]
      omega
    | false =>
      have hmem := hf.perm.mem_iff.mp hu
      rw [hagain, if_neg Bool.false_ne_true] at hmem
      exact absurd hmem (List.nodup_cons.mp hq.holds.ring.nodup).1
  · rw [hf.deadline_other hut]
    have huq : u ∈ q := (List.mem_cons.mp (hf.mem hu)).resolve_left hut
    have h := (List.pairwise_cons.mp hq.ordered).1 u huq
    unfold TimerDevice.deadline
    omega

theorem kept_inOrder (hPL : P + L < 2 ^ 27) : Kept cb P L
    (fun e => ∀ t target, e ≠ .insert t target) (InOrder (ν := ν) (σ := σ) L) where
  read := by
    intro s q d hq hd h
    refine ⟨h.sorted, fun c hc => ?_, fun c hc t ht => ?_, h.timely⟩
    · have hpast := h.past c hc
      rw [TimerDevice.advance_clk]
      push_cast
      omega
    · have hlate := hd t ht
      rw [TimerDevice.deadline_advance (by omega)]
      exact h.ahead c hc t ht
  irq := fun s q target masked pending h => ⟨h.sorted, h.past, h.ahead, h.timely⟩
  fire := by
    intro s t q s' q' hq hdue h hf hq'
    have hwin := hq.window t List.mem_cons_self
    have hbefore : ∀ c ∈ s.calls, c.due ≤ s.deadline t := fun c hc =>
      h.ahead c hc t List.mem_cons_self
    have hnow : s.deadline t ≤ s.clk := by
      unfold TimerDevice.deadline
      omega
    have hmem : ∀ c ∈ s'.calls, c ∈ s.calls ∨ c = ⟨t, s.deadline t, s.clk⟩ := fun c hc => by
      rw [hf.calls] at hc
      simpa using hc
    refine ⟨?_, fun c hc => ?_, fun c hc u hu => ?_, fun c hc => ?_⟩
    · rw [hf.calls, List.pairwise_append]
      refine ⟨h.sorted, List.pairwise_singleton _ _, fun c hc d hd => ?_⟩
      rw [List.mem_singleton] at hd
      exact hd ▸ hbefore c hc
    · rw [hf.clk]
      rcases hmem c hc with hc | rfl
      · exact h.past c hc
      · exact hnow
    · have hle := hf.deadline_le hq hu
      rcases hmem c hc with hc | rfl
      · exact (hbefore c hc).trans hle
      · exact hle
    · rcases hmem c hc with hc | rfl
      · exact h.timely c hc
      · refine ⟨hnow, ?_⟩
        unfold TimerDevice.deadline
        dsimp only
        omega
  edit := by
    intro e s q s' q' hok hq h hed hq'
    refine ⟨hed.calls ▸ h.sorted, fun c hc => ?_, fun c hc u hu => ?_, hed.calls ▸ h.timely⟩
    · rw [hed.clk]
      exact h.past c (hed.calls ▸ hc)
    · have hc' : c ∈ s.calls := hed.calls ▸ hc
      rcases hed.joined u hu with ⟨huq, hd⟩ | ⟨-, hd⟩ | ⟨target, he⟩
      · exact hd ▸ h.ahead c hc' u huq
      · have hpast := h.past c hc'
        rw [hd]
        omega
      · exact absurd he (hok u target)

/-- Over any run in which timers are started with their period, callbacks are made in the order
of their deadlines, each at or after its own and at most `L` half slots late. -/
theorem callbacks_in_order [DecidableEq ν] (hPL : P + L < 2 ^ 27) {env : ν → SwTimerEnv}
    (hcfg : Configured cb P env) (app : σ) (clk : ℕ)
    (run : TimerRun cb P L (fun e => ∀ t target, e ≠ .insert t target)
      (swTimerModuleReset env app clk) s) :
    s.calls.Pairwise (fun c d => c.due ≤ d.due) ∧
      ∀ c ∈ s.calls, c.due ≤ c.clk ∧ (c.clk : ℤ) ≤ c.due + L := by
  obtain ⟨q, -, -, h⟩ := run.invariant hPL (kept_inOrder hPL) (queued_reset hcfg app clk)
    (armed_nil _) ⟨List.Pairwise.nil, by simp [swTimerModuleReset], by simp, by
      simp [swTimerModuleReset]⟩
  exact ⟨h.sorted, h.timely⟩

theorem two_callbacks_in_order :
    (twoServed true).calls.Pairwise (fun c d => c.due ≤ d.due) ∧
      ∀ c ∈ (twoServed true).calls, c.due ≤ c.clk ∧ (c.clk : ℤ) ≤ c.due + (2 : ℕ) :=
  callbacks_in_order (by decide) configured_two () 0 (run_two true)

/-! ### The deadlines of one timer -/

/-- What the start of a timer leaves: the timer in the queue, due a period after the reading. -/
theorem Edited.start_deadline {s' : TimerDevice ν σ} {q' : List ν} (ht : t ∉ q)
    (hed : Edited (.start t) s s' q q') : t ∈ q' ∧ (s'.env t).period = (s.env t).period ∧
      s'.deadline t = s.clk + (s.env t).period.toNat := by
  have hmem := hed.started t rfl
  refine ⟨hmem, hed.period t (by simp), ?_⟩
  rcases hed.joined t hmem with ⟨h, -⟩ | ⟨-, h⟩ | ⟨target, h⟩
  · exact absurd h ht
  · exact h
  · simp at h

/-- In a settled queue no timer is due. -/
theorem Settled.not_due (hq : Queued cb P L s q) (h : Settled s q) (ht : t ∈ q) :
    s.clk < s.deadline t := by
  cases q with
  | nil => simp at ht
  | cons a q =>
    obtain ⟨-, -, hpos⟩ := h a rfl
    have hle : s.ahead a ≤ s.ahead t := by
      rcases List.mem_cons.mp ht with rfl | ht
      · exact le_refl _
      · exact (List.pairwise_cons.mp hq.ordered).1 t ht
    unfold TimerDevice.deadline
    omega

section One

variable [DecidableEq ν] {lag : TimerDevice ν σ → ℕ}

/-- The deadlines the callback of a timer was made for. -/
def duesOf (t : ν) (s : TimerDevice ν σ) : List ℤ :=
  (s.calls.filter (fun c => c.timer = t)).map TimerCall.due

/-- The timer `t`, started at `T` with the period `p`, has run `k` periods. -/
structure OnSchedule (t : ν) (T : ℕ) (p : ℕ) (before : List ℤ) (s : TimerDevice ν σ)
    (q : List ν) : Prop where
  mem : t ∈ q
  period : (s.env t).period.toNat = p
  runs : ∃ k : ℕ, duesOf t s = before ++ (List.range k).map (fun i : ℕ => (T : ℤ) + (i + 1) * p) ∧
    s.deadline t = T + (k + 1) * p ∧ (T : ℤ) + k * p ≤ s.clk

theorem duesOf_fired {s' : TimerDevice ν σ} {u : ν} {q' : List ν} (hf : Fired cb s s' u q q') :
    duesOf t s' = duesOf t s ++ if u = t then [s.deadline u] else [] := by
  unfold duesOf
  rw [hf.calls, List.filter_append, List.map_append]
  by_cases hu : u = t
  · simp [hu]
  · simp [hu]

theorem kept_onSchedule (hPL : P + L < 2 ^ 27) (hrep : ∀ app, (cb t app).1 = true) (T p : ℕ)
    (before : List ℤ) :
    Kept cb P L (fun e => ¬ e.Concerns t) (OnSchedule (σ := σ) t T p before) where
  read := by
    intro s q d hq hd h
    obtain ⟨k, hdues, hdead, hle⟩ := h.runs
    have hlate := hd t h.mem
    refine ⟨h.mem, h.period, k, hdues, ?_, ?_⟩
    · rw [TimerDevice.deadline_advance (by omega)]
      exact hdead
    · rw [TimerDevice.advance_clk]
      push_cast
      omega
  irq := fun s q target masked pending h => ⟨h.mem, h.period, h.runs⟩
  fire := by
    intro s u q s' q' hq hdue h hf hq'
    obtain ⟨k, hdues, hdead, hle⟩ := h.runs
    by_cases hu : u = t
    · subst hu
      have hagain := hrep s.app
      refine ⟨hf.perm.mem_iff.mpr (by simp [hagain]), by rw [hf.period, h.period], k + 1, ?_,
        ?_, ?_⟩
      · rw [duesOf_fired hf, hdues, if_pos rfl, hdead, List.range_succ]
        simp
      · rw [hf.deadline hagain, hdead, h.period]
        push_cast
        ring
      · rw [hf.clk]
        unfold TimerDevice.deadline at hdead
        push_cast
        omega
    · have htq : t ∈ q := (List.mem_cons.mp h.mem).resolve_left (Ne.symm hu)
      refine ⟨hf.perm.mem_iff.mpr ?_, by rw [hf.period, h.period], k, ?_, ?_, ?_⟩
      · split
        · exact List.mem_cons_of_mem u htq
        · exact htq
      · rw [duesOf_fired hf, if_neg hu, List.append_nil, hdues]
      · rw [hf.deadline_other (Ne.symm hu), hdead]
      · rw [hf.clk]
        exact hle
  edit := by
    intro e s q s' q' hok hq h hed hq'
    obtain ⟨k, hdues, hdead, hle⟩ := h.runs
    have henv := hed.env t hok
    refine ⟨(hed.mem t hok).mpr h.mem, by rw [henv, h.period], k, ?_, ?_, ?_⟩
    · rw [← hdues, duesOf, hed.calls]
      rfl
    · rw [← hdead]
      simp only [TimerDevice.deadline, TimerDevice.ahead, TimerDevice.now, henv, hed.clk]
    · rw [hed.clk]
      exact hle

theorem duesOf_edited {e : TimerEvent ν} {s' : TimerDevice ν σ} {q' : List ν}
    (hed : Edited e s s' q q') : duesOf t s' = duesOf t s := by
  unfold duesOf
  rw [hed.calls]

/-- What the start of `t` establishes, and every other event keeps, holds after the interrupt. -/
theorem after_start {I : TimerDevice ν σ → List ν → Prop} (hPL : P + L < 2 ^ 27)
    (hk : Kept cb P L (fun e => ¬ e.Concerns t) I) {env : ν → SwTimerEnv}
    (hcfg : Configured cb P env) {app : σ} {clk : ℕ} {s₀ s₁ : TimerDevice ν σ}
    (run₀ : TimerRun cb P L (fun _ => True) (swTimerModuleReset env app clk) s₀)
    (hidle : swTimerActive s₀ t = false) {lag₀ : TimerDevice ν σ → ℕ} {H₀ : ℕ}
    (htimely₀ : Timely cb P L H₀ lag₀) (hH₀ : s₀.clk ≤ H₀)
    (hstart : Returns cb lag₀ s₀ (.start t) s₁)
    (hI : ∀ q s' q', t ∉ q → Edited (.start t) (s₀.advance (lag₀ s₀)) s' q q' → I s' q')
    (run₁ : TimerRun cb P L (fun e => ¬ e.Concerns t) s₁ s)
    (htimely : Timely cb P L H lag) (hH : s.clk ≤ H) :
    ∃ s' q', Returns cb lag s .isr s' ∧ Queued cb P L s' q' ∧ Settled s' q' ∧ I s' q' := by
  obtain ⟨q₀, hq₀, -, -⟩ := run₀.invariant hPL (kept_true cb P L) (queued_reset hcfg app clk)
    (armed_nil _) trivial
  obtain ⟨s₁', q₁, hret, hq₁, hset₁, hI₁⟩ := call_settles hPL hk hq₀
    (show Allowed cb P L s₀ (.start t) from hidle) htimely₀ hH₀ (by simp) (by simp)
    (fun s' q' _ hed _ => hI q₀ s' q' (hq₀.inactive hidle) hed)
  rw [hstart.unique hret] at run₁
  obtain ⟨q, hq, -, hI⟩ := run₁.invariant hPL hk hq₁ hset₁.armed hI₁
  exact call_settles hPL hk hq (show Allowed cb P L s .isr from trivial) htimely hH (by simp)
    (by simp) (fun s' q' hq₂ hed hq' =>
      hk.edit .isr _ q s' q' (by simp [TimerEvent.Concerns]) hq₂ hI hed hq')

/-- A timer whose callback always asks for another period, started in any reachable state and
not stopped, started again or given another period since: after any interrupt the deadlines it
was called for are one period apart from the moment it was started, up to the last one reached
by the clock.  No delay of a callback moves a later one. -/
theorem periodic_timer_on_schedule (hPL : P + L < 2 ^ 27) {env : ν → SwTimerEnv}
    (hcfg : Configured cb P env) (app : σ) (clk : ℕ) {s₀ s₁ : TimerDevice ν σ}
    (run₀ : TimerRun cb P L (fun _ => True) (swTimerModuleReset env app clk) s₀)
    (hrep : ∀ app, (cb t app).1 = true) (hidle : swTimerActive s₀ t = false)
    {lag₀ : TimerDevice ν σ → ℕ} {H₀ : ℕ} (htimely₀ : Timely cb P L H₀ lag₀) (hH₀ : s₀.clk ≤ H₀)
    (hstart : Returns cb lag₀ s₀ (.start t) s₁)
    (run₁ : TimerRun cb P L (fun e => ¬ e.Concerns t) s₁ s)
    (htimely : Timely cb P L H lag) (hH : s.clk ≤ H) :
    ∃ s', Returns cb lag s .isr s' ∧
      duesOf t s' = duesOf t s₀ ++ (List.range
        ((s'.clk - (s₀.clk + lag₀ s₀)) / (s₀.env t).period.toNat)).map
          (fun i : ℕ => ((s₀.clk + lag₀ s₀ : ℕ) : ℤ) + (i + 1) * (s₀.env t).period.toNat) := by
  obtain ⟨s', q', hret, hq', hset', hI'⟩ := after_start hPL
    (kept_onSchedule hPL hrep (s₀.clk + lag₀ s₀) (s₀.env t).period.toNat (duesOf t s₀)) hcfg run₀
    hidle htimely₀ hH₀ hstart
    (fun q s' q' ht hed => by
      obtain ⟨hmem, hper, hdead⟩ := hed.start_deadline ht
      refine ⟨hmem, by rw [hper]; rfl, 0, ?_, ?_, ?_⟩
      · rw [duesOf_edited hed, List.range_zero, List.map_nil, List.append_nil]
        rfl
      · rw [hdead]
        simp
      · rw [hed.clk]
        simp) run₁ htimely hH
  refine ⟨s', hret, ?_⟩
  obtain ⟨k, hdues, hdead, hle⟩ := hI'.runs
  have hnext := hset'.not_due hq' hI'.mem
  have hpos : 0 < (s₀.env t).period.toNat := by
    rw [← hI'.period]
    exact hq'.repeating t ⟨app, hrep app⟩
  have hk' : (s'.clk - (s₀.clk + lag₀ s₀)) / (s₀.env t).period.toNat = k := by
    rw [hdead] at hnext
    have hlo : s₀.clk + lag₀ s₀ + k * (s₀.env t).period.toNat ≤ s'.clk := by exact_mod_cast hle
    have hhi : s'.clk < s₀.clk + lag₀ s₀ + (k + 1) * (s₀.env t).period.toNat := by
      exact_mod_cast hnext
    refine Nat.div_eq_of_lt_le ?_ ?_
    · omega
    · have hsucc : (k + 1) * (s₀.env t).period.toNat = k.succ * (s₀.env t).period.toNat := rfl
      omega
  rw [hdues, hk']

/-- The first of two timers, 5 half slots after it was started. -/
theorem periodic_two : duesOf true (twoServed true) = [3] := by
  obtain ⟨s', hret, hdues⟩ := periodic_timer_on_schedule (by decide) configured_two () 0
    (TimerRun.refl) (fun _ => rfl) rfl (timely_zero _ _ _ 0) (Nat.le_refl 0) (started_two true)
    (late_two true) (timely_zero _ _ _ 5) (by decide)
  rw [hret.unique (served_two true)] at hdues
  rw [hdues]
  rfl

/-- The timer `t`, started at `T` with the period `p`, is waiting or has had its turn. -/
inductive Once (t : ν) (T p : ℕ) (before : List ℤ) (s : TimerDevice ν σ) (q : List ν) : Prop where
  | waiting (mem : t ∈ q) (dues : duesOf t s = before) (deadline : s.deadline t = T + p)
  | over (mem : t ∉ q) (dues : duesOf t s = before ++ [(T : ℤ) + p]) (past : T + p ≤ s.clk)

theorem kept_once (hPL : P + L < 2 ^ 27) (hone : ∀ app, (cb t app).1 = false) (T p : ℕ)
    (before : List ℤ) :
    Kept cb P L (fun e => ¬ e.Concerns t) (Once (σ := σ) t T p before) where
  read := by
    rintro s q d hq hd (⟨hmem, hdues, hdead⟩ | ⟨hmem, hdues, hpast⟩)
    · have hlate := hd t hmem
      exact .waiting hmem hdues ((TimerDevice.deadline_advance (by omega)).trans hdead)
    · exact .over hmem hdues (hpast.trans (Nat.le_add_right _ _))
  irq := by
    rintro s q target masked pending (⟨hmem, hdues, hdead⟩ | ⟨hmem, hdues, hpast⟩)
    · exact .waiting hmem hdues hdead
    · exact .over hmem hdues hpast
  fire := by
    rintro s u q s' q' hq hdue (⟨hmem, hdues, hdead⟩ | ⟨hmem, hdues, hpast⟩) hf hq'
    · by_cases hu : u = t
      · subst hu
        refine .over (fun h => ?_) ?_ ?_
        · rw [hf.perm.mem_iff, hone, if_neg Bool.false_ne_true] at h
          exact (List.nodup_cons.mp hq.holds.ring.nodup).1 h
        · rw [duesOf_fired hf, if_pos rfl, hdues, hdead]
        · rw [hf.clk]
          unfold TimerDevice.deadline at hdead
          omega
      · have htq : t ∈ q := (List.mem_cons.mp hmem).resolve_left (Ne.symm hu)
        refine .waiting (hf.perm.mem_iff.mpr ?_) ?_ ?_
        · split
          · exact hmem
          · exact htq
        · rw [duesOf_fired hf, if_neg hu, List.append_nil, hdues]
        · rw [hf.deadline_other (Ne.symm hu), hdead]
    · have hu : u ≠ t := fun e => hmem (e ▸ List.mem_cons_self)
      refine .over (fun h => hmem (hf.mem h)) ?_ (hf.clk ▸ hpast)
      rw [duesOf_fired hf, if_neg hu, List.append_nil, hdues]
  edit := by
    rintro e s q s' q' hok hq (⟨hmem, hdues, hdead⟩ | ⟨hmem, hdues, hpast⟩) hed hq'
    · refine .waiting ((hed.mem t hok).mpr hmem) ((duesOf_edited hed).trans hdues) ?_
      rw [← hdead]
      simp only [TimerDevice.deadline, TimerDevice.ahead, TimerDevice.now, hed.env t hok, hed.clk]
    · exact .over (fun h => hmem ((hed.mem t hok).mp h)) ((duesOf_edited hed).trans hdues)
        (hed.clk ▸ hpast)

/-- A timer whose callback never asks for another period, started in any reachable state and
not stopped or started again since: after any interrupt it has been called once, for the end of
its period, if the clock has reached that, and is no longer active; before, it has not been
called and is. -/
theorem one_shot_timer_fires_once (hPL : P + L < 2 ^ 27) {env : ν → SwTimerEnv}
    (hcfg : Configured cb P env) (app : σ) (clk : ℕ) {s₀ s₁ : TimerDevice ν σ}
    (run₀ : TimerRun cb P L (fun _ => True) (swTimerModuleReset env app clk) s₀)
    (hone : ∀ app, (cb t app).1 = false) (hidle : swTimerActive s₀ t = false)
    {lag₀ : TimerDevice ν σ → ℕ} {H₀ : ℕ} (htimely₀ : Timely cb P L H₀ lag₀) (hH₀ : s₀.clk ≤ H₀)
    (hstart : Returns cb lag₀ s₀ (.start t) s₁)
    (run₁ : TimerRun cb P L (fun e => ¬ e.Concerns t) s₁ s)
    (htimely : Timely cb P L H lag) (hH : s.clk ≤ H) :
    ∃ s', Returns cb lag s .isr s' ∧
      duesOf t s' = duesOf t s₀ ++
        (if s₀.clk + lag₀ s₀ + (s₀.env t).period.toNat ≤ s'.clk then
          [((s₀.clk + lag₀ s₀ : ℕ) : ℤ) + (s₀.env t).period.toNat] else []) ∧
      (swTimerActive s' t = true ↔ s'.clk < s₀.clk + lag₀ s₀ + (s₀.env t).period.toNat) := by
  obtain ⟨s', q', hret, hq', hset', hI'⟩ := after_start hPL
    (kept_once hPL hone (s₀.clk + lag₀ s₀) (s₀.env t).period.toNat (duesOf t s₀)) hcfg run₀
    hidle htimely₀ hH₀ hstart
    (fun q s' q' ht hed => by
      obtain ⟨hmem, hper, hdead⟩ := hed.start_deadline ht
      refine .waiting hmem ((duesOf_edited hed).trans rfl) ?_
      rw [hdead]
      simp) run₁ htimely hH
  refine ⟨s', hret, ?_⟩
  rw [hq'.active_iff]
  rcases hI' with ⟨hmem, hdues, hdead⟩ | ⟨hmem, hdues, hpast⟩
  · have hnext := hset'.not_due hq' hmem
    rw [hdead] at hnext
    have hlt : s'.clk < s₀.clk + lag₀ s₀ + (s₀.env t).period.toNat := by exact_mod_cast hnext
    rw [if_neg (not_le.mpr hlt), List.append_nil]
    exact ⟨hdues, iff_of_true hmem hlt⟩
  · rw [if_pos hpast]
    exact ⟨hdues, iff_of_false hmem (not_lt.mpr hpast)⟩

/-- The second of two timers, 5 half slots after it was started. -/
theorem one_shot_two : duesOf false (twoServed false) = [5] ∧
    swTimerActive (twoServed false) false = false := by
  obtain ⟨s', hret, hdues, hactive⟩ := one_shot_timer_fires_once (by decide) configured_two () 0
    (TimerRun.refl) (fun _ => rfl) rfl (timely_zero _ _ _ 0) (Nat.le_refl 0) (started_two false)
    (late_two false) (timely_zero _ _ _ 5) (by decide)
  rw [hret.unique (served_two false)] at hdues hactive
  refine ⟨hdues.trans rfl, Bool.eq_false_iff.mpr (fun h => ?_)⟩
  exact absurd (hactive.mp h) (by decide)

end One

end ErgoDock
