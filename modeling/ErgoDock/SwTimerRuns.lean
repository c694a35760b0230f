import ErgoDock.SwTimerUpdate

/-! # Runs of the timers (`sw_timer.c`)

A run mixes the calls of the interface, the interrupt and the time between them in any order.
The callers start and put in only timers that are not active, stop only active ones and keep
the periods below `P`; the readings are `Timely`.  `TimerRun.invariant` is the induction over a
run: what each piece of the code keeps holds at its end, with the queue in order and the match
interrupt armed. -/

namespace ErgoDock

variable {ν σ : Type}

/-- What happens on the device. -/
inductive TimerEvent (ν : Type) where
  | wait (d : ℕ)
  | periodSet (timer : ν) (period : UInt32)
  | insert (timer : ν) (target : UInt32)
  | start (timer : ν)
  | stop (timer : ν)
  | isr

/-- The timer an event is about. -/
def TimerEvent.Concerns (t : ν) : TimerEvent ν → Prop
  | .periodSet timer _ | .insert timer _ | .start timer | .stop timer => timer = t
  | .wait _ | .isr => False

/-- One event.  `insert` is `sw_timer_target_set` and `sw_timer_insert`. -/
def TimerDevice.step [DecidableEq ν] (cb : ν → σ → Bool × σ) (lag : TimerDevice ν σ → ℕ)
    (fuel : ℕ) (s : TimerDevice ν σ) : TimerEvent ν → Option (TimerDevice ν σ)
  | .wait d => some (s.advance d)
  | .periodSet timer period => some (s.periodSet timer period)
  | .insert timer target => swTimerInsert cb lag fuel (s.targetSet timer target) timer
  | .start timer => (swTimerStart cb lag fuel s timer).map Prod.snd
  | .stop timer => swTimerStop cb lag fuel s timer
  | .isr => swTimerUpdate cb lag fuel s

/-- The event's code comes to its end in `s'`, given the rounds it needs. -/
def Returns [DecidableEq ν] (cb : ν → σ → Bool × σ) (lag : TimerDevice ν σ → ℕ)
    (s : TimerDevice ν σ) (e : TimerEvent ν) (s' : TimerDevice ν σ) : Prop :=
  ∃ rounds, ∀ fuel, rounds ≤ fuel → s.step cb lag fuel e = some s'

/-- What the callers owe, and that time does not run past a timer by more than `L`. -/
def Allowed (cb : ν → σ → Bool × σ) (P L : ℕ) (s : TimerDevice ν σ) : TimerEvent ν → Prop
  | .wait d => ∀ t, swTimerActive s t = true → (d : ℤ) ≤ s.ahead t + L
  | .periodSet timer period =>
    period.toNat ≤ P ∧ (Repeats cb timer → 0 < period.toNat)
  | .insert timer target =>
    swTimerActive s timer = false ∧ target.toNat < 2 ^ 28 ∧
      -(L : ℤ) ≤ timerTimeCompare target s.now ∧ timerTimeCompare target s.now ≤ P
  | .start timer => swTimerActive s timer = false
  | .stop timer => swTimerActive s timer = true
  | .isr => True

/-- A run of the events `ok` admits. -/
inductive TimerRun [DecidableEq ν] (cb : ν → σ → Bool × σ) (P L : ℕ) (ok : TimerEvent ν → Prop)
    (s₀ : TimerDevice ν σ) : TimerDevice ν σ → Prop where
  | refl : TimerRun cb P L ok s₀ s₀
  | step {s s' : TimerDevice ν σ} {e : TimerEvent ν} {lag : TimerDevice ν σ → ℕ} {H : ℕ}
      (run : TimerRun cb P L ok s₀ s) (hok : ok e) (hallowed : Allowed cb P L s e)
      (htimely : Timely cb P L H lag) (hclk : s.clk ≤ H) (hreturns : Returns cb lag s e s') :
      TimerRun cb P L ok s₀ s'

theorem Returns.unique [DecidableEq ν] {cb : ν → σ → Bool × σ} {lag : TimerDevice ν σ → ℕ}
    {s s₁ s₂ : TimerDevice ν σ} {e : TimerEvent ν} (h₁ : Returns cb lag s e s₁)
    (h₂ : Returns cb lag s e s₂) : s₁ = s₂ := by
  obtain ⟨n₁, h₁⟩ := h₁
  obtain ⟨n₂, h₂⟩ := h₂
  have h := (h₁ (max n₁ n₂) (le_max_left _ _)).symm.trans (h₂ (max n₁ n₂) (le_max_right _ _))
  exact Option.some.inj h

theorem returns_of_step [DecidableEq ν] {cb : ν → σ → Bool × σ} {lag : TimerDevice ν σ → ℕ}
    {s s' : TimerDevice ν σ} {e : TimerEvent ν} (n : ℕ)
    (h : ∀ k, s.step cb lag (k + n) e = some s') : Returns cb lag s e s' :=
  ⟨n, fun fuel hfuel => by
    obtain ⟨k, rfl⟩ := Nat.exists_eq_add_of_le' hfuel
    exact h k⟩

/-! ## What one event does -/

/-- The device when the event changes the queue: `sw_timer_start` reads the counter first. -/
def atEdit (lag : TimerDevice ν σ → ℕ) (s : TimerDevice ν σ) : TimerEvent ν → TimerDevice ν σ
  | .start _ => s.advance (lag s)
  | _ => s

/-- What the event itself does to the queue, before the timers that are due have their turn. -/
structure Edited (e : TimerEvent ν) (s s' : TimerDevice ν σ) (q q' : List ν) : Prop where
  clk : s'.clk = s.clk
  calls : s'.calls = s.calls
  env : ∀ u, ¬ e.Concerns u → s'.env u = s.env u
  mem : ∀ u, ¬ e.Concerns u → (u ∈ q' ↔ u ∈ q)
  started : ∀ u, e = .start u → u ∈ q'
  period : ∀ u, (∀ p, e ≠ .periodSet u p) → (s'.env u).period = (s.env u).period
  joined : ∀ u ∈ q', (u ∈ q ∧ s'.deadline u = s.deadline u) ∨
    (e = .start u ∧ s'.deadline u = s.clk + (s.env u).period.toNat) ∨
    ∃ target, e = .insert u target

/-- The match interrupt is set for the first timer, and pending if that one is due. -/
def MatchArmed (s : TimerDevice ν σ) (q : List ν) : Prop :=
  ∀ t ∈ q.head?, s.clkTarget = (s.env t).target ∧ s.irqMasked = false ∧
    (0 < s.ahead t ∨ s.irqPending = true)

/-- The pieces of the code keep `I`. -/
structure Kept (cb : ν → σ → Bool × σ) (P L : ℕ) (ok : TimerEvent ν → Prop)
    (I : TimerDevice ν σ → List ν → Prop) : Prop where
  read : ∀ s q d, Queued cb P L s q → (∀ t ∈ q, ((d : ℕ) : ℤ) ≤ s.ahead t + L) → I s q →
    I (s.advance d) q
  irq : ∀ s q target masked pending, I s q →
    I { s with clkTarget := target, irqMasked := masked, irqPending := pending } q
  fire : ∀ s t q s' q', Queued cb P L s (t :: q) → s.ahead t ≤ 0 → I s (t :: q) →
    Fired cb s s' t q q' → Queued cb P L s' q' → I s' q'
  edit : ∀ e s q s' q', ok e → Queued cb P L s q → I s q → Edited e s s' q q' →
    Queued cb P L s' q' → I s' q'

section Event

variable {cb : ν → σ → Bool × σ} {P L H : ℕ} {s : TimerDevice ν σ} {q : List ν} {t : ν}
  {lag : TimerDevice ν σ → ℕ} {ok : TimerEvent ν → Prop} {I : TimerDevice ν σ → List ν → Prop}
  {e : TimerEvent ν}

theorem Settled.armed (h : Settled s q) : MatchArmed s q := by
  intro t ht
  obtain ⟨h1, h2, h3⟩ := h t ht
  exact ⟨h1, h2, Or.inl h3⟩

theorem MatchArmed.advance (hPL : P + L < 2 ^ 27) (hq : Queued cb P L s q) (h : MatchArmed s q)
    {d : ℕ} (hd : ∀ t ∈ q, (d : ℤ) ≤ s.ahead t + L) : MatchArmed (s.advance d) q := by
  intro t ht
  obtain ⟨h1, h2, h3⟩ := h t ht
  have htq : t ∈ q := List.mem_of_mem_head? ht
  refine ⟨h1, h2, ?_⟩
  rcases h3 with h3 | h3
  · by_cases hpast : s.ahead t ≤ d
    · exact Or.inr (TimerDevice.pending_advance h1 (hq.target t htq) h3 hpast)
    · left
      rw [ahead_advance_of_late hPL (hd t htq)]
      omega
  · right
    simp [TimerDevice.advance, h3]

variable [DecidableEq ν]

theorem swTimerUpdate_spec (hPL : P + L < 2 ^ 27) (hk : Kept cb P L ok I)
    (hlag : Timely cb P L H lag) (hq : Queued cb P L s q) (hI : I s q) (hH : s.clk ≤ H) :
    ∃ s' q', (∃ rounds, ∀ fuel, rounds ≤ fuel → swTimerUpdate cb lag fuel s = some s') ∧
      Queued cb P L s' q' ∧ I s' q' ∧ Settled s' q' ∧ s'.clk ≤ H := by
  have hmask : Queued cb P L { s with irqMasked := true } q := hq.congr rfl rfl rfl rfl
  obtain ⟨s', q', hloop, hrest⟩ := swTimerUpdateLoop_spec (I := I) hPL hlag
    (fun s t q hq hI => by
      have harmed : Queued cb P L (s.armFor t) (t :: q) := hq.congr rfl rfl rfl rfl
      exact hk.read _ _ _ harmed (hlag.prompt _ _ harmed) (hk.irq _ _ _ s.irqMasked _ hI))
    (fun s t q s' q' => hk.fire s t q s' q') (fun s q hI => hk.irq s q _ _ _ hI) hmask
    (hk.irq s q s.clkTarget true s.irqPending hI) hH
  refine ⟨s', q', ⟨max q.length (workload H { s with irqMasked := true } q + 1),
    fun fuel hfuel => ?_⟩, hrest⟩
  rw [max_le_iff] at hfuel
  exact hloop fuel fuel hfuel.1 hfuel.2

omit [DecidableEq ν] in
theorem Queued.inactive (hq : Queued cb P L s q) (h : swTimerActive s t = false) : t ∉ q := by
  intro ht
  rw [(hq.active_iff t).mpr ht] at h
  exact Bool.noConfusion h

/-- A timer whose target is set joins the queue. -/
theorem joins (hPL : P + L < 2 ^ 27) (hq : Queued cb P L s q) (ht : t ∉ q) (target : UInt32)
    (hn : target.toNat < 2 ^ 28) (hlo : -(L : ℤ) ≤ timerTimeCompare target s.now)
    (hhi : timerTimeCompare target s.now ≤ P) (he : ∀ u, e.Concerns u ↔ u = t)
    (hj : ∀ d, d = s.clk + timerTimeCompare target s.now →
      (e = .start t ∧ d = s.clk + (s.env t).period.toNat) ∨ ∃ target, e = .insert t target) :
    ∃ s' q', (∀ fuel, q.length ≤ fuel → timerInsert fuel (s.targetSet t target) t = some s') ∧
      Queued cb P L s' q' ∧ Edited e s s' q q' := by
  have hahead : (s.targetSet t target).ahead t = timerTimeCompare target s.now := by
    simp [TimerDevice.ahead, TimerDevice.targetSet, TimerDevice.now]
  obtain ⟨s', hins, hq', henv, hclk, hcalls⟩ := timerInsert_queued hPL (hq.targetSet ht target)
    ht (hahead ▸ hlo) (hahead ▸ hhi) (by simpa [TimerDevice.targetSet] using hn)
  have hother : ∀ u, u ≠ t → s'.env u = s.env u := fun u hu => by
    rw [henv]
    simp [TimerDevice.targetSet, hu]
  refine ⟨s', _, hins, hq', hclk, hcalls, fun u hu => hother u (fun h => hu ((he u).mpr h)),
    fun u hu => ?_, fun u hu => ?_, fun u _ => ?_, fun u hu => ?_⟩
  · rw [mem_insertBack]
    exact or_iff_right (fun h => hu ((he u).mpr h))
  · have hut : u = t := (he u).mp (hu ▸ rfl)
    exact mem_insertBack.mpr (Or.inl hut)
  · rw [henv]
    by_cases hut : u = t
    · subst hut
      simp [TimerDevice.targetSet]
    · simp [TimerDevice.targetSet, hut]
  · by_cases hut : u = t
    · subst hut
      refine Or.inr (hj _ ?_)
      have hsame : s'.ahead u = (s.targetSet u target).ahead u := by
        simp only [TimerDevice.ahead, TimerDevice.now, henv, hclk]
      rw [TimerDevice.deadline, hsame, hahead, hclk]
      rfl
    · refine Or.inl ⟨(mem_insertBack.mp hu).resolve_left hut, ?_⟩
      simp only [TimerDevice.deadline, TimerDevice.ahead, TimerDevice.now, hclk, hother u hut]
      rfl

theorem step_start (lag : TimerDevice ν σ → ℕ) (fuel : ℕ) (s : TimerDevice ν σ) (t : ν) :
    s.step cb lag fuel (.start t) =
      swTimerInsert cb lag fuel ((s.advance (lag s)).targetSet t
        (timerTimeAdd (s.advance (lag s)).now (s.env t).period)) t := by
  have hs : s.step cb lag fuel (.start t) =
      ((swTimerInsert cb lag fuel ((s.advance (lag s)).targetSet t
        (timerTimeAdd (s.advance (lag s)).now (s.env t).period)) t).bind
          (fun s' => some ((s.advance (lag s)).now, s'))).map Prod.snd := rfl
  rw [hs]
  cases swTimerInsert cb lag fuel ((s.advance (lag s)).targetSet t
    (timerTimeAdd (s.advance (lag s)).now (s.env t).period)) t <;> rfl

/-- Every call of the interface but `sw_timer_period_set` changes the queue and lets the timers
that are due have their turn. -/
theorem opens (hPL : P + L < 2 ^ 27) (hq : Queued cb P L s q) (hallowed : Allowed cb P L s e)
    (hlag : Timely cb P L H lag) (hH : s.clk ≤ H) (hw : ∀ d, e ≠ .wait d)
    (hp : ∀ t period, e ≠ .periodSet t period) :
    ∃ s' q', (∃ rounds, ∀ fuel, rounds ≤ fuel →
        s.step cb lag fuel e = swTimerUpdate cb lag fuel s') ∧
      Queued cb P L (atEdit lag s e) q ∧ Queued cb P L s' q' ∧
      Edited e (atEdit lag s e) s' q q' ∧ s'.clk ≤ H := by
  cases e with
  | wait d => exact absurd rfl (hw d)
  | periodSet t period => exact absurd rfl (hp t period)
  | insert t target =>
    obtain ⟨hidle, hn, hlo, hhi⟩ := hallowed
    obtain ⟨s', q', hins, hq', hed⟩ := joins hPL hq (hq.inactive hidle) target hn hlo hhi
      (fun u => ⟨Eq.symm, Eq.symm⟩ : ∀ u, (TimerEvent.insert t target).Concerns u ↔ u = t)
      (fun _ _ => Or.inr ⟨target, rfl⟩)
    refine ⟨s', q', ⟨q.length, fun fuel hfuel => ?_⟩, hq, hq', hed, hed.clk ▸ hH⟩
    simp [TimerDevice.step, swTimerInsert, hins fuel hfuel]
  | start t =>
    have hread := hq.advance hPL (hlag.prompt s q hq)
    have hcmp : timerTimeCompare (timerTimeAdd (s.advance (lag s)).now (s.env t).period)
        (s.advance (lag s)).now = (s.env t).period.toNat := by
      have hperiod := hq.period t
      refine timerTimeCompare_unique ?_ (by omega) (by omega)
      rw [toNat_timerTimeAdd]
      omega
    have hn : (timerTimeAdd (s.advance (lag s)).now (s.env t).period).toNat < 2 ^ 28 := by
      rw [toNat_timerTimeAdd]
      omega
    have hperiod := hq.period t
    obtain ⟨s', q', hins, hq', hed⟩ := joins hPL hread (hq.inactive hallowed) _ hn
      (by rw [hcmp]; omega) (by rw [hcmp]; omega)
      (fun u => ⟨Eq.symm, Eq.symm⟩ : ∀ u, (TimerEvent.start t).Concerns u ↔ u = t)
      (fun d hd => Or.inl ⟨rfl, by rw [hd, hcmp]; rfl⟩)
    refine ⟨s', q', ⟨q.length, fun fuel hfuel => ?_⟩, hread, hq', hed,
      hed.clk ▸ hlag.within s hH⟩
    rw [step_start, swTimerInsert, hins fuel hfuel]
    rfl
  | stop t =>
    have ht : t ∈ q := (hq.active_iff t).mp hallowed
    obtain ⟨ys, zs, rfl⟩ := List.append_of_mem ht
    obtain ⟨m, list, hcall, hhold, hun, hsame⟩ := cdllExtract_holds hq.holds
    have hsub : (ys ++ zs).Sublist (ys ++ t :: zs) :=
      List.Sublist.append (List.Sublist.refl ys) (List.sublist_cons_self t zs)
    refine ⟨{ s with links := m, swTimerList := list }, ys ++ zs, ⟨0, fun fuel _ => ?_⟩, hq,
      ⟨hhold, fun u hu => ?_, hq.ordered.sublist hsub, fun u hu => hq.window u (hsub.subset hu),
        fun u hu => hq.target u (hsub.subset hu), hq.period, hq.repeating⟩,
      ⟨rfl, rfl, fun _ _ => rfl, fun u hu => ?_, fun u hu => by simp at hu, fun _ _ => rfl,
        fun u hu => Or.inl ⟨hsub.subset hu, rfl⟩⟩, hH⟩
    · simp only [TimerDevice.step, swTimerStop, hcall]
      rfl
    · by_cases hut : u = t
      · exact hut ▸ hun
      · have hout : u ∉ ys ++ t :: zs := by
          simp only [List.mem_append, List.mem_cons, not_or] at hu ⊢
          exact ⟨hu.1, hut, hu.2⟩
        obtain ⟨h1, h2⟩ := hsame u hout
        have h := hq.unlinked u hout
        exact ⟨h1.trans h.1, h2.trans h.2⟩
    · have hut : u ≠ t := fun e => hu e.symm
      simp [hut]
  | isr =>
    refine ⟨s, q, ⟨0, fun fuel _ => rfl⟩, hq, hq, ⟨rfl, rfl, fun _ _ => rfl, fun _ _ => Iff.rfl,
      fun u hu => by simp at hu, fun _ _ => rfl, fun u hu => Or.inl ⟨hu, rfl⟩⟩, hH⟩

/-- A call lets the timers that are due have their turn, from a state in which the event has
changed the queue, and settles it. -/
theorem call_settles (hPL : P + L < 2 ^ 27) (hk : Kept cb P L ok I) (hq : Queued cb P L s q)
    (hallowed : Allowed cb P L s e) (hlag : Timely cb P L H lag) (hH : s.clk ≤ H)
    (hw : ∀ d, e ≠ .wait d) (hp : ∀ t period, e ≠ .periodSet t period)
    (hI : ∀ s' q', Queued cb P L (atEdit lag s e) q → Edited e (atEdit lag s e) s' q q' →
      Queued cb P L s' q' → I s' q') :
    ∃ s' q', Returns cb lag s e s' ∧ Queued cb P L s' q' ∧ Settled s' q' ∧ I s' q' := by
  obtain ⟨s₁, q₁, ⟨n, hopen⟩, hread, hq₁, hed, hH₁⟩ := opens hPL hq hallowed hlag hH hw hp
  obtain ⟨s', q', ⟨m, hupdate⟩, hq', hI', hset, -⟩ :=
    swTimerUpdate_spec hPL hk hlag hq₁ (hI s₁ q₁ hread hed hq₁) hH₁
  refine ⟨s', q', ⟨max n m, fun fuel hfuel => ?_⟩, hq', hset, hI'⟩
  rw [max_le_iff] at hfuel
  rw [hopen fuel hfuel.1, hupdate fuel hfuel.2]

/-- `sw_timer_period_set` leaves the targets as they are. -/
@[simp] theorem periodSet_target (s : TimerDevice ν σ) (t u : ν) (period : UInt32) :
    ((s.periodSet t period).env u).target = (s.env u).target := by
  by_cases hu : u = t
  · subst hu
    simp [TimerDevice.periodSet]
  · simp [TimerDevice.periodSet, hu]

@[simp] theorem periodSet_ahead (s : TimerDevice ν σ) (t u : ν) (period : UInt32) :
    (s.periodSet t period).ahead u = s.ahead u := by
  rw [TimerDevice.ahead, periodSet_target]
  rfl

theorem periodSet_period (s : TimerDevice ν σ) (t u : ν) (period : UInt32) :
    ((s.periodSet t period).env u).period = if u = t then period else (s.env u).period := by
  by_cases hu : u = t
  · subst hu
    simp [TimerDevice.periodSet]
  · simp [TimerDevice.periodSet, hu]

theorem Queued.periodSet (hq : Queued cb P L s q) {period : UInt32} (hle : period.toNat ≤ P)
    (hpos : Repeats cb t → 0 < period.toNat) : Queued cb P L (s.periodSet t period) q := by
  refine ⟨hq.holds, hq.unlinked, by simpa using hq.ordered, by simpa using hq.window,
    by simpa using hq.target,
    fun u => ?_, fun u hu => ?_⟩
  · rw [periodSet_period]
    split
    · exact hle
    · exact hq.period u
  · rw [periodSet_period]
    split
    · next h => exact hpos (h ▸ hu)
    · exact hq.repeating u hu

/-- One event of a run. -/
theorem timerDevice_step (hPL : P + L < 2 ^ 27) (hk : Kept cb P L ok I) (hq : Queued cb P L s q)
    (harmed : MatchArmed s q) (hI : I s q) (hok : ok e) (hallowed : Allowed cb P L s e)
    (hlag : Timely cb P L H lag) (hH : s.clk ≤ H) :
    ∃ s' q', Returns cb lag s e s' ∧ Queued cb P L s' q' ∧ MatchArmed s' q' ∧ I s' q' := by
  have hcall (hw : ∀ d, e ≠ .wait d) (hp : ∀ t period, e ≠ .periodSet t period) :
      ∃ s' q', Returns cb lag s e s' ∧ Queued cb P L s' q' ∧ MatchArmed s' q' ∧ I s' q' := by
    have hread : I (atEdit lag s e) q := by
      cases e with
      | start t => exact hk.read s q (lag s) hq (hlag.prompt s q hq) hI
      | wait d | periodSet t period | insert t target | stop t | isr => exact hI
    obtain ⟨s', q', hret, hq', hset, hI'⟩ := call_settles hPL hk hq hallowed hlag hH hw hp
      (fun s' q' hq₁ hed hq' => hk.edit e _ q s' q' hok hq₁ hread hed hq')
    exact ⟨s', q', hret, hq', hset.armed, hI'⟩
  cases e with
  | wait d =>
    have hd : ∀ t ∈ q, (d : ℤ) ≤ s.ahead t + L := fun t ht =>
      hallowed t ((hq.active_iff t).mpr ht)
    exact ⟨s.advance d, q, ⟨0, fun _ _ => rfl⟩, hq.advance hPL hd, harmed.advance hPL hq hd,
      hk.read s q d hq hd hI⟩
  | periodSet t period =>
    have hq' := hq.periodSet hallowed.1 hallowed.2
    refine ⟨s.periodSet t period, q, ⟨0, fun _ _ => rfl⟩, hq', fun u hu => ?_,
      hk.edit _ s q _ q hok hq hI ⟨rfl, rfl, fun u hu => ?_, fun _ _ => Iff.rfl,
        fun u hu => by simp at hu, fun u hu => ?_, fun u hu => ?_⟩ hq'⟩
    · obtain ⟨h1, h2, h3⟩ := harmed u hu
      refine ⟨(periodSet_target s t u period).symm ▸ h1, h2, ?_⟩
      rw [periodSet_ahead]
      exact h3
    · have hut : u ≠ t := fun e => hu e.symm
      simp [TimerDevice.periodSet, hut]
    · have hut : u ≠ t := fun e => hu period (e ▸ rfl)
      simp [TimerDevice.periodSet, hut]
    · refine Or.inl ⟨hu, ?_⟩
      rw [TimerDevice.deadline, periodSet_ahead]
      rfl
  | insert t target | start t | stop t | isr => exact hcall (by simp) (by simp)

/-- What the pieces of the code keep holds at the end of a run. -/
theorem TimerRun.invariant (hPL : P + L < 2 ^ 27) (hk : Kept cb P L ok I)
    {s' : TimerDevice ν σ} (run : TimerRun cb P L ok s s') (hq : Queued cb P L s q)
    (harmed : MatchArmed s q) (hI : I s q) :
    ∃ q', Queued cb P L s' q' ∧ MatchArmed s' q' ∧ I s' q' := by
  induction run with
  | refl => exact ⟨q, hq, harmed, hI⟩
  | step run hok hallowed htimely hclk hreturns ih =>
    obtain ⟨q₁, hq₁, harmed₁, hI₁⟩ := ih
    obtain ⟨s₂, q₂, hret, hrest⟩ :=
      timerDevice_step hPL hk hq₁ harmed₁ hI₁ hok hallowed htimely hclk
    rw [hreturns.unique hret]
    exact ⟨q₂, hrest⟩

end Event

end ErgoDock
