import ErgoDock.SwTimer

/-! # What one update of the timer queue does (`sw_timer.c`)

`Queued` is the state the timer functions keep: the list holds the timers in the order they are
due, no other timer has its pointers set, and every timer in it is at most `L` half slots late
and at most `P` early, where `P + L` stays below half the range of the counter.  Each piece of
the code keeps it, and `swTimerUpdateLoop_spec` does the induction for the loop of
`sw_timer_update`: with `workload` rounds it comes to an end, and it leaves the match interrupt
set for the first timer.  What else is to be carried through the loop is carried by the
predicate `I` of that lemma. -/

namespace ErgoDock

namespace TimerDevice

variable {ν σ : Type} {s : TimerDevice ν σ} {t : ν}

theorem toNat_now (s : TimerDevice ν σ) : s.now.toNat = s.clk % 2 ^ 28 := by
  unfold now
  rw [UInt32.toNat_ofNat']
  omega

theorem ahead_spec (s : TimerDevice ν σ) (t : ν) :
    (2 ^ 28 : ℤ) ∣ (s.env t).target.toNat - s.clk - s.ahead t ∧
      -2 ^ 27 ≤ s.ahead t ∧ s.ahead t < 2 ^ 27 := by
  have h := timerTimeCompare_spec (s.env t).target s.now
  rw [toNat_now] at h
  unfold ahead
  omega

theorem ahead_unique {d : ℤ} (hd : (2 ^ 28 : ℤ) ∣ (s.env t).target.toNat - s.clk - d)
    (hlo : -2 ^ 27 ≤ d) (hhi : d < 2 ^ 27) : s.ahead t = d := by
  refine timerTimeCompare_unique ?_ hlo hhi
  rw [toNat_now]
  omega

/-- Two timers compare as their distances do. -/
theorem compare_targets {u : ν} (hlo : -2 ^ 27 ≤ s.ahead t - s.ahead u)
    (hhi : s.ahead t - s.ahead u < 2 ^ 27) :
    timerTimeCompare (s.env t).target (s.env u).target = s.ahead t - s.ahead u := by
  have ht := (s.ahead_spec t).1
  have hu := (s.ahead_spec u).1
  exact timerTimeCompare_unique (by omega) hlo hhi

/-- The code's test that a timer is due. -/
theorem due_iff (s : TimerDevice ν σ) (t : ν) (h : s.ahead t ≠ -2 ^ 27) :
    0 ≤ timerTimeCompare s.now (s.env t).target ↔ s.ahead t ≤ 0 := by
  have hs := s.ahead_spec t
  have hc : timerTimeCompare s.now (s.env t).target = -s.ahead t := by
    refine timerTimeCompare_unique ?_ (by omega) (by omega)
    rw [toNat_now]
    omega
  rw [hc]
  omega

/-! ### Time passing -/

@[simp] theorem advance_clk (s : TimerDevice ν σ) (d : ℕ) : (s.advance d).clk = s.clk + d := rfl

@[simp] theorem advance_env (s : TimerDevice ν σ) (d : ℕ) : (s.advance d).env = s.env := rfl

theorem ahead_advance {d : ℕ} (h : -2 ^ 27 ≤ s.ahead t - d) :
    (s.advance d).ahead t = s.ahead t - d := by
  have hs := s.ahead_spec t
  refine ahead_unique ?_ h (by omega)
  rw [advance_clk, advance_env]
  push_cast
  omega

theorem deadline_advance {d : ℕ} (h : -2 ^ 27 ≤ s.ahead t - d) :
    (s.advance d).deadline t = s.deadline t := by
  unfold deadline
  rw [ahead_advance h, advance_clk]
  push_cast
  omega

/-- The interrupt is pending once the clock has passed the match value. -/
theorem pending_advance {d : ℕ} (hm : s.clkTarget = (s.env t).target)
    (hn : (s.env t).target.toNat < 2 ^ 28) (h : 0 < s.ahead t) (hd : s.ahead t ≤ d) :
    (s.advance d).irqPending = true := by
  have hs := (s.ahead_spec t).1
  have hmatch : ∃ k < d, (s.clk + k + 1) % 2 ^ 28 = s.clkTarget.toNat :=
    ⟨(s.ahead t - 1).toNat, by omega, by rw [hm]; omega⟩
  simp only [advance, Bool.or_eq_true, decide_eq_true_eq]
  exact Or.inr hmatch

end TimerDevice

section Queue

variable {ν σ : Type} {cb : ν → σ → Bool × σ} {P L H : ℕ} {s : TimerDevice ν σ} {q : List ν}
  {t : ν} {lag : TimerDevice ν σ → ℕ}

/-- The callback may ask for another period. -/
def Repeats (cb : ν → σ → Bool × σ) (t : ν) : Prop := ∃ app, (cb t app).1 = true

/-- The list holds the timers `q`, in the order they are due. -/
structure Queued (cb : ν → σ → Bool × σ) (P L : ℕ) (s : TimerDevice ν σ) (q : List ν) : Prop where
  holds : s.swTimerList.Holds s.links q
  unlinked : ∀ t ∉ q, s.links.Unlinked t
  ordered : q.Pairwise (fun a b => s.ahead a ≤ s.ahead b)
  window : ∀ t ∈ q, -(L : ℤ) ≤ s.ahead t ∧ s.ahead t ≤ P
  target : ∀ t ∈ q, (s.env t).target.toNat < 2 ^ 28
  period : ∀ t, (s.env t).period.toNat ≤ P
  repeating : ∀ t, Repeats cb t → 0 < (s.env t).period.toNat

/-- The readings of one call: the clock does not pass `H`, and no timer is more than `L` late. -/
structure Timely (cb : ν → σ → Bool × σ) (P L H : ℕ) (lag : TimerDevice ν σ → ℕ) : Prop where
  within : ∀ s, s.clk ≤ H → s.clk + lag s ≤ H
  prompt : ∀ s q, Queued cb P L s q → ∀ t ∈ q, lag s ≤ s.ahead t + L

/-- The rounds the timers of the list can still ask for before the clock is at `H`. -/
def workload (H : ℕ) (s : TimerDevice ν σ) (q : List ν) : ℕ :=
  (q.map (fun t => (H + 1 - s.deadline t).toNat)).sum

theorem Queued.active_iff (hq : Queued cb P L s q) (t : ν) :
    swTimerActive s t = true ↔ t ∈ q := by
  constructor
  · intro h
    by_contra hn
    have hun := hq.unlinked t hn
    simp [swTimerActive, cdllIsElemLinked, hun.1] at h
  · intro h
    obtain ⟨p, -, n, -, hn, hp⟩ := hq.holds.ring.linked_of_mem h
    simp [swTimerActive, cdllIsElemLinked, hn, hp]

/-- The queue does not depend on the interrupt, the application or the calls made. -/
theorem Queued.congr {s' : TimerDevice ν σ} (hq : Queued cb P L s q) (hlinks : s'.links = s.links)
    (hlist : s'.swTimerList = s.swTimerList) (henv : s'.env = s.env) (hclk : s'.clk = s.clk) :
    Queued cb P L s' q := by
  have hahead : ∀ t, s'.ahead t = s.ahead t := fun t => by
    simp only [TimerDevice.ahead, TimerDevice.now, henv, hclk]
  constructor
  · rw [hlinks, hlist]
    exact hq.holds
  · rw [hlinks]
    exact hq.unlinked
  · simpa only [hahead] using hq.ordered
  · simpa only [hahead] using hq.window
  · rw [henv]
    exact hq.target
  · rw [henv]
    exact hq.period
  · rw [henv]
    exact hq.repeating

theorem ahead_advance_of_late (hPL : P + L < 2 ^ 27) {d : ℕ} (hd : (d : ℤ) ≤ s.ahead t + L) :
    (s.advance d).ahead t = s.ahead t - d :=
  TimerDevice.ahead_advance (by omega)

theorem Queued.advance (hPL : P + L < 2 ^ 27) (hq : Queued cb P L s q) {d : ℕ}
    (hd : ∀ t ∈ q, (d : ℤ) ≤ s.ahead t + L) : Queued cb P L (s.advance d) q where
  holds := hq.holds
  unlinked := hq.unlinked
  ordered := by
    refine hq.ordered.imp_of_mem (fun {a b} ha hb hab => ?_)
    rw [ahead_advance_of_late hPL (hd a ha), ahead_advance_of_late hPL (hd b hb)]
    omega
  window := by
    intro t ht
    rw [ahead_advance_of_late hPL (hd t ht)]
    have h1 := hd t ht
    have h2 := (hq.window t ht).2
    omega
  target := hq.target
  period := hq.period
  repeating := hq.repeating

/-- A timer that is due soon enough joins the queue. -/
theorem timerInsert_queued [DecidableEq ν] (hPL : P + L < 2 ^ 27) (hq : Queued cb P L s q)
    (ht : t ∉ q) (hlo : -(L : ℤ) ≤ s.ahead t) (hhi : s.ahead t ≤ P)
    (hn : (s.env t).target.toNat < 2 ^ 28) :
    ∃ s', (∀ fuel, q.length ≤ fuel → timerInsert fuel s t = some s') ∧
      Queued cb P L s' (insertBack (insertionCompare s.env) t q) ∧
      s'.env = s.env ∧ s'.clk = s.clk ∧ s'.calls = s.calls := by
  obtain ⟨m, list, hcall, hhold, hsame⟩ :=
    cdllInsert_holds (insertionCompare s.env) hq.holds ht
  refine ⟨{ s with links := m, swTimerList := list },
    fun fuel hfuel => by simp [timerInsert, hcall fuel hfuel], ?_, rfl, rfl, rfl⟩
  have hmem : ∀ u ∈ insertBack (insertionCompare s.env) t q, u = t ∨ u ∈ q :=
    fun u hu => mem_insertBack.mp hu
  refine ⟨hhold, fun u hu => ?_, ?_, fun u hu => ?_, fun u hu => ?_, hq.period, hq.repeating⟩
  · rw [mem_insertBack, not_or] at hu
    obtain ⟨h1, h2⟩ := hsame u (by simpa using hu)
    have hun := hq.unlinked u hu.2
    exact ⟨h1.trans hun.1, h2.trans hun.2⟩
  · refine pairwise_insertBack (fun u => s.ahead u) (fun u hu => ?_) hq.ordered
    have hw := hq.window u hu
    rw [insertionCompare, TimerDevice.compare_targets (by omega) (by omega), decide_eq_true_eq]
    omega
  · rcases hmem u hu with rfl | hu
    · exact ⟨hlo, hhi⟩
    · exact hq.window u hu
  · rcases hmem u hu with rfl | hu
    · exact hn
    · exact hq.target u hu

theorem Queued.pop [DecidableEq ν] (hq : Queued cb P L s (t :: q)) :
    ∃ m list, cdllPopFront s.links s.swTimerList = some (some t, m, list) ∧
      Queued cb P L { s with links := m, swTimerList := list } q := by
  obtain ⟨m, list, hcall, hhold, hun, hsame⟩ := cdllPopFront_holds hq.holds
  refine ⟨m, list, hcall, hhold, fun u hu => ?_, (List.pairwise_cons.mp hq.ordered).2,
    fun u hu => hq.window u (List.mem_cons_of_mem t hu),
    fun u hu => hq.target u (List.mem_cons_of_mem t hu), hq.period, hq.repeating⟩
  by_cases hut : u = t
  · exact hut ▸ hun
  · have hout : u ∉ t :: q := by simp [hut, hu]
    obtain ⟨h1, h2⟩ := hsame u hout
    have h := hq.unlinked u hout
    exact ⟨h1.trans h.1, h2.trans h.2⟩

theorem Queued.targetSet [DecidableEq ν] (hq : Queued cb P L s q) (ht : t ∉ q)
    (target : UInt32) : Queued cb P L (s.targetSet t target) q := by
  have henv : ∀ u ∈ q, (s.targetSet t target).env u = s.env u := fun u hu => by
    have hut : u ≠ t := fun e => ht (e ▸ hu)
    simp [TimerDevice.targetSet, hut]
  have hahead : ∀ u ∈ q, (s.targetSet t target).ahead u = s.ahead u := fun u hu => by
    rw [TimerDevice.ahead, henv u hu]
    rfl
  have hperiod : ∀ u, ((s.targetSet t target).env u).period = (s.env u).period := fun u => by
    by_cases hut : u = t
    · subst hut
      simp [TimerDevice.targetSet]
    · simp [TimerDevice.targetSet, hut]
  refine ⟨hq.holds, hq.unlinked, ?_, ?_, ?_, ?_, ?_⟩
  · refine hq.ordered.imp_of_mem (fun {a b} ha hb hab => ?_)
    rwa [hahead a ha, hahead b hb]
  · intro u hu
    rw [hahead u hu]
    exact hq.window u hu
  · intro u hu
    rw [henv u hu]
    exact hq.target u hu
  · intro u
    rw [hperiod]
    exact hq.period u
  · intro u hu
    rw [hperiod]
    exact hq.repeating u hu

/-- A target set a time after a time on the counter, seen from the clock. -/
theorem ahead_targetSet [DecidableEq ν] {a b : UInt32} {d : ℤ}
    (hd : (2 ^ 28 : ℤ) ∣ a.toNat + b.toNat - s.clk - d) (hlo : -2 ^ 27 ≤ d) (hhi : d < 2 ^ 27) :
    (s.targetSet t (timerTimeAdd a b)).ahead t = d := by
  refine TimerDevice.ahead_unique ?_ hlo hhi
  simp only [TimerDevice.targetSet, Function.update_self, toNat_timerTimeAdd]
  omega

/-- What a timer's turn changes: `q` and `q'` are the timers behind it and those left. -/
structure Fired (cb : ν → σ → Bool × σ) (s s' : TimerDevice ν σ) (t : ν) (q q' : List ν) :
    Prop where
  clk : s'.clk = s.clk
  calls : s'.calls = s.calls ++ [⟨t, s.deadline t, s.clk⟩]
  perm : q'.Perm (if (cb t s.app).1 then t :: q else q)
  env : ∀ u ≠ t, s'.env u = s.env u
  period : ∀ u, (s'.env u).period = (s.env u).period
  deadline : (cb t s.app).1 = true →
    s'.deadline t = s.deadline t + ((s.env t).period.toNat : ℕ)

theorem Fired.deadline_other {s' : TimerDevice ν σ} {q' : List ν} (hf : Fired cb s s' t q q')
    {u : ν} (hu : u ≠ t) : s'.deadline u = s.deadline u := by
  simp only [TimerDevice.deadline, TimerDevice.ahead, TimerDevice.now, hf.clk, hf.env u hu]

theorem Fired.mem {s' : TimerDevice ν σ} {q' : List ν} (hf : Fired cb s s' t q q') {u : ν}
    (hu : u ∈ q') : u ∈ t :: q := by
  have h := hf.perm.mem_iff.mp hu
  split at h
  · exact h
  · exact List.mem_cons_of_mem t h

theorem swTimerFire_spec [DecidableEq ν] (hPL : P + L < 2 ^ 27) (hq : Queued cb P L s (t :: q))
    (hdue : s.ahead t ≤ 0) :
    ∃ s' q', (∀ fuel, q.length ≤ fuel → swTimerFire cb fuel s t = some s') ∧
      Queued cb P L s' q' ∧ Fired cb s s' t q q' := by
  obtain ⟨m, list, hpop, hq₁⟩ := hq.pop
  have ht : t ∉ q := (List.nodup_cons.mp hq.holds.ring.nodup).1
  have hq₂ : Queued cb P L (({ s with links := m, swTimerList := list } :
      TimerDevice ν σ).callback cb t).2 q := hq₁.congr rfl rfl rfl rfl
  cases hagain : (cb t s.app).1 with
  | false =>
    refine ⟨_, q, fun fuel _ => ?_, hq₂, rfl, rfl, by simp [hagain], fun _ _ => rfl,
      fun _ => rfl, ?_⟩
    · simp [swTimerFire, hpop, TimerDevice.callback, hagain]
    · simp [hagain]
  | true =>
    generalize hs₂ : (({ s with links := m, swTimerList := list } :
      TimerDevice ν σ).callback cb t).2 = s₂ at hq₂
    have hclk : s₂.clk = s.clk := by rw [← hs₂]; rfl
    have henv : s₂.env = s.env := by rw [← hs₂]; rfl
    have hcalls : s₂.calls = s.calls ++ [⟨t, s.deadline t, s.clk⟩] := by rw [← hs₂]; rfl
    have hw := hq.window t List.mem_cons_self
    have hp := hq.period t
    have hahead : (s₂.targetSet t (timerTimeAdd (s₂.env t).target (s₂.env t).period)).ahead t =
        s.ahead t + (s.env t).period.toNat := by
      have hs := (s.ahead_spec t).1
      refine ahead_targetSet ?_ (by omega) (by omega)
      rw [hclk, henv]
      omega
    obtain ⟨s', hins, hq', henv', hclk', hcalls'⟩ := timerInsert_queued hPL
      (hq₂.targetSet ht (timerTimeAdd (s₂.env t).target (s₂.env t).period)) ht
      (by omega) (by omega)
      (by simp only [TimerDevice.targetSet, Function.update_self, toNat_timerTimeAdd]; omega)
    refine ⟨s', _, fun fuel hfuel => ?_, hq', hclk'.trans hclk, hcalls'.trans hcalls, ?_, ?_,
      ?_, ?_⟩
    · have hfst : (({ s with links := m, swTimerList := list } :
        TimerDevice ν σ).callback cb t).1 = true := hagain
      simp only [swTimerFire, hpop, Option.bind_eq_bind, Option.bind_some, hfst, if_true]
      rw [hs₂]
      exact hins fuel hfuel
    · rw [hagain, if_pos rfl]
      exact insertBack_perm
    · intro u hu
      rw [henv']
      simp [TimerDevice.targetSet, hu, henv]
    · intro u
      rw [henv']
      by_cases hu : u = t
      · subst hu
        simp [TimerDevice.targetSet, henv]
      · simp [TimerDevice.targetSet, hu, henv]
    · intro _
      have hsame : s'.ahead t =
          (s₂.targetSet t (timerTimeAdd (s₂.env t).target (s₂.env t).period)).ahead t := by
        simp only [TimerDevice.ahead, TimerDevice.now, henv', hclk']
      rw [TimerDevice.deadline, hsame, hahead, hclk', TimerDevice.deadline]
      have hsc : (s₂.targetSet t (timerTimeAdd (s₂.env t).target (s₂.env t).period)).clk = s.clk :=
        hclk
      rw [hsc]
      omega

theorem Fired.workload_lt {s' : TimerDevice ν σ} {q' : List ν} (hf : Fired cb s s' t q q')
    (hq : Queued cb P L s (t :: q)) (hdue : s.ahead t ≤ 0) (hH : s.clk ≤ H) :
    workload H s' q' < workload H s (t :: q) := by
  have ht : t ∉ q := (List.nodup_cons.mp hq.holds.ring.nodup).1
  have hrest : q.map (fun u => (H + 1 - s'.deadline u).toNat) =
      q.map (fun u => (H + 1 - s.deadline u).toNat) := by
    refine List.map_congr_left (fun u hu => ?_)
    rw [hf.deadline_other (fun e => ht (e ▸ hu))]
  have hcount : 0 < (H + 1 - s.deadline t).toNat := by
    unfold TimerDevice.deadline
    omega
  unfold workload
  rw [(hf.perm.map _).sum_eq]
  cases hagain : (cb t s.app).1 with
  | false =>
    simp only [Bool.false_eq_true, if_false, List.map_cons, List.sum_cons, hrest]
    omega
  | true =>
    have hp := hq.repeating t ⟨s.app, hagain⟩
    have hd := hf.deadline hagain
    simp only [if_true, List.map_cons, List.sum_cons, hrest]
    omega

/-- The queue is empty, or the match interrupt is set for its first timer, which is not due. -/
def Settled (s : TimerDevice ν σ) (q : List ν) : Prop :=
  ∀ t ∈ q.head?, s.clkTarget = (s.env t).target ∧ s.irqMasked = false ∧ 0 < s.ahead t

/-- The first timer of the list and the device after the round's reading. -/
structure Reads (lag : TimerDevice ν σ → ℕ) (s : TimerDevice ν σ) (t : ν)
    (s₁ : TimerDevice ν σ) : Prop where
  first : s.swTimerList.first = some t
  read : (s.armFor t).advance (lag (s.armFor t)) = s₁

theorem swTimerUpdateLoop_fire [DecidableEq ν] {s₁ : TimerDevice ν σ} (hr : Reads lag s t s₁)
    (hdue : 0 ≤ timerTimeCompare s₁.now (s₁.env t).target) (fuel rounds : ℕ) :
    swTimerUpdateLoop cb lag fuel (rounds + 1) s =
      (swTimerFire cb fuel s₁ t).bind (swTimerUpdateLoop cb lag fuel rounds) := by
  simp only [swTimerUpdateLoop, cdllFirst, hr.first, TimerDevice.timerTimeGet, hr.read]
  rw [if_pos hdue]
  rfl

theorem swTimerUpdateLoop_wait [DecidableEq ν] {s₁ : TimerDevice ν σ} (hr : Reads lag s t s₁)
    (hdue : ¬ 0 ≤ timerTimeCompare s₁.now (s₁.env t).target) (fuel rounds : ℕ) :
    swTimerUpdateLoop cb lag fuel (rounds + 1) s = some { s₁ with irqMasked := false } := by
  simp only [swTimerUpdateLoop, cdllFirst, hr.first, TimerDevice.timerTimeGet, hr.read]
  rw [if_neg hdue]

theorem workload_advance (hPL : P + L < 2 ^ 27) {d : ℕ}
    (hd : ∀ t ∈ q, (d : ℤ) ≤ s.ahead t + L) : workload H (s.advance d) q = workload H s q := by
  unfold workload
  rw [List.map_congr_left (fun u hu => ?_)]
  have hlate := hd u hu
  rw [TimerDevice.deadline_advance (by omega)]

theorem Fired.length_le {s' : TimerDevice ν σ} {q' : List ν} (hf : Fired cb s s' t q q') :
    q'.length ≤ q.length + 1 := by
  have h := hf.perm.length_eq
  split at h
  · rw [List.length_cons] at h
    omega
  · omega

/-- The loop of `sw_timer_update` comes to its end and settles the queue, and what a reading, a
timer's turn and the interrupt mask keep is kept. -/
theorem swTimerUpdateLoop_spec [DecidableEq ν] {I : TimerDevice ν σ → List ν → Prop}
    (hPL : P + L < 2 ^ 27) (hlag : Timely cb P L H lag)
    (harm : ∀ s t q, Queued cb P L s (t :: q) → I s (t :: q) →
      I ((s.armFor t).advance (lag (s.armFor t))) (t :: q))
    (hfire : ∀ s t q s' q', Queued cb P L s (t :: q) → s.ahead t ≤ 0 → I s (t :: q) →
      Fired cb s s' t q q' → Queued cb P L s' q' → I s' q')
    (hmask : ∀ s q, I s q → I { s with irqMasked := false } q)
    (hq : Queued cb P L s q) (hI : I s q) (hH : s.clk ≤ H) :
    ∃ s' q', (∀ fuel rounds, q.length ≤ fuel → workload H s q < rounds →
        swTimerUpdateLoop cb lag fuel rounds s = some s') ∧
      Queued cb P L s' q' ∧ I s' q' ∧ Settled s' q' ∧ s'.clk ≤ H := by
  -- by how much the timers can still ask for
  induction hw : workload H s q using Nat.strong_induction_on generalizing s q with
  | _ w ih =>
    subst hw
    cases q with
    | nil =>
      have hfirst : s.swTimerList.first = none := hq.holds.first
      refine ⟨s, [], fun fuel rounds _ hrounds => ?_, hq, hI, by simp [Settled], hH⟩
      cases rounds with
      | zero => omega
      | succ rounds => simp only [swTimerUpdateLoop, cdllFirst, hfirst]
    | cons t q =>
      have hfirst : s.swTimerList.first = some t := hq.holds.first
      have harmed : Queued cb P L (s.armFor t) (t :: q) := hq.congr rfl rfl rfl rfl
      have hlate := hlag.prompt _ _ harmed
      have hread := harmed.advance hPL hlate
      have hI₁ := harm s t q hq hI
      have hwork : workload H ((s.armFor t).advance (lag (s.armFor t))) (t :: q) =
        workload H s (t :: q) := workload_advance hPL hlate
      have hclk : ((s.armFor t).advance (lag (s.armFor t))).clk ≤ H := hlag.within _ hH
      obtain ⟨s₁, hs₁⟩ : ∃ s₁, (s.armFor t).advance (lag (s.armFor t)) = s₁ := ⟨_, rfl⟩
      have hr : Reads lag s t s₁ := ⟨hfirst, hs₁⟩
      have hmatch : s₁.clkTarget = (s₁.env t).target := hs₁ ▸ rfl
      rw [hs₁] at hread hI₁ hwork hclk
      have hwin := (hread.window t List.mem_cons_self).1
      have hiff := s₁.due_iff t (by omega)
      by_cases hdue : s₁.ahead t ≤ 0
      · obtain ⟨s', q', hcall, hq', hf⟩ := swTimerFire_spec hPL hread hdue
        have hless := hf.workload_lt hread hdue hclk
        obtain ⟨s'', q'', hloop, hrest⟩ := ih (workload H s' q') (by omega) hq'
          (hfire s₁ t q s' q' hread hdue hI₁ hf hq') (hf.clk ▸ hclk) rfl
        refine ⟨s'', q'', fun fuel rounds hfuel hrounds => ?_, hrest⟩
        have hlen := hf.length_le
        rw [List.length_cons] at hfuel
        cases rounds with
        | zero => omega
        | succ rounds =>
          rw [swTimerUpdateLoop_fire hr (hiff.mpr hdue), hcall fuel (by omega), Option.bind_some,
            hloop fuel rounds (by omega) (by omega)]
      · refine ⟨{ s₁ with irqMasked := false }, t :: q, fun fuel rounds _ hrounds => ?_,
          hread.congr rfl rfl rfl rfl, hmask s₁ (t :: q) hI₁, ?_, hclk⟩
        · cases rounds with
          | zero => omega
          | succ rounds => exact swTimerUpdateLoop_wait hr (fun h => hdue (hiff.mp h)) fuel rounds
        · intro u hu
          simp only [List.head?_cons, Option.mem_def, Option.some.injEq] at hu
          subst hu
          exact ⟨hmatch, rfl, not_le.mp hdue⟩

end Queue

end ErgoDock
