import ErgoDock.Cdll
import ErgoDock.Lib.Run

/-! # The timer queue (`sw_timer.c`, `sw_timer_port.c`)

Timers wait in one list, in the order they are due, for the match interrupt of a hardware
counter of 28 bits.  The model gives the device a clock that never wraps, `clk`, in half slots
of 312.5 µs; the counter shows its remainder, and a time on the counter is compared over half
of its range in each direction (`timerTimeCompare_eq`).  `ahead` is how far the code takes a
timer to be from its target, `deadline` the time on the clock this stands for.

Time passes where the code reads the counter: `lag` says how much at each reading, and anything
the code did before is part of it.  A callback is what the application does with its own state
`σ` and the answer whether the timer is to run another period. -/

namespace ErgoDock

/-! ## Times on the counter -/

/-- `timer_time_add`. -/
def timerTimeAdd (a b : UInt32) : UInt32 := (a + b) &&& 0xfffffff

/-- `timer_time_compare`. -/
def timerTimeCompare (a b : UInt32) : ℤ :=
  let diff := (a - b) &&& 0xfffffff
  if diff &&& 0x8000000 ≠ 0 then (diff ||| 0xf0000000).toInt32.toInt else diff.toInt32.toInt

theorem toNat_timerTimeAdd (a b : UInt32) :
    (timerTimeAdd a b).toNat = (a.toNat + b.toNat) % 2 ^ 28 := by
  unfold timerTimeAdd
  rw [UInt32.toNat_and, UInt32.toNat_add]
  have hmask : (0xfffffff : UInt32).toNat = 2 ^ 28 - 1 := rfl
  rw [hmask, Nat.and_two_pow_sub_one_eq_mod]
  omega

theorem toInt_toInt32 (x : UInt32) :
    x.toInt32.toInt = if 2 * x.toNat < 2 ^ 32 then (x.toNat : ℤ) else x.toNat - 2 ^ 32 := by
  have h : x.toInt32.toInt = x.toBitVec.toInt := rfl
  rw [h, BitVec.toInt_eq_toNat_cond]
  rfl

/-- Two times are compared by the difference that is less than half the range of the counter. -/
theorem timerTimeCompare_eq (a b : UInt32) :
    timerTimeCompare a b = Int.bmod (a.toNat - b.toNat) (2 ^ 28) := by
  have hmask : (0xfffffff : UInt32).toNat = 2 ^ 28 - 1 := rfl
  have hsign : (0x8000000 : UInt32).toNat = 2 ^ 27 := rfl
  have hext : (0xf0000000 : UInt32).toNat = 2 ^ 28 * 15 := rfl
  have hd : ((a - b) &&& 0xfffffff).toNat = (2 ^ 32 - b.toNat + a.toNat) % 2 ^ 28 := by
    rw [UInt32.toNat_and, UInt32.toNat_sub, hmask, Nat.and_two_pow_sub_one_eq_mod]
    omega
  unfold timerTimeCompare
  generalize (a - b) &&& 0xfffffff = diff at hd
  have hlt : diff.toNat < 2 ^ 28 := hd ▸ Nat.mod_lt _ (by decide)
  have ha := a.toNat_lt
  have hb := b.toNat_lt
  have hbit : diff &&& 0x8000000 = 0 ↔ diff.toNat < 2 ^ 27 := by
    rw [← UInt32.toNat_inj, UInt32.toNat_and, hsign, Nat.and_two_pow,
      Nat.testBit_eq_decide_div_mod_eq]
    by_cases h : diff.toNat / 2 ^ 27 % 2 = 1
    · simp only [h, decide_true, Bool.toNat_true]
      norm_num
      omega
    · simp only [h, decide_false, Bool.toNat_false]
      norm_num
      omega
  have hor : (diff ||| 0xf0000000).toNat = 2 ^ 28 * 15 + diff.toNat := by
    rw [UInt32.toNat_or, hext, Nat.or_comm, ← Nat.two_pow_add_eq_or_of_lt hlt]
  simp only [ne_eq, hbit, toInt_toInt32, hor, Int.bmod]
  split <;> split <;> split <;> omega

/-- The comparison is the one value in half the range, in each direction, that the two times
allow. -/
theorem timerTimeCompare_unique {a b : UInt32} {d : ℤ} (hd : (2 ^ 28 : ℤ) ∣ a.toNat - b.toNat - d)
    (hlo : -2 ^ 27 ≤ d) (hhi : d < 2 ^ 27) : timerTimeCompare a b = d := by
  rw [timerTimeCompare_eq, Int.bmod]
  split <;> omega

theorem timerTimeCompare_spec (a b : UInt32) :
    (2 ^ 28 : ℤ) ∣ a.toNat - b.toNat - timerTimeCompare a b ∧
      -2 ^ 27 ≤ timerTimeCompare a b ∧ timerTimeCompare a b < 2 ^ 27 := by
  rw [timerTimeCompare_eq, Int.bmod]
  split <;> omega

/-! ## The device -/

/-- `struct sw_timer_env`: the list header is in the pointers of the device, the callback with
its parameter is a parameter of the functions. -/
structure SwTimerEnv where
  period : UInt32
  target : UInt32

/-- A callback made: the timer, the deadline it was made for and the reading that made it due. -/
structure TimerCall (ν : Type) where
  timer : ν
  due : ℤ
  clk : ℕ

/-- The timers, the counter with its match interrupt, and the state `app` of the application. -/
structure TimerDevice (ν σ : Type) where
  links : Links ν
  swTimerList : Cdll ν
  env : ν → SwTimerEnv
  clk : ℕ
  clkTarget : UInt32
  irqMasked : Bool
  irqPending : Bool
  app : σ
  calls : List (TimerCall ν)

namespace TimerDevice

variable {ν σ : Type}

/-- What the counter shows. -/
def now (s : TimerDevice ν σ) : UInt32 := UInt32.ofNat (s.clk % 2 ^ 28)

/-- How far a timer is from its target, as the code sees it. -/
def ahead (s : TimerDevice ν σ) (t : ν) : ℤ := timerTimeCompare (s.env t).target s.now

/-- The time on the clock at which a timer is due. -/
def deadline (s : TimerDevice ν σ) (t : ν) : ℤ := s.clk + s.ahead t

/-- Time passes.  The interrupt becomes pending when the counter shows the match value. -/
def advance (s : TimerDevice ν σ) (d : ℕ) : TimerDevice ν σ :=
  { s with
    clk := s.clk + d
    irqPending := s.irqPending || decide (∃ k < d, (s.clk + k + 1) % 2 ^ 28 = s.clkTarget.toNat) }

/-- `timer_time_get`, `lag s` after the last reading. -/
def timerTimeGet (lag : TimerDevice ν σ → ℕ) (s : TimerDevice ν σ) : UInt32 × TimerDevice ν σ :=
  ((s.advance (lag s)).now, s.advance (lag s))

/-- `timer_irq_clr` and `timer_match_set`. -/
def armFor (s : TimerDevice ν σ) (timer : ν) : TimerDevice ν σ :=
  { s with irqPending := false, clkTarget := (s.env timer).target }

/-- `timer->callback(timer->cb_param)`. -/
def callback (cb : ν → σ → Bool × σ) (s : TimerDevice ν σ) (timer : ν) :
    Bool × TimerDevice ν σ :=
  ((cb timer s.app).1,
    { s with
      app := (cb timer s.app).2
      calls := s.calls ++ [⟨timer, s.deadline timer, s.clk⟩] })

section Code

variable [DecidableEq ν]

/-- `sw_timer_period_set`. -/
def periodSet (s : TimerDevice ν σ) (timer : ν) (period : UInt32) : TimerDevice ν σ :=
  { s with env := Function.update s.env timer { s.env timer with period := period } }

/-- `sw_timer_target_set`. -/
def targetSet (s : TimerDevice ν σ) (timer : ν) (target : UInt32) : TimerDevice ν σ :=
  { s with env := Function.update s.env timer { s.env timer with target := target } }

end Code

end TimerDevice

/-- `insertion_compare`. -/
def insertionCompare {ν : Type} (env : ν → SwTimerEnv) (ptr refHdr : ν) : Bool :=
  decide (0 ≤ timerTimeCompare (env ptr).target (env refHdr).target)

section Code

variable {ν σ : Type} [DecidableEq ν]

/-- `timer_insert`. -/
def timerInsert (fuel : ℕ) (s : TimerDevice ν σ) (timer : ν) : Option (TimerDevice ν σ) := do
  let r ← cdllInsert fuel s.links s.swTimerList timer (insertionCompare s.env)
  some { s with links := r.1, swTimerList := r.2 }

/-- The branch of `sw_timer_update` for a timer that is due: it leaves the list, and goes back
for another period if its callback says so. -/
def swTimerFire (cb : ν → σ → Bool × σ) (fuel : ℕ) (s : TimerDevice ν σ) (timer : ν) :
    Option (TimerDevice ν σ) := do
  let r ← cdllPopFront s.links s.swTimerList
  let s := { s with links := r.2.1, swTimerList := r.2.2 }
  let (again, s) := s.callback cb timer
  if again then
    let s := s.targetSet timer (timerTimeAdd (s.env timer).target (s.env timer).period)
    timerInsert fuel s timer
  else
    some s

/-- The loop of `sw_timer_update`, for at most `rounds` rounds. -/
def swTimerUpdateLoop (cb : ν → σ → Bool × σ) (lag : TimerDevice ν σ → ℕ) (fuel : ℕ) :
    ℕ → TimerDevice ν σ → Option (TimerDevice ν σ)
  | 0, _ => none
  | rounds + 1, s =>
    match cdllFirst s.swTimerList with
    | none => some s
    | some timer => do
      let s := s.armFor timer
      let (current, s) := s.timerTimeGet lag
      if 0 ≤ timerTimeCompare current (s.env timer).target then
        let s ← swTimerFire cb fuel s timer
        swTimerUpdateLoop cb lag fuel rounds s
      else
        some { s with irqMasked := false }

/-- `sw_timer_update`. -/
def swTimerUpdate (cb : ν → σ → Bool × σ) (lag : TimerDevice ν σ → ℕ) (fuel : ℕ)
    (s : TimerDevice ν σ) : Option (TimerDevice ν σ) :=
  swTimerUpdateLoop cb lag fuel fuel { s with irqMasked := true }

/-- `sw_timer_insert`. -/
def swTimerInsert (cb : ν → σ → Bool × σ) (lag : TimerDevice ν σ → ℕ) (fuel : ℕ)
    (s : TimerDevice ν σ) (timer : ν) : Option (TimerDevice ν σ) := do
  let s ← timerInsert fuel s timer
  swTimerUpdate cb lag fuel s

/-- `sw_timer_start`: the reading it counts from, and the device. -/
def swTimerStart (cb : ν → σ → Bool × σ) (lag : TimerDevice ν σ → ℕ) (fuel : ℕ)
    (s : TimerDevice ν σ) (timer : ν) : Option (UInt32 × TimerDevice ν σ) := do
  let (current, s) := s.timerTimeGet lag
  let s := s.targetSet timer (timerTimeAdd current (s.env timer).period)
  let s ← swTimerInsert cb lag fuel s timer
  some (current, s)

/-- `sw_timer_stop`. -/
def swTimerStop (cb : ν → σ → Bool × σ) (lag : TimerDevice ν σ → ℕ) (fuel : ℕ)
    (s : TimerDevice ν σ) (timer : ν) : Option (TimerDevice ν σ) := do
  let r ← cdllExtract s.links s.swTimerList timer
  swTimerUpdate cb lag fuel { s with links := r.1, swTimerList := r.2 }

end Code

/-- `sw_timer_active`. -/
def swTimerActive {ν σ : Type} (s : TimerDevice ν σ) (timer : ν) : Bool :=
  cdllIsElemLinked s.links timer

/-- `sw_timer_list_pick`. -/
def swTimerListPick {ν σ : Type} (s : TimerDevice ν σ) : Option ν := cdllFirst s.swTimerList

/-- `sw_timer_module_reset`, on a device whose timers no list has yet. -/
def swTimerModuleReset {ν σ : Type} (env : ν → SwTimerEnv) (app : σ) (clk : ℕ) :
    TimerDevice ν σ where
  links := ⟨fun _ => none, fun _ => none⟩
  swTimerList := cdllInit
  env := env
  clk := clk
  clkTarget := 0
  irqMasked := true
  irqPending := false
  app := app
  calls := []

end ErgoDock
