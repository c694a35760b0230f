import ErgoDock.Lift

/-! # How long a lift segment lasts

A segment stores its end as a tick of the 32-bit counter, with 0 for no segment, and the periodic
call compares the counter with it.  From an arbitrary start of the counter, the segment is open
until the first call at which its duration has passed, and is released there and never again, if
and only if the end does not wrap to 0 and no call until then comes when one of the counter and the
end has wrapped and the other has not (`segment_exact_iff`). -/

namespace ErgoDock

open Machine

/-- What happens while a segment is open: the counter, the periodic call, and whatever else leaves
the counter and the segment alone. -/
inductive LiftEvent where
  | tick
  | call
  | other (f : Dock → Dock)
      (h : ∀ d, (f d).bus.timer = d.bus.timer ∧ (f d).bus.segEnd = d.bus.segEnd)

def liftStep (d : Dock) : LiftEvent → Dock
  | .tick => d.timerTick
  | .call => d.snoreLiftProcessTick
  | .other f _ => f d

/-- The ticks since the counter was `t₀`, modulo 2^32. -/
def Dock.elapsed (t₀ : UInt32) (d : Dock) : ℕ := (d.bus.timer - t₀).toNat

/-- History: a call has come at which the duration had passed. -/
def reached (t₀ : UInt32) (ticks : ℕ) (r : Bool) (d : Dock) : LiftEvent → Bool
  | .call => r || decide (ticks ≤ d.elapsed t₀)
  | _ => r

/-- The segment is open until that call, which releases it, and no later call does anything. -/
structure SegmentKept (t₀ : UInt32) (ticks : ℕ) (p : Dock × Bool) (e : LiftEvent) : Prop where
  opened : p.2 = false → p.1.bus.segEnd ≠ 0
  stays : e = .call → p.2 = false → p.1.elapsed t₀ < ticks → (liftStep p.1 e).bus.segEnd ≠ 0
  released : e = .call → p.2 = false → ticks ≤ p.1.elapsed t₀ →
    (liftStep p.1 e).bus.segEnd = 0 ∧ (liftStep p.1 e).mfp.items = [Bus.releaseRequest]
  once : e = .call → p.2 = true → liftStep p.1 e = p.1

/-- Until then the end is not 0, and at a call either both the counter and the end have wrapped or
neither has. -/
structure SameEra (t₀ : UInt32) (ticks : ℕ) (p : Dock × Bool) (e : LiftEvent) : Prop where
  nonzero : p.2 = false → t₀.toNat + ticks ≠ 2 ^ 32
  era : e = .call → p.2 = false →
    (t₀.toNat + p.1.elapsed t₀ < 2 ^ 32 ↔ t₀.toNat + ticks < 2 ^ 32)

/-- The end of the open segment. -/
structure SegmentInv (t₀ : UInt32) (ticks : ℕ) (p : Dock × Bool) : Prop where
  running : p.2 = false → p.1.bus.segEnd.toNat = (t₀.toNat + ticks) % 2 ^ 32
  closed : p.2 = true → p.1.bus.segEnd = 0

section segment
variable {t₀ : UInt32} {ticks : ℕ} {p : Dock × Bool}

theorem timer_eq (d : Dock) : d.bus.timer.toNat = (t₀.toNat + d.elapsed t₀) % 2 ^ 32 := by
  have hadd : t₀ + (d.bus.timer - t₀) = d.bus.timer := by
    rw [add_sub_cancel]
  rw [Dock.elapsed, ← UInt32.toNat_add, hadd]

/-- In one era the comparison is the one of the ticks that have passed. -/
theorem due_iff {t k n : ℕ} (hk : k < 2 ^ 32) (hn : n < 2 ^ 32) (hpos : 0 < n) (ht : t < 2 ^ 32) :
    ((t + n) % 2 ^ 32 ≤ (t + k) % 2 ^ 32 ↔ n ≤ k) ↔ (t + k < 2 ^ 32 ↔ t + n < 2 ^ 32) := by
  omega

theorem process_over {d : Dock} (h : d.bus.segEnd = 0) : d.snoreLiftProcessTick = d := if_pos h

theorem process_due {d : Dock} (h0 : d.bus.segEnd ≠ 0) (ht : d.bus.segEnd ≤ d.bus.timer) :
    d.snoreLiftProcessTick.bus = d.bus.release := by
  rw [Dock.bus_processTick, Bus.process, if_neg h0, if_pos ht]

theorem process_early {d : Dock} (h0 : d.bus.segEnd ≠ 0) (ht : ¬ d.bus.segEnd ≤ d.bus.timer) :
    d.snoreLiftProcessTick.bus.segEnd = d.bus.segEnd := by
  rw [Dock.bus_processTick, Bus.process, if_neg h0, if_neg ht]
  split <;> rfl

/-- The comparison of a call in the open segment. -/
theorem call_due_iff (h : SegmentInv t₀ ticks p) (hpos : 0 < ticks) (hlt : ticks < 2 ^ 32)
    (hopen : p.2 = false) :
    (p.1.bus.segEnd ≤ p.1.bus.timer ↔ ticks ≤ p.1.elapsed t₀) ↔
      (t₀.toNat + p.1.elapsed t₀ < 2 ^ 32 ↔ t₀.toNat + ticks < 2 ^ 32) := by
  rw [UInt32.le_iff_toNat_le, h.running hopen, @timer_eq t₀]
  exact due_iff (UInt32.toNat_lt _) hlt hpos t₀.toNat_lt

theorem segEnd_ne_zero_iff (h : SegmentInv t₀ ticks p) (hpos : 0 < ticks) (hlt : ticks < 2 ^ 32)
    (hopen : p.2 = false) : p.1.bus.segEnd ≠ 0 ↔ t₀.toNat + ticks ≠ 2 ^ 32 := by
  have hz : p.1.bus.segEnd = 0 ↔ p.1.bus.segEnd.toNat = 0 :=
    ⟨fun h => h ▸ rfl, fun h => UInt32.toNat_inj.mp h⟩
  have ht := t₀.toNat_lt
  rw [Ne, hz, h.running hopen]
  omega

theorem segmentInv_step {e : LiftEvent} (hpos : 0 < ticks) (hlt : ticks < 2 ^ 32)
    (h : SegmentInv t₀ ticks p) (hs : SameEra t₀ ticks p e) :
    SegmentInv t₀ ticks (monitor liftStep (reached t₀ ticks) p e) := by
  cases e with
  | tick => exact ⟨h.running, h.closed⟩
  | other f hf =>
      refine ⟨fun hopen => ?_, fun hclosed => ?_⟩
      · exact (congrArg UInt32.toNat (hf p.1).2).trans (h.running hopen)
      · exact (hf p.1).2.trans (h.closed hclosed)
  | call =>
      obtain ⟨d, r⟩ := p
      cases r with
      | true =>
          have hcall : liftStep d .call = d := process_over (h.closed rfl)
          refine ⟨nofun, fun _ => ?_⟩
          change (liftStep d .call).bus.segEnd = 0
          rw [hcall]
          exact h.closed rfl
      | false =>
          have h0 := (segEnd_ne_zero_iff h hpos hlt rfl).mpr (hs.nonzero rfl)
          have hdue := (call_due_iff h hpos hlt rfl).mpr (hs.era rfl rfl)
          by_cases ht : ticks ≤ d.elapsed t₀
          · have hrel := process_due h0 (hdue.mpr ht)
            have hr : reached t₀ ticks false d .call = true := decide_eq_true ht
            refine ⟨fun hopen => absurd (hr.symm.trans hopen) (by decide), fun _ => ?_⟩
            change d.snoreLiftProcessTick.bus.segEnd = 0
            rw [hrel]
            rfl
          · have hend := process_early h0 (mt hdue.mp ht)
            have hr : reached t₀ ticks false d .call = false := decide_eq_false ht
            refine ⟨fun _ => ?_, fun hclosed => absurd (hr.symm.trans hclosed) (by decide)⟩
            exact (congrArg UInt32.toNat hend).trans (h.running rfl)

theorem segmentKept_iff {e : LiftEvent} (hpos : 0 < ticks) (hlt : ticks < 2 ^ 32)
    (h : SegmentInv t₀ ticks p) : SameEra t₀ ticks p e ↔ SegmentKept t₀ ticks p e := by
  constructor
  · intro hs
    have h0 : p.2 = false → p.1.bus.segEnd ≠ 0 := fun hopen =>
      (segEnd_ne_zero_iff h hpos hlt hopen).mpr (hs.nonzero hopen)
    have hdue : e = .call → p.2 = false →
        (p.1.bus.segEnd ≤ p.1.bus.timer ↔ ticks ≤ p.1.elapsed t₀) := fun he hopen =>
      (call_due_iff h hpos hlt hopen).mpr (hs.era he hopen)
    refine ⟨h0, fun he hopen ht => ?_, fun he hopen ht => ?_, fun he hclosed => ?_⟩
    · have hearly := process_early (h0 hopen) (mt (hdue he hopen).mp (Nat.not_le_of_lt ht))
      subst he
      exact fun hz => h0 hopen (hearly.symm.trans hz)
    · have hrel := process_due (h0 hopen) ((hdue he hopen).mpr ht)
      have hitems : p.1.snoreLiftProcessTick.bus.mfp.items = [Bus.releaseRequest] := by
        rw [hrel, items_release]
      subst he
      exact ⟨congrArg Bus.segEnd hrel, hitems⟩
    · subst he
      exact process_over (h.closed hclosed)
  · intro hk
    refine ⟨fun hopen => (segEnd_ne_zero_iff h hpos hlt hopen).mp (hk.opened hopen),
      fun he hopen => (call_due_iff h hpos hlt hopen).mp ?_⟩
    have h0 := hk.opened hopen
    subst he
    constructor
    · intro hle
      by_contra ht
      exact hk.stays rfl hopen (Nat.lt_of_not_le ht) (congrArg Bus.segEnd (process_due h0 hle))
    · intro ht
      by_contra hle
      exact h0 ((process_early h0 hle).symm.trans (hk.released rfl hopen ht).1)

end segment

/-- The ticks of a segment that is started with these seconds. -/
def Dock.liftTicks (d : Dock) (sec : UInt8) : ℕ :=
  100 * (Dock.snoreLiftParams d.mfpMainboxSupportsSoftStart 0 sec).2.toNat

theorem liftTicks_bounds (d : Dock) (sec : UInt8) :
    0 < d.liftTicks sec ∧ d.liftTicks sec < 2 ^ 32 := by
  have hsec : (Dock.snoreLiftParams d.mfpMainboxSupportsSoftStart 0 sec).2.toNat ≠ 0 := by
    unfold Dock.snoreLiftParams
    split
    · dsimp only
      split
      · decide
      · next h => exact fun hz => h (UInt8.toNat_inj.mp hz)
    · decide
  have hlt := (Dock.snoreLiftParams d.mfpMainboxSupportsSoftStart 0 sec).2.toNat_lt
  unfold Dock.liftTicks
  omega

theorem segmentInv_start (d : Dock) (pwm sec : UInt8) :
    SegmentInv d.bus.timer (d.liftTicks sec) (d.snoreLiftStart pwm sec, false) := by
  have hsec : ∀ soft, (Dock.snoreLiftParams soft pwm sec).2 =
      (Dock.snoreLiftParams soft 0 sec).2 := by
    intro soft
    unfold Dock.snoreLiftParams
    split <;> rfl
  refine ⟨fun _ => ?_, nofun⟩
  have hend : (d.snoreLiftStart pwm sec).bus.segEnd = d.bus.timer +
      (Dock.snoreLiftParams d.mfpMainboxSupportsSoftStart 0 sec).2.toUInt32 * 100 := by
    rw [d.bus_liftStart, ← hsec]
    exact congrArg (· + _) d.bus.timer_stop
  have hlt := (Dock.snoreLiftParams d.mfpMainboxSupportsSoftStart 0 sec).2.toNat_lt
  change (d.snoreLiftStart pwm sec).bus.segEnd.toNat = _
  rw [hend, UInt32.toNat_add, UInt32.toNat_mul, UInt8.toNat_toUInt32, Dock.liftTicks]
  simp only [UInt32.reduceToNat]
  omega

/-- From any state, for any parameters and in any order of ticks, calls and other events: the
segment lasts exactly its ticks, if and only if no wrap comes between. -/
theorem segment_exact_iff (d : Dock) (pwm sec : UInt8) (es : List LiftEvent) :
    let t₀ := d.bus.timer
    let ticks := d.liftTicks sec
    Along (monitor liftStep (reached t₀ ticks)) (SegmentKept t₀ ticks)
        (d.snoreLiftStart pwm sec, false) es ↔
      Along (monitor liftStep (reached t₀ ticks)) (SameEra t₀ ticks)
        (d.snoreLiftStart pwm sec, false) es := by
  intro t₀ ticks
  obtain ⟨hpos, hlt⟩ := liftTicks_bounds d sec
  exact (along_iff_of_invariant (I := SegmentInv t₀ ticks)
    (fun _ _ h hs => segmentInv_step hpos hlt h hs) (fun _ _ h => segmentKept_iff hpos hlt h)
    (segmentInv_start d pwm sec) es).symm

/-- A segment of three seconds that is started half a second before the counter wraps is over at
once. -/
theorem segment_ends_at_once : ¬ ∀ (d : Dock) (pwm sec : UInt8) (es : List LiftEvent),
    Along (monitor liftStep (reached d.bus.timer (d.liftTicks sec)))
      (SegmentKept d.bus.timer (d.liftTicks sec)) (d.snoreLiftStart pwm sec, false) es := by
  intro h
  have hkept := (h (({} : Dock).mapAnti fun a => { a with timer := 0xFFFFFFCE }) 80 3 [.call]).1
  exact hkept.stays rfl rfl (by decide) (by decide)

end ErgoDock
