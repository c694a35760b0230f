import ErgoDock.Bus
import ErgoDock.Windows

/-! # Lift pulses

A lift segment is a record (`liftSegEndTick`) and pulses on the queue, and they have to agree:
no pulse is pending without a segment, and none is built outside one.  With that go the two
results on motion by itself: every segment ends in a release (`lift_bounded`), and at level 0
nothing moves unless a segment outlived the switch-off (`off_is_still`). -/

namespace ErgoDock

open Machine

/-! ### Operations that build no pulse -/

namespace Bus
variable (b : Bus)

theorem liftPulses_send (r : MfpTxRequest) :
    (b.send r).mfp.liftPulses =
      if r.origin.isLift then
        (if b.mfp.Accepts r then .accepted r else .refused r) :: b.mfp.liftPulses
      else b.mfp.liftPulses := by
  rw [MfpQueue.liftPulses, send, MfpQueue.log_send]
  by_cases hl : r.origin.isLift
  · by_cases ha : b.mfp.Accepts r <;> simp [hl, ha, MfpAct.isPulse, MfpQueue.liftPulses]
  · by_cases ha : b.mfp.Accepts r <;> simp [hl, ha, MfpAct.isPulse, MfpQueue.liftPulses]

theorem liftPulses_release : b.release.mfp.liftPulses = b.mfp.liftPulses :=
  liftPulses_send _ releaseRequest

theorem liftPulses_txTask (q : MfpQueue) : q.mfpTxTask.liftPulses = q.liftPulses := by
  rcases q.log_txTask_cases with h | ⟨r, -, h⟩ <;> rw [MfpQueue.liftPulses, h] <;> rfl

/-- Without a segment, an operation that does not start one builds no pulse. -/
theorem still_apply {op : BusOp} (h : b.segEnd = 0) (hop : op.Quiet ∨ op.Command) :
    (op.apply b).segEnd = 0 ∧ (op.apply b).mfp.liftPulses = b.mfp.liftPulses := by
  cases op with
  | tick => exact ⟨h, rfl⟩
  | transmit => exact ⟨h, liftPulses_txTask _⟩
  | clear => exact ⟨h, rfl⟩
  | send r =>
      have hr : r.origin.isLift = false := hop.resolve_left id
      refine ⟨h, ?_⟩
      rw [BusOp.apply, liftPulses_send, if_neg (by simp [hr])]
  | stop =>
      rw [BusOp.apply, stop, if_neg (not_not.mpr h)]
      exact ⟨h, rfl⟩
  | process frame =>
      rw [BusOp.apply, process, if_pos h]
      exact ⟨h, rfl⟩
  | start ticks frame => exact (hop.resolve_left id).elim

theorem still_exec {ops : List BusOp} (h : b.segEnd = 0)
    (hops : ∀ op ∈ ops, op.Quiet ∨ op.Command) :
    (exec BusOp.apply b ops).segEnd = 0 ∧
      (exec BusOp.apply b ops).mfp.liftPulses = b.mfp.liftPulses := by
  have hok : Along BusOp.apply (fun _ op => op.Quiet ∨ op.Command) b ops :=
    along_of_forall fun op hop _ => hops op hop
  have hend : ∀ (c : Bus) (op : BusOp), c.segEnd = 0 → op.Quiet ∨ op.Command →
      (op.apply c).segEnd = 0 := fun c _ hc hop => (c.still_apply hc hop).1
  exact ⟨exec_invariant (I := fun c : Bus => c.segEnd = 0) hend h hok,
    exec_constant (I := fun c : Bus => c.segEnd = 0) (f := fun c : Bus => c.mfp.liftPulses) hend
      (fun c _ hc hop => (c.still_apply hc hop).2) h hok⟩

end Bus

/-! ### Steps without a segment -/

theorem quiet_or_command {d : Dock} {e : Event} (h : e = .snoreRun → ¬ d.anti.StartsLift) :
    ∀ op ∈ busOps d e, op.Quiet ∨ op.Command := by
  intro op hop
  rcases mem_busOps hop with hq | ⟨hc, -⟩ | ⟨he, hs⟩
  · exact .inl hq
  · exact .inr hc
  · exact absurd hs (h he)

/-- Without a segment and without a new one: nothing. -/
theorem still_step {d : Dock} {e : Event} (h : d.anti.snoreIntervention.liftSegEndTick = 0)
    (hs : e = .snoreRun → ¬ d.anti.StartsLift) :
    (step d e).anti.snoreIntervention.liftSegEndTick = 0 ∧
      (step d e).mfp.liftPulses = d.mfp.liftPulses := by
  have hstill := d.bus.still_exec h (quiet_or_command hs)
  rw [← step_bus] at hstill
  exact hstill

theorem still_run {d : Dock} {es : List Event}
    (h : d.anti.snoreIntervention.liftSegEndTick = 0)
    (hs : Along step (fun d e => e = .snoreRun → ¬ d.anti.StartsLift) d es) :
    (exec step d es).mfp.liftPulses = d.mfp.liftPulses :=
  exec_constant (I := fun c : Dock => c.anti.snoreIntervention.liftSegEndTick = 0)
    (f := fun c : Dock => c.mfp.liftPulses) (fun _ _ hc hok => (still_step hc hok).1)
    (fun _ _ hc hok => (still_step hc hok).2) h hs

/-! ### Pulses and the segment -/

/-- The frame was built inside the segment it belongs to. -/
def MfpAct.InSegment : MfpAct → Prop
  | .accepted r | .refused r =>
      ∀ now segEnd, r.origin = .lift now segEnd → segEnd ≠ 0 ∧ now < segEnd
  | _ => True

/-- The invariant that ties the segment record to the queue. -/
structure LiftInv (b : Bus) : Prop where
  pending : b.segEnd = 0 → b.mfp.Pending fun _ o => o.isLift = false
  built : ∀ a ∈ b.mfp.log, a.InSegment

/-- The operation is no foreign pulse, and begins no segment that the counter would not reach
without wrapping. -/
def BusOp.Fits (b : Bus) : BusOp → Prop
  | .send r => r.origin.isLift = false
  | .start ticks _ => 0 < ticks.toNat ∧ b.timer.toNat + ticks.toNat < 2 ^ 32
  | _ => True

namespace Bus
variable {b : Bus}

theorem inSegment_of_not_lift {r : MfpTxRequest} (h : r.origin.isLift = false) :
    ∀ now segEnd, r.origin = .lift now segEnd → segEnd ≠ 0 ∧ now < segEnd := by
  intro now segEnd ho
  rw [ho] at h
  cases h

theorem built_send {r : MfpTxRequest} (h : ∀ a ∈ b.mfp.log, a.InSegment)
    (hr : ∀ now segEnd, r.origin = .lift now segEnd → segEnd ≠ 0 ∧ now < segEnd) :
    ∀ a ∈ (b.send r).mfp.log, a.InSegment := by
  intro a ha
  rw [send, MfpQueue.log_send] at ha
  rcases List.mem_cons.mp ha with rfl | ha
  · split <;> exact hr
  · exact h a ha

theorem built_clear (h : LiftInv b) :
    ∀ a ∈ b.mfp.mfpTxQueueClear.log, a.InSegment := by
  intro a ha
  rw [MfpQueue.log_clear] at ha
  rcases List.mem_cons.mp ha with rfl | ha
  · trivial
  · exact h.built a ha

theorem liftInv_send {r : MfpTxRequest} (h : LiftInv b) (hr : r.origin.isLift = false) :
    LiftInv (b.send r) :=
  ⟨fun h0 => MfpQueue.pending_send (h.pending h0) hr,
    built_send h.built (inSegment_of_not_lift hr)⟩

theorem liftInv_release (h : LiftInv b) : LiftInv b.release := by
  have hclear : LiftInv { b with segEnd := 0, mfp := b.mfp.mfpTxQueueClear } :=
    ⟨fun _ => MfpQueue.pending_clear, built_clear h⟩
  exact liftInv_send hclear rfl

theorem liftInv_stop (h : LiftInv b) : LiftInv b.stop := by
  rw [stop]
  split
  · exact liftInv_release h
  · exact h

/-- A pulse inside a segment. -/
theorem liftInv_pulse {frame : List UInt8} (h : ∀ a ∈ b.mfp.log, a.InSegment) (h0 : b.segEnd ≠ 0)
    (ht : b.timer < b.segEnd) : LiftInv (b.pulse frame) := by
  refine ⟨fun hz => absurd hz h0, built_send h fun now segEnd ho => ?_⟩
  obtain ⟨rfl, rfl⟩ := Origin.lift.inj ho
  exact ⟨h0, ht⟩

theorem timer_stop (b : Bus) : b.stop.timer = b.timer := by
  rw [stop]
  split <;> rfl

theorem timer_process (b : Bus) (frame : List UInt8) : (b.process frame).timer = b.timer := by
  rw [process]
  split
  · rfl
  · split
    · rfl
    · split <;> rfl

/-- The end of a segment that fits lies ahead. -/
theorem lt_add_of_fits {t ticks : UInt32} (hpos : 0 < ticks.toNat)
    (hfits : t.toNat + ticks.toNat < 2 ^ 32) : t + ticks ≠ 0 ∧ t < t + ticks := by
  have hsum : (t + ticks).toNat = t.toNat + ticks.toNat := by
    rw [UInt32.toNat_add, Nat.mod_eq_of_lt hfits]
  refine ⟨fun hz => ?_, ?_⟩
  · rw [hz] at hsum
    simp only [UInt32.reduceToNat] at hsum
    omega
  · rw [UInt32.lt_iff_toNat_lt, hsum]
    omega

theorem liftInv_apply {op : BusOp} (h : LiftInv b) (hop : op.Fits b) : LiftInv (op.apply b) := by
  cases op with
  | tick => exact ⟨h.pending, h.built⟩
  | transmit =>
      refine ⟨fun h0 => MfpQueue.pending_txTask (h.pending h0), ?_⟩
      intro a ha
      rw [BusOp.apply] at ha
      rcases b.mfp.log_txTask_cases with hl | ⟨r, -, hl⟩ <;> rw [hl] at ha
      · exact h.built a ha
      · rcases List.mem_cons.mp ha with rfl | ha
        · trivial
        · exact h.built a ha
  | clear => exact ⟨fun _ => MfpQueue.pending_clear, built_clear h⟩
  | send r => exact liftInv_send h hop
  | stop => exact liftInv_stop h
  | process frame =>
      rw [BusOp.apply, process]
      split
      · exact h
      · next h0 =>
        split
        · exact liftInv_release h
        · next ht =>
          split
          · exact liftInv_pulse h.built h0 (UInt32.not_le.mp ht)
          · exact h
  | start ticks frame =>
      have hend := lt_add_of_fits (t := b.stop.timer) hop.1 (b.timer_stop.symm ▸ hop.2)
      exact liftInv_pulse (liftInv_stop h).built hend.1 hend.2

end Bus

/-! ### Every segment ends -/

/-- The step starts no segment whose end the tick counter would not reach without wrapping. -/
def SegmentFits (d : Dock) (e : Event) : Prop :=
  e = .snoreRun → d.anti.StartsLift → d.anti.timer.toNat + d.segTicks.toNat < 2 ^ 32

instance (d : Dock) (e : Event) : Decidable (SegmentFits d e) := by
  unfold SegmentFits; infer_instance

/-- A segment lasts at least a second. -/
theorem segTicks_pos (d : Dock) : 0 < d.segTicks.toNat := by
  have hsec : d.segParams.2 ≠ 0 := by
    rw [Dock.segParams, Dock.snoreLiftParams]
    split
    · dsimp only
      split
      · decide
      · next h => exact h
    · exact (by decide : snoreNormalSegSec ≠ 0)
  have hpos : d.segParams.2.toNat ≠ 0 := fun hz => hsec (UInt8.toNat_inj.mp hz)
  have hlt := d.segParams.2.toNat_lt
  rw [Dock.segTicks, UInt32.toNat_mul, UInt8.toNat_toUInt32]
  simp only [UInt32.reduceToNat]
  rw [Nat.mod_eq_of_lt (by omega)]
  omega

theorem fits_busOps {d : Dock} {e : Event} (h : SegmentFits d e) :
    Along BusOp.apply BusOp.Fits d.bus (busOps d e) := by
  by_cases hs : e = .snoreRun ∧ d.anti.StartsLift
  · obtain ⟨rfl, hs⟩ := hs
    rw [busOps, Dock.runOps, if_pos hs]
    refine ⟨trivial, ⟨segTicks_pos d, ?_⟩, trivial⟩
    rw [BusOp.apply, Bus.timer_process]
    exact h rfl hs
  · refine along_of_forall fun op hop b => ?_
    have hquiet := quiet_or_command (fun he hl => hs ⟨he, hl⟩) op hop
    cases op with
    | send r => exact hquiet.resolve_left id
    | start ticks frame => exact (hquiet.resolve_left id).elim
    | _ => trivial

theorem liftInv_step (d : Dock) (e : Event) (h : LiftInv d.bus) (hf : SegmentFits d e) :
    LiftInv (step d e).bus := by
  rw [step_bus]
  exact exec_invariant (I := LiftInv) (fun _ _ hb hop => Bus.liftInv_apply hb hop) h
    (fits_busOps hf)

theorem liftInv_boot (b : Boot) : LiftInv (boot b).bus := by
  rw [bus_boot]
  exact ⟨fun _ r hr => absurd hr (by simp [MfpQueue.items, RingBuffer.toList, RingBuffer.empty]),
    fun a ha => absurd ha (List.not_mem_nil)⟩

/-- The step that finds the segment over. -/
theorem release_runPrelude {d : Dock} (h0 : d.anti.snoreIntervention.liftSegEndTick ≠ 0)
    (ht : d.anti.timer ≥ d.anti.snoreIntervention.liftSegEndTick) :
    d.runPrelude.bus = d.bus.release := by
  have h0' : ¬ d.bus.segEnd = 0 := h0
  have ht' : d.bus.timer ≥ d.bus.segEnd := ht
  rw [Dock.bus_runPrelude, Bus.process, if_neg h0', if_pos ht']

/-- A release empties the queue and fills it with its request. -/
theorem items_release (b : Bus) : b.release.mfp.items = [Bus.releaseRequest] := by
  have hacc : b.mfp.mfpTxQueueClear.Accepts Bus.releaseRequest := by
    rw [MfpQueue.Accepts, MfpQueue.items_clear]
    decide
  rw [Bus.release, Bus.send, MfpQueue.items_send, if_pos hacc, MfpQueue.items_clear,
    List.nil_append]

/-- In any run whose segments end before the counter wraps: every lift pulse was enqueued inside
its segment; without a segment none is pending; and the periodic function that finds the segment
over leaves the release as the only request and no segment, after which no pulse is enqueued
until a lift is started. -/
theorem lift_bounded (b : Boot) (es : List Event) (h : Along step SegmentFits (boot b) es) :
    let d := runFrom b es
    let si := d.anti.snoreIntervention
    (∀ r, .accepted r ∈ d.mfp.log → ∀ now segEnd, r.origin = .lift now segEnd →
      segEnd ≠ 0 ∧ now < segEnd) ∧
    (si.liftSegEndTick = 0 → ∀ r ∈ d.mfp.items, r.origin.isLift = false) ∧
    (si.liftSegEndTick ≠ 0 → d.anti.timer ≥ si.liftSegEndTick →
      d.runPrelude.mfp.items = [⟨normalKetFrame 0, 3, .release⟩] ∧
      d.runPrelude.anti.snoreIntervention.liftSegEndTick = 0 ∧
      ∀ es', Along step (fun d e => e = .snoreRun → ¬ d.anti.StartsLift) d (.snoreRun :: es') →
        (exec step d (.snoreRun :: es')).mfp.liftPulses = d.mfp.liftPulses) := by
  intro d si
  have hI : LiftInv d.bus :=
    exec_invariant (I := fun d : Dock => LiftInv d.bus) liftInv_step (liftInv_boot b) h
  refine ⟨fun r hr => hI.built _ hr, hI.pending, fun h0 ht => ?_⟩
  have hrel := release_runPrelude h0 ht
  have hitems : d.runPrelude.bus.mfp.items = [Bus.releaseRequest] := by
    rw [hrel, items_release]
  have hseg : d.runPrelude.bus.segEnd = 0 := by
    rw [hrel]
    rfl
  refine ⟨hitems, hseg, fun es' hes => ?_⟩
  have hrun : (step d .snoreRun).bus = d.bus.release := by
    rw [step_bus, busOps, Dock.runOps, if_neg (hes.1 rfl), ← hrel, Dock.bus_runPrelude]
    rfl
  have hseg' : (step d .snoreRun).bus.segEnd = 0 := by
    rw [hrun]
    rfl
  have hpulse : (step d .snoreRun).bus.mfp.liftPulses = d.mfp.liftPulses := by
    rw [hrun, Bus.liftPulses_release]
    rfl
  exact (still_run hseg' hes.2).trans hpulse

theorem segmentFits_wait (d : Dock) (n : ℕ) : Along step SegmentFits d (wait n) :=
  along_of_forall fun e he d hr => by
    rw [eq_tick_of_mem_wait he] at hr
    cases hr

/-- Three seconds after the first lift of a start at level 3. -/
theorem lift_bounded_first_lift :
    let es := untilLift ++ [.snoreRun] ++ wait 300
    Along step SegmentFits (boot (bootAt 3)) es ∧
    let d := runFrom (bootAt 3) es
    let si := d.anti.snoreIntervention
    (∀ r, .accepted r ∈ d.mfp.log → ∀ now segEnd, r.origin = .lift now segEnd →
      segEnd ≠ 0 ∧ now < segEnd) ∧
    (si.liftSegEndTick = 0 → ∀ r ∈ d.mfp.items, r.origin.isLift = false) ∧
    (si.liftSegEndTick ≠ 0 → d.anti.timer ≥ si.liftSegEndTick →
      d.runPrelude.mfp.items = [⟨normalKetFrame 0, 3, .release⟩] ∧
      d.runPrelude.anti.snoreIntervention.liftSegEndTick = 0 ∧
      ∀ es', Along step (fun d e => e = .snoreRun → ¬ d.anti.StartsLift) d (.snoreRun :: es') →
        (exec step d (.snoreRun :: es')).mfp.liftPulses = d.mfp.liftPulses) := by
  intro es
  have hquiet : Along step SegmentFits (boot (bootAt 3))
      ([.tick, .snoreRun] ++ List.replicate 7 .snoreEdge) := by decide +kernel
  have hlift : SegmentFits (runFrom (bootAt 3) untilLift) .snoreRun := by
    rw [runFrom_untilLift]
    decide +kernel
  have huntil : Along step SegmentFits (boot (bootAt 3)) untilLift := by
    rw [untilLift, along_append]
    exact And.intro hquiet (segmentFits_wait _ _)
  have hrun : Along step SegmentFits (boot (bootAt 3)) (untilLift ++ [.snoreRun]) :=
    (along_append _ _ _).mpr (And.intro huntil (And.intro hlift trivial))
  have h : Along step SegmentFits (boot (bootAt 3)) es :=
    (along_append _ _ _).mpr (And.intro hrun (segmentFits_wait _ _))
  exact And.intro h (lift_bounded (bootAt 3) es h)

/-! ### Off is still -/

/-- The long press of key 3 comes while a lift segment is running. -/
def OffWhileLifting (d : Dock) (e : Event) : Prop :=
  d.LongPressOff e ∧ d.anti.snoreIntervention.liftSegEndTick ≠ 0

instance (d : Dock) (e : Event) : Decidable (OffWhileLifting d e) := by
  unfold OffWhileLifting; infer_instance

/-- A run in which a window closes at or above the threshold. -/
def TriggersNow (d : Dock) (e : Event) : Prop := e = .snoreRun ∧ d.anti.Triggers

instance (d : Dock) (e : Event) : Decidable (TriggersNow d e) := by
  unfold TriggersNow; infer_instance

/-- No window pending, and at level 0 no segment. -/
structure OffInv (a : AntiSnore) : Prop where
  trig : a.snoreIntervention.trig = 0
  still : a.antiSnoreIntensity = 0 → a.snoreIntervention.liftSegEndTick = 0

theorem not_startsLift {d : Dock} {e : Event} (ht : d.anti.snoreIntervention.trig = 0)
    (h : ¬ TriggersNow d e) : e = .snoreRun → ¬ d.anti.StartsLift :=
  fun he hs => h ⟨he, ((d.anti.startsLift_iff ht).mp hs).1⟩

theorem offInv_step (d : Dock) (e : Event) (h : OffInv d.anti) (hok : ¬ OffWhileLifting d e) :
    OffInv (step d e).anti := by
  refine ⟨trig_step d e h.trig, fun h0 => ?_⟩
  by_cases hl : d.anti.antiSnoreIntensity = 0
  · exact (still_step (h.still hl) fun _ hs => hs.1 hl).1
  -- the step that switches the function off
  rw [step_anti, intensity_apply] at h0
  cases hcase : antiOp d e with
  | levelOff =>
      obtain ⟨key, rfl, hk⟩ := (antiOp_kind d e).2.2.2 hcase
      have hz : d.anti.snoreIntervention.liftSegEndTick = 0 := by
        by_contra hne
        exact hok ⟨hk, hne⟩
      rw [step_anti, hcase]
      exact hz
  | levelStep =>
      rw [hcase] at h0
      exact absurd h0 (nextLevel_ne _)
  | configure pwm tmr l =>
      rw [hcase] at h0
      rw [step_anti, hcase, AntiOp.apply, AntiSnore.configure, if_pos h0]
      rfl
  | _ =>
      rw [hcase] at h0
      exact absurd h0 hl

theorem Initial.offInv {a : AntiSnore} (h : Initial a) : OffInv a :=
  ⟨h.trig, fun _ => h.liftSegEndTick⟩

/-- In any run in which no long press of key 3 comes while a segment is running: once the level
is 0, no lift pulse is enqueued until a window closes at or above the threshold. -/
theorem off_is_still (b : Boot) (es es' : List Event)
    (h : Along step (fun d e => ¬ OffWhileLifting d e) (boot b) es)
    (h0 : (runFrom b es).anti.antiSnoreIntensity = 0)
    (h' : Along step (fun d e => ¬ TriggersNow d e) (runFrom b es) es') :
    (exec step (runFrom b es) es').mfp.liftPulses = (runFrom b es).mfp.liftPulses := by
  have hI : OffInv (runFrom b es).anti :=
    exec_invariant (I := fun d : Dock => OffInv d.anti) offInv_step (initial_boot b).offInv h
  generalize runFrom b es = d at *
  exact exec_constant
    (I := fun c : Dock => c.anti.snoreIntervention.trig = 0 ∧
      c.anti.snoreIntervention.liftSegEndTick = 0)
    (f := fun c : Dock => c.mfp.liftPulses)
    (fun c e hc hok => ⟨trig_step c e hc.1, (still_step hc.2 (not_startsLift hc.1 hok)).1⟩)
    (fun c e hc hok => (still_step hc.2 (not_startsLift hc.1 hok)).2)
    ⟨hI.trig, hI.still h0⟩ h'

/-- Off by the APP right after a lift has begun. -/
theorem off_is_still_by_app :
    let es := untilLift ++ [.snoreRun, setLevel 0]
    let es' := [busSlot, busSlot, busSlot, .snoreRun]
    Along step (fun d e => ¬ OffWhileLifting d e) (boot (bootAt 3)) es ∧
    (runFrom (bootAt 3) es).anti.antiSnoreIntensity = 0 ∧
    Along step (fun d e => ¬ TriggersNow d e) (runFrom (bootAt 3) es) es' ∧
    (exec step (runFrom (bootAt 3) es) es').mfp.liftPulses =
      (runFrom (bootAt 3) es).mfp.liftPulses := by
  intro es es'
  have hquiet : Along step (fun d e => ¬ OffWhileLifting d e) (boot (bootAt 3))
      ([.tick, .snoreRun] ++ List.replicate 7 .snoreEdge) := by decide +kernel
  have hwait : ∀ d, Along step (fun d e => ¬ OffWhileLifting d e) d (wait 30001) := fun d =>
    along_of_forall fun e he d hoff => by
      rw [eq_tick_of_mem_wait he] at hoff
      exact hoff.1
  have huntil : Along step (fun d e => ¬ OffWhileLifting d e) (boot (bootAt 3)) untilLift := by
    rw [untilLift, along_append]
    exact And.intro hquiet (hwait _)
  have h : Along step (fun d e => ¬ OffWhileLifting d e) (boot (bootAt 3)) es :=
    (along_append _ _ _).mpr (And.intro huntil
      (And.intro (fun hoff => hoff.1) (And.intro (fun hoff => hoff.1) trivial)))
  have hd : runFrom (bootAt 3) es =
      exec step (runFrom (bootAt 3) untilLift) [.snoreRun, setLevel 0] := exec_append _ _ _ _
  have h0 : (runFrom (bootAt 3) es).anti.antiSnoreIntensity = 0 := by
    rw [hd, runFrom_untilLift]
    decide +kernel
  have h' : Along step (fun d e => ¬ TriggersNow d e) (runFrom (bootAt 3) es) es' := by
    rw [hd, runFrom_untilLift]
    decide +kernel
  exact ⟨h, h0, h', off_is_still (bootAt 3) es es' h h0 h'⟩

/-- Key 3 is held while a lift begins, and its long press switches the function off inside the
segment: as soon as the main box has taken the pending pulse, the periodic function enqueues
another, at level 0. -/
theorem pulse_while_off :
    let d₁ := step (exec step (runFrom (bootAt 3) untilLift) pressKey3) .snoreRun
    let d₂ := step d₁ (.control appKeyNum3)
    let es' := [busSlot, busSlot, .snoreRun]
    d₂.anti.antiSnoreIntensity = 0 ∧ (exec step d₂ es').anti.antiSnoreIntensity = 0 ∧
    Along step (fun d e => ¬ TriggersNow d e) d₂ es' ∧
    d₂.mfp.liftPulses.length = 1 ∧ (exec step d₂ es').mfp.liftPulses.length = 2 := by
  have hpress := exec_pressKey3 (runFrom (bootAt 3) untilLift)
    (by rw [runFrom_untilLift]; decide +kernel) (by rw [runFrom_untilLift]; decide +kernel)
  simp only [hpress]
  rw [runFrom_untilLift]
  decide +kernel

end ErgoDock
