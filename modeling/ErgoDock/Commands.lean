import ErgoDock.Lift

/-! # Commands of the user against a running lift

A running segment refills the queue whenever it is empty, so a command of the user only holds if
it ends the segment too.  The voice chip's position words do, STOP and the key frames of the APP
do not: STOP is final exactly when no segment is running (`stop_is_final_iff`), and a key frame
leaves the controller as the word for the same key does exactly when there is nothing to cancel
(`key_agrees_iff`). -/

namespace ErgoDock

open Machine

/-! ### Motor frames -/

theorem frameKey_softStartFrame (keys : UInt32) (pwm tmr : UInt8) :
    frameKey (softStartFrame keys pwm tmr) = frameKey (normalKetFrame keys) := by
  simp [frameKey, softStartFrame, normalKetFrame, le32]

/-- Every lift pulse moves a motor. -/
theorem isMotorFrame_liftFrame (d : Dock) (pwm : UInt8) :
    isMotorFrame (d.liftFrame pwm) = true := by
  have hkey : ∀ keys, isMotorFrame (normalKetFrame keys) = true →
      isMotorFrame (if d.mfpMainboxSupportsSoftStart then softStartFrame keys pwm 1
        else normalKetFrame keys) = true := by
    intro keys hk
    split
    · rwa [isMotorFrame, frameKey_softStartFrame]
    · exact hk
  rw [Dock.liftFrame]
  by_cases hb : d.voice.bedType = 1
  · rw [if_pos hb]
    exact hkey _ (by decide)
  · rw [if_neg hb]
    exact hkey _ (by decide)

theorem length_liftFrame (d : Dock) (pwm : UInt8) :
    (d.liftFrame pwm).length ≤ mfpTxDataMaxLen := by
  simp only [Dock.liftFrame]
  split
  · exact (by decide : 10 ≤ mfpTxDataMaxLen)
  · exact (by decide : 8 ≤ mfpTxDataMaxLen)

namespace Bus
variable (b : Bus)

/-- No segment, and no motor frame pending. -/
structure AtRest : Prop where
  segEnd : b.segEnd = 0
  pending : b.mfp.Pending fun data _ => isMotorFrame data = false

variable {b}

theorem motorActs_txTask {q : MfpQueue} (h : q.Pending fun data _ => isMotorFrame data = false) :
    q.mfpTxTask.motorActs = q.motorActs := by
  rcases q.log_txTask_cases with hl | ⟨r, hr, hl⟩
  · rw [MfpQueue.motorActs, hl, MfpQueue.motorActs]
  · have hm : MfpAct.isMotor (.sent r) = false := h r hr
    rw [MfpQueue.motorActs, hl, List.filter_cons_of_neg (by simp [hm]), MfpQueue.motorActs]

/-- Without requests and new segments, what is at rest stays at rest. -/
theorem rest_apply {op : BusOp} (h : b.AtRest) (hop : op.Quiet) :
    (op.apply b).AtRest ∧ (op.apply b).mfp.motorActs = b.mfp.motorActs := by
  cases op with
  | tick => exact ⟨⟨h.segEnd, h.pending⟩, rfl⟩
  | transmit =>
      exact ⟨⟨h.segEnd, MfpQueue.pending_txTask h.pending⟩, motorActs_txTask h.pending⟩
  | clear => exact ⟨⟨h.segEnd, MfpQueue.pending_clear⟩, rfl⟩
  | send r => exact hop.elim
  | stop =>
      rw [BusOp.apply, stop, if_neg (not_not.mpr h.segEnd)]
      exact ⟨h, rfl⟩
  | process frame =>
      rw [BusOp.apply, process, if_pos h.segEnd]
      exact ⟨h, rfl⟩
  | start ticks frame => exact hop.elim

theorem rest_exec {ops : List BusOp} (h : b.AtRest) (hops : ∀ op ∈ ops, op.Quiet) :
    (exec BusOp.apply b ops).AtRest ∧
      (exec BusOp.apply b ops).mfp.motorActs = b.mfp.motorActs := by
  have hok : Along BusOp.apply (fun _ op => op.Quiet) b ops :=
    along_of_forall fun op hop _ => hops op hop
  have hend : ∀ (c : Bus) (op : BusOp), c.AtRest → op.Quiet → (op.apply c).AtRest :=
    fun _ _ hc hop => (rest_apply hc hop).1
  exact ⟨exec_invariant (I := AtRest) hend h hok,
    exec_constant (I := AtRest) (f := fun c : Bus => c.mfp.motorActs) hend
      (fun _ _ hc hop => (rest_apply hc hop).2) h hok⟩

theorem motorActs_send {r : MfpTxRequest} :
    (b.send r).mfp.motorActs =
      if b.mfp.Accepts r ∧ isMotorFrame r.data = true then .accepted r :: b.mfp.motorActs
      else b.mfp.motorActs := by
  rw [MfpQueue.motorActs, send, MfpQueue.log_send]
  by_cases ha : b.mfp.Accepts r
  · by_cases hm : isMotorFrame r.data = true
    · simp [ha, hm, MfpAct.isMotor, MfpQueue.motorActs]
    · simp [ha, hm, MfpAct.isMotor, MfpQueue.motorActs]
  · simp [ha, MfpAct.isMotor, MfpQueue.motorActs]

end Bus

/-! ### STOP -/

/-- The step is neither a command of the user nor a run that triggers. -/
def Unasked (d : Dock) (e : Event) : Prop := ¬ UserCommand d e ∧ ¬ TriggersNow d e

instance (d : Dock) (e : Event) : Decidable (Unasked d e) := by unfold Unasked; infer_instance

theorem rest_step {d : Dock} {e : Event} (ht : d.anti.snoreIntervention.trig = 0)
    (h : d.bus.AtRest) (hu : Unasked d e) :
    (step d e).bus.AtRest ∧ (step d e).mfp.motorActs = d.mfp.motorActs := by
  have hquiet : ∀ op ∈ busOps d e, op.Quiet := by
    intro op hop
    rcases mem_busOps hop with hq | ⟨-, hc⟩ | ⟨he, hs⟩
    · exact hq
    · exact absurd hc hu.1
    · exact absurd hs (not_startsLift ht hu.2 he)
  have hrest := Bus.rest_exec h hquiet
  rw [← step_bus] at hrest
  exact hrest

/-- The request of STOP. -/
def stopRequest : MfpTxRequest := ⟨normalKetFrame keyMassageStopAll, 1, .voice⟩

/-- The bus after STOP: an emptied queue with one request, and the segment as it was. -/
theorem bus_stop {d : Dock} (h : d.ExecutesWord 0x81 0x23) :
    (step d (.voiceFrame 0x81 0x23)).bus =
      { d.bus with mfp := d.bus.mfp.mfpTxQueueClear }.send stopRequest := by
  have hops : d.wordBusOps 0x23 = [.clear, .send stopRequest] := by
    rw [Dock.wordBusOps, if_neg (by decide), if_pos (by decide)]
    rfl
  rw [step_bus, busOps, if_pos h, hops]
  rfl

theorem items_stop {d : Dock} (h : d.ExecutesWord 0x81 0x23) :
    (step d (.voiceFrame 0x81 0x23)).bus.mfp.items = [stopRequest] := by
  have hacc : d.bus.mfp.mfpTxQueueClear.Accepts stopRequest := by
    rw [MfpQueue.Accepts, MfpQueue.items_clear]
    decide
  rw [bus_stop h, Bus.send, MfpQueue.items_send, if_pos hacc, MfpQueue.items_clear,
    List.nil_append]

theorem anti_stop {d : Dock} (h : d.ExecutesWord 0x81 0x23) :
    (step d (.voiceFrame 0x81 0x23)).anti = d.anti := by
  rw [step_anti, antiOp, if_pos h]
  rfl

theorem rest_stop {d : Dock} (h : d.ExecutesWord 0x81 0x23)
    (h0 : d.anti.snoreIntervention.liftSegEndTick = 0) :
    (step d (.voiceFrame 0x81 0x23)).bus.AtRest := by
  refine ⟨?_, fun r hr => ?_⟩
  · rw [bus_stop h]
    exact h0
  · rw [items_stop h] at hr
    rw [List.mem_singleton.mp hr]
    decide

/-! ### How a segment goes on after STOP

The APP sets another level, so that no window closes; the main box takes the frame of STOP; and
the last tick of the segment comes round. -/

section setLevel
variable {l : UInt8}

theorem levelFrame_accepted : ((levelFrame l).length ≤ 50 ∧ (levelFrame l).length ≥ 2) ∧
    Dock.BleComplete (levelFrame l) :=
  ⟨⟨(by decide : 9 ≤ 50), (by decide : 9 ≥ 2)⟩, (by decide : (7 : UInt8) ≤ bleRxMaxPayload),
    (by decide : 2 + (7 : UInt8).toNat ≤ 9)⟩

theorem port_levelFrame : byteAt (levelFrame l) 1 = bleDataPort := rfl

theorem dataPortOp_levelFrame (a : AntiSnore) (h : l ≤ 3) :
    dataPortOp a ((levelFrame l).drop 2) (byteAt (levelFrame l) 0) = .configure 0x50 0x15 l := by
  have hset : SetsSnore ((levelFrame l).drop 2) (byteAt (levelFrame l) 0) := ⟨rfl, rfl, rfl, h⟩
  rw [dataPortOp, if_pos hset]
  rfl

theorem antiOp_setLevel (d : Dock) (h : l ≤ 3) :
    antiOp d (setLevel l) = .configure 0x50 0x15 l := by
  have hop : antiOp d (setLevel l) = bleOp d.anti (levelFrame l) := rfl
  rw [hop, bleOp, if_pos levelFrame_accepted, port_levelFrame, if_neg (by decide), if_pos rfl,
    dataPortOp_levelFrame _ h]

theorem busOps_setLevel (d : Dock) (h : l ≤ 3) (h0 : l ≠ 0) : busOps d (setLevel l) = [] := by
  have hop : busOps d (setLevel l) = d.bleBusOps (levelFrame l) := rfl
  rw [hop, Dock.bleBusOps, if_pos levelFrame_accepted, port_levelFrame, if_neg (by decide),
    if_pos rfl, Dock.portOps, dataPortOp_levelFrame _ h]
  exact if_neg h0

end setLevel

/-- The APP sets a level other than the remembered one. -/
def otherLevel (a : AntiSnore) : UInt8 := if a.lastAntiSnoreIntensity = 1 then 2 else 1

theorem otherLevel_spec (a : AntiSnore) :
    otherLevel a ≤ 3 ∧ otherLevel a ≠ 0 ∧ otherLevel a ≠ a.lastAntiSnoreIntensity := by
  rw [otherLevel]
  by_cases h : a.lastAntiSnoreIntensity = 1
  · rw [if_pos h, h]
    decide
  · rw [if_neg h]
    exact ⟨by decide, by decide, fun h' => h h'.symm⟩

/-- The events that lead to the last tick of the segment, with the queue empty. -/
def outlive (d : Dock) : List Event :=
  [setLevel (otherLevel d.anti), busSlot] ++
    wait (d.anti.snoreIntervention.liftSegEndTick - 1 - d.anti.timer).toNat

theorem unasked_outlive (d : Dock) : Along step Unasked d (outlive d) := by
  have hset : ∀ l (c : Dock), Unasked c (setLevel l) := by
    refine fun l c => ⟨fun h => ?_, fun h => ?_⟩
    · exact absurd h.2.1 (by decide : ¬ (6 : UInt8) = bleAppPortInner)
    · cases h.1
  have hquiet : ∀ e ∈ outlive d, ∀ c, Unasked c e := by
    intro e he c
    rcases List.mem_append.mp he with he | he
    · rcases List.mem_cons.mp he with rfl | he
      · exact hset _ c
      · rw [List.mem_singleton.mp he]
        exact ⟨id, fun h => by cases h.1⟩
    · rw [eq_tick_of_mem_wait he]
      exact ⟨id, fun h => by cases h.1⟩
  exact along_of_forall hquiet

theorem exec_outlive (d : Dock) :
    let si := d.anti.snoreIntervention
    (exec step d (outlive d)).bus = ⟨si.liftSegEndTick - 1, si.liftSegEndTick, d.mfp.mfpTxTask⟩ ∧
    (exec step d (outlive d)).anti.antiSnoreIntensity ≠
      (exec step d (outlive d)).anti.lastAntiSnoreIntensity := by
  intro si
  obtain ⟨hle, h0, hne⟩ := otherLevel_spec d.anti
  have hvalid : Dock.Uart1Valid slotFrame := by decide
  have hslot : ∀ c : Dock, busOps c busSlot = [.transmit] := by
    intro c
    rw [busSlot, busOps, if_pos hvalid]
  -- the level and the frame of the main box, then the ticks
  have hd₁ : (step d (setLevel (otherLevel d.anti))).bus = d.bus := by
    rw [step_bus, busOps_setLevel d hle h0]
    rfl
  have hd₂ : (step (step d (setLevel (otherLevel d.anti))) busSlot).bus =
      { d.bus with mfp := d.mfp.mfpTxTask } := by
    rw [step_bus, hslot, hd₁]
    rfl
  have ha : (step (step d (setLevel (otherLevel d.anti))) busSlot).anti =
      (AntiOp.configure 0x50 0x15 (otherLevel d.anti)).apply d.anti := by
    have hkeep : ∀ c : Dock, antiOp c busSlot = .keep := fun _ => rfl
    rw [step_anti, hkeep, step_anti, antiOp_setLevel d hle]
    rfl
  have htime : d.anti.timer + UInt32.ofNat (si.liftSegEndTick - 1 - d.anti.timer).toNat =
      si.liftSegEndTick - 1 := by
    rw [UInt32.ofNat_toNat, UInt32.add_comm, UInt32.sub_add_cancel]
  rw [outlive, exec_append, exec_wait, exec_cons, exec_cons, exec_nil]
  generalize step (step d (setLevel (otherLevel d.anti))) busSlot = c at *
  refine ⟨?_, ?_⟩
  · have hbus : c.anti.timer = d.anti.timer ∧
        c.anti.snoreIntervention.liftSegEndTick = si.liftSegEndTick ∧
        c.mfp = d.mfp.mfpTxTask := Bus.mk.inj hd₂
    rw [Dock.bus, Dock.anti_mapAnti, Dock.mfp_mapAnti, hbus.2.2, hbus.1, htime, hbus.2.1]
  · rw [Dock.anti_mapAnti]
    change c.anti.antiSnoreIntensity ≠ c.anti.lastAntiSnoreIntensity
    rw [ha, intensity_apply, last_apply]
    exact hne

/-- A run at another level than the remembered one closes no window. -/
theorem not_triggers_of_ne {a : AntiSnore} (h : a.antiSnoreIntensity ≠ a.lastAntiSnoreIntensity) :
    ¬ a.Triggers := fun ht => h ((AntiSnore.closesWindow_iff a).mp ht.1).2.1

/-- The run that finds the queue empty inside a segment moves the motor again. -/
theorem motorActs_refill {d : Dock} (ht : d.anti.snoreIntervention.trig = 0)
    (hne : d.anti.antiSnoreIntensity ≠ d.anti.lastAntiSnoreIntensity)
    (h0 : d.bus.segEnd ≠ 0) (hlt : d.bus.timer < d.bus.segEnd) (hq : d.bus.mfp.items = []) :
    ∃ act, (step d .snoreRun).mfp.motorActs = act :: d.mfp.motorActs := by
  have hs : ¬ d.anti.StartsLift := fun hs =>
    not_triggers_of_ne hne ((d.anti.startsLift_iff ht).mp hs).1
  have hbus : (step d .snoreRun).bus =
      d.bus.pulse (d.liftFrame d.anti.snoreIntervention.liftSegPwm) := by
    have hle : ¬ d.bus.timer ≥ d.bus.segEnd := UInt32.not_le.mpr hlt
    have hempty : d.bus.mfp.mfpTxQueueIsEmpty := (MfpQueue.isEmpty_iff _).mpr hq
    rw [step_bus, busOps, Dock.runOps, if_neg hs, exec_cons, exec_nil, BusOp.apply, Bus.process,
      if_neg h0, if_neg hle, if_pos hempty]
  have hacts : ∃ act, (step d .snoreRun).bus.mfp.motorActs = act :: d.bus.mfp.motorActs := by
    rw [hbus, Bus.pulse, Bus.motorActs_send, if_pos]
    · exact ⟨_, rfl⟩
    · refine ⟨⟨?_, length_liftFrame d _⟩, isMotorFrame_liftFrame d _⟩
      rw [hq]
      decide
  exact hacts

theorem trig_exec {d : Dock} (h : d.anti.snoreIntervention.trig = 0) (es : List Event) :
    (exec step d es).anti.snoreIntervention.trig = 0 :=
  exec_invariant_all (I := fun d : Dock => d.anti.snoreIntervention.trig = 0)
    (fun d e hd => trig_step d e hd) h es

theorem sub_one_lt {t : UInt32} (h : t ≠ 0) : t - 1 < t := by
  have hpos : t.toNat ≠ 0 := fun hz => h (UInt32.toNat_inj.mp hz)
  have hle : 1 ≤ t := by
    rw [UInt32.le_iff_toNat_le]
    simp only [UInt32.reduceToNat]
    omega
  rw [UInt32.lt_iff_toNat_lt, UInt32.toNat_sub_of_le _ _ hle]
  simp only [UInt32.reduceToNat]
  omega

/-- STOP by voice in any run: no motor frame is enqueued or sent from then on, until a command of
the user or a run that triggers, if and only if no lift segment was running. -/
theorem stop_is_final_iff (b : Boot) (es : List Event)
    (h : (runFrom b es).ExecutesWord 0x81 0x23) :
    (∀ es', Along step Unasked (step (runFrom b es) (.voiceFrame 0x81 0x23)) es' →
      (exec step (step (runFrom b es) (.voiceFrame 0x81 0x23)) es').mfp.motorActs =
        (step (runFrom b es) (.voiceFrame 0x81 0x23)).mfp.motorActs) ↔
    (runFrom b es).anti.snoreIntervention.liftSegEndTick = 0 := by
  have htrig := (windowInv_runFrom b es).trig
  generalize runFrom b es = d at *
  have hanti := anti_stop h
  have hitems := items_stop h
  constructor
  · intro hall
    by_contra hend
    generalize step d (.voiceFrame 0x81 0x23) = c at *
    rw [← hanti] at htrig hend
    obtain ⟨hbus, hne⟩ := exec_outlive c
    have hq : c.mfp.mfpTxTask.items = [] := by
      have ht := MfpQueue.items_txTask (q := c.mfp) hitems
      rwa [if_neg (by decide), if_pos (by decide)] at ht
    have hacts : c.mfp.mfpTxTask.motorActs = c.mfp.motorActs := by
      refine Bus.motorActs_txTask fun r hr => ?_
      rw [show c.mfp.items = [stopRequest] from hitems] at hr
      rw [List.mem_singleton.mp hr]
      decide
    have hok := unasked_outlive c
    have ht := trig_exec htrig (outlive c)
    have hlast := hall (outlive c ++ [.snoreRun]) ?_
    · rw [exec_append, exec_cons, exec_nil] at hlast
      generalize exec step c (outlive c) = c' at *
      obtain ⟨act, hact⟩ := motorActs_refill ht hne (by rw [hbus]; exact hend)
        (by rw [hbus]; exact sub_one_lt hend) (by rw [hbus]; exact hq)
      have hsame : c'.mfp.motorActs = c.mfp.motorActs :=
        (congrArg (fun b : Bus => b.mfp.motorActs) hbus).trans hacts
      rw [hact, hsame] at hlast
      exact List.cons_ne_self _ _ hlast
    · rw [along_append]
      exact And.intro hok (And.intro ⟨id, fun hn => not_triggers_of_ne hne hn.2⟩ trivial)
  · intro h0 es' hes
    have hrest := rest_stop h h0
    rw [← hanti] at htrig
    exact exec_constant
      (I := fun c : Dock => c.anti.snoreIntervention.trig = 0 ∧ c.bus.AtRest)
      (f := fun c : Dock => c.mfp.motorActs)
      (fun c e hc hu => ⟨trig_step c e hc.1, (rest_step hc.1 hc.2 hu).1⟩)
      (fun c e hc hu => (rest_step hc.1 hc.2 hu).2) ⟨htrig, hrest⟩ hes

/-- STOP in a session after the start. -/
theorem stop_is_final_after_start :
    (runFrom (bootAt 3) openSession).ExecutesWord 0x81 0x23 ∧
    ((∀ es',
      Along step Unasked (step (runFrom (bootAt 3) openSession) (.voiceFrame 0x81 0x23)) es' →
      (exec step (step (runFrom (bootAt 3) openSession) (.voiceFrame 0x81 0x23))
        es').mfp.motorActs =
        (step (runFrom (bootAt 3) openSession) (.voiceFrame 0x81 0x23)).mfp.motorActs) ↔
    (runFrom (bootAt 3) openSession).anti.snoreIntervention.liftSegEndTick = 0) := by
  have h : (runFrom (bootAt 3) openSession).ExecutesWord 0x81 0x23 := by decide +kernel
  exact ⟨h, stop_is_final_iff (bootAt 3) openSession h⟩

/-- STOP inside a segment: the main box takes the frame of STOP, and the next call of the
periodic function enqueues a lift pulse. -/
theorem motor_after_stop :
    let d := exec step (runFrom (bootAt 3) untilLift) (.snoreRun :: openSession)
    let d' := step d (.voiceFrame 0x81 0x23)
    d.ExecutesWord 0x81 0x23 ∧ Along step Unasked d' [busSlot, .snoreRun] ∧
    (exec step d' [busSlot, .snoreRun]).mfp.motorActs.length = d'.mfp.motorActs.length + 1 := by
  rw [runFrom_untilLift]
  decide +kernel

/-! ### Keys by voice and by the APP -/

/-- The key of a key frame of the APP. -/
def writtenKey (value : List UInt8) : UInt32 :=
  let p := value.drop 2
  ofLe32 (byteAt p 0) (byteAt p 1) (byteAt p 2) (byteAt p 3)

/-- The same state of the intervention, for a flat key with the cycle timer. -/
structure SameIntervention (flat : Prop) (a b : AntiSnore) : Prop where
  liftSegEndTick : a.snoreIntervention.liftSegEndTick = b.snoreIntervention.liftSegEndTick
  liftSegPwm : a.snoreIntervention.liftSegPwm = b.snoreIntervention.liftSegPwm
  liftStage : a.snoreIntervention.liftStage = b.snoreIntervention.liftStage
  isIntervening : a.snoreIntervention.isIntervening = b.snoreIntervention.isIntervening
  timerS : a.snoreIntervention.timerS = b.snoreIntervention.timerS
  oldsnoreNub : a.snoreIntervention.oldsnoreNub = b.snoreIntervention.oldsnoreNub
  firstLiftTick : flat →
    a.snoreIntervention.firstLiftTick = b.snoreIntervention.firstLiftTick

/-- There is nothing a position word would cancel. -/
structure NothingToCancel (flat : Prop) (a : AntiSnore) : Prop where
  liftSegEndTick : a.snoreIntervention.liftSegEndTick = 0
  liftSegPwm : a.snoreIntervention.liftSegPwm = 0
  liftStage : a.snoreIntervention.liftStage = 0
  isIntervening : a.snoreIntervention.isIntervening = false
  timerS : a.snoreIntervention.timerS = 0
  oldsnoreNub : a.snoreIntervention.oldsnoreNub = 0
  firstLiftTick : flat → a.snoreIntervention.firstLiftTick = 0

/-- The words that cancel the cycle timer are those that send the flat key. -/
theorem key_flat_iff {voice : OfflineVoice} {m1 cmd n : UInt8} {key : UInt32}
    (hcmd : cmd ∈ Dock.voicePositionCmds) (hkey : Dock.voiceKey voice m1 cmd = some (key, n)) :
    key = keyAllFlat ↔ cmd ∈ Dock.voiceFlatCmds := by
  simp only [Dock.voicePositionCmds, List.mem_cons, List.not_mem_nil, or_false] at hcmd
  rcases hcmd with rfl | rfl | rfl | rfl | rfl | rfl | rfl | rfl | rfl | rfl | rfl | rfl | rfl | rfl
  all_goals
    by_cases hb : voice.bedType = 1
    all_goals
      simp [Dock.voiceKey, hb] at hkey
      obtain ⟨rfl, rfl⟩ := hkey
      decide

/-- A key frame of the APP and the position word for the same key leave the same state of the
intervention if and only if there is nothing to cancel: the word clears, the frame does not. -/
theorem key_agrees_iff (d : Dock) (cmd : UInt8) (value : List UInt8) (n : UInt8)
    (hcmd : cmd ∈ Dock.voicePositionCmds) (hw : KeyWrite value)
    (hkey : Dock.voiceKey d.voice d.sys.m1 cmd = some (writtenKey value, n)) :
    SameIntervention (writtenKey value = keyAllFlat) (step d (.bleWrite value)).anti
        (d.offlineVoiceDataHandle cmd).anti ↔
      NothingToCancel (writtenKey value = keyAllFlat) d.anti := by
  have happ : (step d (.bleWrite value)).anti = AntiOp.report.apply d.anti := by
    rw [step_anti, antiOp, bleOp, if_pos hw.1, if_pos hw.2.1]
  have hvoice : (d.offlineVoiceDataHandle cmd).anti =
      (if cmd ∈ Dock.voiceFlatCmds then AntiOp.flat else .clear).apply d.anti := by
    have hwake : cmd ≠ 0x21 ∧ cmd ≠ 0x22 := by
      constructor <;>
        · rintro rfl
          exact absurd hcmd (by decide)
    rw [d.anti_offlineVoiceDataHandle hwake.1 hwake.2, wordOp, if_pos hcmd]
  rw [happ, hvoice, key_flat_iff hcmd hkey]
  generalize d.anti = a
  by_cases hf : cmd ∈ Dock.voiceFlatCmds
  · rw [if_pos hf]
    constructor
    · intro h
      exact ⟨h.liftSegEndTick, h.liftSegPwm, h.liftStage, h.isIntervening, h.timerS,
        h.oldsnoreNub, h.firstLiftTick⟩
    · intro h
      exact ⟨h.liftSegEndTick, h.liftSegPwm, h.liftStage, h.isIntervening, h.timerS,
        h.oldsnoreNub, h.firstLiftTick⟩
  · rw [if_neg hf]
    constructor
    · intro h
      exact ⟨h.liftSegEndTick, h.liftSegPwm, h.liftStage, h.isIntervening, h.timerS,
        h.oldsnoreNub, fun hc => absurd hc hf⟩
    · intro h
      exact ⟨h.liftSegEndTick, h.liftSegPwm, h.liftStage, h.isIntervening, h.timerS,
        h.oldsnoreNub, fun hc => absurd hc hf⟩

/-- The flat key from the APP, in the short form. -/
def flatWrite : List UInt8 := [5, 1, 0x00, 0x00, 0x00, 0x08, 0]

/-- Flat right after a start. -/
theorem key_agrees_after_start :
    let d := runFrom (bootAt 3) []
    (0x26 ∈ Dock.voicePositionCmds ∧ KeyWrite flatWrite ∧
      Dock.voiceKey d.voice d.sys.m1 0x26 = some (writtenKey flatWrite, 3)) ∧
    (SameIntervention (writtenKey flatWrite = keyAllFlat) (step d (.bleWrite flatWrite)).anti
        (d.offlineVoiceDataHandle 0x26).anti ↔
      NothingToCancel (writtenKey flatWrite = keyAllFlat) d.anti) := by
  intro d
  have hcmd : 0x26 ∈ Dock.voicePositionCmds := by decide
  have hw : KeyWrite flatWrite := by decide
  have hkey : Dock.voiceKey d.voice d.sys.m1 0x26 = some (writtenKey flatWrite, 3) := by
    decide +kernel
  exact ⟨⟨hcmd, hw, hkey⟩, key_agrees_iff d 0x26 flatWrite 3 hcmd hw hkey⟩

/-- Flat inside a segment: by voice the segment and the cycle are cancelled; by the APP they are
kept, and when the main box has taken the pending frames the lift goes on. -/
theorem flat_key_keeps_lift :
    let d := step (runFrom (bootAt 3) untilLift) .snoreRun
    let d₁ := step d (.bleWrite flatWrite)
    let d₂ := d.offlineVoiceDataHandle 0x26
    KeyWrite flatWrite ∧
    Dock.voiceKey d.voice d.sys.m1 0x26 = some (writtenKey flatWrite, 3) ∧
    d₂.anti.snoreIntervention.liftSegEndTick = 0 ∧
    d₁.anti.snoreIntervention.liftSegEndTick = 30302 ∧
    d₂.anti.snoreIntervention.firstLiftTick = 0 ∧
    d₁.anti.snoreIntervention.firstLiftTick = 30002 ∧
    (exec step d₁ (List.replicate 5 busSlot ++ [.snoreRun])).mfp.liftPulses.length =
      d₁.mfp.liftPulses.length + 1 := by
  rw [runFrom_untilLift]
  decide +kernel

end ErgoDock
