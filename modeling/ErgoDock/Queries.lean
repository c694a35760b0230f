import ErgoDock.Delivery
import ErgoDock.Desk

/-! # Status queries

A status query of the APP is a key frame with key 0, and it is treated as one: it takes a place
on the transmit queue and three slots of the bus.  Two runs are compared, one with queries put
in anywhere and one without.  They never differ in what the events ask for (`alike_exec`); the
frames on the bus are the same up to frames without a key as long as the queries do not change
what is accepted, what a clear throws away, and whether a lift pulse is due
(`queries_are_transparent`). -/

namespace ErgoDock

open Machine

/-! ### What the operations depend on -/

namespace AntiSnore
variable (a : AntiSnore)

/-- The record without the field that is only kept for the status frame. -/
def unreported : AntiSnore := a.mapSi fun si => { si with triging := 0 }

theorem unreported_tryCycleResetTick :
    a.snoreTryCycleResetTick.unreported = a.unreported.snoreTryCycleResetTick := by
  simp only [snoreTryCycleResetTick, apply_ite unreported]
  rfl

theorem unreported_processTick : a.processTick.unreported = a.unreported.processTick := by
  simp only [processTick, apply_ite unreported]
  rfl

theorem unreported_runPrelude : a.runPrelude.unreported = a.unreported.runPrelude := by
  rw [runPrelude, unreported_processTick, unreported_tryCycleResetTick]
  rfl

theorem unreported_changeLevel : a.changeLevel.unreported = a.unreported.changeLevel := by
  simp only [changeLevel, apply_ite unreported]
  rfl

theorem unreported_simulateDetectionPeriod :
    a.simulateDetectionPeriod.unreported = a.unreported.simulateDetectionPeriod := by
  have hopen : a.openDetectionWindow.unreported = a.unreported.openDetectionWindow := by
    simp only [openDetectionWindow, apply_ite unreported]
    rfl
  have hclose : ∀ b : AntiSnore,
      (if b.WindowElapsed then b.closeDetectionWindow else b).unreported =
        if b.unreported.WindowElapsed then b.unreported.closeDetectionWindow
        else b.unreported := by
    intro b
    rw [apply_ite unreported]
    rfl
  simp only [simulateDetectionPeriod]
  rw [hclose, hopen]

theorem unreported_runDetect : a.runDetect.unreported = a.unreported.runDetect := by
  rw [runDetect, unreported_simulateDetectionPeriod, unreported_changeLevel,
    unreported_runPrelude, runDetect]

theorem unreported_runTriggered (soft : Bool) :
    (a.runTriggered soft).unreported = a.unreported.runTriggered soft := by
  simp only [runTriggered, apply_ite unreported]
  rfl

/-- The fields the branches of a run look at. -/
theorem unreported_fields : a.unreported.snoreIntervention.enable = a.snoreIntervention.enable ∧
    a.unreported.snoreIntervention.trig = a.snoreIntervention.trig ∧
    (a.unreported.LiftDecided ↔ a.LiftDecided) := ⟨rfl, rfl, Iff.rfl⟩

theorem unreported_run (soft : Bool) : (a.run soft).unreported = a.unreported.run soft := by
  rw [run, run, ← unreported_runPrelude, ← unreported_runDetect,
    (unreported_fields _).1, (unreported_fields _).2.1, apply_ite unreported,
    apply_ite unreported, unreported_runTriggered]

theorem startsLift_unreported : a.unreported.StartsLift ↔ a.StartsLift := by
  have hlevel : a.unreported.antiSnoreIntensity = a.antiSnoreIntensity := rfl
  rw [StartsLift, StartsLift, ← unreported_runDetect, (unreported_fields _).2.1,
    (unreported_fields _).2.2, hlevel]

theorem unreported_changeMode (m : UInt8) :
    (a.changeMode m).unreported = (a.unreported.changeMode m).unreported := by
  have hclear : ∀ b : AntiSnore, b.stateClear.unreported = b.unreported.stateClear := fun _ => rfl
  have hflat : ∀ b : AntiSnore, b.snoringInterventFlatTimerClear.unreported =
      b.unreported.snoringInterventFlatTimerClear := fun _ => rfl
  have hrefresh : ∀ b : AntiSnore, b.snoreRefreshTrigTimer.unreported =
      b.unreported.snoreRefreshTrigTimer := fun _ => rfl
  rw [changeMode, changeMode, hrefresh, hflat, hclear, hrefresh, hflat, hclear]
  rfl

end AntiSnore

theorem unreported_apply (a : AntiSnore) (op : AntiOp) :
    (op.apply a).unreported = (op.apply a.unreported).unreported := by
  cases op with
  | run soft =>
      rw [AntiOp.apply, AntiOp.apply, AntiSnore.unreported_run, AntiSnore.unreported_run]
      rfl
  | configure pwm tmr l =>
      rw [AntiOp.apply, AntiSnore.configure, AntiOp.apply, AntiSnore.configure]
      split <;> rfl
  | mode m => exact a.unreported_changeMode m
  | volume v counted =>
      simp only [AntiOp.apply, apply_ite AntiSnore.unreported]
      rfl
  | _ => rfl

/-- The two states have the same switch, keys and voice session, and the same anti-snore record
but for the field kept for the status frame. -/
structure Alike (d d' : Dock) : Prop where
  desk : d'.desk = d.desk
  anti : d'.anti.unreported = d.anti.unreported

/-- A state with a given desk and anti-snore record. -/
def Dock.ofParts (s : Desk) (a : AntiSnore) : Dock :=
  { sys := { toAntiSnore := a, m1 := s.m1 }
    keys := s.keys
    switch := s.switch
    voice := s.voice
    voiceState := s.voiceState
    uart1LastMfpRaw := s.uart1LastMfpRaw }

theorem antiOp_ofParts (d : Dock) (e : Event) :
    antiOp d e = antiOp (.ofParts d.desk d.anti.unreported) e := by
  cases e <;> rfl

theorem busOps_ofParts (d : Dock) (e : Event) :
    busOps d e = busOps (.ofParts d.desk d.anti.unreported) e := by
  cases e with
  | snoreRun =>
      have hs : (Dock.ofParts d.desk d.anti.unreported).anti.StartsLift ↔ d.anti.StartsLift :=
        d.anti.startsLift_unreported
      simp only [busOps, Dock.runOps, hs]
      rfl
  | _ => rfl

theorem Alike.refl (d : Dock) : Alike d d := ⟨rfl, rfl⟩

section alike
variable {d d' : Dock} (h : Alike d d')

include h

theorem Alike.busOps_eq (e : Event) : busOps d' e = busOps d e := by
  rw [busOps_ofParts, h.desk, h.anti, ← busOps_ofParts]

theorem Alike.step (e : Event) : Alike (step d e) (step d' e) := by
  refine ⟨by rw [step_desk, step_desk, h.desk], ?_⟩
  have hop : antiOp d' e = antiOp d e := by
    rw [antiOp_ofParts, h.desk, h.anti, ← antiOp_ofParts]
  rw [step_anti, step_anti, hop, unreported_apply, h.anti, ← unreported_apply]

end alike

/-- A status query of the APP. -/
def statusQuery : Event := .bleWrite [5, 1, 0, 0, 0, 0, 0]

theorem Alike.query {d d' : Dock} (h : Alike d d') : Alike d (ErgoDock.step d' statusQuery) := by
  refine ⟨?_, ?_⟩
  · rw [step_desk, ← h.desk]
    rfl
  · rw [step_anti, ← h.anti]
    rfl

/-! ### The bus in two runs -/

/-- The frames with a key. -/
def keyed (fs : List (List UInt8)) : List (List UInt8) := fs.filter fun f => frameKey f != 0

theorem keyed_append (fs gs : List (List UInt8)) : keyed (fs ++ gs) = keyed fs ++ keyed gs :=
  List.filter_append ..

/-- Whatever empties the queue throws away the same frames with a key. -/
def Bus.SameOwed (b b' : Bus) : Prop := keyed b.mfp.owed = keyed b'.mfp.owed

instance (b b' : Bus) : Decidable (b.SameOwed b') := inferInstanceAs (Decidable (_ = _))

/-- The operation does the same for the frames with a key in both runs: a request is accepted by
both or by none, a clear throws away the same frames, a lift pulse is due in both or in none. -/
def BusOp.Undisturbed (p : Bus × Bus) : BusOp → Prop
  | .tick | .transmit => True
  | .clear => p.1.SameOwed p.2
  | .send r => p.1.mfp.Accepts r ↔ p.2.mfp.Accepts r
  | .stop => p.1.segEnd ≠ 0 → p.1.SameOwed p.2
  | .process _ => p.1.segEnd ≠ 0 →
      if p.1.timer ≥ p.1.segEnd then p.1.SameOwed p.2
      else p.1.mfp.mfpTxQueueIsEmpty = p.2.mfp.mfpTxQueueIsEmpty
  | .start _ _ =>
      if p.1.segEnd ≠ 0 then p.1.SameOwed p.2
      else (p.1.mfp.items.length < mfpTxQueueMaxItems ↔
        p.2.mfp.items.length < mfpTxQueueMaxItems)

instance (p : Bus × Bus) : (op : BusOp) → Decidable (op.Undisturbed p)
  | .tick | .transmit => .isTrue trivial
  | .clear => inferInstanceAs (Decidable (p.1.SameOwed p.2))
  | .send _ => inferInstanceAs (Decidable (_ ↔ _))
  | .stop => inferInstanceAs (Decidable (_ → _))
  | .process _ => inferInstanceAs (Decidable (p.1.segEnd ≠ 0 →
      if p.1.timer ≥ p.1.segEnd then p.1.SameOwed p.2
      else p.1.mfp.mfpTxQueueIsEmpty = p.2.mfp.mfpTxQueueIsEmpty))
  | .start _ _ => inferInstanceAs (Decidable (if p.1.segEnd ≠ 0 then p.1.SameOwed p.2
      else (p.1.mfp.items.length < mfpTxQueueMaxItems ↔
        p.2.mfp.items.length < mfpTxQueueMaxItems)))

/-- An operation in both runs. -/
def BusOp.applyBoth (p : Bus × Bus) (op : BusOp) : Bus × Bus := (op.apply p.1, op.apply p.2)

/-- The two runs agree on the segment and on the frames with a key, sent or still owed. -/
structure SameKeys (b b' : Bus) : Prop where
  timer : b'.timer = b.timer
  segEnd : b'.segEnd = b.segEnd
  left : b.mfp.Represented
  right : b'.mfp.Represented
  total : keyed b'.mfp.total = keyed b.mfp.total

namespace SameKeys
variable {b b' : Bus} (h : SameKeys b b')

include h

/-- The same frames owed means the same frames sent. -/
theorem wire_eq (ho : b.SameOwed b') : keyed b'.mfp.wire = keyed b.mfp.wire := by
  have ht := h.total
  rw [MfpQueue.total, keyed_append, MfpQueue.total, keyed_append, ← ho] at ht
  exact List.append_cancel_right ht

theorem send {r : MfpTxRequest} (hr : r.repeats ≠ 0)
    (ha : b.mfp.Accepts r ↔ b'.mfp.Accepts r) : SameKeys (b.send r) (b'.send r) := by
  refine ⟨h.timer, h.segEnd, h.left.send hr, h.right.send hr, ?_⟩
  rw [Bus.send, MfpQueue.total_send, keyed_append, h.total, Bus.send, MfpQueue.total_send,
    keyed_append, MfpQueue.promised, MfpQueue.promised]
  by_cases hb : b.mfp.Accepts r
  · rw [if_pos hb, if_pos (ha.mp hb)]
  · rw [if_neg hb, if_neg (fun hb' => hb (ha.mpr hb'))]

theorem clear (ho : b.SameOwed b') :
    SameKeys { b with mfp := b.mfp.mfpTxQueueClear } { b' with mfp := b'.mfp.mfpTxQueueClear } := by
  refine ⟨h.timer, h.segEnd, h.left.clear, h.right.clear, ?_⟩
  rw [MfpQueue.total_clear, MfpQueue.total_clear, h.wire_eq ho]

theorem release (ho : b.SameOwed b') : SameKeys b.release b'.release := by
  obtain ⟨ht, -, hl, hr, hk⟩ := h.clear ho
  have hc : SameKeys { b with segEnd := 0, mfp := b.mfp.mfpTxQueueClear }
      { b' with segEnd := 0, mfp := b'.mfp.mfpTxQueueClear } := ⟨ht, rfl, hl, hr, hk⟩
  exact hc.send (by decide) Iff.rfl

theorem stop (ho : b.segEnd ≠ 0 → b.SameOwed b') : SameKeys b.stop b'.stop := by
  rw [Bus.stop, Bus.stop, h.segEnd]
  split
  · next h0 => exact h.release (ho h0)
  · exact h

theorem pulse (frame : List UInt8) (ha : b.mfp.items.length < mfpTxQueueMaxItems ↔
    b'.mfp.items.length < mfpTxQueueMaxItems) : SameKeys (b.pulse frame) (b'.pulse frame) := by
  have hreq : b'.pulseRequest frame = b.pulseRequest frame := by
    rw [Bus.pulseRequest, h.timer, h.segEnd, Bus.pulseRequest]
  rw [Bus.pulse, Bus.pulse, hreq]
  refine h.send (Bus.pulse_repeats b frame) ?_
  rw [MfpQueue.Accepts, MfpQueue.Accepts, ha]

theorem process (frame : List UInt8) (hu : (BusOp.process frame).Undisturbed (b, b')) :
    SameKeys (b.process frame) (b'.process frame) := by
  rw [Bus.process, Bus.process, h.segEnd, h.timer]
  by_cases h0 : b.segEnd = 0
  · rw [if_pos h0, if_pos h0]
    exact h
  rw [if_neg h0, if_neg h0]
  have hu := hu h0
  by_cases ht : b.timer ≥ b.segEnd
  · rw [if_pos ht] at hu
    rw [if_pos ht, if_pos ht]
    exact h.release hu
  · rw [if_neg ht] at hu
    have he : b.mfp.mfpTxQueueIsEmpty = b'.mfp.mfpTxQueueIsEmpty := hu
    rw [if_neg ht, if_neg ht, ← he]
    split
    · next hq =>
      have hl := (MfpQueue.isEmpty_iff _).mp hq
      have hr := (MfpQueue.isEmpty_iff _).mp (he ▸ hq)
      exact h.pulse frame (by rw [hl, hr])
    · exact h

theorem start (ticks : UInt32) (frame : List UInt8)
    (hu : (BusOp.start ticks frame).Undisturbed (b, b')) :
    SameKeys (b.start ticks frame) (b'.start ticks frame) := by
  have hu' : if b.segEnd ≠ 0 then b.SameOwed b'
      else (b.mfp.items.length < mfpTxQueueMaxItems ↔
        b'.mfp.items.length < mfpTxQueueMaxItems) := hu
  have hs : SameKeys b.stop b'.stop := h.stop fun h0 => by rwa [if_pos h0] at hu'
  have hroom : b.stop.mfp.items.length < mfpTxQueueMaxItems ↔
      b'.stop.mfp.items.length < mfpTxQueueMaxItems := by
    rw [Bus.stop, Bus.stop, h.segEnd]
    by_cases h0 : b.segEnd ≠ 0
    · rw [if_pos h0, if_pos h0]
      exact Iff.rfl
    · rw [if_neg h0] at hu'
      rw [if_neg h0, if_neg h0]
      exact hu'
  rw [Bus.start, Bus.start]
  have hset : SameKeys { b.stop with segEnd := b.stop.timer + ticks }
      { b'.stop with segEnd := b'.stop.timer + ticks } :=
    ⟨hs.timer, by rw [hs.timer], hs.left, hs.right, hs.total⟩
  exact hset.pulse frame hroom

theorem apply (op : BusOp) (hr : op.Repeats) (hu : op.Undisturbed (b, b')) :
    SameKeys (op.apply b) (op.apply b') := by
  cases op with
  | tick => exact ⟨by rw [BusOp.apply, BusOp.apply, h.timer], h.segEnd, h.left, h.right, h.total⟩
  | transmit =>
      refine ⟨h.timer, h.segEnd, h.left.txTask, h.right.txTask, ?_⟩
      rw [BusOp.apply, BusOp.apply, h.right.total_txTask, h.left.total_txTask, h.total]
  | clear => exact h.clear hu
  | send r => exact h.send hr hu
  | stop => exact h.stop hu
  | process frame => exact h.process frame hu
  | start ticks frame => exact h.start ticks frame hu

end SameKeys

theorem sameKeys_exec {b b' : Bus} (h : SameKeys b b') {ops : List BusOp}
    (hr : ∀ op ∈ ops, op.Repeats)
    (hu : Along BusOp.applyBoth (fun p op => op.Undisturbed p) (b, b') ops) :
    SameKeys (exec BusOp.apply b ops) (exec BusOp.apply b' ops) := by
  induction ops generalizing b b' with
  | nil => exact h
  | cons op ops ih =>
      exact ih (h.apply op (hr op (List.mem_cons_self ..)) hu.1)
        (fun op' hop => hr op' (List.mem_cons_of_mem op hop)) hu.2

/-! ### Two runs -/

/-- A run with queries put in: `none` is a query. -/
def pairStep (p : Dock × Dock) : Option Event → Dock × Dock
  | some e => (step p.1 e, step p.2 e)
  | none => (p.1, step p.2 statusQuery)

/-- The events of the run without the queries. -/
def withoutQueries (es : List (Option Event)) : List Event := es.reduceOption

/-- The events of the run with the queries. -/
def withQueries (es : List (Option Event)) : List Event := es.map fun e => e.getD statusQuery

theorem exec_pairStep (d d' : Dock) (es : List (Option Event)) :
    exec pairStep (d, d') es =
      (exec step d (withoutQueries es), exec step d' (withQueries es)) := by
  induction es generalizing d d' with
  | nil => rfl
  | cons e es ih =>
      cases e with
      | none => exact ih _ _
      | some e => exact ih _ _

/-- The event does the same for the frames with a key in both runs. -/
def Undisturbed (p : Dock × Dock) : Option Event → Prop
  | some e => Along BusOp.applyBoth (fun p op => op.Undisturbed p) (p.1.bus, p.2.bus)
      (busOps p.1 e)
  | none => True

instance (p : Dock × Dock) : (e : Option Event) → Decidable (Undisturbed p e)
  | some e => inferInstanceAs (Decidable (Along _ _ _ (busOps p.1 e)))
  | none => .isTrue trivial

theorem sameKeys_query {d d' : Dock} (h : SameKeys d.bus d'.bus) :
    SameKeys d.bus (step d' statusQuery).bus := by
  have hw : KeyWrite [5, 1, 0, 0, 0, 0, 0] := by decide
  have hframe : ∀ q : MfpQueue, keyed (q.promised (appRequest [5, 1, 0, 0, 0, 0, 0])) = [] := by
    intro q
    rw [MfpQueue.promised]
    split
    · decide
    · rfl
  rw [step_bus, statusQuery, busOps_keyWrite d' hw]
  refine ⟨h.timer, h.segEnd, h.left, h.right.send (by decide), ?_⟩
  rw [exec_cons, exec_nil, BusOp.apply, Bus.send, MfpQueue.total_send, keyed_append, hframe,
    List.append_nil, h.total]

/-- Queries never change what the events ask for, and in an undisturbed pair of runs not the
frames with a key. -/
theorem alike_exec (b : Boot) {es : List (Option Event)}
    (h : Along pairStep Undisturbed (boot b, boot b) es) :
    Alike (runFrom b (withoutQueries es)) (runFrom b (withQueries es)) ∧
      SameKeys (runFrom b (withoutQueries es)).bus (runFrom b (withQueries es)).bus := by
  have hboot : (boot b).mfp.Represented := represented_runFrom b []
  have hstep : ∀ (p : Dock × Dock) e, Alike p.1 p.2 ∧ SameKeys p.1.bus p.2.bus →
      Undisturbed p e →
      Alike (pairStep p e).1 (pairStep p e).2 ∧
        SameKeys (pairStep p e).1.bus (pairStep p e).2.bus := by
    rintro ⟨d, d'⟩ e ⟨ha, hk⟩ hu
    cases e with
    | none => exact ⟨ha.query, sameKeys_query hk⟩
    | some e =>
        refine ⟨ha.step e, ?_⟩
        rw [pairStep, step_bus, step_bus, ha.busOps_eq]
        exact sameKeys_exec hk (fun op hop => repeats_busOps hop) hu
  have hstart : SameKeys (boot b).bus (boot b).bus := ⟨rfl, rfl, hboot, hboot, rfl⟩
  have hend := exec_invariant (s := (boot b, boot b)) hstep ⟨.refl _, hstart⟩ h
  rwa [exec_pairStep] at hend

/-! ### Frames of the main box at the end -/

/-- As many frames of the main box as frames are owed put them all on the bus. -/
theorem wire_after_slots {d : Dock} (h : d.mfp.Represented) {more : List Event}
    (hm : ∀ e ∈ more, isSlot e = true) (hn : d.mfp.owed.length ≤ more.length) :
    (exec step d more).mfp.wire = d.mfp.total := by
  induction more generalizing d with
  | nil =>
      rw [MfpQueue.total, List.length_eq_zero_iff.mp (Nat.le_zero.mp hn), List.append_nil]
      rfl
  | cons e more ih =>
      have hslot : (step d e).mfp = d.mfp.mfpTxTask := by
        have he := hm e (List.mem_cons_self ..)
        cases e with
        | mfpFrame raw => exact mfp_slot d (of_decide_eq_true he)
        | _ => cases he
      obtain ⟨fs, -, ho, hfs⟩ := h.wire_txTask
      have hle : (step d e).mfp.owed.length ≤ more.length := by
        rw [hslot]
        rw [ho, List.length_append, List.length_cons] at hn
        by_cases h0 : d.mfp.owed = []
        · rw [h0] at ho
          rw [(List.append_eq_nil_iff.mp ho.symm).2]
          exact Nat.zero_le _
        · have := List.length_pos_iff.mpr (hfs h0)
          omega
      rw [exec_cons, ih (represented_step h e) (fun e' he' => hm e' (List.mem_cons_of_mem e he'))
        hle, hslot, h.total_txTask]

/-- With the frames of the main box supplied that are needed, the frames with a key that reach
the bus are the same with and without the queries, as long as the queries do not change whether a
request is accepted, which frames a clear throws away, and whether a lift pulse is due. -/
theorem queries_are_transparent (b : Boot) (es : List (Option Event))
    (h : Along pairStep Undisturbed (boot b, boot b) es) (more more' : List Event)
    (hm : ∀ e ∈ more, isSlot e = true) (hm' : ∀ e ∈ more', isSlot e = true)
    (hn : (runFrom b (withoutQueries es)).mfp.owed.length ≤ more.length)
    (hn' : (runFrom b (withQueries es)).mfp.owed.length ≤ more'.length) :
    keyed (runFrom b (withQueries es ++ more')).mfp.wire =
      keyed (runFrom b (withoutQueries es ++ more)).mfp.wire := by
  have hkeys := (alike_exec b h).2
  have hw : (runFrom b (withoutQueries es ++ more)).mfp.wire =
      (runFrom b (withoutQueries es)).mfp.total := by
    rw [runFrom_append]
    exact wire_after_slots (represented_runFrom b _) hm hn
  have hw' : (runFrom b (withQueries es ++ more')).mfp.wire =
      (runFrom b (withQueries es)).mfp.total := by
    rw [runFrom_append]
    exact wire_after_slots (represented_runFrom b _) hm' hn'
  rw [hw, hw']
  exact hkeys.total

/-- A query before the first key after a start. -/
theorem query_before_key :
    let es : List (Option Event) := [none, some (.bleWrite m1Write)]
    (Along pairStep Undisturbed (boot (bootAt 3), boot (bootAt 3)) es ∧
      (∀ n, ∀ e ∈ List.replicate n busSlot, isSlot e = true) ∧
      (runFrom (bootAt 3) (withoutQueries es)).mfp.owed.length ≤ 3 ∧
      (runFrom (bootAt 3) (withQueries es)).mfp.owed.length ≤ 6) ∧
    keyed (runFrom (bootAt 3) (withQueries es ++ List.replicate 6 busSlot)).mfp.wire =
      keyed (runFrom (bootAt 3) (withoutQueries es ++ List.replicate 3 busSlot)).mfp.wire := by
  intro es
  have h : Along pairStep Undisturbed (boot (bootAt 3), boot (bootAt 3)) es := by decide +kernel
  have hm : ∀ n, ∀ e ∈ List.replicate n busSlot, isSlot e = true := by
    intro n e he
    rw [List.eq_of_mem_replicate he]
    decide
  have hn : (runFrom (bootAt 3) (withoutQueries es)).mfp.owed.length ≤ 3 := by decide +kernel
  have hn' : (runFrom (bootAt 3) (withQueries es)).mfp.owed.length ≤ 6 := by decide +kernel
  exact ⟨⟨h, hm, hn, hn'⟩, queries_are_transparent (bootAt 3) es h (List.replicate 3 busSlot)
    (List.replicate 6 busSlot) (hm 3) (hm 6) hn hn'⟩

/-! ### Queries that are seen on the bus -/

/-- Eight queries, then a key. -/
def eightQueries : List (Option Event) :=
  List.replicate 8 none ++ [some (.bleWrite m1Write)]

/-- A query inside a segment, when the next lift pulse is due. -/
def queryAtPulse : List (Option Event) :=
  (untilLift ++ [.snoreRun, busSlot, busSlot]).map some ++ [none, some .snoreRun]

/-- A query and a key, with just enough frames of the main box for the key before the segment
ends. -/
def queryAtEnd : List (Option Event) :=
  (untilLift ++ .snoreRun :: wait 299).map some ++
    (none :: some (.bleWrite m1Write) :: List.replicate 5 (some busSlot) ++
      [some .tick, some .snoreRun])

theorem withoutQueries_append (es : List Event) (fs : List (Option Event)) :
    withoutQueries (es.map some ++ fs) = es ++ withoutQueries fs := by
  induction es with
  | nil => rfl
  | cons e es ih => exact congrArg (e :: ·) ih

theorem withQueries_append (es : List Event) (fs : List (Option Event)) :
    withQueries (es.map some ++ fs) = es ++ withQueries fs := by
  rw [withQueries, List.map_append, List.map_map]
  exact congrArg (· ++ withQueries fs) (List.map_id es)

/-- The frames with a key differ, however many frames the main box sends at the end. -/
def SeenOnBus (es : List (Option Event)) : Prop :=
  ∀ n ≥ 30, ∀ n' ≥ 30,
    keyed (runFrom (bootAt 3) (withQueries es ++ List.replicate n' busSlot)).mfp.wire ≠
      keyed (runFrom (bootAt 3) (withoutQueries es ++ List.replicate n busSlot)).mfp.wire

theorem seenOnBus {es : List (Option Event)}
    (hn : (runFrom (bootAt 3) (withoutQueries es)).mfp.owed.length ≤ 30)
    (hn' : (runFrom (bootAt 3) (withQueries es)).mfp.owed.length ≤ 30)
    (hk : keyed (runFrom (bootAt 3) (withQueries es)).mfp.total ≠
      keyed (runFrom (bootAt 3) (withoutQueries es)).mfp.total) : SeenOnBus es := by
  intro n hge n' hge'
  have hdrain : ∀ (fs : List Event) (n : ℕ), (runFrom (bootAt 3) fs).mfp.owed.length ≤ 30 →
      n ≥ 30 → (runFrom (bootAt 3) (fs ++ List.replicate n busSlot)).mfp.wire =
        (runFrom (bootAt 3) fs).mfp.total := by
    intro fs n hfs hge
    rw [runFrom_append]
    refine wire_after_slots (represented_runFrom _ fs) (fun e he => ?_) ?_
    · rw [List.eq_of_mem_replicate he]
      decide
    · rw [List.length_replicate]
      exact Nat.le_trans hfs hge
  rw [hdrain _ n' hn' hge', hdrain _ n hn hge]
  exact hk

/-- Queries push a key out of the queue, take the place of a lift pulse, and hold a key back
until the end of the segment throws it away. -/
theorem queries_disturb :
    SeenOnBus eightQueries ∧ SeenOnBus queryAtPulse ∧ SeenOnBus queryAtEnd := by
  refine ⟨?_, ?_, ?_⟩
  · exact seenOnBus (by decide +kernel) (by decide +kernel) (by decide +kernel)
  · apply seenOnBus <;>
      · simp only [queryAtPulse, withoutQueries_append, withQueries_append, runFrom_append]
        rw [runFrom_untilLift]
        decide +kernel
  · apply seenOnBus <;>
      · simp only [queryAtEnd, withoutQueries_append, withQueries_append, runFrom_append,
          exec_cons, exec_wait]
        rw [runFrom_untilLift]
        decide +kernel

end ErgoDock
