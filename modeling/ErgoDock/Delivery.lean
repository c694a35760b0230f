import ErgoDock.Commands
import ErgoDock.MfpFifo

/-! # Delivery of key frames

What becomes of a key frame of the APP.  It waits on the transmit queue behind the requests of
the voice commands and of the lift, and three frames of the main box carry it to the bus.  Two
things stand in its way: the queue may be full when it arrives, and whoever empties the queue
empties it for all (STOP, the flat preset, and every release of a lift segment).  Otherwise it
is delivered, after a number of frames known when it arrives. -/

namespace ErgoDock

open Machine

/-! ### Operations that empty the queue -/

namespace BusOp

/-- The operation empties the queue. -/
def Clears (b : Bus) : BusOp → Prop
  | .clear => True
  | .stop | .start _ _ => b.segEnd ≠ 0
  | .process _ => b.segEnd ≠ 0 ∧ b.timer ≥ b.segEnd
  | .tick | .transmit | .send _ => False

/-- The operation asks for at least one transmission. -/
def Repeats : BusOp → Prop
  | .send r => r.repeats ≠ 0
  | _ => True

end BusOp

/-- From `b` to `b'` nothing owed is lost: it has been transmitted, or is still owed. -/
def Bus.Keeps (b b' : Bus) : Prop :=
  ∃ fs, b'.mfp.wire = b.mfp.wire ++ fs ∧ b.mfp.owed <+: fs ++ b'.mfp.owed

namespace Bus
variable {b b' b'' : Bus}

theorem Keeps.refl (b : Bus) : b.Keeps b := ⟨[], by simp, by simp⟩

theorem Keeps.trans (h : b.Keeps b') (h' : b'.Keeps b'') : b.Keeps b'' := by
  obtain ⟨fs, hw, ho⟩ := h
  obtain ⟨gs, hw', ho'⟩ := h'
  refine ⟨fs ++ gs, by rw [hw', hw, List.append_assoc], ?_⟩
  rw [List.append_assoc]
  exact ho.trans ((List.prefix_append_right_inj fs).mpr ho')

theorem keeps_send (r : MfpTxRequest) : b.Keeps (b.send r) := by
  refine ⟨[], ?_, ?_⟩
  · rw [send, MfpQueue.wire_send, List.append_nil]
  · rw [send, MfpQueue.owed_send, List.nil_append]
    exact List.prefix_append ..

theorem pulse_repeats (b : Bus) (frame : List UInt8) : (b.pulseRequest frame).repeats ≠ 0 := by
  change (2 : UInt8) ≠ 0
  decide

section represented
variable (h : b.mfp.Represented)

include h

theorem represented_release : b.release.mfp.Represented := h.clear.send (by decide)

theorem represented_stop : b.stop.mfp.Represented := by
  rw [stop]
  split
  · exact represented_release h
  · exact h

theorem represented_apply (op : BusOp) (hop : op.Repeats) : (op.apply b).mfp.Represented := by
  cases op with
  | tick => exact h
  | transmit => exact h.txTask
  | clear => exact h.clear
  | send r => exact h.send hop
  | stop => exact represented_stop h
  | process frame =>
      rw [BusOp.apply, process]
      split
      · exact h
      · split
        · exact represented_release h
        · split
          · exact h.send (pulse_repeats _ _)
          · exact h
  | start ticks frame =>
      have hs : b.stop.mfp.Represented := represented_stop h
      exact hs.send (pulse_repeats _ _)

/-- An operation that does not empty the queue loses nothing. -/
theorem keeps_apply (op : BusOp) (hop : ¬ op.Clears b) : b.Keeps (op.apply b) := by
  cases op with
  | tick => exact .refl b
  | transmit =>
      obtain ⟨fs, hw, ho, -⟩ := h.wire_txTask
      exact ⟨fs, hw, ho ▸ List.prefix_refl _⟩
  | clear => exact absurd trivial hop
  | send r => exact keeps_send r
  | stop =>
      have h0 : ¬ b.segEnd ≠ 0 := hop
      rw [BusOp.apply, stop, if_neg h0]
      exact .refl b
  | process frame =>
      rw [BusOp.apply, process]
      split
      · exact .refl b
      · next h0 =>
        rw [if_neg fun ht => hop ⟨h0, ht⟩]
        split
        · exact keeps_send _
        · exact .refl b
  | start ticks frame =>
      have h0 : ¬ b.segEnd ≠ 0 := hop
      rw [BusOp.apply, start, stop, if_neg h0]
      exact keeps_send (b := { b with segEnd := b.timer + ticks }) _

end represented

/-- A run of operations none of which empties the queue. -/
theorem keeps_exec {ops : List BusOp} (hr : ∀ op ∈ ops, op.Repeats) (h : b.mfp.Represented)
    (hc : Along BusOp.apply (fun b op => ¬ op.Clears b) b ops) :
    (exec BusOp.apply b ops).mfp.Represented ∧ b.Keeps (exec BusOp.apply b ops) :=
  exec_invariant (I := fun b' : Bus => b'.mfp.Represented ∧ b.Keeps b')
    (fun _ op hI hop => ⟨represented_apply hI.1 op hop.1, hI.2.trans (keeps_apply hI.1 op hop.2)⟩)
    ⟨h, .refl b⟩ ((along_of_forall fun op hop _ => hr op hop).and hc)

theorem represented_exec {ops : List BusOp} (hr : ∀ op ∈ ops, op.Repeats)
    (h : b.mfp.Represented) : (exec BusOp.apply b ops).mfp.Represented :=
  exec_invariant (I := fun b' : Bus => b'.mfp.Represented)
    (fun _ op hI hop => represented_apply hI op hop) h
    (along_of_forall fun op hop _ => hr op hop)

end Bus

/-! ### The events of the firmware -/

theorem voiceKey_repeats {voice : OfflineVoice} {m1 cmd n : UInt8} {key : UInt32}
    (h : Dock.voiceKey voice m1 cmd = some (key, n)) : n ≠ 0 := by
  revert h
  fun_cases Dock.voiceKey voice m1 cmd
  all_goals
    rintro h
    first
    | obtain ⟨-, rfl⟩ := Prod.mk.inj (Option.some.inj h)
      decide
    | cases h

/-- The frame a key frame of the APP puts on the bus. -/
def keyFrame (value : List UInt8) : List UInt8 :=
  let p := value.drop 2
  if byteAt value 0 = 5 then normalKetFrame (writtenKey value)
  else softStartFrame (writtenKey value) (byteAt p 5) (byteAt p 6)

/-- The request of a key frame of the APP: its frame, three times. -/
def appRequest (value : List UInt8) : MfpTxRequest := ⟨keyFrame value, 3, .app⟩

theorem busOps_keyWrite (d : Dock) {value : List UInt8} (h : KeyWrite value) :
    busOps d (.bleWrite value) = [.send (appRequest value)] := by
  obtain ⟨hacc, hport, hn⟩ := h
  have hops : busOps d (.bleWrite value) = d.bleBusOps value := rfl
  rw [hops, Dock.bleBusOps, if_pos hacc, if_pos hport, Dock.keyOps, appRequest, keyFrame]
  by_cases h5 : byteAt value 0 = 5
  · rw [if_pos h5, if_pos h5]
    rfl
  · have h7 : byteAt value 0 = 7 := hn.resolve_left h5
    rw [if_neg h5, if_neg h5, if_pos h7]
    rfl

theorem length_keyFrame (value : List UInt8) : (keyFrame value).length ≤ mfpTxDataMaxLen := by
  simp only [keyFrame]
  split
  · exact (by decide : 8 ≤ mfpTxDataMaxLen)
  · exact (by decide : 10 ≤ mfpTxDataMaxLen)

/-- Every request of the firmware asks for at least one transmission. -/
theorem repeats_busOps {d : Dock} {e : Event} {op : BusOp} (h : op ∈ busOps d e) :
    op.Repeats := by
  cases op with
  | send r =>
      cases e with
      | tick => cases List.mem_singleton.mp h
      | snoreRun =>
          rw [busOps, Dock.runOps] at h
          split at h <;> simp at h
      | voiceFrame cmd data =>
          rw [busOps] at h
          split at h
          · rw [Dock.wordBusOps] at h
            cases hk : Dock.voiceKey d.voice d.sys.m1 data with
            | none =>
                rw [hk] at h
                dsimp only at h
                split at h <;> split at h <;> simp at h
            | some kn =>
                have hr : r = ⟨normalKetFrame kn.1, kn.2, .voice⟩ := by
                  rw [hk] at h
                  dsimp only at h
                  split at h <;> split at h <;> simpa using h
                rw [hr]
                exact voiceKey_repeats hk
          · cases h
      | mfpFrame raw =>
          rw [busOps] at h
          split at h <;> simp at h
      | bleWrite value =>
          rcases mem_bleBusOps h with hq | ⟨-, hw⟩
          · exact hq.elim
          · rw [busOps_keyWrite d hw] at h
            rw [BusOp.send.inj (List.mem_singleton.mp h)]
            change (3 : UInt8) ≠ 0
            decide
      | _ => cases h
  | _ => trivial

/-! ### Events that empty the queue -/

/-- The step empties the queue: it ends a lift segment, or executes STOP or the flat preset. -/
def ClearsQueue (d : Dock) : Event → Prop
  | .snoreRun => d.anti.snoreIntervention.liftSegEndTick ≠ 0 ∧
      (d.anti.timer ≥ d.anti.snoreIntervention.liftSegEndTick ∨ d.anti.StartsLift)
  | .voiceFrame cmd data => d.ExecutesWord cmd data ∧
      (data = 0x23 ∨ data = 0x26 ∨
        data ∈ Dock.voicePositionCmds ∧ d.anti.snoreIntervention.liftSegEndTick ≠ 0)
  | .bleWrite value => .stop ∈ d.bleBusOps value ∧ d.anti.snoreIntervention.liftSegEndTick ≠ 0
  | _ => False

instance (d : Dock) : (e : Event) → Decidable (ClearsQueue d e)
  | .snoreRun | .voiceFrame _ _ | .bleWrite _ => inferInstanceAs (Decidable (_ ∧ _))
  | .tick | .switchSample _ _ | .control _ | .led | .charge _ | .snoreEdge | .flashRun
  | .mfpFrame _ | .statusFrame _ | .connected _ | .disconnected | .notificationDone
  | .mtuChanged _ => .isFalse id

theorem along_not_clears {d : Dock} {e : Event} (h : ¬ ClearsQueue d e) :
    Along BusOp.apply (fun b op => ¬ op.Clears b) d.bus (busOps d e) := by
  cases e with
  | snoreRun =>
      rw [busOps, Dock.runOps]
      refine ⟨fun hc => h ⟨hc.1, .inl hc.2⟩, ?_⟩
      split
      · next hs =>
        -- a run starts a lift only when no segment is running
        have h0 : d.anti.snoreIntervention.liftSegEndTick = 0 := by
          by_contra hne
          exact h ⟨hne, .inr hs⟩
        have hb : d.bus.segEnd = 0 := h0
        refine ⟨fun hc => hc ?_, trivial⟩
        rw [BusOp.apply, Bus.process, if_pos hb, hb]
      · trivial
  | voiceFrame cmd data =>
      rw [busOps]
      split
      · next hx =>
        have hstop : data ∈ Dock.voicePositionCmds → d.bus.segEnd = 0 := by
          intro hp
          by_contra hne
          exact h ⟨hx, .inr (.inr ⟨hp, hne⟩)⟩
        have hclear : ¬ (data = 0x23 ∨ data = 0x26) := fun hc =>
          h ⟨hx, hc.elim .inl fun h26 => .inr (.inl h26)⟩
        rw [Dock.wordBusOps, if_neg hclear, along_append]
        constructor
        · split
          · next hp => exact ⟨fun hc => hc (hstop hp), trivial⟩
          · trivial
        · cases Dock.voiceKey d.voice d.sys.m1 data with
          | none => trivial
          | some kn => exact ⟨id, trivial⟩
      · trivial
  | bleWrite value =>
      have hstop : .stop ∈ d.bleBusOps value → d.bus.segEnd = 0 := by
        intro hs
        by_contra hne
        exact h ⟨hs, hne⟩
      rcases d.bleBusOps_cases value with h0 | hs | ⟨r, hr⟩
      · rw [busOps, h0]
        trivial
      · rw [busOps, hs]
        exact ⟨fun hc => hc (hstop (hs ▸ List.mem_singleton_self _)), trivial⟩
      · rw [busOps, hr]
        exact ⟨id, trivial⟩
  | mfpFrame raw =>
      rw [busOps]
      split
      · exact ⟨id, trivial⟩
      · trivial
  | tick => exact ⟨id, trivial⟩
  | _ => trivial

/-! ### Frames on the bus -/

/-- The frames a step puts on the bus. -/
def busFrames (d : Dock) (e : Event) : List (List UInt8) :=
  (step d e).mfp.wire.drop d.mfp.wire.length

/-- A frame of the main box that lets a frame pass. -/
def isSlot : Event → Bool
  | .mfpFrame raw => decide (Dock.Uart1Valid raw)
  | _ => false

theorem represented_step {d : Dock} (h : d.mfp.Represented) (e : Event) :
    (step d e).mfp.Represented := by
  have hb : (step d e).bus.mfp.Represented := by
    rw [step_bus]
    exact Bus.represented_exec (fun op hop => repeats_busOps hop) h
  exact hb

theorem represented_runFrom (b : Boot) (es : List Event) : (runFrom b es).mfp.Represented := by
  have hboot : (boot b).bus.mfp.Represented := by
    rw [bus_boot]
    exact MfpQueue.represented_empty
  exact exec_invariant_all (I := fun d : Dock => d.mfp.Represented)
    (fun d e hd => represented_step hd e) hboot es

/-- A step that does not empty the queue loses nothing that is owed. -/
theorem keeps_step {d : Dock} {e : Event} (h : d.mfp.Represented) (hc : ¬ ClearsQueue d e) :
    d.mfp.owed <+: busFrames d e ++ (step d e).mfp.owed := by
  have hk : d.bus.Keeps (step d e).bus := by
    rw [step_bus]
    exact (Bus.keeps_exec (fun op hop => repeats_busOps hop) h (along_not_clears hc)).2
  obtain ⟨fs, hw, ho⟩ := hk
  have hfs : busFrames d e = fs := by
    rw [busFrames, show (step d e).mfp.wire = d.mfp.wire ++ fs from hw, List.drop_left]
  rw [hfs]
  exact ho

theorem mfp_slot (d : Dock) {raw : List UInt8} (hv : Dock.Uart1Valid raw) :
    (step d (.mfpFrame raw)).mfp = d.mfp.mfpTxTask := by
  rw [step, Dock.xUart1DateReceiveHandle, if_pos hv]
  rfl

theorem busFrames_slot {d : Dock} {e : Event} (h : d.mfp.Represented) (he : isSlot e = true)
    (hne : d.mfp.owed ≠ []) : busFrames d e ≠ [] := by
  cases e with
  | mfpFrame raw =>
      obtain ⟨fs, hw, -, hfs⟩ := h.wire_txTask
      rw [busFrames, mfp_slot d (of_decide_eq_true he), hw, List.drop_left]
      exact hfs hne
  | _ => cases he

/-- In a run that never empties the queue, what is owed goes out with the frames of the main
box. -/
theorem owed_is_delivered {d : Dock} (h : d.mfp.Represented) {es : List Event}
    (hc : Along step (fun d e => ¬ ClearsQueue d e) d es)
    (hn : d.mfp.owed.length ≤ es.countP isSlot) : d.mfp.owed <+: outputs step busFrames d es := by
  have hkeep : ∀ (d : Dock) (e : Event), d.mfp.Represented → ¬ ClearsQueue d e →
      d.mfp.owed <+: busFrames d e ++ (step d e).mfp.owed := fun _ _ hI hok => keeps_step hI hok
  exact outputs_deliver (fun _ e hI _ => represented_step hI e) hkeep
    (fun _ _ hI _ he hne => busFrames_slot hI he hne) h hc (List.prefix_refl _) hn

/-! ### A key frame of the APP -/

theorem mfp_keyWrite (d : Dock) {value : List UInt8} (h : KeyWrite value) :
    (step d (.bleWrite value)).mfp = (d.mfp.mfpSendRequest (appRequest value)).2 := by
  have hb : (step d (.bleWrite value)).bus = d.bus.send (appRequest value) := by
    rw [step_bus, busOps_keyWrite d h]
    rfl
  exact congrArg Bus.mfp hb

/-- A key frame of the APP that finds room in the queue is transmitted three times in a row, as
soon as the main box has sent three frames more than were owed before, unless something empties
the queue first. -/
theorem key_is_delivered (b : Boot) (es : List Event) (value : List UInt8) (hw : KeyWrite value)
    (hroom : (runFrom b es).mfp.items.length < mfpTxQueueMaxItems) (more : List Event)
    (hc : Along step (fun d e => ¬ ClearsQueue d e)
      (step (runFrom b es) (.bleWrite value)) more)
    (hn : (runFrom b es).mfp.owed.length + 3 ≤ more.countP isSlot) :
    (runFrom b es).mfp.owed ++ List.replicate 3 (keyFrame value) <+:
      outputs step busFrames (step (runFrom b es) (.bleWrite value)) more := by
  have hrep := represented_step (represented_runFrom b es) (.bleWrite value)
  have hacc : (runFrom b es).mfp.Accepts (appRequest value) := ⟨hroom, length_keyFrame value⟩
  have howed : (step (runFrom b es) (.bleWrite value)).mfp.owed =
      (runFrom b es).mfp.owed ++ List.replicate 3 (keyFrame value) := by
    rw [mfp_keyWrite _ hw, MfpQueue.owed_send, MfpQueue.promised, if_pos hacc]
    rfl
  rw [← howed]
  refine owed_is_delivered hrep hc ?_
  rw [howed, List.length_append, List.length_replicate]
  exact hn

/-- A key for the first motor, from the APP. -/
def m1Write : List UInt8 := [5, 1, 0x01, 0x00, 0x00, 0x00, 0]

/-- The first key after a start. -/
theorem first_key_is_delivered :
    (KeyWrite m1Write ∧
      Along step (fun d e => ¬ ClearsQueue d e)
        (step (runFrom (bootAt 3) []) (.bleWrite m1Write)) (List.replicate 3 busSlot)) ∧
    (runFrom (bootAt 3) []).mfp.owed ++ List.replicate 3 (keyFrame m1Write) <+:
      outputs step busFrames (step (runFrom (bootAt 3) []) (.bleWrite m1Write))
        (List.replicate 3 busSlot) := by
  have hw : KeyWrite m1Write := by decide
  have hc : Along step (fun d e => ¬ ClearsQueue d e)
      (step (runFrom (bootAt 3) []) (.bleWrite m1Write)) (List.replicate 3 busSlot) := by
    decide +kernel
  exact ⟨⟨hw, hc⟩, key_is_delivered (bootAt 3) [] m1Write hw (by decide +kernel) _ hc
    (by decide +kernel)⟩

/-! ### Lost key frames -/

theorem mfp_busSlot (d : Dock) : (step d busSlot).mfp = d.mfp.mfpTxTask :=
  mfp_slot d (by decide)

theorem busFrames_busSlot {d : Dock} {P : List UInt8 → Origin → Prop} (h : d.mfp.Pending P) :
    ∀ f ∈ busFrames d busSlot, ∃ o, P f o := by
  intro f hf
  rw [busFrames, mfp_busSlot] at hf
  rcases d.mfp.wire_txTask_cases with hw | ⟨r, hr, hw⟩
  · rw [hw, List.drop_length] at hf
    cases hf
  · rw [hw, List.drop_left] at hf
    rw [List.mem_singleton.mp hf]
    exact ⟨r.origin, h r hr⟩

/-- A frame that is not pending does not come out, however often the main box asks. -/
theorem not_mem_slots {d : Dock} {f : List UInt8} (h : d.mfp.Pending fun data _ => data ≠ f)
    (n : ℕ) : f ∉ outputs step busFrames d (List.replicate n busSlot) := by
  induction n generalizing d with
  | zero => simp
  | succ n ih =>
      have hnext : (step d busSlot).mfp.Pending fun data _ => data ≠ f := by
        rw [mfp_busSlot]
        exact MfpQueue.pending_txTask h
      rw [List.replicate_succ, outputs_cons, List.mem_append]
      rintro (hf | hf)
      · obtain ⟨-, hne⟩ := busFrames_busSlot h f hf
        exact hne rfl
      · exact ih hnext hf

/-- A key frame that was processed and answered, and never reaches the bus after the events
`es`. -/
structure LostAfter (d : Dock) (value : List UInt8) (es : List Event) : Prop where
  keyWrite : KeyWrite value
  answered : (step d (.bleWrite value)).out =
    .notify d.link.connectId (step d (.bleWrite value)).bletx :: d.out
  lost : ∀ n, keyFrame value ∉
    outputs step busFrames (step d (.bleWrite value)) (es ++ List.replicate n busSlot)

theorem lostAfter {d : Dock} {value : List UInt8} {es : List Event} (hw : KeyWrite value)
    (ha : (step d (.bleWrite value)).out =
      .notify d.link.connectId (step d (.bleWrite value)).bletx :: d.out)
    (hq : outputs step busFrames (step d (.bleWrite value)) es = [])
    (hp : ∀ r ∈ (exec step (step d (.bleWrite value)) es).mfp.items, r.data ≠ keyFrame value) :
    LostAfter d value es := by
  refine ⟨hw, ha, fun n => ?_⟩
  rw [outputs_append, hq, List.nil_append]
  exact not_mem_slots hp n

/-- Two key frames that are answered and lost: the ninth of a row that the main box does not
fetch, and one that comes a tick before a lift segment ends. -/
theorem key_frames_lost :
    LostAfter (runFrom (bootAt 3)
      (.connected 0 :: List.replicate 8 (.bleWrite m1Write) ++ [.notificationDone])) flatWrite [] ∧
    LostAfter (runFrom (bootAt 3) (untilLift ++ (.snoreRun :: .connected 0 :: wait 299)))
      flatWrite [.tick, .snoreRun] := by
  have hw : KeyWrite flatWrite := by decide
  have hrun : runFrom (bootAt 3) (untilLift ++ (.snoreRun :: .connected 0 :: wait 299)) =
      (step (step (runFrom (bootAt 3) untilLift) .snoreRun) (.connected 0)).mapAnti fun a =>
        { a with timer := a.timer + UInt32.ofNat 299 } := by
    rw [runFrom_append, exec_cons, exec_cons, exec_wait]
  rw [hrun, runFrom_untilLift]
  constructor
  · exact lostAfter hw (by decide +kernel) rfl (by decide +kernel)
  · exact lostAfter hw (by decide +kernel) (by decide +kernel) (by decide +kernel)

end ErgoDock
