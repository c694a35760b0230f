import ErgoDock.Uart
import ErgoDock.Lib.Fifo

/-! # The transmit queue is a bounded queue

The circular buffer of `mfp_queue.c`, driven by its callers and by the frames of the main box,
against the abstract queue of `Lib/Fifo`: eight requests, each to be transmitted its number of
times.  `QueueCall` are the calls of the queue's interface and the frames UART1 receives;
`Represents` relates the two queues, and every call keeps it and answers the same. -/

namespace ErgoDock

open Machine

namespace MfpQueue

/-- The frames still to be transmitted, the next one first. -/
def owed (q : MfpQueue) : List (List UInt8) :=
  q.items.flatMap fun r => List.replicate r.repeats.toNat r.data

/-- The frames a request is promised. -/
def promised (q : MfpQueue) (r : MfpTxRequest) : List (List UInt8) :=
  if q.Accepts r then List.replicate r.repeats.toNat r.data else []

section wire
variable (q : MfpQueue)

@[simp] theorem wire_clear : q.mfpTxQueueClear.wire = q.wire := rfl

@[simp] theorem wire_send (r : MfpTxRequest) : (q.mfpSendRequest r).2.wire = q.wire := by
  rw [wire, log_send]
  split <;> rfl

theorem wire_txTask_of_empty (h : q.items = []) : q.mfpTxTask.wire = q.wire := by
  rw [txTask_of_empty h]

theorem wire_txTask {r : MfpTxRequest} {rs : List MfpTxRequest} (h : q.items = r :: rs)
    (hr : r.repeats ≠ 0) : q.mfpTxTask.wire = q.wire ++ [r.data] := by
  rw [wire, log_txTask h, if_neg hr, List.filterMap_cons, MfpAct.frame?, List.reverse_cons, wire]

/-- A transmission puts nothing on the bus, or a pending request. -/
theorem wire_txTask_cases :
    q.mfpTxTask.wire = q.wire ∨ ∃ r ∈ q.items, q.mfpTxTask.wire = q.wire ++ [r.data] := by
  rcases q.log_txTask_cases with hl | ⟨r, hr, hl⟩
  · exact .inl (by rw [wire, hl, wire])
  · refine .inr ⟨r, hr, ?_⟩
    rw [wire, hl, List.filterMap_cons, MfpAct.frame?, List.reverse_cons, wire]

theorem uartCtr_txTask (h : q.uartCtr = true) : q.mfpTxTask.uartCtr = true := by
  simp only [mfpTxTask]
  split
  · exact h
  · split
    · split <;> rfl
    · exact h

theorem uartCtr_send (r : MfpTxRequest) : (q.mfpSendRequest r).2.uartCtr = q.uartCtr := by
  simp only [mfpSendRequest]
  split <;> rfl

end wire

/-! ### The abstract queue -/

/-- A frame fits into a request. -/
def Fits (data : List UInt8) : Prop := data.length ≤ mfpTxDataMaxLen

instance : DecidablePred Fits := fun data => by unfold Fits; infer_instance

/-- The bounded queue `mfp_queue.c` implements. -/
abbrev Spec := Fifo (List UInt8) mfpTxQueueMaxItems

/-- What a request asks for. -/
def work (r : MfpTxRequest) : List UInt8 × ℕ := (r.data, r.repeats.toNat)

theorem repeats_ne_zero {r : MfpTxRequest} {j : Job (List UInt8)}
    (h : r.repeats.toNat = j.left) : r.repeats ≠ 0 := by
  intro h0
  have hpos := j.left_pos
  rw [← h, h0] at hpos
  exact absurd hpos (by decide)

/-- The circular buffer holds the requests of the abstract queue, and the bus is released. -/
structure Represents (q : MfpQueue) (f : Spec) : Prop where
  jobs : q.items.map work = f.jobs.map fun j => (j.item, j.left)
  uartCtr : q.uartCtr = true

namespace Represents
variable {q : MfpQueue} {f : Spec} (h : q.Represents f)

include h

theorem length_eq : q.items.length = f.jobs.length := by
  simpa using congrArg List.length h.jobs

theorem items_eq_nil_iff : q.items = [] ↔ f.jobs = [] := by
  rw [← List.length_eq_zero_iff, h.length_eq, List.length_eq_zero_iff]

theorem isEmpty_iff : q.mfpTxQueueIsEmpty = true ↔ f.jobs = [] := by
  rw [q.isEmpty_iff, h.items_eq_nil_iff]

theorem accepts_iff {r : MfpTxRequest} {j : Job (List UInt8)} (hj : r.data = j.item) :
    q.Accepts r ↔ f.Accepts Fits j := by
  rw [Accepts, Fifo.Accepts, h.length_eq, hj, Fits]

theorem owed_eq : q.owed = f.owed := by
  have hq : q.owed = (q.items.map work).flatMap fun w => List.replicate w.2 w.1 := by
    rw [owed, List.flatMap_map]
    rfl
  rw [hq, h.jobs, List.flatMap_map]
  rfl

/-- The first request is the first job. -/
theorem cons {j : Job (List UInt8)} {js : List (Job (List UInt8))} (hj : f.jobs = j :: js) :
    ∃ r rs, q.items = r :: rs ∧ r.data = j.item ∧ r.repeats.toNat = j.left ∧
      rs.map work = js.map fun j => (j.item, j.left) := by
  have hjobs := h.jobs
  rw [hj] at hjobs
  cases hq : q.items with
  | nil =>
      rw [hq] at hjobs
      cases hjobs
  | cons r rs =>
      rw [hq, List.map_cons, List.map_cons] at hjobs
      obtain ⟨hr, hrs⟩ := List.cons.inj hjobs
      obtain ⟨hd, hl⟩ := Prod.mk.inj hr
      exact ⟨r, rs, rfl, hd, hl, hrs⟩

/-! ### The operations -/

theorem clear : q.mfpTxQueueClear.Represents (f.apply Fits .reset) := ⟨rfl, h.uartCtr⟩

theorem send {r : MfpTxRequest} {j : Job (List UInt8)} (hj : work r = (j.item, j.left)) :
    (q.mfpSendRequest r).2.Represents (f.apply Fits (.offer j)) := by
  have hacc := h.accepts_iff (r := r) (j := j) (Prod.mk.inj hj).1
  refine ⟨?_, (q.uartCtr_send r).trans h.uartCtr⟩
  rw [items_send, Fifo.jobs_offer]
  by_cases ha : q.Accepts r
  · rw [if_pos ha, if_pos (hacc.mp ha), List.map_append, h.jobs, List.map_append,
      List.map_singleton, List.map_singleton, hj]
  · rw [if_neg ha, if_neg (fun hf => ha (hacc.mpr hf)), h.jobs]

theorem txTask : q.mfpTxTask.Represents (f.apply Fits .serve) := by
  refine ⟨?_, q.uartCtr_txTask h.uartCtr⟩
  cases hj : f.jobs with
  | nil =>
      rw [txTask_of_empty (h.items_eq_nil_iff.mpr hj), f.serve_of_empty hj, h.jobs]
  | cons j js =>
      obtain ⟨r, rs, hq, hd, hl, hrs⟩ := h.cons hj
      have hr0 := repeats_ne_zero hl
      have hsub : (r.repeats - 1).toNat = j.left - 1 := by
        have hle : 1 ≤ r.repeats := by
          rw [UInt8.le_iff_toNat_le, hl]
          exact j.left_pos
        rw [UInt8.toNat_sub_of_le _ _ hle, hl]
        rfl
      have h1 : r.repeats - 1 = 0 ↔ ¬ 1 < j.left := by
        rw [← UInt8.toNat_inj, hsub]
        simp only [UInt8.toNat_zero]
        omega
      rw [items_txTask hq, if_neg hr0, f.jobs_serve hj, Job.rest]
      by_cases hlast : 1 < j.left
      · rw [if_neg (by rw [h1]; exact not_not.mpr hlast), dif_pos hlast]
        simp only [List.map_cons, List.map_append, hrs, work, hd, hsub, List.cons_append]
        rfl
      · rw [if_pos (h1.mpr hlast), dif_neg hlast, hrs]
        rfl

theorem served_eq : q.mfpTxTask.wire = q.wire ++ f.served .serve := by
  cases hj : f.jobs with
  | nil => simp [q.wire_txTask_of_empty (h.items_eq_nil_iff.mpr hj), Fifo.served, hj]
  | cons j js =>
      obtain ⟨r, rs, hq, hd, hl, -⟩ := h.cons hj
      have hr0 := repeats_ne_zero hl
      simp [q.wire_txTask hq hr0, Fifo.served, hj, hd]

end Represents
/-! ### What is owed -/

/-- The buffer holds some queue of the abstract kind: every pending request is still to be
transmitted. -/
def Represented (q : MfpQueue) : Prop := ∃ f : Spec, q.Represents f

section owed
variable {q : MfpQueue}

theorem represented_empty : Represented {} := ⟨Fifo.empty, rfl, rfl⟩

theorem Represented.clear (h : q.Represented) : q.mfpTxQueueClear.Represented :=
  h.elim fun f hf => ⟨f.apply Fits .reset, hf.clear⟩

theorem Represented.send (h : q.Represented) {r : MfpTxRequest} (hr : r.repeats ≠ 0) :
    (q.mfpSendRequest r).2.Represented := by
  obtain ⟨f, hf⟩ := h
  have hpos : 0 < r.repeats.toNat := UInt8.lt_iff_toNat_lt.mp (UInt8.pos_iff_ne_zero.mpr hr)
  exact ⟨_, hf.send (j := ⟨r.data, r.repeats.toNat, hpos⟩) rfl⟩

theorem Represented.txTask (h : q.Represented) : q.mfpTxTask.Represented :=
  h.elim fun f hf => ⟨f.apply Fits .serve, hf.txTask⟩

@[simp] theorem owed_clear : q.mfpTxQueueClear.owed = [] := rfl

theorem owed_send (r : MfpTxRequest) : (q.mfpSendRequest r).2.owed = q.owed ++ q.promised r := by
  rw [owed, items_send, promised]
  split
  · rw [List.flatMap_append, List.flatMap_singleton, owed]
  · rw [List.append_nil, owed]

/-- A transmission puts the next owed frame on the bus, if any. -/
theorem Represented.wire_txTask (h : q.Represented) :
    ∃ fs, q.mfpTxTask.wire = q.wire ++ fs ∧ q.owed = fs ++ q.mfpTxTask.owed ∧
      (q.owed ≠ [] → fs ≠ []) := by
  obtain ⟨f, hf⟩ := h
  have hbal : f.served .serve ++ (f.apply Fits .serve).owed = f.owed ++ f.granted Fits .serve :=
    f.served_append_owed .serve (by simp)
  rw [show f.granted Fits .serve = [] from rfl, List.append_nil] at hbal
  refine ⟨f.served .serve, hf.served_eq, by rw [hf.owed_eq, hf.txTask.owed_eq, hbal], ?_⟩
  intro hne hfs
  rw [hf.owed_eq] at hne
  have hjobs : f.jobs = [] := by
    cases hj : f.jobs with
    | nil => rfl
    | cons j js => simp [Fifo.served, hj] at hfs
  exact hne (f.owed_eq_nil_iff.mpr hjobs)

/-- What the bus has carried and will carry if nothing else happens. -/
def total (q : MfpQueue) : List (List UInt8) := q.wire ++ q.owed

theorem total_send (r : MfpTxRequest) :
    (q.mfpSendRequest r).2.total = q.total ++ q.promised r := by
  rw [total, wire_send, owed_send, total, List.append_assoc]

theorem total_clear : q.mfpTxQueueClear.total = q.wire := List.append_nil _

theorem Represented.total_txTask (h : q.Represented) : q.mfpTxTask.total = q.total := by
  obtain ⟨fs, hw, ho, -⟩ := h.wire_txTask
  rw [total, hw, total, ho, List.append_assoc]

end owed
end MfpQueue

/-! ### Calls -/

/-- The calls of the queue's interface, with any frame and at least one repetition, and the
frames UART1 receives. -/
inductive QueueCall where
  | init
  | clear
  | send (data : List UInt8) (repeats : UInt8) (origin : Origin) (h : 0 < repeats)
  | mfpFrame (raw : List UInt8)

namespace QueueCall

open MfpQueue

/-- The state after a call. -/
def run (d : Dock) : QueueCall → Dock
  | .init => { d with mfp := d.mfp.mfpTxQueueInit }
  | .clear => { d with mfp := d.mfp.mfpTxQueueClear }
  | .send data repeats origin _ =>
      { d with mfp := (d.mfp.mfpSendRequest ⟨data, repeats, origin⟩).2 }
  | .mfpFrame raw => d.xUart1DateReceiveHandle raw

/-- The frames a call puts on the bus. -/
def frames (d : Dock) (c : QueueCall) : List (List UInt8) :=
  (c.run d).mfp.wire.drop d.mfp.wire.length

/-- What a call answers: the result of `mfp_send_request`, or what goes out on the bus. -/
def answer (d : Dock) : QueueCall → List (Fifo.Answer (List UInt8))
  | .send data repeats origin _ =>
      [if (d.mfp.mfpSendRequest ⟨data, repeats, origin⟩).1 then .accepted else .refused]
  | c => (c.frames d).map .served

/-- The frames a call is promised. -/
def promised (d : Dock) : QueueCall → List (List UInt8)
  | .send data repeats origin _ => d.mfp.promised ⟨data, repeats, origin⟩
  | _ => []

/-- The operation of the abstract queue. -/
def toOp : QueueCall → Fifo.Op (List UInt8)
  | .init | .clear => .reset
  | .send data repeats _ h => .offer ⟨data, repeats.toNat, h⟩
  | .mfpFrame raw => if Dock.Uart1Valid raw then .serve else .idle

/-- The call empties the queue. -/
def Clears : QueueCall → Prop
  | .init | .clear => True
  | _ => False

theorem toOp_ne_reset {c : QueueCall} (h : ¬ c.Clears) : c.toOp ≠ .reset := by
  cases c with
  | init => exact absurd trivial h
  | clear => exact absurd trivial h
  | send data repeats origin hr => simp [toOp]
  | mfpFrame raw =>
      rw [toOp]
      split <;> simp

/-! ### One call -/

section call
variable {d : Dock} {f : Spec} (h : d.mfp.Represents f) (c : QueueCall)

theorem mfp_mfpFrame (d : Dock) (raw : List UInt8) :
    (d.xUart1DateReceiveHandle raw).mfp =
      if Dock.Uart1Valid raw then d.mfp.mfpTxTask else d.mfp := by
  simp only [Dock.xUart1DateReceiveHandle]
  split <;> rfl

include h

theorem represents_run : (c.run d).mfp.Represents (f.apply Fits c.toOp) := by
  cases c with
  | init => exact h.clear
  | clear => exact h.clear
  | send data repeats origin hr => exact h.send rfl
  | mfpFrame raw =>
      rw [run, mfp_mfpFrame, toOp]
      split
      · exact h.txTask
      · exact h

theorem wire_run : (c.run d).mfp.wire = d.mfp.wire ++ f.served c.toOp := by
  cases c with
  | init => exact (List.append_nil _).symm
  | clear => exact (List.append_nil _).symm
  | send data repeats origin hr =>
      rw [run, wire_send]
      exact (List.append_nil _).symm
  | mfpFrame raw =>
      rw [run, mfp_mfpFrame, toOp]
      split
      · exact h.served_eq
      · exact (List.append_nil _).symm

theorem frames_eq : c.frames d = f.served c.toOp := by
  rw [frames, wire_run h, List.drop_left]

theorem answer_eq : c.answer d = f.answer Fits c.toOp := by
  cases c with
  | init =>
      simp only [answer, frames_eq h]
      rfl
  | clear =>
      simp only [answer, frames_eq h]
      rfl
  | send data repeats origin hr =>
      have hacc := h.accepts_iff (r := ⟨data, repeats, origin⟩)
        (j := ⟨data, repeats.toNat, hr⟩) rfl
      simp only [answer, mfpSendRequest_fst, toOp, Fifo.answer, decide_eq_true_eq, hacc]
  | mfpFrame raw =>
      simp only [answer, frames_eq h, toOp]
      split
      · simp [Fifo.served, Fifo.answer]
      · rfl

theorem promised_eq : c.promised d = f.granted Fits c.toOp := by
  cases c with
  | init => rfl
  | clear => rfl
  | send data repeats origin hr =>
      have hacc := h.accepts_iff (r := ⟨data, repeats, origin⟩)
        (j := ⟨data, repeats.toNat, hr⟩) rfl
      simp only [promised, MfpQueue.promised, toOp, Fifo.granted, hacc]
      rfl
  | mfpFrame raw =>
      rw [toOp]
      split <;> rfl

end call

/-- What one call does, in any state of the queue. -/
structure Conforms (d : Dock) (c : QueueCall) : Prop where
  /-- A request is refused exactly when the queue is full or the frame too long. -/
  refuses : ∀ data repeats origin h, c = .send data repeats origin h →
    (.refused ∈ c.answer d ↔
      d.mfp.items.length = mfpTxQueueMaxItems ∨ mfpTxDataMaxLen < data.length)
  /-- A refused request changes nothing. -/
  unchanged : .refused ∈ c.answer d → (c.run d).mfp.txQueue = d.mfp.txQueue
  /-- At most one frame is transmitted, and only in a slot the main box opens. -/
  wire : (c.run d).mfp.wire = d.mfp.wire ++ c.frames d
  one : (c.frames d).length ≤ 1
  slot : c.frames d ≠ [] → ∃ raw, c = .mfpFrame raw ∧ Dock.Uart1Valid raw
  /-- The bus is released. -/
  released : (c.run d).mfp.uartCtr = true

theorem conforms {d : Dock} {f : Spec} (h : d.mfp.Represents f) (c : QueueCall) :
    c.Conforms d where
  refuses := by
    intro data repeats origin hr hc
    have hlen : d.mfp.items.length ≤ mfpTxQueueMaxItems := by
      rw [d.mfp.items_length]
      exact d.mfp.txQueue.count_le
    have hacc : ¬ d.mfp.Accepts ⟨data, repeats, origin⟩ ↔
        d.mfp.items.length = mfpTxQueueMaxItems ∨ mfpTxDataMaxLen < data.length := by
      simp only [Accepts]
      omega
    rw [hc, answer, mfpSendRequest_fst, ← hacc]
    simp
  unchanged := by
    cases c with
    | send data repeats origin hr =>
        intro ha
        rw [run, txQueue_refused]
        intro hacc
        rw [answer, mfpSendRequest_fst, decide_eq_true hacc] at ha
        simp at ha
    | init =>
        intro ha
        simp [answer] at ha
    | clear =>
        intro ha
        simp [answer] at ha
    | mfpFrame raw =>
        intro ha
        simp [answer] at ha
  wire := by rw [wire_run h, frames_eq h]
  one := by
    rw [frames_eq h]
    exact f.served_length _
  slot := by
    rw [frames_eq h]
    cases c with
    | mfpFrame raw =>
        intro hf
        refine ⟨raw, rfl, ?_⟩
        by_contra hv
        rw [toOp, if_neg hv] at hf
        exact hf rfl
    | _ => exact fun hf => absurd rfl hf
  released := (represents_run h c).uartCtr

end QueueCall

open QueueCall MfpQueue in
/-- The transmit queue refines the bounded queue: over any calls it holds the same requests and
answers the same; and between two clears the bus carries what was owed and then what was
accepted, in order, every frame as often as it was asked for. -/
theorem mfp_queue_refines_fifo (d : Dock) (calls : List QueueCall) :
    let d₀ := { d with mfp := {} }
    let d₁ := exec run d₀ calls
    let f := exec (Fifo.apply Fits) (Fifo.empty : Spec) (calls.map toOp)
    d₁.mfp.Represents f ∧
      outputs run (fun d c => c.answer d) d₀ calls =
        outputs (Fifo.apply Fits) (Fifo.answer Fits) (Fifo.empty : Spec) (calls.map toOp) ∧
      (d₁.mfp.mfpTxQueueIsEmpty = true ↔ f.jobs = []) ∧
      (∀ c : QueueCall, c.Conforms d₁) ∧
      ∀ more : List QueueCall, (∀ c ∈ more, ¬ c.Clears) →
        outputs run (fun d c => c.frames d) d₁ more ++ (exec run d₁ more).mfp.owed =
          d₁.mfp.owed ++ outputs run (fun d c => c.promised d) d₁ more := by
  intro d₀ d₁ f
  have hempty : d₀.mfp.Represents (Fifo.empty : Spec) := ⟨rfl, rfl⟩
  have hstep : ∀ (d : Dock) (f : Spec) (c : QueueCall), d.mfp.Represents f →
      (c.run d).mfp.Represents (f.apply Fits c.toOp) := fun _ _ c h => represents_run h c
  have hanswer : ∀ (d : Dock) (f : Spec) (c : QueueCall), d.mfp.Represents f →
      c.answer d = Fifo.answer Fits f c.toOp := fun _ _ c h => answer_eq h c
  have hserved : ∀ (d : Dock) (f : Spec) (c : QueueCall), d.mfp.Represents f →
      c.frames d = Fifo.served f c.toOp := fun _ _ c h => frames_eq h c
  have hgranted : ∀ (d : Dock) (f : Spec) (c : QueueCall), d.mfp.Represents f →
      c.promised d = Fifo.granted Fits f c.toOp := fun _ _ c h => promised_eq h c
  obtain ⟨hrep, hans⟩ := simulation hstep hanswer hempty calls
  refine ⟨hrep, hans, hrep.isEmpty_iff, fun c => conforms hrep c, ?_⟩
  intro more hmore
  obtain ⟨hrep', hframes⟩ := simulation hstep hserved hrep more
  obtain ⟨-, hpromised⟩ := simulation hstep hgranted hrep more
  have hops : ∀ op ∈ more.map toOp, op ≠ .reset := by
    intro op hop
    obtain ⟨c, hc, rfl⟩ := List.mem_map.mp hop
    exact toOp_ne_reset (hmore c hc)
  rw [hframes, hrep'.owed_eq, hrep.owed_eq, hpromised]
  exact f.served_balance hops

end ErgoDock
