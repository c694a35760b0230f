import ErgoDock.SysParam
import ErgoDock.Lib.Ring

/-! # The transmit queue of the main-box bus (`mfp_queue.c`)

The queue of key frames waiting for the half-duplex bus to the main box (MFP): a circular
buffer of eight requests, each a frame and a repeat count.  Requests come from the voice
commands, from the APP, and from the anti-snore lift; a frame leaves only in `mfpTxTask`,
which the UART1 receiver calls after a valid frame of the main box.

Two things are recorded that the code does not store, to state what it does: `origin` says
which function built a request (for a lift pulse, the tick and the segment end it was built
at), and `log` lists what happened to the queue, latest first.  Neither is ever read by the
functions. -/

namespace ErgoDock

/-! ### Frames -/

/-- The bytes of a 32-bit value, low byte first. -/
def le32 (x : UInt32) : List UInt8 :=
  [x.toUInt8, (x >>> 8).toUInt8, (x >>> 16).toUInt8, (x >>> 24).toUInt8]

/-- The 32-bit value of four bytes, low byte first. -/
def ofLe32 (b₀ b₁ b₂ b₃ : UInt8) : UInt32 :=
  b₀.toUInt32 ||| (b₁.toUInt32 <<< 8) ||| (b₂.toUInt32 <<< 16) ||| (b₃.toUInt32 <<< 24)

theorem or_shift {b k : ℕ} (a : ℕ) (h : b < 2 ^ k) : b ||| a * 2 ^ k = b + a * 2 ^ k := by
  rw [Nat.lor_comm, Nat.mul_comm, ← Nat.two_pow_add_eq_or_of_lt h, Nat.add_comm]

theorem toNat_ofLe32 (b₀ b₁ b₂ b₃ : UInt8) :
    (ofLe32 b₀ b₁ b₂ b₃).toNat =
      b₀.toNat + b₁.toNat * 2 ^ 8 + b₂.toNat * 2 ^ 16 + b₃.toNat * 2 ^ 24 := by
  have h₀ : b₀.toNat < 2 ^ 8 := b₀.toNat_lt
  have h₁ : b₀.toNat + b₁.toNat * 2 ^ 8 < 2 ^ 16 := by
    have := b₁.toNat_lt
    omega
  have h₂ : b₀.toNat + b₁.toNat * 2 ^ 8 + b₂.toNat * 2 ^ 16 < 2 ^ 24 := by
    have := b₂.toNat_lt
    omega
  have hshift : ∀ (b : UInt8) (k : UInt32), k.toNat ≤ 24 →
      (b.toUInt32 <<< k).toNat = b.toNat * 2 ^ k.toNat := by
    intro b k hk
    have hb := b.toNat_lt
    have hpow : (2 : ℕ) ^ k.toNat ≤ 2 ^ 24 := Nat.pow_le_pow_right (by decide) hk
    rw [UInt32.toNat_shiftLeft, UInt8.toNat_toUInt32, Nat.mod_eq_of_lt (by omega : k.toNat < 32),
      Nat.shiftLeft_eq, Nat.mod_eq_of_lt]
    nlinarith
  rw [ofLe32, UInt32.toNat_or, UInt32.toNat_or, UInt32.toNat_or, hshift _ 8 (by decide),
    hshift _ 16 (by decide), hshift _ 24 (by decide), UInt8.toNat_toUInt32]
  calc b₀.toNat ||| b₁.toNat * 2 ^ 8 ||| b₂.toNat * 2 ^ 16 ||| b₃.toNat * 2 ^ 24
      = b₀.toNat + b₁.toNat * 2 ^ 8 ||| b₂.toNat * 2 ^ 16 ||| b₃.toNat * 2 ^ 24 := by
        rw [or_shift _ h₀]
    _ = b₀.toNat + b₁.toNat * 2 ^ 8 + b₂.toNat * 2 ^ 16 ||| b₃.toNat * 2 ^ 24 := by
        rw [or_shift _ h₁]
    _ = _ := or_shift _ h₂

/-- The four bytes of a value give it back. -/
theorem ofLe32_le32 (x : UInt32) :
    ofLe32 x.toUInt8 (x >>> 8).toUInt8 (x >>> 16).toUInt8 (x >>> 24).toUInt8 = x := by
  have hx := x.toNat_lt
  have hshift : ∀ k : UInt32, k.toNat < 32 → (x >>> k).toNat = x.toNat / 2 ^ k.toNat :=
    fun k hk => by
      rw [UInt32.toNat_shiftRight, Nat.mod_eq_of_lt hk, Nat.shiftRight_eq_div_pow]
  rw [← UInt32.toNat_inj, toNat_ofLe32]
  simp only [UInt32.toNat_toUInt8, hshift 8 (by decide), hshift 16 (by decide),
    hshift 24 (by decide)]
  simp only [UInt32.reduceToNat]
  omega

/-- `syncCalcCheckSum`: start at `0xFF` and subtract every byte. -/
def syncCalcCheckSum (data : List UInt8) : UInt8 := data.foldl (fun sum b => sum - b) 0xFF

/-- The frame `prepare_mfp_NORMAL_KET` builds. -/
def normalKetFrame (keys : UInt32) : List UInt8 :=
  let body := 0x05 :: 0x01 :: (le32 keys ++ [0x00])
  body ++ [syncCalcCheckSum body]

/-- The frame `prepare_mfp_SOFT_START` builds. -/
def softStartFrame (keys : UInt32) (pwm tmr : UInt8) : List UInt8 :=
  let body := 0x07 :: 0x01 :: (le32 keys ++ [0x00, pwm, tmr])
  body ++ [syncCalcCheckSum body]

/-- The key of a key frame (offset 2, as in `PlugInPacket` and `btPacket`). -/
def frameKey (data : List UInt8) : UInt32 :=
  ofLe32 (data.getD 2 0) (data.getD 3 0) (data.getD 4 0) (data.getD 5 0)

/-- The key of the frame has a motor bit. -/
def isMotorFrame (data : List UInt8) : Bool := (frameKey data &&& motorMask) != 0

/-! ### Requests -/

def mfpTxQueueMaxItems : ℕ := 8

theorem mfpTxQueueMaxItems_pos : 0 < mfpTxQueueMaxItems := by decide

def mfpTxDataMaxLen : ℕ := 32

/-- The function a request comes from. -/
inductive Origin where
  /-- `snore_lift_enqueue_pulse`, at tick `now` of a segment ending at `segEnd`. -/
  | lift (now segEnd : UInt32)
  /-- `snore_lift_stop_and_release`. -/
  | release
  /-- `offline_voice_dataHandle`. -/
  | voice
  /-- `ble_app_key_dispatch`. -/
  | app
deriving DecidableEq, Repr

/-- The request is a lift pulse. -/
def Origin.isLift : Origin → Bool
  | .lift .. => true
  | _ => false

/-- `mfp_tx_request_t`; `data` holds the first `len` bytes of the source's array. -/
structure MfpTxRequest where
  data : List UInt8
  repeats : UInt8
  origin : Origin
deriving DecidableEq, Repr

/-- What happens to the queue. -/
inductive MfpAct where
  | accepted (r : MfpTxRequest)
  | refused (r : MfpTxRequest)
  | cleared
  | sent (r : MfpTxRequest)
deriving DecidableEq, Repr

namespace MfpAct

/-- A call of `snore_lift_enqueue_pulse`, whether the request was accepted or not. -/
def isPulse : MfpAct → Bool
  | .accepted r | .refused r => r.origin.isLift
  | _ => false

/-- A frame with a motor bit is put into the queue or on the bus. -/
def isMotor : MfpAct → Bool
  | .accepted r | .sent r => isMotorFrame r.data
  | _ => false

/-- The frame put on the bus. -/
def frame? : MfpAct → Option (List UInt8)
  | .sent r => some r.data
  | _ => none

end MfpAct

/-- The file statics of `mfp_queue.c`, the direction pin of the bus, and the log. -/
structure MfpQueue where
  txQueue : RingBuffer MfpTxRequest mfpTxQueueMaxItems :=
    .empty ⟨[], 0, .app⟩ mfpTxQueueMaxItems_pos
  uartCtr : Bool := true
  log : List MfpAct := []

namespace MfpQueue

/-- The pending requests, oldest first. -/
def items (q : MfpQueue) : List MfpTxRequest := q.txQueue.toList

/-- The calls of `snore_lift_enqueue_pulse` so far. -/
def liftPulses (q : MfpQueue) : List MfpAct := q.log.filter MfpAct.isPulse

/-- What motor frames went into the queue or on the bus so far. -/
def motorActs (q : MfpQueue) : List MfpAct := q.log.filter MfpAct.isMotor

/-- The frames transmitted so far, the first one first. -/
def wire (q : MfpQueue) : List (List UInt8) := (q.log.filterMap MfpAct.frame?).reverse

def record (q : MfpQueue) (a : MfpAct) : MfpQueue := { q with log := a :: q.log }

/-! ### Operations -/

/-- `mfp_send_request`; the result says whether the request was accepted. -/
def mfpSendRequest (q : MfpQueue) (r : MfpTxRequest) : Bool × MfpQueue :=
  if h : mfpTxQueueMaxItems ≤ q.txQueue.count ∨ mfpTxDataMaxLen < r.data.length then
    (false, q.record (.refused r))
  else
    (true, { q with txQueue := q.txQueue.push r (by omega) }.record (.accepted r))

/-- `mfp_tx_queue_init`. -/
def mfpTxQueueInit (q : MfpQueue) : MfpQueue :=
  { q with txQueue := q.txQueue.clear }.record .cleared

/-- `mfp_tx_queue_clear`. -/
def mfpTxQueueClear (q : MfpQueue) : MfpQueue :=
  { q with txQueue := q.txQueue.clear }.record .cleared

/-- `mfp_tx_queue_is_empty`. -/
def mfpTxQueueIsEmpty (q : MfpQueue) : Bool := q.txQueue.count == 0

/-- `mfp_tx_task`: transmit the head request once; remove it after its last repetition. -/
def mfpTxTask (q : MfpQueue) : MfpQueue :=
  if h : q.txQueue.count = 0 then q
  else
    let req := q.txQueue.front
    if req.repeats > 0 then
      let q₁ := { q with uartCtr := false }
      let q₂ := q₁.record (.sent req)
      let q₃ := { q₂ with uartCtr := true }
      let req' := { req with repeats := req.repeats - 1 }
      let ring := q.txQueue.setHead req'
      if req'.repeats = 0 then { q₃ with txQueue := ring.pop (Nat.pos_of_ne_zero h) }
      else { q₃ with txQueue := ring }
    else q

/-- `prepare_mfp_NORMAL_KET`. -/
def prepareMfpNormalKet (q : MfpQueue) (o : Origin) (keys : UInt32) (repeats : UInt8) :
    MfpQueue := (q.mfpSendRequest ⟨normalKetFrame keys, repeats, o⟩).2

/-- `prepare_mfp_SOFT_START`. -/
def prepareMfpSoftStart (q : MfpQueue) (o : Origin) (keys : UInt32) (pwm tmr repeats : UInt8) :
    MfpQueue := (q.mfpSendRequest ⟨softStartFrame keys pwm tmr, repeats, o⟩).2

/-! ### The operations on the pending requests -/

theorem items_length (q : MfpQueue) : q.items.length = q.txQueue.count :=
  q.txQueue.length_toList

theorem isEmpty_iff (q : MfpQueue) : q.mfpTxQueueIsEmpty = true ↔ q.items = [] := by
  simp [mfpTxQueueIsEmpty, items, RingBuffer.toList_eq_nil_iff]

@[simp] theorem items_clear (q : MfpQueue) : q.mfpTxQueueClear.items = [] := rfl

@[simp] theorem log_clear (q : MfpQueue) : q.mfpTxQueueClear.log = .cleared :: q.log := rfl

/-- A request is accepted exactly when there is room and it fits. -/
def Accepts (q : MfpQueue) (r : MfpTxRequest) : Prop :=
  q.items.length < mfpTxQueueMaxItems ∧ r.data.length ≤ mfpTxDataMaxLen

instance (q : MfpQueue) (r : MfpTxRequest) : Decidable (q.Accepts r) := by
  unfold Accepts; infer_instance

theorem accepts_iff (q : MfpQueue) (r : MfpTxRequest) :
    ¬ (mfpTxQueueMaxItems ≤ q.txQueue.count ∨ mfpTxDataMaxLen < r.data.length) ↔
      q.Accepts r := by
  rw [Accepts, items_length]; omega

theorem items_send (q : MfpQueue) (r : MfpTxRequest) :
    (q.mfpSendRequest r).2.items = if q.Accepts r then q.items ++ [r] else q.items := by
  unfold mfpSendRequest
  split
  · next h => rw [if_neg (fun ha => (q.accepts_iff r).mpr ha h)]; rfl
  · next h => rw [if_pos ((q.accepts_iff r).mp h)]; exact q.txQueue.toList_push r _

theorem log_send (q : MfpQueue) (r : MfpTxRequest) :
    (q.mfpSendRequest r).2.log =
      (if q.Accepts r then .accepted r else .refused r) :: q.log := by
  unfold mfpSendRequest
  split
  · next h => rw [if_neg (fun ha => (q.accepts_iff r).mpr ha h)]; rfl
  · next h => rw [if_pos ((q.accepts_iff r).mp h)]; rfl

theorem mfpSendRequest_fst (q : MfpQueue) (r : MfpTxRequest) :
    (q.mfpSendRequest r).1 = decide (q.Accepts r) := by
  unfold mfpSendRequest
  split
  · next h => exact (decide_eq_false fun ha => (q.accepts_iff r).mpr ha h).symm
  · next h => exact (decide_eq_true ((q.accepts_iff r).mp h)).symm

/-- A refused request leaves the buffer as it is, slots included. -/
theorem txQueue_refused {q : MfpQueue} {r : MfpTxRequest} (h : ¬ q.Accepts r) :
    (q.mfpSendRequest r).2.txQueue = q.txQueue := by
  unfold mfpSendRequest
  split
  · rfl
  · next hr => exact absurd ((q.accepts_iff r).mp hr) h

theorem txTask_of_empty {q : MfpQueue} (h : q.items = []) : q.mfpTxTask = q := by
  unfold mfpTxTask
  rw [dif_pos ((RingBuffer.toList_eq_nil_iff _).mp h)]

/-- What transmitting does to a non-empty queue. -/
theorem items_txTask {q : MfpQueue} {r : MfpTxRequest} {rs : List MfpTxRequest}
    (h : q.items = r :: rs) :
    q.mfpTxTask.items =
      if r.repeats = 0 then r :: rs
      else if r.repeats - 1 = 0 then rs else { r with repeats := r.repeats - 1 } :: rs := by
  have hc : q.txQueue.count ≠ 0 := by
    rw [← q.items_length, h]; simp
  have hpop := q.txQueue.toList_pop (Nat.pos_of_ne_zero hc)
  rw [show q.txQueue.toList = r :: rs from h] at hpop
  obtain ⟨hr, hrs⟩ := List.cons.inj hpop
  unfold mfpTxTask
  rw [dif_neg hc]
  simp only [gt_iff_lt, ← hr, UInt8.pos_iff_ne_zero, ite_not]
  split
  · exact h
  · split
    · exact (q.txQueue.toList_pop_setHead _ (Nat.pos_of_ne_zero hc)).trans hrs.symm
    · simp only [items]
      rw [RingBuffer.toList_setHead _ _ (Nat.pos_of_ne_zero hc), ← hrs]

theorem log_txTask {q : MfpQueue} {r : MfpTxRequest} {rs : List MfpTxRequest}
    (h : q.items = r :: rs) :
    q.mfpTxTask.log = if r.repeats = 0 then q.log else .sent r :: q.log := by
  have hc : q.txQueue.count ≠ 0 := by
    rw [← q.items_length, h]; simp
  have hpop := q.txQueue.toList_pop (Nat.pos_of_ne_zero hc)
  rw [show q.txQueue.toList = r :: rs from h] at hpop
  have hr := (List.cons.inj hpop).1
  unfold mfpTxTask
  rw [dif_neg hc]
  simp only [gt_iff_lt, ← hr, UInt8.pos_iff_ne_zero, ite_not]
  split
  · rfl
  · split <;> rfl

/-! ### What is pending

A property of the frame and the origin of a request is kept by transmitting, which only counts
the repetitions down. -/

section pending
variable {P : List UInt8 → Origin → Prop} {q : MfpQueue} {r : MfpTxRequest}

/-- All pending requests have the property. -/
def Pending (P : List UInt8 → Origin → Prop) (q : MfpQueue) : Prop :=
  ∀ r ∈ q.items, P r.data r.origin

theorem pending_clear : Pending P q.mfpTxQueueClear := by
  intro r hr
  rw [items_clear] at hr
  cases hr

theorem pending_send (h : Pending P q) (hr : P r.data r.origin) :
    Pending P (q.mfpSendRequest r).2 := by
  intro r' hr'
  rw [items_send] at hr'
  split at hr'
  · rcases List.mem_append.mp hr' with hr' | hr'
    · exact h r' hr'
    · rw [List.mem_singleton.mp hr']
      exact hr
  · exact h r' hr'

theorem pending_txTask (h : Pending P q) : Pending P q.mfpTxTask := by
  cases hq : q.items with
  | nil =>
      rw [txTask_of_empty hq]
      exact h
  | cons r rs =>
      have hr : P r.data r.origin := h r (by simp [hq])
      have hrs : ∀ r' ∈ rs, P r'.data r'.origin := fun r' hr' => h r' (by simp [hq, hr'])
      intro r' hr'
      rw [items_txTask hq] at hr'
      split at hr'
      · exact h r' (hq ▸ hr')
      · split at hr'
        · exact hrs r' hr'
        · rcases List.mem_cons.mp hr' with rfl | hr'
          · exact hr
          · exact hrs r' hr'

/-- Transmitting logs nothing, or one pending request. -/
theorem log_txTask_cases (q : MfpQueue) :
    q.mfpTxTask.log = q.log ∨ ∃ r ∈ q.items, q.mfpTxTask.log = .sent r :: q.log := by
  cases hq : q.items with
  | nil => exact .inl (by rw [txTask_of_empty hq])
  | cons r rs =>
      rw [log_txTask hq]
      split
      · exact .inl rfl
      · exact .inr ⟨r, List.mem_cons_self .., rfl⟩

end pending

end MfpQueue
end ErgoDock
