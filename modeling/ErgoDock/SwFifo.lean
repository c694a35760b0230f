import ErgoDock.Lib.Ring
import ErgoDock.Lib.Run

/-! # The index queue and the deferred calls (`fifo.c`, `async_call.c`)

A queue of `length` slots whose two indices run twice around it, so that a full queue and an
empty one differ: it is full when the indices are `length` apart.  `Holds` says which circular
buffer it stands for; the functions are its `push` and `pop`.  From there a run of calls behaves
as a bounded queue (`fifo_refines_queue`), for every length up to 32768, where the indices use
all of their 16 bits.

`async_call` queues a function with its parameter, `async_process` runs the oldest.  A function
that runs may queue others.  Each runs once and in the order of the calls, and the assertion of
`async_call` fails exactly when `length` of them are waiting (`async_calls_in_order`). -/

namespace ErgoDock

variable {α σ : Type} {cap : ℕ}

/-- `struct fifo_env`; a slot is the `item_size` bytes the code copies at once. -/
structure FifoEnv (α : Type) where
  buf : ℕ → α
  rdIdx : UInt16
  wrIdx : UInt16
  length : UInt16

/-- `sw_fifo_init`. -/
def swFifoInit (buf : ℕ → α) (length : UInt16) : FifoEnv α := ⟨buf, 0, 0, length⟩

namespace FifoEnv

/-- `GET_WR_IDX`. -/
def getWrIdx (ptr : FifoEnv α) : ℕ :=
  if ptr.wrIdx ≥ ptr.length then ptr.wrIdx.toNat - ptr.length.toNat else ptr.wrIdx.toNat

/-- `GET_RD_IDX`. -/
def getRdIdx (ptr : FifoEnv α) : ℕ :=
  if ptr.rdIdx ≥ ptr.length then ptr.rdIdx.toNat - ptr.length.toNat else ptr.rdIdx.toNat

/-- The next value of an index. -/
def succIdx (ptr : FifoEnv α) (idx : UInt16) : UInt16 :=
  if idx.toNat + 1 = 2 * ptr.length.toNat then 0 else idx + 1

end FifoEnv

/-- `sw_fifo_full`. -/
def swFifoFull (ptr : FifoEnv α) : Bool :=
  ((ptr.wrIdx.toNat : ℤ) - ptr.rdIdx.toNat).natAbs == ptr.length.toNat

/-- `sw_fifo_empty`. -/
def swFifoEmpty (ptr : FifoEnv α) : Bool := ptr.wrIdx == ptr.rdIdx

/-- `sw_fifo_flush`. -/
def swFifoFlush (ptr : FifoEnv α) : FifoEnv α := { ptr with wrIdx := ptr.rdIdx }

/-- `sw_fifo_element_amount`. -/
def swFifoElementAmount (ptr : FifoEnv α) : UInt16 := ptr.wrIdx - ptr.rdIdx

/-- `general_fifo_put`, and `dword_fifo_put` on slots of eight bytes. -/
def generalFifoPut (ptr : FifoEnv α) (data : α) : Bool × FifoEnv α :=
  if swFifoFull ptr then
    (false, ptr)
  else
    (true, { ptr with
      buf := Function.update ptr.buf ptr.getWrIdx data
      wrIdx := ptr.succIdx ptr.wrIdx })

/-- `general_fifo_get`, and `dword_fifo_get` on slots of eight bytes: what it copies out. -/
def generalFifoGet (ptr : FifoEnv α) : Option α × FifoEnv α :=
  if swFifoEmpty ptr then
    (none, ptr)
  else
    (some (ptr.buf ptr.getRdIdx), { ptr with rdIdx := ptr.succIdx ptr.rdIdx })

/-! ### The circular buffer -/

/-- The queue stands for the circular buffer `r`. -/
structure FifoEnv.Holds (ptr : FifoEnv α) (r : RingBuffer α cap) : Prop where
  length : ptr.length.toNat = cap
  cap_le : cap ≤ 2 ^ 15
  rd_lt : ptr.rdIdx.toNat < 2 * cap
  wr : ptr.wrIdx.toNat = (ptr.rdIdx.toNat + r.count) % (2 * cap)
  head : r.head = ptr.rdIdx.toNat % cap
  slot : ∀ i : Fin cap, r.slot i = ptr.buf i

section Ring

variable {ptr : FifoEnv α} {r : RingBuffer α cap}

theorem FifoEnv.Holds.rdIdx (h : ptr.Holds r) : ptr.getRdIdx = r.head := by
  rw [h.head]
  simp only [FifoEnv.getRdIdx, ge_iff_le, UInt16.le_iff_toNat_le, h.length]
  have hlt := h.rd_lt
  rcases RingBuffer.mod_cases _ cap hlt with ⟨h1, h2⟩ | ⟨h1, h2⟩
  · rw [if_neg (by omega), h2]
  · rw [if_pos h1, h2]

theorem FifoEnv.Holds.wrIdx (h : ptr.Holds r) : ptr.getWrIdx = r.tail := by
  have hcap := h.head ▸ r.head_lt
  have hwr : ptr.wrIdx.toNat < 2 * cap := h.wr ▸ Nat.mod_lt _ (by omega)
  rw [r.tail_eq, h.head, Nat.mod_add_mod]
  simp only [FifoEnv.getWrIdx, ge_iff_le, UInt16.le_iff_toNat_le, h.length]
  have hmod : (ptr.rdIdx.toNat + r.count) % cap = ptr.wrIdx.toNat % cap := by
    rw [h.wr, Nat.mod_mod_of_dvd _ ⟨2, Nat.mul_comm 2 cap⟩]
  rw [hmod]
  rcases RingBuffer.mod_cases _ cap hwr with ⟨h1, h2⟩ | ⟨h1, h2⟩
  · rw [if_neg (by omega), h2]
  · rw [if_pos h1, h2]

theorem FifoEnv.Holds.wr_cases (h : ptr.Holds r) :
    ptr.wrIdx.toNat = ptr.rdIdx.toNat + r.count ∨
      ptr.wrIdx.toNat + 2 * cap = ptr.rdIdx.toNat + r.count := by
  have hlt := h.rd_lt
  have hle := r.count_le
  have hwr := h.wr
  rcases RingBuffer.mod_cases (ptr.rdIdx.toNat + r.count) (2 * cap) (by omega) with
    ⟨-, h2⟩ | ⟨h1, h2⟩
  · exact Or.inl (hwr.trans h2)
  · rw [h2] at hwr
    exact Or.inr (by omega)

theorem FifoEnv.Holds.full_iff (h : ptr.Holds r) : swFifoFull ptr = true ↔ r.count = cap := by
  have hlt := h.rd_lt
  have hle := r.count_le
  have hwr : ptr.wrIdx.toNat < 2 * cap := h.wr ▸ Nat.mod_lt _ (by omega)
  rw [swFifoFull, beq_iff_eq, h.length]
  rcases h.wr_cases with hw | hw <;> omega

theorem FifoEnv.Holds.empty_iff (h : ptr.Holds r) : swFifoEmpty ptr = true ↔ r.count = 0 := by
  have hlt := h.rd_lt
  have hle := r.count_le
  rw [swFifoEmpty, beq_iff_eq, ← UInt16.toNat_inj]
  rcases h.wr_cases with hw | hw <;> omega

theorem FifoEnv.Holds.toNat_succIdx (h : ptr.Holds r) {idx : UInt16} (hi : idx.toNat < 2 * cap) :
    (ptr.succIdx idx).toNat = (idx.toNat + 1) % (2 * cap) := by
  have hcap := h.cap_le
  rw [FifoEnv.succIdx, h.length]
  split
  · next he => rw [he, Nat.mod_self]; rfl
  · next he =>
    rw [UInt16.toNat_add, UInt16.toNat_one, Nat.mod_eq_of_lt (by omega),
      Nat.mod_eq_of_lt (by omega)]

/-- A put into a queue with room is a push. -/
theorem FifoEnv.Holds.put (h : ptr.Holds r) (a : α) (hroom : r.count < cap) :
    (generalFifoPut ptr a).1 = true ∧ (generalFifoPut ptr a).2.Holds (r.push a hroom) := by
  have hfull : ¬ swFifoFull ptr = true := fun hf => absurd (h.full_iff.mp hf) (by omega)
  rw [generalFifoPut, if_neg hfull]
  have hwr : ptr.wrIdx.toNat < 2 * cap := h.wr ▸ Nat.mod_lt _ (by omega)
  refine ⟨rfl, h.length, h.cap_le, h.rd_lt, ?_, h.head, fun i => ?_⟩
  · rw [h.toNat_succIdx hwr, h.wr, Nat.mod_add_mod]
    rfl
  · simp only [RingBuffer.push, h.wrIdx]
    by_cases hi : i = ⟨r.tail, r.tail_lt⟩
    · subst hi
      rw [Function.update_self, Function.update_self]
    · have hne : (i : ℕ) ≠ r.tail := fun e => hi (Fin.ext e)
      rw [Function.update_of_ne hi, Function.update_of_ne hne, h.slot]

theorem FifoEnv.Holds.put_full (h : ptr.Holds r) (a : α) (hfull : r.count = cap) :
    generalFifoPut ptr a = (false, ptr) := by
  rw [generalFifoPut, if_pos (h.full_iff.mpr hfull)]

/-- A get from a queue that is not empty is a pop. -/
theorem FifoEnv.Holds.get (h : ptr.Holds r) (hpos : 0 < r.count) :
    (generalFifoGet ptr).1 = some r.front ∧ (generalFifoGet ptr).2.Holds (r.pop hpos) := by
  have hempty : ¬ swFifoEmpty ptr = true := fun he => absurd (h.empty_iff.mp he) (by omega)
  rw [generalFifoGet, if_neg hempty]
  refine ⟨?_, h.length, h.cap_le, ?_, ?_, ?_, h.slot⟩
  · rw [RingBuffer.front, h.slot, h.rdIdx]
  · rw [h.toNat_succIdx h.rd_lt]
    exact Nat.mod_lt _ (by have := h.rd_lt; omega)
  · rw [h.toNat_succIdx h.rd_lt, Nat.mod_add_mod, h.wr]
    congr 1
    simp only [RingBuffer.pop]
    omega
  · rw [h.toNat_succIdx h.rd_lt, Nat.mod_mod_of_dvd _ ⟨2, Nat.mul_comm 2 cap⟩]
    simp only [RingBuffer.pop, h.head, Nat.mod_add_mod]

theorem FifoEnv.Holds.get_empty (h : ptr.Holds r) (hzero : r.count = 0) :
    generalFifoGet ptr = (none, ptr) := by
  rw [generalFifoGet, if_pos (h.empty_iff.mpr hzero)]

theorem FifoEnv.Holds.flush (h : ptr.Holds r) :
    ∃ r' : RingBuffer α cap, (swFifoFlush ptr).Holds r' ∧ r'.toList = [] := by
  refine ⟨⟨r.slot, r.head, r.head, 0, r.head_lt, Nat.zero_le _, ?_⟩,
    ⟨h.length, h.cap_le, h.rd_lt, ?_, h.head, h.slot⟩, rfl⟩
  · rw [Nat.add_zero, Nat.mod_eq_of_lt r.head_lt]
  · exact (Nat.mod_eq_of_lt h.rd_lt).symm

/-- The 16-bit difference of the indices is the number of elements only while the write index
has not gone round ahead of the read index, or where going round is the overflow of 16 bits. -/
theorem FifoEnv.Holds.elementAmount_iff (h : ptr.Holds r) :
    (swFifoElementAmount ptr).toNat = r.count ↔ ptr.rdIdx ≤ ptr.wrIdx ∨ cap = 2 ^ 15 := by
  have hlt := h.rd_lt
  have hle := r.count_le
  have hcap := h.cap_le
  have hpos : 0 < cap := Nat.zero_lt_of_lt r.head_lt
  rw [swFifoElementAmount, UInt16.toNat_sub, UInt16.le_iff_toNat_le]
  rcases h.wr_cases with hw | hw <;> omega

end Ring

/-! ### The bounded queue -/

/-- A call of the interface. -/
inductive FifoOp (α : Type) where
  | put (data : α)
  | get
  | flush

/-- What a call returns. -/
inductive FifoAnswer (α : Type) where
  | stored (ok : Bool)
  | got (data : Option α)

namespace FifoOp

/-- The queue after a call. -/
def onFifo (ptr : FifoEnv α) : FifoOp α → FifoEnv α
  | .put data => (generalFifoPut ptr data).2
  | .get => (generalFifoGet ptr).2
  | .flush => swFifoFlush ptr

/-- What the call returns. -/
def fromFifo (ptr : FifoEnv α) : FifoOp α → List (FifoAnswer α)
  | .put data => [.stored (generalFifoPut ptr data).1]
  | .get => [.got (generalFifoGet ptr).1]
  | .flush => []

/-- A list of at most `cap` elements after the call. -/
def onList (cap : ℕ) (xs : List α) : FifoOp α → List α
  | .put data => if xs.length < cap then xs ++ [data] else xs
  | .get => xs.tail
  | .flush => []

/-- What the call returns of the list. -/
def fromList (cap : ℕ) (xs : List α) : FifoOp α → List (FifoAnswer α)
  | .put _ => [.stored (decide (xs.length < cap))]
  | .get => [.got xs.head?]
  | .flush => []

end FifoOp

/-- The queue holds the elements `xs`. -/
def FifoEnv.Content (cap : ℕ) (ptr : FifoEnv α) (xs : List α) : Prop :=
  ∃ r : RingBuffer α cap, ptr.Holds r ∧ r.toList = xs

section Content

variable {ptr : FifoEnv α} {xs : List α}

theorem content_init (buf : ℕ → α) {length : UInt16} (hpos : 0 < length.toNat)
    (hle : length.toNat ≤ 2 ^ 15) : (swFifoInit buf length).Content length.toNat [] := by
  refine ⟨⟨fun i => buf i, 0, 0, 0, hpos, Nat.zero_le _, ?_⟩, ⟨rfl, hle, ?_, ?_, ?_, fun _ => rfl⟩,
    rfl⟩
  · rw [Nat.zero_add, Nat.zero_mod]
  · change 0 < 2 * length.toNat
    omega
  · change 0 = 0 % (2 * length.toNat)
    rw [Nat.zero_mod]
  · change 0 = 0 % length.toNat
    rw [Nat.zero_mod]

theorem content_step (h : ptr.Content cap xs) (op : FifoOp α) :
    (op.onFifo ptr).Content cap (op.onList cap xs) ∧
      op.fromFifo ptr = op.fromList cap xs := by
  obtain ⟨r, hr, rfl⟩ := h
  have hle := r.count_le
  cases op with
  | put data =>
    by_cases hroom : r.count < cap
    · obtain ⟨hok, hput⟩ := hr.put data hroom
      refine ⟨⟨r.push data hroom, hput, ?_⟩, ?_⟩
      · simp [FifoOp.onList, hroom]
      · simp [FifoOp.fromFifo, FifoOp.fromList, hok, hroom]
    · have hput := hr.put_full data (by omega)
      refine ⟨⟨r, ?_, ?_⟩, ?_⟩
      · rw [FifoOp.onFifo, hput]
        exact hr
      · simp [FifoOp.onList, hroom]
      · simp [FifoOp.fromFifo, FifoOp.fromList, hput, hroom]
  | get =>
    by_cases hpos : 0 < r.count
    · obtain ⟨hfront, hget⟩ := hr.get hpos
      refine ⟨⟨r.pop hpos, hget, ?_⟩, ?_⟩
      · rw [FifoOp.onList, r.toList_pop hpos, List.tail_cons]
      · rw [FifoOp.fromFifo, FifoOp.fromList, hfront, r.toList_pop hpos, List.head?_cons]
    · have hget := hr.get_empty (by omega)
      have hnil : r.toList = [] := r.toList_eq_nil_iff.mpr (by omega)
      refine ⟨⟨r, ?_, ?_⟩, ?_⟩
      · rw [FifoOp.onFifo, hget]
        exact hr
      · rw [FifoOp.onList, hnil]
        rfl
      · rw [FifoOp.fromFifo, FifoOp.fromList, hget, hnil]
        rfl
  | flush =>
    obtain ⟨r', hr', hnil⟩ := hr.flush
    exact ⟨⟨r', hr', hnil⟩, rfl⟩

/-- Over any calls the queue returns what a list of at most `length` elements returns, it knows
when it is empty and when it is full, and its element count is right exactly where the indices
are in order, or `length` is 32768. -/
theorem fifo_refines_queue (buf : ℕ → α) {length : UInt16} (hpos : 0 < length.toNat)
    (hle : length.toNat ≤ 2 ^ 15) (ops : List (FifoOp α)) :
    let ptr := Machine.exec FifoOp.onFifo (swFifoInit buf length) ops
    let xs := Machine.exec (FifoOp.onList length.toNat) [] ops
    Machine.outputs FifoOp.onFifo FifoOp.fromFifo (swFifoInit buf length) ops =
        Machine.outputs (FifoOp.onList length.toNat) (FifoOp.fromList length.toNat) [] ops ∧
      (swFifoEmpty ptr = true ↔ xs = []) ∧ (swFifoFull ptr = true ↔ xs.length = length.toNat) ∧
      ((swFifoElementAmount ptr).toNat = xs.length ↔
        ptr.rdIdx ≤ ptr.wrIdx ∨ length.toNat = 2 ^ 15) := by
  intro ptr xs
  have hsim := Machine.simulation (f := id) (R := FifoEnv.Content length.toNat)
    (fun ptr xs op h => (content_step h op).1) (fun ptr xs op h => (content_step h op).2)
    (content_init buf hpos hle) ops
  rw [List.map_id] at hsim
  refine ⟨hsim.2, ?_⟩
  obtain ⟨r, hr, hxs⟩ : ptr.Content length.toNat xs := hsim.1
  rw [← hxs, RingBuffer.length_toList, r.toList_eq_nil_iff]
  exact ⟨hr.empty_iff, hr.full_iff, hr.elementAmount_iff⟩

/-- A queue of two slots, filled, overfilled, and used past the end of its array. -/
theorem fifo_of_two :
    Machine.outputs FifoOp.onFifo FifoOp.fromFifo (swFifoInit (fun _ => 0) 2)
        [.put 1, .put 2, .put 3, .get, .put 4, .get, .get, .get] =
      [.stored true, .stored true, .stored false, .got (some 1), .stored true, .got (some 2),
        .got (some 4), .got none] :=
  (fifo_refines_queue (fun _ => 0) (by decide) (by decide)
    [.put 1, .put 2, .put 3, .get, .put 4, .get, .get, .get]).1

end Content

/-! ### Deferred calls -/

/-- The device: the queue of calls, the application, and for the record what ran and what was
queued, oldest first. -/
structure AsyncState (α σ : Type) where
  fifo : FifoEnv α
  app : σ
  ran : List α
  queued : List α

/-- `async_call`; the assertion fails if the queue is full. -/
def asyncCall (s : AsyncState α σ) (func : α) : Option (AsyncState α σ) :=
  let r := generalFifoPut s.fifo func
  if r.1 then some { s with fifo := r.2, queued := s.queued ++ [func] } else none

/-- `async_process`: the function it takes out changes the application and queues others. -/
def asyncProcess (run : α → σ → σ × List α) (s : AsyncState α σ) : Option (AsyncState α σ) :=
  match generalFifoGet s.fifo with
  | (none, fifo) => some { s with fifo := fifo }
  | (some func, fifo) =>
    (run func s.app).2.foldlM asyncCall
      { s with fifo := fifo, app := (run func s.app).1, ran := s.ran ++ [func] }

/-- What happens on the device. -/
inductive AsyncEvent (α : Type) where
  | call (func : α)
  | process

def AsyncState.step (run : α → σ → σ × List α) (s : AsyncState α σ) :
    AsyncEvent α → Option (AsyncState α σ)
  | .call func => asyncCall s func
  | .process => asyncProcess run s

/-- The queue holds what was queued and did not run. -/
def AsyncState.Accounted (cap : ℕ) (s : AsyncState α σ) : Prop :=
  ∃ waiting, s.fifo.Content cap waiting ∧ s.queued = s.ran ++ waiting

section Async

variable {s s' : AsyncState α σ} {run : α → σ → σ × List α}

theorem length_content {ptr : FifoEnv α} {xs : List α} (h : ptr.Content cap xs) :
    xs.length ≤ cap := by
  obtain ⟨r, -, rfl⟩ := h
  rw [r.length_toList]
  exact r.count_le

/-- A call is queued, or it is the one too many. -/
theorem asyncCall_cases (h : s.Accounted cap) (func : α) :
    (∃ s', asyncCall s func = some s' ∧ s'.Accounted cap ∧ s'.ran = s.ran ∧
      s'.queued = s.queued ++ [func] ∧ s.queued.length < s.ran.length + cap) ∨
    (asyncCall s func = none ∧ s.queued.length = s.ran.length + cap) := by
  obtain ⟨waiting, hc, hq⟩ := h
  have hlen := length_content hc
  obtain ⟨hstep, hans⟩ := content_step hc (.put func)
  simp only [FifoOp.fromFifo, FifoOp.fromList, List.cons.injEq, FifoAnswer.stored.injEq,
    and_true] at hans
  rw [FifoOp.onFifo, FifoOp.onList] at hstep
  have hcount : s.queued.length = s.ran.length + waiting.length := by
    rw [hq, List.length_append]
  by_cases hroom : waiting.length < cap
  · left
    rw [if_pos hroom] at hstep
    refine ⟨{ s with fifo := (generalFifoPut s.fifo func).2, queued := s.queued ++ [func] },
      by simp [asyncCall, hans, hroom], ⟨waiting ++ [func], hstep, ?_⟩, rfl, rfl, by omega⟩
    change s.queued ++ [func] = s.ran ++ (waiting ++ [func])
    rw [hq, List.append_assoc]
  · right
    exact ⟨by simp [asyncCall, hans, hroom], by omega⟩

theorem accounted_calls (funcs : List α) (h : s.Accounted cap)
    (hcalls : funcs.foldlM asyncCall s = some s') :
    s'.Accounted cap ∧ s'.ran = s.ran ∧ s'.queued = s.queued ++ funcs := by
  induction funcs generalizing s with
  | nil =>
    obtain rfl : s = s' := by simpa using hcalls
    exact ⟨h, rfl, by simp⟩
  | cons func funcs ih =>
    rw [List.foldlM_cons] at hcalls
    rcases asyncCall_cases h func with ⟨s₁, h₁, hacc, hran, hqueued, -⟩ | ⟨h₁, -⟩
    · rw [h₁, Option.bind_eq_bind, Option.bind_some] at hcalls
      obtain ⟨h2, h3, h4⟩ := ih hacc hcalls
      exact ⟨h2, h3.trans hran, by rw [h4, hqueued, List.append_assoc]; rfl⟩
    · rw [h₁] at hcalls
      simp at hcalls

/-- The oldest function waiting runs, if there is one. -/
theorem accounted_process (h : s.Accounted cap) (hproc : asyncProcess run s = some s') :
    s'.Accounted cap ∧ s'.ran = s.ran ++ (s.queued.drop s.ran.length).take 1 := by
  obtain ⟨waiting, hc, hq⟩ := h
  obtain ⟨hstep, hans⟩ := content_step hc .get
  simp only [FifoOp.fromFifo, FifoOp.fromList, List.cons.injEq, FifoAnswer.got.injEq,
    and_true] at hans
  rw [FifoOp.onFifo, FifoOp.onList] at hstep
  rw [hq, List.drop_left]
  rcases hget : generalFifoGet s.fifo with ⟨got, fifo⟩
  rw [hget] at hans hstep
  cases waiting with
  | nil =>
    obtain rfl : got = none := hans
    rw [asyncProcess, hget] at hproc
    obtain rfl := Option.some.inj hproc
    exact ⟨⟨[], hstep, hq⟩, by simp⟩
  | cons func waiting =>
    obtain rfl : got = some func := hans
    rw [asyncProcess, hget] at hproc
    have hacc : AsyncState.Accounted cap { s with
        fifo := fifo, app := (run func s.app).1, ran := s.ran ++ [func] } := by
      refine ⟨waiting, hstep, ?_⟩
      change s.queued = s.ran ++ [func] ++ waiting
      rw [hq, List.append_assoc]
      rfl
    obtain ⟨h1, h2, -⟩ := accounted_calls _ hacc hproc
    exact ⟨h1, by rw [h2]; rfl⟩

theorem accounted_step (h : s.Accounted cap) (e : AsyncEvent α)
    (hstep : s.step run e = some s') : s'.Accounted cap := by
  cases e with
  | call func =>
    rcases asyncCall_cases h func with ⟨s₁, h₁, hacc, -⟩ | ⟨h₁, -⟩
    · obtain rfl : s₁ = s' := Option.some.inj (h₁.symm.trans hstep)
      exact hacc
    · exact absurd (h₁.symm.trans hstep) (by simp)
  | process => exact (accounted_process h hstep).1

/-- Over any run in which no assertion fails: what has run is what was queued first, in the
order of the calls and each once; the queue is empty exactly when everything has run; the next
call fails exactly when `length` are waiting; and the next function to run is the one that has
waited longest. -/
theorem async_calls_in_order (run : α → σ → σ × List α) (buf : ℕ → α) {length : UInt16}
    (hpos : 0 < length.toNat) (hle : length.toNat ≤ 2 ^ 15) (app : σ)
    (events : List (AsyncEvent α))
    (h : events.foldlM (AsyncState.step run) ⟨swFifoInit buf length, app, [], []⟩ = some s) :
    s.ran <+: s.queued ∧ (swFifoEmpty s.fifo = true ↔ s.ran = s.queued) ∧
      (∀ func, s.step run (.call func) = none ↔
        s.queued.length = s.ran.length + length.toNat) ∧
      ∀ s', s.step run .process = some s' →
        s'.ran = s.ran ++ (s.queued.drop s.ran.length).take 1 := by
  have hacc : s.Accounted length.toNat :=
    Machine.foldlM_invariant (fun s e s' hs hstep => accounted_step hs e hstep)
      ⟨[], content_init buf hpos hle, rfl⟩ events h
  obtain ⟨waiting, ⟨r, hr, hw⟩, hq⟩ := id hacc
  refine ⟨⟨waiting, hq.symm⟩, ?_, fun func => ?_, fun s' hs' => (accounted_process hacc hs').2⟩
  · rw [hr.empty_iff, ← r.toList_eq_nil_iff, hw, hq]
    simp
  · rcases asyncCall_cases hacc func with ⟨s', h', -, -, -, hlt⟩ | ⟨h', hfull⟩
    · refine iff_of_false (fun hn => ?_) (by omega)
      exact absurd (h'.symm.trans hn) (by simp)
    · exact iff_of_true h' hfull

/-- The function 1 calls 2 and 3: they wait behind 5, which was called before 1 ran. -/
theorem async_calls_of_one :
    ∃ s, [AsyncEvent.call 1, .call 5, .process, .process, .process].foldlM
        (AsyncState.step fun func n => (n + func, if func = 1 then [2, 3] else []))
        ⟨swFifoInit (fun _ => 0) 4, 0, [], []⟩ = some s ∧
      s.ran = [1, 5, 2] ∧ s.queued = [1, 5, 2, 3] ∧ s.ran <+: s.queued :=
  ⟨_, rfl, rfl, rfl, (async_calls_in_order
    (fun func n => (n + func, if func = 1 then [2, 3] else [])) (fun _ => 0)
    (by decide : 0 < (4 : UInt16).toNat) (by decide) 0
    [.call 1, .call 5, .process, .process, .process] rfl).1⟩

end Async

end ErgoDock
