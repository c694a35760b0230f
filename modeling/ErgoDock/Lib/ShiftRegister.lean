import Mathlib

/-! # Checksums from a linear shift register

A register of `w` bits is shifted right; when a one falls out, the polynomial `P` is added.  A
message is fed bit by bit into the lowest place (`feed`); the checksums called CRC are registers
after such a message.

The shift is additive, and injective when the highest bit of `P` is one.  From the first follows
what table-driven code rests on: `n` shifts move the high bits down and add a word that depends on
the low `n` bits alone (`iterate_shift_eq`).  From both follows what a CRC detects: two messages
whose difference lies within `w` consecutive bits leave different registers (`feed_ne_of_burst`). -/

namespace ShiftRegister

variable {w : ℕ} (P : BitVec w)

/-- One shift without input. -/
def shift (c : BitVec w) : BitVec w := (c >>> 1) ^^^ (if c.getLsbD 0 then P else 0#w)

/-- The word with this bit in the lowest place. -/
def bitWord (b : Bool) : BitVec w := (BitVec.ofBool b).setWidth w

/-- The register after the message, from the register `c`. -/
def feed (c : BitVec w) (bs : List Bool) : BitVec w :=
  bs.foldl (fun c b => shift P (c ^^^ bitWord b)) c

/-- The word of the bits, the first one in the lowest place. -/
def word : List Bool → BitVec w
  | [] => 0#w
  | b :: bs => bitWord b ^^^ (word bs <<< 1)

/-! ### The shift -/

theorem getLsbD_shift (c : BitVec w) (i : ℕ) :
    (shift P c).getLsbD i = (c.getLsbD (i + 1) ^^ (c.getLsbD 0 && P.getLsbD i)) := by
  rw [shift, BitVec.getLsbD_xor, BitVec.getLsbD_ushiftRight, Nat.add_comm]
  cases c.getLsbD 0 <;> simp

/-- The shift is additive. -/
theorem shift_xor (c c' : BitVec w) : shift P (c ^^^ c') = shift P c ^^^ shift P c' := by
  refine BitVec.eq_of_getLsbD_eq fun i _ => ?_
  simp only [BitVec.getLsbD_xor, getLsbD_shift]
  cases c.getLsbD 0 <;> cases c'.getLsbD 0 <;> cases P.getLsbD i <;> simp [Bool.xor_comm]

@[simp] theorem shift_zero : shift P 0#w = 0#w := by
  simp [shift]

theorem iterate_shift_xor (n : ℕ) (c c' : BitVec w) :
    (shift P)^[n] (c ^^^ c') = (shift P)^[n] c ^^^ (shift P)^[n] c' := by
  induction n generalizing c c' with
  | zero => rfl
  | succ n ih =>
      rw [Function.iterate_succ_apply, shift_xor, ih]
      rfl

theorem iterate_shift_zero (n : ℕ) : (shift P)^[n] 0#w = 0#w :=
  Function.iterate_fixed (shift_zero P) n

theorem width_pos {P : BitVec w} (hP : P.msb = true) : 0 < w := by
  rcases Nat.eq_zero_or_pos w with rfl | h
  · rw [BitVec.eq_nil P] at hP
    exact absurd hP (by decide)
  · exact h

/-- A bit that falls out shows in the highest place. -/
theorem shift_injective {P : BitVec w} (hP : P.msb = true) : Function.Injective (shift P) := by
  intro c c' h
  have hbit : ∀ i, (c.getLsbD (i + 1) ^^ (c.getLsbD 0 && P.getLsbD i)) =
      (c'.getLsbD (i + 1) ^^ (c'.getLsbD 0 && P.getLsbD i)) := fun i => by
    rw [← getLsbD_shift, ← getLsbD_shift, h]
  have hlow : c.getLsbD 0 = c'.getLsbD 0 := by
    have htop := hbit (w - 1)
    have hw := width_pos hP
    rw [BitVec.msb_eq_getLsbD_last] at hP
    rw [hP, BitVec.getLsbD_of_ge c _ (by omega), BitVec.getLsbD_of_ge c' _ (by omega)] at htop
    simpa using htop
  refine BitVec.eq_of_getLsbD_eq fun i _ => ?_
  cases i with
  | zero => exact hlow
  | succ i =>
      have hi := hbit i
      rw [hlow] at hi
      simpa using hi

/-- Shifting to the left is undone as long as nothing is lost. -/
theorem shift_shiftLeft {x : BitVec w} (hx : x.msb = false) : shift P (x <<< 1) = x := by
  rw [BitVec.msb_eq_getLsbD_last] at hx
  refine BitVec.eq_of_getLsbD_eq fun i hi => ?_
  have hlow : (x <<< 1).getLsbD 0 = false := by simp
  rw [getLsbD_shift, hlow, BitVec.getLsbD_shiftLeft]
  rcases Nat.lt_or_ge (i + 1) w with hlt | hge
  · simp [hlt]
  · have hlast : i = w - 1 := by omega
    simp [hlast, hx]

/-! ### Tables -/

theorem iterate_shift_shiftLeft (n : ℕ) {x : BitVec w} (hx : ∀ i, w ≤ i + n → x.getLsbD i = false) :
    (shift P)^[n] (x <<< n) = x := by
  induction n with
  | zero => simp
  | succ n ih =>
      have hlast : (x <<< n).msb = false := by
        rw [BitVec.msb_eq_getLsbD_last, BitVec.getLsbD_shiftLeft]
        rcases Nat.lt_or_ge (w - 1) n with hlt | hge
        · simp [hlt]
        · rw [hx (w - 1 - n) (by omega), Bool.and_false]
      rw [Function.iterate_succ_apply, BitVec.shiftLeft_add, shift_shiftLeft P hlast]
      exact ih fun i hi => hx i (by omega)

/-- The principle of a table: `n` shifts move the high bits down, and what they add depends on the
low `n` bits alone. -/
theorem iterate_shift_eq (n : ℕ) (c : BitVec w) :
    (shift P)^[n] c = (c >>> n) ^^^ (shift P)^[n] (c ^^^ (c >>> n) <<< n) := by
  have hhigh : (shift P)^[n] ((c >>> n) <<< n) = c >>> n := by
    refine iterate_shift_shiftLeft P n fun i hi => ?_
    rw [BitVec.getLsbD_ushiftRight, BitVec.getLsbD_of_ge c _ (by omega)]
  calc (shift P)^[n] c
      = (shift P)^[n] (((c >>> n) <<< n) ^^^ (c ^^^ (c >>> n) <<< n)) := by
        rw [BitVec.xor_comm c, ← BitVec.xor_assoc, BitVec.xor_self, BitVec.zero_xor]
    _ = (c >>> n) ^^^ (shift P)^[n] (c ^^^ (c >>> n) <<< n) := by
        rw [iterate_shift_xor, hhigh]

/-! ### Messages -/

@[simp] theorem feed_nil (c : BitVec w) : feed P c [] = c := rfl

@[simp] theorem feed_cons (c : BitVec w) (b : Bool) (bs : List Bool) :
    feed P c (b :: bs) = feed P (shift P (c ^^^ bitWord b)) bs := rfl

theorem feed_append (c : BitVec w) (bs bs' : List Bool) :
    feed P c (bs ++ bs') = feed P (feed P c bs) bs' := List.foldl_append

@[simp] theorem bitWord_false : bitWord false = 0#w := by simp [bitWord]

theorem bitWord_xor (b b' : Bool) : (bitWord (b ^^ b') : BitVec w) = bitWord b ^^^ bitWord b' := by
  cases b <;> cases b' <;> simp [bitWord]

/-- The register is additive in the message and in where it starts. -/
theorem feed_xor (c c' : BitVec w) {bs bs' : List Bool} (h : bs.length = bs'.length) :
    feed P (c ^^^ c') (List.zipWith xor bs bs') = feed P c bs ^^^ feed P c' bs' := by
  induction bs generalizing c c' bs' with
  | nil =>
      rw [List.length_eq_zero_iff.mp h.symm]
      rfl
  | cons b bs ih =>
      cases bs' with
      | nil => exact absurd h (by simp)
      | cons b' bs' =>
          have hfirst : c ^^^ c' ^^^ bitWord (b ^^ b') =
              (c ^^^ bitWord b) ^^^ (c' ^^^ bitWord b') := by
            rw [bitWord_xor]
            ac_rfl
          rw [List.zipWith_cons_cons, feed_cons, hfirst, shift_xor, ih _ _ (Nat.succ.inj h)]
          rfl

theorem feed_replicate_false (c : BitVec w) (n : ℕ) :
    feed P c (List.replicate n false) = (shift P)^[n] c := by
  induction n generalizing c with
  | zero => rfl
  | succ n ih =>
      rw [List.replicate_succ, feed_cons, ih, bitWord_false, BitVec.xor_zero]
      rfl

theorem getLsbD_word (bs : List Bool) (i : ℕ) :
    (word bs : BitVec w).getLsbD i = (decide (i < w) && bs.getD i false) := by
  induction bs generalizing i with
  | nil => simp [word]
  | cons b bs ih =>
      rw [word, BitVec.getLsbD_xor, BitVec.getLsbD_shiftLeft, ih]
      cases i with
      | zero => simp [bitWord]
      | succ i =>
          rcases Nat.lt_or_ge (i + 1) w with hlt | hge
          · simp [bitWord, hlt, Nat.lt_of_succ_lt hlt]
          · simp [bitWord, Nat.not_lt_of_le hge]

/-- As many bits as the register has places may be added before the shifts. -/
theorem feed_eq_iterate (c : BitVec w) {bs : List Bool} (h : bs.length ≤ w) :
    feed P c bs = (shift P)^[bs.length] (c ^^^ word bs) := by
  induction bs generalizing c with
  | nil => simp [word]
  | cons b bs ih =>
      have hlen : bs.length ≤ w - 1 := Nat.le_pred_of_lt h
      have hlast : (word bs : BitVec w).msb = false := by
        rw [BitVec.msb_eq_getLsbD_last, getLsbD_word, List.getD_eq_default _ _ hlen,
          Bool.and_false]
      rw [feed_cons, ih _ (Nat.le_of_succ_le h), word, List.length_cons,
        Function.iterate_succ_apply, ← BitVec.xor_assoc, shift_xor P (c ^^^ bitWord b),
        shift_shiftLeft P hlast]

/-! ### Bursts -/

theorem word_ne_zero {bs : List Bool} (h : bs.length ≤ w) (hne : true ∈ bs) :
    (word bs : BitVec w) ≠ 0#w := by
  obtain ⟨i, hi, hbit⟩ := List.getElem_of_mem hne
  intro h0
  have hz := getLsbD_word (w := w) bs i
  rw [h0, List.getD_eq_getElem _ _ hi, hbit, BitVec.getLsbD_zero] at hz
  simp at hz
  omega

theorem eq_replicate_false {bs : List Bool} (h : true ∉ bs) :
    bs = List.replicate bs.length false := by
  refine List.eq_replicate_of_mem fun b hb => ?_
  cases b with
  | true => exact absurd hb h
  | false => rfl

/-- A difference within `w` consecutive bits does not vanish. -/
theorem feed_zero_ne_zero {P : BitVec w} (hP : P.msb = true) {ds : List Bool} (k : ℕ)
    (hburst : ∀ i, ds.getD i false = true → k ≤ i ∧ i < k + w) (hne : true ∈ ds) :
    feed P 0#w ds ≠ 0#w := by
  have hinj : ∀ (n : ℕ) (c : BitVec w), (shift P)^[n] c = 0#w → c = 0#w := fun n c h =>
    (shift_injective hP).iterate n (h.trans (iterate_shift_zero P n).symm)
  -- the zeros before the burst, the burst, and the zeros behind it
  have hds : ds = ds.take k ++ ((ds.drop k).take w ++ (ds.drop k).drop w) := by
    rw [List.take_append_drop, List.take_append_drop]
  have hbefore : true ∉ ds.take k := fun hmem => by
    obtain ⟨i, hi, hbit⟩ := List.getElem_of_mem hmem
    rw [List.length_take] at hi
    rw [List.getElem_take] at hbit
    have := hburst i (by rw [List.getD_eq_getElem _ _ (by omega), hbit])
    omega
  have hbehind : true ∉ (ds.drop k).drop w := fun hmem => by
    obtain ⟨i, hi, hbit⟩ := List.getElem_of_mem hmem
    rw [List.length_drop, List.length_drop] at hi
    rw [List.getElem_drop, List.getElem_drop] at hbit
    have := hburst (k + (w + i)) (by rw [List.getD_eq_getElem _ _ (by omega), hbit])
    omega
  have hburst' : true ∈ (ds.drop k).take w := by
    rw [hds, List.mem_append, List.mem_append] at hne
    exact (hne.resolve_left hbefore).resolve_right hbehind
  have hle : ((ds.drop k).take w).length ≤ w := List.length_take_le ..
  rw [hds, feed_append, feed_append, eq_replicate_false hbefore, eq_replicate_false hbehind,
    feed_replicate_false, feed_replicate_false, iterate_shift_zero, feed_eq_iterate P _ hle,
    BitVec.zero_xor]
  intro h0
  exact word_ne_zero hle hburst' (hinj _ _ (hinj _ _ h0))

/-- Two messages whose difference lies within `w` consecutive bits leave different registers. -/
theorem feed_ne_of_burst {P : BitVec w} (hP : P.msb = true) (c : BitVec w) {bs bs' : List Bool}
    (hlen : bs.length = bs'.length) (hne : bs ≠ bs') (k : ℕ)
    (hburst : ∀ i, bs.getD i false ≠ bs'.getD i false → k ≤ i ∧ i < k + w) :
    feed P c bs ≠ feed P c bs' := by
  have hget : ∀ i, (List.zipWith xor bs bs').getD i false =
      (bs.getD i false ^^ bs'.getD i false) := fun i => by
    rcases Nat.lt_or_ge i bs.length with hi | hi
    · rw [List.getD_eq_getElem _ _ (by rw [List.length_zipWith]; omega), List.getElem_zipWith,
        List.getD_eq_getElem _ _ hi, List.getD_eq_getElem _ _ (hlen ▸ hi)]
    · rw [List.getD_eq_default _ _ (by rw [List.length_zipWith]; omega),
        List.getD_eq_default _ _ hi, List.getD_eq_default _ _ (hlen ▸ hi)]
      rfl
  have hdiff : true ∈ List.zipWith xor bs bs' := by
    by_contra hno
    refine hne (List.ext_getElem hlen fun i hi hi' => ?_)
    by_contra hbit
    refine hno (List.mem_iff_getElem.mpr ⟨i, by rw [List.length_zipWith]; omega, ?_⟩)
    rw [List.getElem_zipWith]
    exact bne_iff_ne.mpr hbit
  intro heq
  refine feed_zero_ne_zero hP k (fun i hi => hburst i ?_) hdiff ?_
  · rw [hget] at hi
    intro h
    rw [h, Bool.xor_self] at hi
    exact absurd hi (by decide)
  · have hsum := feed_xor P c c hlen
    rwa [heq, BitVec.xor_self, BitVec.xor_self] at hsum

end ShiftRegister
