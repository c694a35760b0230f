import ErgoDock.Coherence
import ErgoDock.Lib.ShiftRegister

/-! # The CRC is a shift register

`Modbus_Crc_Compute` reads one table word for each byte.  It computes the register of the bit loop
with the reflected polynomial `0xA001` (`modbus_crc_is_crc16`), so it detects every burst of at
most 16 bits, and `flash_load` takes over no record with such an error (`crc_detects_bursts`). -/

namespace ErgoDock

open ShiftRegister

/-! ### The bit loop -/

/-- One round of the bit loop. -/
def crc16Bit (c : UInt16) : UInt16 := if c &&& 1 = 1 then (c >>> 1) ^^^ 0xA001 else c >>> 1

/-- The CRC-16 with reflected polynomial `0xA001` and initial value `0xFFFF`, bit by bit. -/
def crc16Bitwise (buf : List UInt8) : UInt16 :=
  buf.foldl (fun c b => crc16Bit^[8] (c ^^^ b.toUInt16)) 0xFFFF

/-- `0xA001`, as the polynomial of a register. -/
def crcPoly : BitVec 16 := 0xA001#16

theorem msb_crcPoly : crcPoly.msb = true := by decide

theorem toBitVec_crc16Bit (c : UInt16) : (crc16Bit c).toBitVec = shift crcPoly c.toBitVec := by
  have hlow : c &&& 1 = 1 ↔ c.toBitVec.getLsbD 0 = true := by
    have hand : (c &&& 1).toBitVec = (BitVec.ofBool (c.toBitVec.getLsbD 0)).setWidth 16 :=
      BitVec.and_one_eq_setWidth_ofBool_getLsbD
    rw [← UInt16.toBitVec_inj, hand]
    cases c.toBitVec.getLsbD 0 <;> decide
  rw [crc16Bit, shift]
  by_cases h : c &&& 1 = 1
  · rw [if_pos h, if_pos (hlow.mp h)]
    rfl
  · rw [if_neg h, if_neg (mt hlow.mpr h), BitVec.xor_zero]
    rfl

theorem toBitVec_iterate_crc16Bit (n : ℕ) (c : UInt16) :
    (crc16Bit^[n] c).toBitVec = (shift crcPoly)^[n] c.toBitVec := by
  induction n generalizing c with
  | zero => rfl
  | succ n ih =>
      rw [Function.iterate_succ_apply, ih, toBitVec_crc16Bit, Function.iterate_succ_apply]

/-! ### The table -/

/-- A table word is what eight rounds make of its index. -/
theorem crcTb_eq (x : UInt8) : crcTb.getD x.toNat 0 = crc16Bit^[8] x.toUInt16 := by
  have htable : ∀ n < 256, crcTb.getD n 0 = crc16Bit^[8] (UInt16.ofNat n) := by
    decide +kernel
  have hx : UInt16.ofNat x.toNat = x.toUInt16 := by
    rw [← UInt16.toNat_inj, UInt16.toNat_ofNat', UInt8.toNat_toUInt16]
    exact Nat.mod_eq_of_lt (Nat.lt_trans x.toNat_lt (by decide))
  rw [htable x.toNat x.toNat_lt, hx]

/-- The byte step of the code is eight rounds of the bit loop. -/
theorem modbusCrcByte_eq (c : UInt16) (b : UInt8) :
    modbusCrcByte c b = crc16Bit^[8] (c ^^^ b.toUInt16) := by
  refine UInt16.toBitVec_inj.mp ?_
  have hhigh : (c ^^^ b.toUInt16).toBitVec >>> 8 = (c >>> 8).toBitVec := by
    refine BitVec.eq_of_getLsbD_eq fun i hi => ?_
    simp
  have hlow : (c ^^^ b.toUInt16).toBitVec ^^^ ((c ^^^ b.toUInt16).toBitVec >>> 8) <<< 8 =
      (c.toUInt8 ^^^ b).toUInt16.toBitVec := by
    change (c.toBitVec ^^^ b.toBitVec.setWidth 16) ^^^
        ((c.toBitVec ^^^ b.toBitVec.setWidth 16) >>> 8) <<< 8 =
      (c.toBitVec.setWidth 8 ^^^ b.toBitVec).setWidth 16
    refine BitVec.eq_of_getLsbD_eq fun i hi => ?_
    simp only [BitVec.getLsbD_xor, BitVec.getLsbD_setWidth, BitVec.getLsbD_shiftLeft,
      BitVec.getLsbD_ushiftRight, hi, decide_true, Bool.true_and]
    rcases Nat.lt_or_ge i 8 with h8 | h8
    · simp [h8]
    · have hi8 : 8 + (i - 8) = i := by omega
      simp [Nat.not_lt_of_le h8, hi8, BitVec.getLsbD_of_ge b.toBitVec i h8]
  rw [toBitVec_iterate_crc16Bit, iterate_shift_eq, hlow, hhigh, ← toBitVec_iterate_crc16Bit,
    ← crcTb_eq]
  rfl

/-- A byte equal to the low byte of the register moves the high byte down. -/
theorem modbusCrcByte_low (c : UInt16) : modbusCrcByte c c.toUInt8 = c >>> 8 := by
  rw [modbusCrcByte, UInt8.xor_self]
  exact UInt16.xor_zero

theorem shiftRight_eight_eight (c : UInt16) : (c >>> 8) >>> 8 = 0 := by
  have hc := c.toNat_lt
  rw [← UInt16.toNat_inj, UInt16.toNat_shiftRight, UInt16.toNat_shiftRight,
    Nat.shiftRight_eq_div_pow, Nat.shiftRight_eq_div_pow]
  change c.toNat / 2 ^ 8 / 2 ^ 8 = 0
  omega

/-- For every list of bytes: the table-driven CRC is the one of the bit loop, and with the CRC
behind them, low byte first, the bytes have the CRC 0. -/
theorem modbus_crc_is_crc16 (buf : List UInt8) :
    modbusCrcCompute buf = crc16Bitwise buf ∧
      modbusCrcCompute (buf ++ [(modbusCrcCompute buf).toUInt8,
        (modbusCrcCompute buf >>> 8).toUInt8]) = 0 := by
  constructor
  · have hstep : modbusCrcByte = fun c b => crc16Bit^[8] (c ^^^ b.toUInt16) :=
      funext fun c => funext fun b => modbusCrcByte_eq c b
    rw [modbusCrcCompute, hstep, crc16Bitwise]
  · rw [modbusCrcCompute, List.foldl_append, ← modbusCrcCompute]
    generalize modbusCrcCompute buf = c
    rw [List.foldl_cons, List.foldl_cons, modbusCrcByte_low, modbusCrcByte_low,
      shiftRight_eight_eight]
    rfl

/-! ### Bits of a message -/

/-- The bits of a byte, the lowest first. -/
def byteBits (b : UInt8) : List Bool := (List.range 8).map b.toBitVec.getLsbD

def messageBits (s : List UInt8) : List Bool := s.flatMap byteBits

/-- Bit `i` of the bytes, the lowest bit of each byte first. -/
def bitAt (s : List UInt8) (i : ℕ) : Bool := (s.getD (i / 8) 0).toBitVec.getLsbD (i % 8)

theorem length_byteBits (b : UInt8) : (byteBits b).length = 8 := rfl

theorem getD_byteBits (b : UInt8) {i : ℕ} (hi : i < 8) :
    (byteBits b).getD i false = b.toBitVec.getLsbD i := by
  rw [byteBits, List.getD_eq_getElem?_getD, List.getElem?_map, List.getElem?_range hi]
  rfl

theorem messageBits_cons (b : UInt8) (s : List UInt8) :
    messageBits (b :: s) = byteBits b ++ messageBits s := List.flatMap_cons

theorem length_messageBits (s : List UInt8) : (messageBits s).length = 8 * s.length := by
  induction s with
  | nil => rfl
  | cons b s ih =>
      rw [messageBits_cons, List.length_append, length_byteBits, ih, List.length_cons]
      omega

theorem getD_messageBits (s : List UInt8) (i : ℕ) : (messageBits s).getD i false = bitAt s i := by
  induction s generalizing i with
  | nil => simp [messageBits, bitAt]
  | cons b s ih =>
      rw [messageBits_cons, List.getD_eq_getElem?_getD]
      rcases Nat.lt_or_ge i 8 with hi | hi
      · rw [List.getElem?_append_left (by rw [length_byteBits]; exact hi),
          ← List.getD_eq_getElem?_getD, getD_byteBits b hi, bitAt, Nat.div_eq_of_lt hi,
          Nat.mod_eq_of_lt hi]
        rfl
      · obtain ⟨j, rfl⟩ : ∃ j, i = j + 8 := ⟨i - 8, by omega⟩
        rw [List.getElem?_append_right (by rw [length_byteBits]; omega), length_byteBits,
          Nat.add_sub_cancel, ← List.getD_eq_getElem?_getD, ih, bitAt, bitAt,
          Nat.add_mod_right, Nat.add_div_right _ (by decide), List.getD_cons_succ]

theorem bitAt_of_ge {s : List UInt8} {i : ℕ} (h : 8 * s.length ≤ i) : bitAt s i = false := by
  rw [← getD_messageBits, List.getD_eq_default _ _ (by rw [length_messageBits]; exact h)]

/-- The bits tell the bytes apart. -/
theorem messageBits_ne {s s' : List UInt8} (hlen : s.length = s'.length) (hne : s ≠ s') :
    messageBits s ≠ messageBits s' := by
  intro h
  refine hne (List.ext_getElem hlen fun k hk hk' => UInt8.toBitVec_inj.mp ?_)
  refine BitVec.eq_of_getLsbD_eq fun i hi => ?_
  have hbit : bitAt s (8 * k + i) = bitAt s' (8 * k + i) := by
    rw [← getD_messageBits, ← getD_messageBits, h]
  have hdiv : (8 * k + i) / 8 = k := by omega
  have hmod : (8 * k + i) % 8 = i := by omega
  rwa [bitAt, bitAt, hdiv, hmod, List.getD_eq_getElem _ _ hk, List.getD_eq_getElem _ _ hk'] at hbit

theorem word_byteBits (b : UInt8) : (word (byteBits b) : BitVec 16) = b.toBitVec.setWidth 16 := by
  refine BitVec.eq_of_getLsbD_eq fun i hi => ?_
  rw [getLsbD_word, BitVec.getLsbD_setWidth]
  rcases Nat.lt_or_ge i 8 with h8 | h8
  · rw [getD_byteBits b h8]
  · rw [List.getD_eq_default _ _ (by rw [length_byteBits]; exact h8), BitVec.getLsbD_of_ge _ _ h8]

/-- The code's register is the one fed with the bits of the bytes. -/
theorem toBitVec_modbusCrcByte (c : UInt16) (b : UInt8) :
    (modbusCrcByte c b).toBitVec = feed crcPoly c.toBitVec (byteBits b) := by
  have hle : (byteBits b).length ≤ 16 := by
    rw [length_byteBits]
    decide
  rw [modbusCrcByte_eq, toBitVec_iterate_crc16Bit, feed_eq_iterate _ _ hle, word_byteBits,
    length_byteBits]
  rfl

theorem toBitVec_foldl (c : UInt16) (s : List UInt8) :
    (s.foldl modbusCrcByte c).toBitVec = feed crcPoly c.toBitVec (messageBits s) := by
  induction s generalizing c with
  | nil => rfl
  | cons b s ih =>
      rw [List.foldl_cons, ih, toBitVec_modbusCrcByte, messageBits_cons, feed_append]

/-! ### Bursts -/

/-- Data with their CRC behind them, low byte first. -/
def CrcLaid (s : List UInt8) : Prop :=
  ∃ data, s = data ++ [(modbusCrcCompute data).toUInt8, (modbusCrcCompute data >>> 8).toUInt8]

/-- The strings differ at most in 16 consecutive bits. -/
def BurstAt (k : ℕ) (s s' : List UInt8) : Prop :=
  ∀ i, bitAt s i ≠ bitAt s' i → k ≤ i ∧ i < k + 16

/-- After a burst of at most 16 bits the CRC does not match. -/
theorem not_crcLaid_of_burst {s s' : List UInt8} {k : ℕ} (hlen : s.length = s'.length)
    (hne : s ≠ s') (hburst : BurstAt k s s') (h : CrcLaid s) : ¬ CrcLaid s' := by
  have hzero : ∀ s, CrcLaid s → feed crcPoly (0xFFFF : UInt16).toBitVec (messageBits s) = 0#16 := by
    rintro s ⟨data, rfl⟩
    rw [← toBitVec_foldl]
    exact congrArg UInt16.toBitVec (modbus_crc_is_crc16 data).2
  intro h'
  refine feed_ne_of_burst msb_crcPoly (0xFFFF : UInt16).toBitVec ?_ (messageBits_ne hlen hne) k ?_
    ((hzero s h).trans (hzero s' h').symm)
  · rw [length_messageBits, length_messageBits, hlen]
  · intro i hi
    rw [getD_messageBits, getD_messageBits] at hi
    exact hburst i hi

/-- The bytes of `flash_save_data_st` on the page. -/
def flashRecordBytes (page : List UInt8) : List UInt8 := (List.range 5).map (page.getD · 0)

/-- The two bytes that make up a CRC. -/
theorem crc_eq_iff (n : UInt16) (low high : UInt8) :
    n = low.toUInt16 ||| high.toUInt16 <<< 8 ↔ low = n.toUInt8 ∧ high = (n >>> 8).toUInt8 := by
  constructor
  · rintro rfl
    refine ⟨UInt8.toBitVec_inj.mp ?_, UInt8.toBitVec_inj.mp ?_⟩
    · change low.toBitVec =
        (low.toBitVec.setWidth 16 ||| high.toBitVec.setWidth 16 <<< 8).setWidth 8
      refine BitVec.eq_of_getLsbD_eq fun i hi => ?_
      simp [hi]
    · change high.toBitVec =
        ((low.toBitVec.setWidth 16 ||| high.toBitVec.setWidth 16 <<< 8) >>> 8).setWidth 8
      refine BitVec.eq_of_getLsbD_eq fun i hi => ?_
      have h16 : 8 + i < 16 := by omega
      simp [hi, h16, Nat.lt_of_add_left_lt h16]
  · rintro ⟨rfl, rfl⟩
    exact (ofBytes_crc n).symm

theorem flashValid_iff (page : List UInt8) :
    FlashValid page ↔ CrcLaid (flashRecordBytes page) := by
  have hbytes : flashRecordBytes page = [page.getD 0 0, page.getD 1 0, page.getD 2 0] ++
      [page.getD 3 0, page.getD 4 0] := rfl
  rw [FlashValid, crc_eq_iff, CrcLaid, hbytes]
  constructor
  · rintro ⟨h3, h4⟩
    exact ⟨_, by rw [h3, h4]⟩
  · rintro ⟨data, hdata⟩
    obtain ⟨rfl, htail⟩ := List.append_inj' hdata rfl
    have hpair := List.cons.inj htail
    exact ⟨hpair.1, (List.cons.inj hpair.2).1⟩

/-- For all byte strings of one length: if the first is valid and the second differs from it in at
most 16 consecutive bits, the second is not valid.  A flash record with such an error is rejected,
and `flash_load` leaves the configuration in RAM as it is. -/
theorem crc_detects_bursts :
    (∀ (s s' : List UInt8) (k : ℕ), s.length = s'.length → s ≠ s' → BurstAt k s s' →
      CrcLaid s → ¬ CrcLaid s') ∧
    ∀ (page : List UInt8) (d : Dock) (k : ℕ), FlashValid page →
      flashRecordBytes page ≠ flashRecordBytes d.flash.page →
      BurstAt k (flashRecordBytes page) (flashRecordBytes d.flash.page) →
        ¬ FlashValid d.flash.page ∧ d.flashLoad.sys = d.sys := by
  refine ⟨fun s s' k hlen hne hburst h => not_crcLaid_of_burst hlen hne hburst h,
    fun page d k hv hne hburst => ?_⟩
  have hbad : ¬ FlashValid d.flash.page := by
    rw [flashValid_iff] at hv ⊢
    have hlen : (flashRecordBytes page).length = (flashRecordBytes d.flash.page).length := rfl
    exact not_crcLaid_of_burst hlen hne hburst hv
  refine ⟨hbad, ?_⟩
  rw [Dock.flashLoad, if_neg hbad]
  rfl

/-- A record with wrong bits in its CRC. -/
theorem crc_detects_bursts_record :
    let d : Dock := { flash := { page := (flashRecord 0x50 0x15 3).set 3 0xD6 } }
    ¬ FlashValid d.flash.page ∧ d.flashLoad.sys = d.sys := by
  intro d
  have hsame : ∀ i < 24, bitAt (flashRecordBytes (flashRecord 0x50 0x15 3)) i =
      bitAt (flashRecordBytes d.flash.page) i := by decide
  refine crc_detects_bursts.2 (flashRecord 0x50 0x15 3) d 24 (by decide) (by decide) fun i hi => ?_
  refine ⟨Nat.le_of_not_lt fun hlt => hi (hsame i hlt), Nat.lt_of_not_le fun hge => hi ?_⟩
  rw [bitAt_of_ge hge, bitAt_of_ge hge]

end ErgoDock
