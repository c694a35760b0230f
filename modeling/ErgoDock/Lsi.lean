import Mathlib

/-! # Cycles of the low-speed oscillator (`common.c`, `platform.c`)

The device sleeps, and keeps the time of day, on an oscillator whose rate is measured again and
again: `lsi_cnt_val` is the number of microseconds that `LSI_CNT_CYCLES` of its cycles took.
Times go to cycles and back through a 64-bit division by shifting and subtracting.

The division is exact for every dividend, also where the shifted divisor reaches the top bit
(`division_exact`).  A time changed to cycles and back never grows, and loses less than a cycle
(`lpcycles_round_trip`). -/

namespace ErgoDock

theorem pos_toInt64_iff (b : UInt64) : 0 < b.toInt64 ↔ 0 < b.toNat ∧ b.toNat < 2 ^ 63 := by
  have h : b.toInt64.toInt = b.toBitVec.toInt := rfl
  rw [Int64.lt_iff_toInt_lt, h, BitVec.toInt_eq_toNat_cond]
  have hlt := b.toNat_lt
  change 0 < (if 2 * b.toNat < 2 ^ 64 then (b.toNat : ℤ) else b.toNat - (2 ^ 64 : ℕ)) ↔ _
  split <;> omega

theorem toNat_double {b : UInt64} (h : b.toNat < 2 ^ 63) : (b + b).toNat = 2 * b.toNat := by
  rw [UInt64.toNat_add, Nat.mod_eq_of_lt (by omega)]
  omega

theorem toNat_half (d : UInt64) : (d >>> 1).toNat = d.toNat / 2 := by
  rw [UInt64.toNat_shiftRight]
  simp [Nat.shiftRight_eq_div_pow]

/-- The first loop of `__div64_32`: the divisor shifted until it covers the dividend, or its top
bit is set. -/
def divGrow (rem b d : UInt64) : UInt64 × UInt64 :=
  if 0 < b.toInt64 ∧ b < rem then divGrow rem (b + b) (d + d) else (b, d)
termination_by 2 ^ 64 - b.toNat
decreasing_by
  rename_i h
  obtain ⟨hpos, hlt⟩ := (pos_toInt64_iff b).mp h.1
  rw [toNat_double hlt]
  omega

/-- The second loop: the remainder and the quotient. -/
def divShrink (rem b res d : UInt64) : UInt64 × UInt64 :=
  let r := if rem ≥ b then (rem - b, res + d) else (rem, res)
  if d >>> 1 ≠ 0 then divShrink r.1 (b >>> 1) r.2 (d >>> 1) else r
termination_by d.toNat
decreasing_by
  rename_i h
  rw [ne_eq, ← UInt64.toNat_inj, toNat_half] at h
  rw [toNat_half]
  change d.toNat / 2 ≠ 0 at h
  omega

/-- `__div64_32`: what it leaves in `*n`, and what it returns. -/
def div6432 (n : UInt64) (base : UInt32) : UInt64 × UInt32 :=
  let high := (n >>> 32).toUInt32
  let r : UInt64 × UInt64 :=
    if high ≥ base then
      ((high / base).toUInt64 <<< 32, n - (high / base * base).toUInt64 <<< 32)
    else
      (0, n)
  let g := divGrow r.2 base.toUInt64 1
  let s := divShrink r.2 g.1 r.1 g.2
  (s.2, s.1.toUInt32)

section Division

variable {rem b res d : UInt64} {base k : ℕ}

/-- Where the first loop stops, the dividend is less than twice the divisor. -/
theorem divGrow_spec (hpos : 0 < base) (hb : b.toNat = base * 2 ^ k) (hd : d.toNat = 2 ^ k) :
    ∃ k, (divGrow rem b d).1.toNat = base * 2 ^ k ∧ (divGrow rem b d).2.toNat = 2 ^ k ∧
      rem.toNat < 2 * (base * 2 ^ k) := by
  have hbpos : 0 < base * 2 ^ k := by positivity
  have hrem := rem.toNat_lt
  fun_induction divGrow rem b d generalizing k with
  | case1 b d h ih =>
    obtain ⟨-, hlt⟩ := (pos_toInt64_iff b).mp h.1
    have hdb : d.toNat ≤ b.toNat := by
      rw [hb, hd]
      exact Nat.le_mul_of_pos_left _ hpos
    refine ih (k := k + 1) ?_ ?_ (by positivity)
    · rw [toNat_double hlt, hb, Nat.pow_succ]
      ring
    · rw [toNat_double (by omega), hd, Nat.pow_succ]
      ring
  | case2 b d h =>
    refine ⟨k, hb, hd, ?_⟩
    rw [pos_toInt64_iff, UInt64.lt_iff_toNat_lt] at h
    omega

/-- One round: the quotient so far and the rest to divide. -/
theorem divShrink_round (hpos : 0 < base) (hb : b.toNat = base * 2 ^ k) (hd : d.toNat = 2 ^ k)
    (hrem : rem.toNat < 2 * (base * 2 ^ k)) (hres : res.toNat + rem.toNat / base < 2 ^ 64) :
    let r := if rem ≥ b then (rem - b, res + d) else (rem, res)
    r.1.toNat < base * 2 ^ k ∧ r.1.toNat % base = rem.toNat % base ∧
      r.2.toNat + r.1.toNat / base = res.toNat + rem.toNat / base := by
  intro r
  by_cases h : rem ≥ b
  · have hle : base * 2 ^ k ≤ rem.toNat := hb ▸ UInt64.le_iff_toNat_le.mp h
    obtain ⟨m, hm⟩ : ∃ m, rem.toNat = m + base * 2 ^ k := ⟨_, (Nat.sub_add_cancel hle).symm⟩
    have hdiv : rem.toNat / base = m / base + 2 ^ k := by
      rw [hm, Nat.add_mul_div_left _ _ hpos]
    have h1 : r.1.toNat = m := by
      simp only [r, if_pos h]
      rw [UInt64.toNat_sub_of_le _ _ h, hb, hm, Nat.add_sub_cancel]
    have hfits : res.toNat + 2 ^ k < 2 ^ 64 :=
      lt_of_le_of_lt (Nat.add_le_add_left (hdiv ▸ Nat.le_add_left _ _) _) hres
    have h2 : r.2.toNat = res.toNat + 2 ^ k := by
      simp only [r, if_pos h]
      rw [UInt64.toNat_add, hd, Nat.mod_eq_of_lt hfits]
    refine ⟨by omega, ?_, ?_⟩
    · rw [h1, hm, Nat.add_mul_mod_self_left]
    · rw [h1, h2, hdiv]
      ring
  · have hlt : rem.toNat < base * 2 ^ k := by
      rw [ge_iff_le, UInt64.le_iff_toNat_le] at h
      omega
    simpa [r, h] using hlt

/-- The second loop divides what is less than twice the shifted divisor. -/
theorem divShrink_spec (hpos : 0 < base) (hb : b.toNat = base * 2 ^ k) (hd : d.toNat = 2 ^ k)
    (hrem : rem.toNat < 2 * (base * 2 ^ k)) (hres : res.toNat + rem.toNat / base < 2 ^ 64) :
    (divShrink rem b res d).1.toNat = rem.toNat % base ∧
      (divShrink rem b res d).2.toNat = res.toNat + rem.toNat / base := by
  induction k generalizing rem b res d with
  | zero =>
    obtain ⟨hlt, hmod, hdiv⟩ := divShrink_round hpos hb hd hrem hres
    have hstop : ¬ d >>> 1 ≠ 0 := by
      rw [not_not, ← UInt64.toNat_inj, toNat_half, hd]
      rfl
    rw [divShrink, if_neg hstop]
    rw [pow_zero, mul_one] at hlt
    rw [Nat.mod_eq_of_lt hlt] at hmod
    rw [Nat.div_eq_of_lt hlt] at hdiv
    exact ⟨hmod, hdiv⟩
  | succ k ih =>
    obtain ⟨hlt, hmod, hdiv⟩ := divShrink_round hpos hb hd hrem hres
    have hd' : (d >>> 1).toNat = 2 ^ k := by
      rw [toNat_half, hd, Nat.pow_succ]
      omega
    have hb' : (b >>> 1).toNat = base * 2 ^ k := by
      rw [toNat_half, hb, Nat.pow_succ, ← Nat.mul_assoc]
      omega
    have hgo : d >>> 1 ≠ 0 := by
      rw [ne_eq, ← UInt64.toNat_inj, hd']
      exact (Nat.two_pow_pos k).ne'
    rw [divShrink, if_pos hgo]
    rw [Nat.pow_succ, ← Nat.mul_assoc, Nat.mul_comm _ 2] at hlt
    obtain ⟨h1, h2⟩ := ih hb' hd' hlt (hdiv ▸ hres)
    exact ⟨h1.trans hmod, h2.trans hdiv⟩

end Division

/-- What is divided in one step, while it fits 32 bits. -/
theorem div6432_reduce (n : UInt64) {base : UInt32} (hpos : 0 < base.toNat) :
    let high := (n >>> 32).toUInt32
    let r : UInt64 × UInt64 :=
      if high ≥ base then
        ((high / base).toUInt64 <<< 32, n - (high / base * base).toUInt64 <<< 32)
      else
        (0, n)
    r.2.toNat % base.toNat = n.toNat % base.toNat ∧
      r.1.toNat + r.2.toNat / base.toNat = n.toNat / base.toNat := by
  intro high r
  have hn := n.toNat_lt
  have hhigh : high.toNat = n.toNat / 2 ^ 32 := by
    simp only [high]
    rw [UInt64.toNat_toUInt32, UInt64.toNat_shiftRight]
    simp only [UInt64.reduceToNat, Nat.reduceMod, Nat.shiftRight_eq_div_pow]
    omega
  by_cases h : high ≥ base
  · have hmul : high.toNat / base.toNat * base.toNat ≤ high.toNat := Nat.div_mul_le_self _ _
    have hshift : ∀ x : UInt32, (x.toUInt64 <<< 32).toNat = x.toNat * 2 ^ 32 := fun x => by
      have hx := x.toNat_lt
      rw [UInt64.toNat_shiftLeft, UInt32.toNat_toUInt64]
      simp only [UInt64.reduceToNat, Nat.reduceMod, Nat.shiftLeft_eq]
      omega
    have hprod : (high / base * base).toNat = high.toNat / base.toNat * base.toNat := by
      rw [UInt32.toNat_mul, UInt32.toNat_div]
      exact Nat.mod_eq_of_lt (lt_of_le_of_lt hmul high.toNat_lt)
    have h1 : r.1.toNat = high.toNat / base.toNat * 2 ^ 32 := by
      simp only [r, if_pos h]
      rw [hshift, UInt32.toNat_div]
    have hle : high.toNat / base.toNat * base.toNat * 2 ^ 32 ≤ n.toNat := by omega
    have h2 : r.2.toNat = n.toNat - high.toNat / base.toNat * base.toNat * 2 ^ 32 := by
      simp only [r, if_pos h]
      rw [UInt64.toNat_sub_of_le, hshift, hprod]
      rw [UInt64.le_iff_toNat_le, hshift, hprod]
      exact hle
    have hsplit : n.toNat = r.2.toNat + base.toNat * r.1.toNat := by
      have hcomm : base.toNat * (high.toNat / base.toNat * 2 ^ 32) =
          high.toNat / base.toNat * base.toNat * 2 ^ 32 := by ring
      rw [h1, h2, hcomm, Nat.sub_add_cancel hle]
    rw [hsplit, Nat.add_mul_mod_self_left, Nat.add_mul_div_left _ _ hpos]
    exact ⟨rfl, Nat.add_comm _ _⟩
  · simp [r, h]

/-- The division is exact for every dividend and every divisor but zero. -/
theorem div6432_spec (n : UInt64) {base : UInt32} (hpos : 0 < base.toNat) :
    (div6432 n base).1.toNat = n.toNat / base.toNat ∧
      (div6432 n base).2.toNat = n.toNat % base.toNat := by
  obtain ⟨hmod, hdiv⟩ := div6432_reduce n hpos
  set r : UInt64 × UInt64 :=
    if (n >>> 32).toUInt32 ≥ base then
      (((n >>> 32).toUInt32 / base).toUInt64 <<< 32,
        n - ((n >>> 32).toUInt32 / base * base).toUInt64 <<< 32)
    else
      (0, n) with hr
  obtain ⟨k, hb, hd, hlt⟩ := @divGrow_spec r.2 base.toUInt64 1 base.toNat 0 hpos (by simp) rfl
  have hquot : r.1.toNat + r.2.toNat / base.toNat < 2 ^ 64 :=
    hdiv ▸ lt_of_le_of_lt (Nat.div_le_self _ _) n.toNat_lt
  obtain ⟨h1, h2⟩ := divShrink_spec hpos hb hd hlt hquot
  have hrem : (div6432 n base).2.toNat = n.toNat % base.toNat % 2 ^ 32 := by
    rw [div6432, ← hr, UInt64.toNat_toUInt32, h1, hmod]
  refine ⟨?_, ?_⟩
  · rw [div6432, ← hr, h2, hdiv]
  · rw [hrem, Nat.mod_eq_of_lt]
    exact (Nat.mod_lt _ hpos).trans base.toNat_lt

/-- Quotient and remainder of every dividend, by every divisor but zero: also of dividends from
`2 ^ 63` on, where the first loop stops at the top bit of the divisor. -/
theorem division_exact (n : UInt64) {base : UInt32} (hpos : 0 < base.toNat) :
    n.toNat = base.toNat * (div6432 n base).1.toNat + (div6432 n base).2.toNat ∧
      (div6432 n base).2.toNat < base.toNat := by
  obtain ⟨hdiv, hmod⟩ := div6432_spec n hpos
  rw [hdiv, hmod]
  exact ⟨(Nat.div_add_mod _ _).symm, Nat.mod_lt _ hpos⟩

/-- The largest dividend. -/
theorem division_largest :
    (18446744073709551615 : UInt64).toNat =
        (3 : UInt32).toNat * (div6432 18446744073709551615 3).1.toNat +
          (div6432 18446744073709551615 3).2.toNat ∧
      (div6432 18446744073709551615 3).2.toNat < (3 : UInt32).toNat :=
  division_exact 18446744073709551615 (by decide)

/-! ### Cycles and half microseconds -/

/-- `lpcycles_to_hus`: half microseconds; `LSI_CNT_CYCLES` is 1500. -/
def lpcyclesToHus (lsiCntVal : UInt16) (lpcycles : UInt32) : UInt64 :=
  (div6432 (2 * lsiCntVal.toUInt64 * lpcycles.toUInt64) 1500).1

/-- `us_to_lpcycles`. -/
def usToLpcycles (lsiCntVal : UInt16) (us : UInt32) : UInt32 := us * 1500 / lsiCntVal.toUInt32

/-- `lsi_freq_update_and_hs_to_lpcycles`: the cycles of a number of half slots, each of 625 half
microseconds. -/
def lsiFreqUpdateAndHsToLpcycles (lsiCntVal : UInt16) (hsCnt : ℤ) : Option UInt32 :=
  if hsCnt = 0 ∨ lsiCntVal = 0 then
    none
  else
    some (div6432 (1500 * 625 * UInt64.ofInt hsCnt) (2 * lsiCntVal.toUInt32)).1.toUInt32

section Cycles

variable {lsiCntVal : UInt16} {hs : ℕ}

theorem toNat_lpcyclesToHus (lsiCntVal : UInt16) (lpcycles : UInt32) :
    (lpcyclesToHus lsiCntVal lpcycles).toNat = 2 * lsiCntVal.toNat * lpcycles.toNat / 1500 := by
  have hc := lsiCntVal.toNat_lt
  have hl := lpcycles.toNat_lt
  have hmul : 2 * lsiCntVal.toNat * lpcycles.toNat ≤ 2 * 2 ^ 16 * 2 ^ 32 :=
    Nat.mul_le_mul (by omega) (by omega)
  rw [lpcyclesToHus, (div6432_spec _ (by decide)).1]
  simp only [UInt64.toNat_mul, UInt16.toNat_toUInt64, UInt32.toNat_toUInt64, UInt64.reduceToNat,
    UInt32.reduceToNat]
  rw [Nat.mod_eq_of_lt (a := 2 * _) (by omega), Nat.mod_eq_of_lt (by omega)]

/-- The cycles a number of half slots takes, in whole cycles. -/
theorem toNat_hsToLpcycles (hpos : 0 < hs) (hlt : hs < 2 ^ 31) (hcnt : 0 < lsiCntVal.toNat)
    (hfits : 937500 * hs / (2 * lsiCntVal.toNat) < 2 ^ 32) :
    ∃ lpcycles, lsiFreqUpdateAndHsToLpcycles lsiCntVal hs = some lpcycles ∧
      lpcycles.toNat = 937500 * hs / (2 * lsiCntVal.toNat) := by
  have hc := lsiCntVal.toNat_lt
  have hassert : ¬ ((hs : ℤ) = 0 ∨ lsiCntVal = 0) := by
    rw [← UInt16.toNat_inj]
    simp only [UInt16.toNat_zero]
    omega
  have hbase : (2 * lsiCntVal.toUInt32).toNat = 2 * lsiCntVal.toNat := by
    rw [UInt32.toNat_mul, UInt16.toNat_toUInt32]
    simp only [UInt32.reduceToNat]
    omega
  have hofInt : (UInt64.ofInt hs).toNat = hs := by
    have hmod : ((hs : ℤ) % 2 ^ 64).toNat = hs := by omega
    rw [UInt64.ofInt, hmod]
    exact UInt64.toNat_ofNat_of_lt' (show hs < 2 ^ 64 by omega)
  have hprod : (1500 * 625 * UInt64.ofInt hs).toNat = 937500 * hs := by
    rw [UInt64.toNat_mul, hofInt]
    simp only [UInt64.toNat_mul, UInt64.reduceToNat]
    omega
  refine ⟨_, if_neg hassert, ?_⟩
  rw [UInt64.toNat_toUInt32, (div6432_spec _ (by omega)).1, hprod, hbase, Nat.mod_eq_of_lt hfits]

/-- A time of `hs` half slots in cycles and back: it never grows, and it loses less than a cycle
and half a microsecond. -/
theorem lpcycles_round_trip (hpos : 0 < hs) (hlt : hs < 2 ^ 31) (hcnt : 0 < lsiCntVal.toNat)
    (hfits : 937500 * hs / (2 * lsiCntVal.toNat) < 2 ^ 32) :
    ∃ lpcycles, lsiFreqUpdateAndHsToLpcycles lsiCntVal hs = some lpcycles ∧
      (lpcyclesToHus lsiCntVal lpcycles).toNat ≤ 625 * hs ∧
      625 * hs ≤ (lpcyclesToHus lsiCntVal lpcycles).toNat + 2 * lsiCntVal.toNat / 1500 + 1 := by
  obtain ⟨lpcycles, h, hval⟩ := toNat_hsToLpcycles hpos hlt hcnt hfits
  refine ⟨lpcycles, h, ?_⟩
  rw [toNat_lpcyclesToHus, hval]
  have hle := Nat.mul_div_le (937500 * hs) (2 * lsiCntVal.toNat)
  have hgt := Nat.lt_mul_div_succ (937500 * hs) (show 0 < 2 * lsiCntVal.toNat by omega)
  rw [Nat.mul_add, Nat.mul_one] at hgt
  omega

/-- 3200 half slots, a second, on an oscillator of 32768 Hz. -/
theorem lpcycles_round_trip_second :
    ∃ lpcycles, lsiFreqUpdateAndHsToLpcycles 45776 (3200 : ℕ) = some lpcycles ∧
      (lpcyclesToHus 45776 lpcycles).toNat ≤ 625 * 3200 ∧
      625 * 3200 ≤ (lpcyclesToHus 45776 lpcycles).toNat + 2 * (45776 : UInt16).toNat / 1500 + 1 :=
  lpcycles_round_trip (by decide) (by decide) (by decide) (by decide)

end Cycles

end ErgoDock
