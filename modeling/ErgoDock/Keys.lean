import ErgoDock.Lib.Debounce
import ErgoDock.Control

/-! # The touch keys (`app_key.c`)

Every 10 ms `on_key_10ms_handle` samples the two keys and debounces them.  The debouncer keeps the
changes between its last samples in a circular buffer of three; where none of them has a bit the
sample's bit is put out, where one has it the old bit (`analogKeyDeebounce_debounces`). -/

namespace ErgoDock

open Debounce

/-! ### The functions -/

/-- The statics of `analog_key_deebounce`. -/
structure KeyDebounce where
  debArr : Vector UInt8 3 := .replicate 3 0
  debCnt : ℕ := 0
  debOldVal : UInt16 := 0
  buttonStatus : UInt16 := 0
  debCnt_lt : debCnt < 3 := by decide

/-- `analog_key_deebounce`, which returns `buttonStatus`. -/
def analogKeyDeebounce (s : KeyDebounce) (button : UInt16) : KeyDebounce :=
  let debArr := s.debArr.set s.debCnt (s.debOldVal ^^^ button).toUInt8 s.debCnt_lt
  let debVal := debArr.toList.foldr (fun d v => v ||| d.toUInt16) 0
  { debArr := debArr
    debCnt := if s.debCnt + 1 ≥ 3 then 0 else s.debCnt + 1
    debOldVal := button
    buttonStatus := (button &&& ~~~debVal) ||| (debVal &&& s.buttonStatus)
    debCnt_lt := by split <;> omega }

/-- The value of `key` in `on_key_10ms_handle`, with the pins of key 3 and key 4: a low pin is a
key that is down. -/
def sampleKeys (pin3 pin4 : Bool) : UInt16 :=
  (if pin3 then 0 else 1) ||| (if pin4 then 0 else 2)

/-- The value of `current_key`. -/
def KeyDebounce.currentKey (s : KeyDebounce) : UInt8 := s.buttonStatus.toUInt8

/-- `on_key_10ms_handle`. -/
def onKey10msHandle (s : KeyDebounce) (pin3 pin4 : Bool) : KeyDebounce :=
  analogKeyDeebounce s (sampleKeys pin3 pin4)

/-- `ButtonPosTable`. -/
def buttonPosTable : List UInt8 := [appKeyNum3, appKeyNum4]

/-- `app_touch_key_get`, with the value of `current_key`. -/
def appTouchKeyGet (currentKey : UInt8) : UInt8 :=
  (buttonPosTable.foldl (fun (s : UInt8 × UInt8) key =>
    (if currentKey &&& s.2 ≠ 0 then s.1 ||| key else s.1, s.2 <<< 1)) (0, 1)).1

/-- The debouncer after the first `n` samples. -/
def debounceRun (x : ℕ → UInt16) : ℕ → KeyDebounce
  | 0 => {}
  | n + 1 => analogKeyDeebounce (debounceRun x n) (x n)

/-- The debouncer after the first `n` samples of the pins. -/
def pinRun (pin3 pin4 : ℕ → Bool) : ℕ → KeyDebounce
  | 0 => {}
  | n + 1 => onKey10msHandle (pinRun pin3 pin4 n) (pin3 n) (pin4 n)

theorem pinRun_eq (pin3 pin4 : ℕ → Bool) (n : ℕ) :
    pinRun pin3 pin4 n = debounceRun (fun m => sampleKeys (pin3 m) (pin4 m)) n := by
  induction n with
  | zero => rfl
  | succ n ih => rw [pinRun, debounceRun, ih, onKey10msHandle]

/-- Bit `i`. -/
def keyBit (v : UInt16) (i : ℕ) : Bool := v.toBitVec.getLsbD i

/-! ### The circular buffer -/

section bits
variable {v w : UInt16} {i : ℕ}

theorem keyBit_zero : keyBit 0 i = false := by simp [keyBit]

theorem keyBit_or : keyBit (v ||| w) i = (keyBit v i || keyBit w i) := by
  simp only [keyBit, UInt16.toBitVec_or, BitVec.getLsbD_or]

theorem keyBit_and : keyBit (v &&& w) i = (keyBit v i && keyBit w i) := by
  simp only [keyBit, UInt16.toBitVec_and, BitVec.getLsbD_and]

theorem keyBit_not (hi : i < 8) : keyBit (~~~v) i = !keyBit v i := by
  have h16 : i < 16 := by omega
  simp [keyBit, h16]

/-- A slot of the buffer has a bit where the samples differ. -/
theorem slotBit_eq_false (hi : i < 8) :
    (v ^^^ w).toUInt8.toBitVec.getLsbD i = false ↔ keyBit v i = keyBit w i := by
  simp [keyBit, hi]

theorem keyBit_foldr (l : List UInt8) :
    keyBit (l.foldr (fun d v => v ||| d.toUInt16) 0) i = l.any (·.toBitVec.getLsbD i) := by
  induction l with
  | nil => simp [keyBit]
  | cons d l ih =>
      rw [List.foldr_cons, keyBit_or, ih, List.any_cons, Bool.or_comm]
      congr 1

end bits

/-- The statics after `n` samples: the last sample, and in the slot of each of the last three
samples what it changed against the one before. -/
structure DebounceInv (x : ℕ → UInt16) (n : ℕ) (s : KeyDebounce) : Prop where
  cnt : s.debCnt = n % 3
  old : s.debOldVal = back 0 x n 1
  slot : ∀ j, 1 ≤ j → j ≤ 3 → ∀ h : (n + 3 - j) % 3 < 3,
    s.debArr[(n + 3 - j) % 3] = (back 0 x n (j + 1) ^^^ back 0 x n j).toUInt8

theorem debounceInv_init (x : ℕ → UInt16) : DebounceInv x 0 {} := by
  refine ⟨rfl, rfl, fun j h1 h3 h => ?_⟩
  have hback : back 0 x 0 j = 0 := if_neg (by omega)
  have hback' : back 0 x 0 (j + 1) = 0 := if_neg (by omega)
  rw [hback, hback']
  exact Vector.getElem_replicate h

theorem debounceInv_step {x : ℕ → UInt16} {n : ℕ} {s : KeyDebounce} (h : DebounceInv x n s) :
    DebounceInv x (n + 1) (analogKeyDeebounce s (x n)) := by
  obtain ⟨hcnt, hold, hslot⟩ := h
  refine ⟨?_, rfl, fun j h1 h3 hj => ?_⟩
  · simp only [analogKeyDeebounce, hcnt]
    split <;> omega
  · obtain ⟨i, rfl⟩ : ∃ i, j = i + 1 := ⟨j - 1, by omega⟩
    have hidx : (n + 1 + 3 - (i + 1)) % 3 = (n + 3 - i) % 3 := by omega
    simp only [analogKeyDeebounce, back_succ, hidx, hcnt]
    rcases Nat.eq_zero_or_pos i with rfl | hi
    · simp [hold]
    · rw [Vector.getElem_set_ne _ _ (by omega), hslot i hi (by omega)]

theorem debounceInv_run (x : ℕ → UInt16) (n : ℕ) : DebounceInv x n (debounceRun x n) := by
  induction n with
  | zero => exact debounceInv_init x
  | succ n ih => exact debounceInv_step ih

/-- A slot for each of the last three samples. -/
theorem slot_of_lt {n k : ℕ} (h : k < 3) : ∃ j, 1 ≤ j ∧ j ≤ 3 ∧ (n + 3 - j) % 3 = k := by
  have hn : n % 3 = 0 ∨ n % 3 = 1 ∨ n % 3 = 2 := by omega
  have hk : k = 0 ∨ k = 1 ∨ k = 2 := by omega
  rcases hn with hn | hn | hn <;> rcases hk with rfl | rfl | rfl <;>
    first
      | exact ⟨1, by decide, by decide, by omega⟩
      | exact ⟨2, by decide, by decide, by omega⟩
      | exact ⟨3, by decide, by decide, by omega⟩

/-! ### The output -/

section output
variable {x : ℕ → UInt16} {n i : ℕ} {s : KeyDebounce}

/-- No slot has a bit in which the last four samples agree. -/
theorem changes_eq_false (h : DebounceInv x (n + 1) s) (hi : i < 8) :
    keyBit (s.debArr.toList.foldr (fun d v => v ||| d.toUInt16) 0) i = false ↔
      Steady 3 false (fun m => keyBit (x m) i) n := by
  have hslot : ∀ j, 1 ≤ j → j ≤ 3 → ∀ hj : (n + 1 + 3 - j) % 3 < 3,
      (s.debArr[(n + 1 + 3 - j) % 3].toBitVec.getLsbD i = false ↔
        back false (fun m => keyBit (x m) i) (n + 1) (j + 1) =
          back false (fun m => keyBit (x m) i) (n + 1) j) := by
    intro j h1 h3 hj
    rw [h.slot j h1 h3 hj, slotBit_eq_false hi, map_back (keyBit · i), map_back (keyBit · i),
      keyBit_zero]
  rw [keyBit_foldr, List.any_eq_false]
  constructor
  · intro hall j hj
    induction j with
    | zero => rfl
    | succ j ih =>
        rw [← ih (by omega), ← back_succ (n := n), ← back_succ (n := n) j]
        refine (hslot (j + 1) (by omega) hj (Nat.mod_lt _ (by decide))).mp ?_
        exact Bool.eq_false_iff.mpr (hall _ (by simp))
  · intro hs d hd
    obtain ⟨k, hk, rfl⟩ := List.getElem_of_mem hd
    rw [Vector.length_toList] at hk
    obtain ⟨j, h1, h3, rfl⟩ := slot_of_lt (n := n + 1) hk
    obtain ⟨l, rfl⟩ : ∃ l, j = l + 1 := ⟨j - 1, by omega⟩
    rw [Vector.getElem_toList, Bool.not_eq_true, hslot (l + 1) h1 h3 hk, back_succ, back_succ,
      hs (l + 1) h3, hs l (by omega)]

theorem buttonStatus_step (h : DebounceInv x n s) (hi : i < 8) :
    keyBit (analogKeyDeebounce s (x n)).buttonStatus i =
      if Steady 3 false (fun m => keyBit (x m) i) n then keyBit (x n) i
      else keyBit s.buttonStatus i := by
  have hsteady := changes_eq_false (debounceInv_step h) hi
  unfold analogKeyDeebounce at hsteady ⊢
  dsimp only at hsteady ⊢
  rw [keyBit_or, keyBit_and, keyBit_and, keyBit_not hi]
  split
  · next hs =>
    rw [hsteady.mpr hs]
    simp
  · next hs =>
    rw [Bool.eq_true_of_not_eq_false fun hv => hs (hsteady.mp hv)]
    simp

/-- Each of the lower eight bits is debounced by itself. -/
theorem analogKeyDeebounce_debounces (hi : i < 8) :
    keyBit (debounceRun x n).buttonStatus i = settled 3 false (fun m => keyBit (x m) i) n := by
  induction n with
  | zero => exact keyBit_zero
  | succ n ih =>
      rw [debounceRun, buttonStatus_step (debounceInv_run x n) hi, ih]
      rfl

end output

/-- Bit `i` of the samples. -/
def sampleBit (x : ℕ → UInt16) (i m : ℕ) : Bool := keyBit (x m) i

/-- Bit `i` of the output after the first `m` samples. -/
def outputBit (x : ℕ → UInt16) (i m : ℕ) : Bool := keyBit (debounceRun x m).buttonStatus i

/-- After each sample an output bit is the sample's bit when the last four samples agree in it, with
zeros before the first one, and else it is what it was.  So a change is always to a level of four
samples, no sample of a shorter pulse changes the bit, and a level held for four samples is put
out. -/
theorem analogKeyDeebounce_spec (x : ℕ → UInt16) (i : ℕ) (hi : i < 8) :
    outputBit x i 0 = false ∧
      (∀ n, outputBit x i (n + 1) =
        if Steady 3 false (sampleBit x i) n then sampleBit x i n else outputBit x i n) ∧
      (∀ n, outputBit x i (n + 1) ≠ outputBit x i n →
        ∀ j ≤ 3, back false (sampleBit x i) n j = outputBit x i (n + 1)) ∧
      (∀ n l v, l < 4 → back false (sampleBit x i) n 1 ≠ v → (∀ j < l, sampleBit x i (n + j) = v) →
        ∀ j ≤ l, outputBit x i (n + j) = outputBit x i n) ∧
      (∀ n v, (∀ j < 4, sampleBit x i (n + j) = v) → outputBit x i (n + 4) = v) := by
  have hout : outputBit x i = settled 3 false (sampleBit x i) :=
    funext fun m => analogKeyDeebounce_debounces hi
  rw [hout]
  exact ⟨rfl, fun n => rfl, fun n => settled_change,
    fun n l v hl hbefore hpulse => settled_pulse (Nat.le_of_lt_succ hl) hbefore hpulse,
    fun n v h => settled_held fun j hj => h j (Nat.lt_succ_of_le hj)⟩

/-- Key 3 goes down with the fourth of four samples. -/
theorem analogKeyDeebounce_spec_press : outputBit (fun _ => 1) 0 4 = true := by
  obtain ⟨-, -, -, -, hheld⟩ := analogKeyDeebounce_spec (fun _ => 1) 0 (by decide)
  exact hheld 0 true fun _ _ => show keyBit 1 0 = true by decide

end ErgoDock
