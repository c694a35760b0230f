import ErgoDock.Fota
import ErgoDock.Lib.Journal
import ErgoDock.Lib.PowerCut
import ErgoDock.Lib.RawMemory

/-! # Settings in flash (`inflash_settings.c`)

A setting is a few words that are kept in an area of the flash, as a journal: a slot holds the
words, their complements and a flag word.  A new value goes to the next slot, after the flag of the
old one has been written over.

`settingsGet`, `settingsSet` and `settingsMakeInvalid` work on the bytes.  `slotAt` reads the bytes
of a slot as a slot of a journal, and the flash as the journal `slots`. -/

namespace ErgoDock
open PowerCut

/-! ### Flash commands -/

/-- A command to the flash: `hal_flash_sector_erase`, `hal_flash_multi_io_page_program`. -/
inductive FlashCommand where
  | sectorErase (offset : ℕ)
  | pageProgram (offset : ℕ) (data : List UInt8)
deriving DecidableEq

namespace FlashCommand

def run (flash : ℕ → UInt8) : FlashCommand → ℕ → UInt8
  | sectorErase offset => Nor.erase 4096 flash offset
  | pageProgram offset data => Nor.program 256 flash offset data

/-- What is left when power goes during the command: of a program, cells between the old and the
new; of an erase, anything in the sector. -/
def Cut (flash : ℕ → UInt8) : FlashCommand → (ℕ → UInt8) → Prop
  | sectorErase offset, left => ∀ a, a / 4096 ≠ offset / 4096 → left a = flash a
  | pageProgram offset data, left => Torn flash (Nor.program 256 flash offset data) left

end FlashCommand

/-- The commands of a piece of code, begun on a flash, were cut short and left another one. -/
abbrev CutShort : (ℕ → UInt8) → List FlashCommand → (ℕ → UInt8) → Prop :=
  PowerCut.Cut FlashCommand.run FlashCommand.Cut

/-! ### Words -/

/-- The word at `offset`. -/
def flashWord (flash : ℕ → UInt8) (offset : ℕ) : UInt32 := ⟨RawMemory.word flash offset⟩

/-- `hal_flash_multi_io_read` into an array of words. -/
def flashWords (flash : ℕ → UInt8) (offset n : ℕ) : List UInt32 :=
  (List.range n).map fun i => flashWord flash (offset + 4 * i)

/-- An array of words as bytes. -/
def bytesOfWords (ws : List UInt32) : List UInt8 :=
  ws.flatMap fun w => RawMemory.wordBytes w.toBitVec

section words
variable {f g : ℕ → UInt8} {p q n : ℕ}

theorem toNat_flashWord (f : ℕ → UInt8) (p : ℕ) : (flashWord f p).toNat = (f p).toNat +
    256 * (f (p + 1)).toNat + 65536 * (f (p + 2)).toNat + 16777216 * (f (p + 3)).toNat := by
  have h₀ := (f p).toNat_lt
  have h₁ := (f (p + 1)).toNat_lt
  have h₂ := (f (p + 2)).toNat_lt
  have h₃ := (f (p + 3)).toNat_lt
  change (RawMemory.word f p).toNat = _
  rw [RawMemory.word, BitVec.toNat_ofNat, Nat.mod_eq_of_lt (by omega)]

theorem flashWord_eq_iff : flashWord f p = flashWord g q ↔ ∀ i < 4, f (p + i) = g (q + i) := by
  constructor
  · intro h i hi
    have hn := congrArg UInt32.toNat h
    rw [toNat_flashWord, toNat_flashWord] at hn
    have hf₀ := (f p).toNat_lt
    have hf₁ := (f (p + 1)).toNat_lt
    have hf₂ := (f (p + 2)).toNat_lt
    have hg₀ := (g q).toNat_lt
    have hg₁ := (g (q + 1)).toNat_lt
    have hg₂ := (g (q + 2)).toNat_lt
    apply UInt8.toNat_inj.mp
    interval_cases i
    · rw [Nat.add_zero, Nat.add_zero]
      omega
    · omega
    · omega
    · omega
  · intro h
    apply UInt32.toNat_inj.mp
    rw [toNat_flashWord, toNat_flashWord, h 1 (by decide), h 2 (by decide), h 3 (by decide),
      show f p = g q from h 0 (by decide)]

theorem flashWord_eq_ones : flashWord f p = 0xFFFFFFFF ↔ ∀ i < 4, f (p + i) = 0xFF := by
  have hones : flashWord (fun _ => 0xFF) 0 = 0xFFFFFFFF := by decide
  rw [← hones, flashWord_eq_iff]

/-- A word is the complement of another when its bytes are. -/
theorem flashWord_eq_not :
    flashWord f q = ~~~ flashWord f p ↔ ∀ i < 4, f (q + i) = ~~~ f (p + i) := by
  have hnot : flashWord (fun a => ~~~ f a) p = ~~~ flashWord f p := by
    have h₀ := (f p).toNat_lt
    have h₁ := (f (p + 1)).toNat_lt
    have h₂ := (f (p + 2)).toNat_lt
    have h₃ := (f (p + 3)).toNat_lt
    apply UInt32.toNat_inj.mp
    rw [UInt32.toNat_not, toNat_flashWord, toNat_flashWord, UInt8.toNat_not, UInt8.toNat_not,
      UInt8.toNat_not, UInt8.toNat_not]
    change _ = 2 ^ 32 - 1 - _
    change 2 ^ 8 - 1 - _ + 256 * (2 ^ 8 - 1 - _) + 65536 * (2 ^ 8 - 1 - _) +
      16777216 * (2 ^ 8 - 1 - _) = _
    omega
  rw [← hnot, flashWord_eq_iff]

@[simp] theorem length_flashWords : (flashWords f p n).length = n := by simp [flashWords]

theorem flashWords_congr (h : ∀ j < 4 * n, f (p + j) = g (q + j)) :
    flashWords f p n = flashWords g q n := by
  refine List.map_congr_left fun i hi => ?_
  have hi := List.mem_range.mp hi
  refine flashWord_eq_iff.mpr fun k hk => ?_
  rw [Nat.add_assoc, Nat.add_assoc]
  exact h _ (by omega)

theorem flashWords_succ (f : ℕ → UInt8) (p n : ℕ) :
    flashWords f p (n + 1) = flashWord f p :: flashWords f (p + 4) n := by
  rw [flashWords, List.range_succ_eq_map, List.map_cons, List.map_map]
  refine List.cons_eq_cons.mpr ⟨rfl, List.map_congr_left fun i _ => ?_⟩
  rw [Function.comp_apply, Nat.succ_eq_add_one, Nat.mul_add, Nat.add_assoc, Nat.add_comm 4]

theorem take_flashWords (f : ℕ → UInt8) (p : ℕ) {m : ℕ} (h : m ≤ n) :
    (flashWords f p n).take m = flashWords f p m := by
  rw [flashWords, ← List.map_take, List.take_range, Nat.min_eq_left h, flashWords]

theorem length_bytesOfWords (ws : List UInt32) : (bytesOfWords ws).length = 4 * ws.length := by
  induction ws with
  | nil => rfl
  | cons w ws ih =>
      rw [bytesOfWords, List.flatMap_cons, List.length_append, ← bytesOfWords, ih,
        List.length_cons]
      change 4 + 4 * ws.length = 4 * (ws.length + 1)
      omega

/-- Words that were written as bytes are read back. -/
theorem flashWords_of_bytes {ws : List UInt32}
    (h : ∀ j (hj : j < (bytesOfWords ws).length), f (p + j) = (bytesOfWords ws)[j]) :
    flashWords f p ws.length = ws := by
  induction ws generalizing p with
  | nil => rfl
  | cons w ws ih =>
      have hbytes : bytesOfWords (w :: ws) =
          RawMemory.wordBytes w.toBitVec ++ bytesOfWords ws := rfl
      have hlen : (RawMemory.wordBytes w.toBitVec).length = 4 := rfl
      have hfirst : flashWord f p = w := by
        have hword := RawMemory.word_setWord f p w.toBitVec
        have heq : flashWord f p = flashWord (RawMemory.setWord f p w.toBitVec) p := by
          refine flashWord_eq_iff.mpr fun i hi => ?_
          have hin : i < (bytesOfWords (w :: ws)).length := by
            rw [length_bytesOfWords, List.length_cons]
            omega
          rw [RawMemory.setWord_inside _ hi, h i hin, List.getD_eq_getElem _ _ (by omega)]
          simp only [hbytes]
          exact List.getElem_append_left (by omega)
        rw [heq, flashWord, hword]
      have hrest : flashWords f (p + 4) ws.length = ws := by
        refine ih fun j hj => ?_
        rw [Nat.add_assoc, h (4 + j) (by rw [hbytes, List.length_append, hlen]; omega)]
        simp only [hbytes]
        rw [List.getElem_append_right (by omega)]
        congr 1
        omega
      rw [List.length_cons, flashWords_succ, hfirst, hrest]

end words

/-! ### Settings -/

/-- `setting_info`. -/
structure SettingInfo where
  start : ℕ
  range : ℕ
  sizeByWord : ℕ

namespace SettingInfo
variable (info : SettingInfo)

/-- `sizeof(buf)`: the words and their complements. -/
def bufSize : ℕ := 4 * (info.sizeByWord * 2)

/-- What `_settings_get` goes on by: the words and the flag. -/
def stride : ℕ := info.bufSize + 4

end SettingInfo

/-- `NOT_PROGRAMMED_DATA`. -/
def notProgrammedData : UInt32 := 0xFFFFFFFF

def notProgrammed (data : List UInt32) : Bool := data.all (· == notProgrammedData)

def inversionDataCheck (data : List UInt32) (sizeByWord : ℕ) : Bool :=
  (List.range sizeByWord).all fun i => data.getD (sizeByWord + i) 0 == ~~~ data.getD i 0

/-- What `_settings_get` returns, with its `valid_offset` and its `buf`. -/
structure SettingsScan where
  found : Bool
  validOffset : ℕ
  buf : List UInt32

/-- The loop of `_settings_get`, from `offset` on. -/
def settingsScan (flash : ℕ → UInt8) (info : SettingInfo) (offset : ℕ) : SettingsScan :=
  if offset < info.start + info.range then
    let buf := flashWords flash offset (info.sizeByWord * 2)
    if flashWord flash (offset + info.bufSize) = notProgrammedData then
      if notProgrammed buf then ⟨false, offset, buf⟩
      else if inversionDataCheck buf info.sizeByWord then ⟨true, offset, buf⟩
      else settingsScan flash info (offset + info.bufSize + 4)
    else settingsScan flash info (offset + info.bufSize + 4)
  else ⟨false, 0, []⟩
termination_by info.start + info.range - offset

def settingsGet (flash : ℕ → UInt8) (info : SettingInfo) : Option (List UInt32) :=
  let scan := settingsScan flash info info.start
  if scan.found then some (scan.buf.take info.sizeByWord) else none

def invalidFlagWrite (offset : ℕ) : FlashCommand := .pageProgram offset [0x49, 0x4E, 0x56, 0x41]

def inversionDataWrite (offset : ℕ) (data : List UInt32) : FlashCommand :=
  .pageProgram offset (bytesOfWords (data ++ data.map (~~~ ·)))

def settingsMakeInvalid (flash : ℕ → UInt8) (info : SettingInfo) : List FlashCommand :=
  let scan := settingsScan flash info info.start
  if scan.found then [invalidFlagWrite (scan.validOffset + info.bufSize)] else []

/-- `none` when the assertion fails. -/
def settingsSet (flash : ℕ → UInt8) (info : SettingInfo) (data : List UInt32) :
    Option (List FlashCommand) :=
  let scan := settingsScan flash info info.start
  if scan.found then
    some [invalidFlagWrite (scan.validOffset + info.bufSize),
      inversionDataWrite (scan.validOffset + info.bufSize + 4) data]
  else if scan.validOffset = 0 then none
  else some [inversionDataWrite scan.validOffset data]

/-! ### Slots -/

namespace SettingInfo
variable (info : SettingInfo)

/-- Where slot `i` begins. -/
def place (i : ℕ) : ℕ := info.start + i * info.stride

/-- How many slots are looked at. -/
def count : ℕ := ceiling info.range info.stride

/-- The first `n` slots are looked at and lie in one page. -/
structure Fits (n : ℕ) : Prop where
  start_pos : 0 < info.start
  word_pos : 0 < info.sizeByWord
  le_count : n ≤ info.count
  in_page : info.start % 256 + n * info.stride ≤ 256

end SettingInfo

/-- The bytes from `offset` on as a slot. -/
def slotAt (flash : ℕ → UInt8) (info : SettingInfo) (offset : ℕ) : Slot (List UInt32) :=
  if flashWord flash (offset + info.bufSize) = notProgrammedData then
    if notProgrammed (flashWords flash offset (info.sizeByWord * 2)) then .blank
    else if inversionDataCheck (flashWords flash offset (info.sizeByWord * 2)) info.sizeByWord then
      .live ((flashWords flash offset (info.sizeByWord * 2)).take info.sizeByWord)
    else .dead
  else .dead

/-- The first `n` slots. -/
def slots (flash : ℕ → UInt8) (info : SettingInfo) (n : ℕ) : List (Slot (List UInt32)) :=
  (List.range n).map fun i => slotAt flash info (info.place i)

section slot
variable {f g h : ℕ → UInt8} {info : SettingInfo} {o : ℕ} {v : List UInt32}

theorem notProgrammed_iff {p n : ℕ} :
    notProgrammed (flashWords f p n) = true ↔ ∀ j < 4 * n, f (p + j) = 0xFF := by
  rw [notProgrammed, flashWords, List.all_map, List.all_eq_true]
  constructor
  · intro hall j hj
    have hw := hall (j / 4) (List.mem_range.mpr (by omega))
    have hb := flashWord_eq_ones.mp (eq_of_beq hw) (j % 4) (Nat.mod_lt j (by decide))
    rwa [Nat.add_assoc, Nat.div_add_mod] at hb
  · intro hall i hi
    have hi := List.mem_range.mp hi
    refine beq_iff_eq.mpr (flashWord_eq_ones.mpr fun k hk => ?_)
    rw [Nat.add_assoc]
    exact hall _ (by omega)

theorem getD_flashWords {p n i : ℕ} (hi : i < n) :
    (flashWords f p n).getD i 0 = flashWord f (p + 4 * i) := by
  rw [flashWords, List.getD_eq_getElem _ _ (by simpa using hi), List.getElem_map,
    List.getElem_range]

theorem inversionDataCheck_iff {p n : ℕ} :
    inversionDataCheck (flashWords f p (n * 2)) n = true ↔
      ∀ j < 4 * n, f (p + (4 * n + j)) = ~~~ f (p + j) := by
  rw [inversionDataCheck, List.all_eq_true]
  constructor
  · intro hall j hj
    have hw := eq_of_beq (hall (j / 4) (List.mem_range.mpr (by omega)))
    rw [getD_flashWords (by omega), getD_flashWords (by omega)] at hw
    have hb := flashWord_eq_not.mp hw (j % 4) (Nat.mod_lt j (by decide))
    rwa [show p + 4 * (n + j / 4) + j % 4 = p + (4 * n + j) by omega,
      show p + 4 * (j / 4) + j % 4 = p + j by omega] at hb
  · intro hall i hi
    have hi := List.mem_range.mp hi
    rw [getD_flashWords (by omega), getD_flashWords (by omega)]
    refine beq_iff_eq.mpr (flashWord_eq_not.mpr fun k hk => ?_)
    rw [show p + 4 * (n + i) + k = p + (4 * n + (4 * i + k)) by omega, Nat.add_assoc]
    exact hall _ (by omega)

theorem slotAt_eq_blank : slotAt f info o = .blank ↔ ∀ j < info.stride, f (o + j) = 0xFF := by
  unfold slotAt
  constructor
  · intro hs j hj
    split at hs
    · next hflag =>
      split at hs
      · next hblank =>
        rcases Nat.lt_or_ge j info.bufSize with hlt | hge
        · exact notProgrammed_iff.mp hblank j hlt
        · have hb := flashWord_eq_ones.mp hflag (j - info.bufSize)
            (by unfold SettingInfo.stride at hj; omega)
          rwa [Nat.add_assoc, Nat.add_sub_cancel' hge] at hb
      · split at hs <;> cases hs
    · cases hs
  · intro hall
    have hflag : flashWord f (o + info.bufSize) = notProgrammedData :=
      flashWord_eq_ones.mpr fun i hi => by
        rw [Nat.add_assoc]
        exact hall _ (Nat.add_lt_add_left hi _)
    have hblank : notProgrammed (flashWords f o (info.sizeByWord * 2)) = true :=
      notProgrammed_iff.mpr fun j hj => hall j (Nat.lt_add_right 4 hj)
    rw [if_pos hflag, if_pos hblank]

/-- The bytes of a slot that holds a value. -/
theorem slotAt_eq_live (hn : 0 < info.sizeByWord) : slotAt f info o = .live v ↔
    (∀ i < 4, f (o + info.bufSize + i) = 0xFF) ∧
      (∀ j < 4 * info.sizeByWord, f (o + (4 * info.sizeByWord + j)) = ~~~ f (o + j)) ∧
        v = flashWords f o info.sizeByWord := by
  have htake : (flashWords f o (info.sizeByWord * 2)).take info.sizeByWord =
      flashWords f o info.sizeByWord := take_flashWords f o (by omega)
  unfold slotAt
  constructor
  · intro hs
    split at hs
    · next hflag =>
      split at hs
      · cases hs
      · split at hs
        · next hcheck =>
          refine ⟨flashWord_eq_ones.mp hflag, inversionDataCheck_iff.mp hcheck, ?_⟩
          rw [← htake]
          exact (Slot.live.inj hs).symm
        · cases hs
    · cases hs
  · rintro ⟨hflag, hcheck, rfl⟩
    have hprog : ¬ notProgrammed (flashWords f o (info.sizeByWord * 2)) = true := by
      intro hblank
      have hall := notProgrammed_iff.mp hblank
      have hzero := hcheck 0 (by omega)
      rw [hall _ (by omega), hall 0 (by omega)] at hzero
      exact absurd hzero (by decide)
    have hones : flashWord f (o + info.bufSize) = notProgrammedData := flashWord_eq_ones.mpr hflag
    rw [if_pos hones, if_neg hprog, if_pos (inversionDataCheck_iff.mpr hcheck), htake]

theorem slotAt_congr (hfg : ∀ j < info.stride, f (o + j) = g (o + j)) :
    slotAt f info o = slotAt g info o := by
  have hbuf : flashWords f o (info.sizeByWord * 2) = flashWords g o (info.sizeByWord * 2) :=
    flashWords_congr fun j hj => hfg j (Nat.lt_add_right 4 hj)
  have hflag : flashWord f (o + info.bufSize) = flashWord g (o + info.bufSize) :=
    flashWord_eq_iff.mpr fun i hi => by
      rw [Nat.add_assoc]
      exact hfg _ (Nat.add_lt_add_left hi _)
  unfold slotAt
  rw [hbuf, hflag]

/-- A value whose write into a blank slot was cut short is there complete or not at all. -/
theorem live_of_torn (hn : 0 < info.sizeByWord) (hf : slotAt f info o = .blank)
    (hg : slotAt g info o = .live v) (ht : Torn f g h) {u : List UInt32}
    (hh : slotAt h info o = .live u) : u = v := by
  obtain ⟨-, hgrails, rfl⟩ := (slotAt_eq_live hn).mp hg
  obtain ⟨-, hhrails, rfl⟩ := (slotAt_eq_live hn).mp hh
  have hblank := slotAt_eq_blank.mp hf
  have hsize : info.stride = 8 * info.sizeByWord + 4 := by
    unfold SettingInfo.stride SettingInfo.bufSize
    omega
  refine flashWords_congr fun j hj => ?_
  have hx := ht (o + j)
  have hy := ht (o + (4 * info.sizeByWord + j))
  rw [hblank j (by omega)] at hx
  rw [hblank _ (by omega), hgrails j hj] at hy
  exact eq_of_rails hx hy (hhrails j hj)

/-- A slot whose flag may have changed holds its value or is dead. -/
theorem live_or_dead (hn : 0 < info.sizeByWord) (hf : slotAt f info o = .live v)
    (hfg : ∀ j < info.bufSize, g (o + j) = f (o + j)) :
    slotAt g info o = .live v ∨ slotAt g info o = .dead := by
  obtain ⟨-, hrails, rfl⟩ := (slotAt_eq_live hn).mp hf
  have hbuf : info.bufSize = 8 * info.sizeByWord := by
    unfold SettingInfo.bufSize
    omega
  by_cases hflag : flashWord g (o + info.bufSize) = notProgrammedData
  · refine .inl ((slotAt_eq_live hn).mpr ⟨flashWord_eq_ones.mp hflag, fun j hj => ?_, ?_⟩)
    · rw [hfg _ (by omega), hfg j (by omega), hrails j hj]
    · exact flashWords_congr fun j hj => (hfg j (by omega)).symm
  · refine .inr ?_
    unfold slotAt
    rw [if_neg hflag]

end slot

/-! ### The scan -/

namespace SettingInfo
variable {info : SettingInfo} {i n : ℕ}

theorem stride_pos (info : SettingInfo) : 0 < info.stride := Nat.succ_pos _

theorem place_succ (info : SettingInfo) (i : ℕ) :
    info.place (i + 1) = info.place i + info.bufSize + 4 := by
  unfold place stride
  ring

theorem place_lt_iff : info.place i < info.start + info.range ↔ i < info.count := by
  unfold place count ceiling
  rw [Nat.lt_iff_add_one_le (m := i), Nat.le_div_iff_mul_le info.stride_pos, Nat.add_one_mul]
  have := info.stride_pos
  omega

theorem place_add_le (info : SettingInfo) (h : i < n) :
    info.place i + info.stride ≤ info.start + n * info.stride := by
  have hle := Nat.mul_le_mul_right info.stride (Nat.succ_le_of_lt h)
  rw [Nat.succ_mul] at hle
  unfold place
  omega

/-- A slot lies in one page. -/
theorem Fits.page (h : info.Fits n) (hi : i < n) :
    info.place i % 256 + info.stride ≤ 256 := by
  have hle := place_add_le info hi
  have hpage := h.in_page
  have hstart := Nat.mod_add_div info.start 256
  have := info.stride_pos
  have hplace : info.start ≤ info.place i := Nat.le_add_right _ _
  omega

end SettingInfo

section scan
variable {f : ℕ → UInt8} {info : SettingInfo} {n p : ℕ} {v : List UInt32}

@[simp] theorem length_slots (f : ℕ → UInt8) (info : SettingInfo) (n : ℕ) :
    (slots f info n).length = n := by simp [slots]

theorem getElem_slots {i : ℕ} (hi : i < (slots f info n).length) :
    (slots f info n)[i] = slotAt f info (info.place i) := by simp [slots]

theorem settingsScan_slot {offset : ℕ} (h : offset < info.start + info.range) :
    settingsScan f info offset = match slotAt f info offset with
      | .dead => settingsScan f info (offset + info.bufSize + 4)
      | .live _ => ⟨true, offset, flashWords f offset (info.sizeByWord * 2)⟩
      | .blank => ⟨false, offset, flashWords f offset (info.sizeByWord * 2)⟩ := by
  rw [settingsScan, if_pos h]
  unfold slotAt
  dsimp only
  split_ifs <;> rfl

/-- Dead slots are passed over. -/
theorem settingsScan_passed (hp : p ≤ info.count)
    (hdead : ∀ i < p, slotAt f info (info.place i) = .dead) :
    settingsScan f info info.start = settingsScan f info (info.place p) := by
  induction p with
  | zero => rw [SettingInfo.place, Nat.zero_mul, Nat.add_zero]
  | succ p ih =>
      rw [ih (Nat.le_of_succ_le hp) fun i hi => hdead i (Nat.lt_succ_of_lt hi),
        settingsScan_slot (SettingInfo.place_lt_iff.mpr hp), hdead p (Nat.lt_succ_self p),
        SettingInfo.place_succ]

/-- The scan of an area does not leave its first `n` slots. -/
def Decided (f : ℕ → UInt8) (info : SettingInfo) (n : ℕ) : Prop :=
  n = info.count ∨ Journal.passed (slots f info n) < n

theorem settingsScan_passed_slots (hn : n ≤ info.count) : settingsScan f info info.start =
    settingsScan f info (info.place (Journal.passed (slots f info n))) := by
  have hle := Journal.passed_le (slots f info n)
  rw [length_slots] at hle
  refine settingsScan_passed (Nat.le_trans hle hn) fun i hi => ?_
  rw [← getElem_slots (n := n) (by rw [length_slots]; omega)]
  exact Journal.getElem_of_lt_passed hi _

/-- The slot that the scan ends at. -/
theorem slotAt_passed (hp : Journal.passed (slots f info n) < n) :
    slotAt f info (info.place (Journal.passed (slots f info n))) =
      (Journal.value (slots f info n)).elim .blank .live := by
  have hp' : Journal.passed (slots f info n) < (slots f info n).length := by rwa [length_slots]
  rw [← getElem_slots hp']
  exact Journal.getElem_passed hp'

theorem settingsScan_live (hn : n ≤ info.count) (hv : Journal.value (slots f info n) = some v) :
    settingsScan f info info.start = ⟨true, info.place (Journal.passed (slots f info n)),
      flashWords f (info.place (Journal.passed (slots f info n))) (info.sizeByWord * 2)⟩ := by
  have hp := Journal.passed_lt_of_value hv
  rw [length_slots] at hp
  rw [settingsScan_passed_slots hn,
    settingsScan_slot (SettingInfo.place_lt_iff.mpr (Nat.lt_of_lt_of_le hp hn)), slotAt_passed hp,
    hv, Option.elim_some]

/-- A new value withdraws the one that is found, and goes behind it. -/
theorem settingsSet_live (hn : n ≤ info.count) (hv : Journal.value (slots f info n) = some v)
    (data : List UInt32) : settingsSet f info data = some
      [invalidFlagWrite (info.place (Journal.passed (slots f info n)) + info.bufSize),
        inversionDataWrite (info.place (Journal.passed (slots f info n)) + info.bufSize + 4)
          data] := by
  unfold settingsSet
  rw [settingsScan_live hn hv]
  rfl

theorem settingsScan_blank (hn : n ≤ info.count) (hp : Journal.passed (slots f info n) < n)
    (hv : Journal.value (slots f info n) = none) :
    settingsScan f info info.start = ⟨false, info.place (Journal.passed (slots f info n)),
      flashWords f (info.place (Journal.passed (slots f info n))) (info.sizeByWord * 2)⟩ := by
  rw [settingsScan_passed_slots hn,
    settingsScan_slot (SettingInfo.place_lt_iff.mpr (Nat.lt_of_lt_of_le hp hn)), slotAt_passed hp,
    hv, Option.elim_none]

/-- When all slots are dead there is no offset to write at. -/
theorem settingsScan_full (hp : info.count ≤ Journal.passed (slots f info info.count)) :
    settingsScan f info info.start = ⟨false, 0, []⟩ := by
  rw [settingsScan_passed_slots (Nat.le_refl _), settingsScan, if_neg]
  rw [SettingInfo.place_lt_iff]
  exact Nat.not_lt_of_le hp

/-- Without a value nothing is found. -/
theorem settingsScan_none (hn : n ≤ info.count) (hd : Decided f info n)
    (hv : Journal.value (slots f info n) = none) :
    (settingsScan f info info.start).found = false := by
  by_cases hp : Journal.passed (slots f info n) < n
  · rw [settingsScan_blank hn hp hv]
  · rcases hd with rfl | hd
    · rw [settingsScan_full (Nat.le_of_not_lt hp)]
    · exact absurd hd hp

/-- `settings_get` reads the value of the journal. -/
theorem settingsGet_eq (hn : n ≤ info.count) (hw : 0 < info.sizeByWord) (hd : Decided f info n) :
    settingsGet f info = Journal.value (slots f info n) := by
  unfold settingsGet
  dsimp only
  cases hv : Journal.value (slots f info n) with
  | none => rw [settingsScan_none hn hd hv]; rfl
  | some v =>
      have hp := Journal.passed_lt_of_value hv
      rw [length_slots] at hp
      have hslot := slotAt_passed hp
      rw [hv, Option.elim_some] at hslot
      rw [settingsScan_live hn hv, ((slotAt_eq_live hw).mp hslot).2.2]
      exact congrArg some (take_flashWords f _ (by omega))

end scan

/-! ### Writing a slot -/

/-- Slot `p` became `s`, and nothing else changed. -/
structure Written (f h : ℕ → UInt8) (info : SettingInfo) (p : ℕ) (s : Slot (List UInt32)) :
    Prop where
  slot : slotAt h info (info.place p) = s
  frame : ∀ a, a < info.place p ∨ info.place p + info.stride ≤ a → h a = f a

section written
variable {f h : ℕ → UInt8} {info : SettingInfo} {n p : ℕ} {v : List UInt32}
  {s : Slot (List UInt32)}

theorem Written.slots_eq (hw : Written f h info p s) (n : ℕ) :
    slots h info n = (slots f info n).set p s := by
  refine List.ext_getElem (by simp) fun i hi hi' => ?_
  rw [getElem_slots, List.getElem_set, getElem_slots]
  split
  · next he =>
    rw [← he]
    exact hw.slot
  · next hne =>
    refine slotAt_congr fun j hj => hw.frame _ ?_
    rcases Nat.lt_or_gt_of_ne hne with hlt | hgt
    · have := SettingInfo.place_add_le info hlt
      exact .inr (by unfold SettingInfo.place at *; omega)
    · have := SettingInfo.place_add_le info hgt
      exact .inl (by unfold SettingInfo.place at *; omega)

/-- The effect of a page program that stays in its slot. -/
theorem run_pageProgram {off : ℕ} {bs : List UInt8} (hin : off % 256 + bs.length ≤ 256) :
    (FlashCommand.pageProgram off bs).run f = Nor.burn f off bs :=
  Nor.program_eq_burn (by decide) hin

theorem cut_pageProgram {off : ℕ} {bs : List UInt8} (hin : off % 256 + bs.length ≤ 256)
    (hc : (FlashCommand.pageProgram off bs).Cut f h) : Torn f (Nor.burn f off bs) h := by
  rw [← run_pageProgram hin]
  exact hc

/-- The flag of slot `p` is written over. -/
theorem kill_slot (hf : info.Fits n) (hp : p < n) (hs : slotAt f info (info.place p) = .live v) :
    Written f ((invalidFlagWrite (info.place p + info.bufSize)).run f) info p .dead ∧
      ∀ h, (invalidFlagWrite (info.place p + info.bufSize)).Cut f h →
        Written f h info p (.live v) ∨ Written f h info p .dead := by
  have hpage := hf.page hp
  have hlen : ([0x49, 0x4E, 0x56, 0x41] : List UInt8).length = 4 := rfl
  have hin : (info.place p + info.bufSize) % 256 +
      ([0x49, 0x4E, 0x56, 0x41] : List UInt8).length ≤ 256 := by
    unfold SettingInfo.stride at hpage
    omega
  have hframe : ∀ a, a < info.place p + info.bufSize ∨ info.place p + info.stride ≤ a →
      Nor.burn f (info.place p + info.bufSize) [0x49, 0x4E, 0x56, 0x41] a = f a := fun a ha =>
    Nor.burn_outside (by unfold SettingInfo.stride at ha; omega)
  constructor
  · unfold invalidFlagWrite
    rw [run_pageProgram hin]
    refine ⟨?_, fun a ha => hframe a (by omega)⟩
    rcases live_or_dead hf.word_pos hs fun j hj => hframe _ (.inl (by omega)) with hl | hd
    · -- the first byte of the flag is no longer ones
      have hbyte := ((slotAt_eq_live hf.word_pos).mp hl).1 0 (by decide)
      have hones := ((slotAt_eq_live hf.word_pos).mp hs).1 0 (by decide)
      rw [Nat.add_zero] at hbyte hones
      rw [Nor.burn_inside (Nat.le_refl _) (by simp), hones] at hbyte
      simp only [Nat.sub_self] at hbyte
      exact absurd hbyte (show ¬ NorCell.blend (0xFF : UInt8) 0x49 = 0xFF by decide)
    · exact hd
  · intro h hc
    have ht := cut_pageProgram hin hc
    have hsame : ∀ a, a < info.place p + info.bufSize ∨ info.place p + info.stride ≤ a →
        h a = f a := fun a ha => ht.untouched (hframe a ha)
    rcases live_or_dead hf.word_pos hs fun j hj => hsame _ (.inl (by omega)) with hl | hd
    · exact .inl ⟨hl, fun a ha => hsame a (by omega)⟩
    · exact .inr ⟨hd, fun a ha => hsame a (by omega)⟩

theorem notProgrammed_rails {data : List UInt32} (h : 0 < data.length) :
    notProgrammed (data ++ data.map (~~~ ·)) = false := by
  obtain ⟨w, ws, rfl⟩ := List.exists_cons_of_length_pos h
  refine Bool.eq_false_iff.mpr fun hall => ?_
  have hall := List.all_eq_true.mp hall
  have hw := eq_of_beq (hall w (by simp))
  have hnot := eq_of_beq (hall (~~~ w) (by simp))
  rw [hw] at hnot
  exact absurd hnot (by decide)

theorem inversionDataCheck_rails (data : List UInt32) :
    inversionDataCheck (data ++ data.map (~~~ ·)) data.length = true := by
  refine List.all_eq_true.mpr fun i hi => beq_iff_eq.mpr ?_
  have hi := List.mem_range.mp hi
  rw [List.getD_append _ _ _ _ hi, List.getD_append_right _ _ _ _ (by omega),
    Nat.add_sub_cancel_left, List.getD_eq_getElem _ _ (by simpa using hi),
    List.getD_eq_getElem _ _ hi, List.getElem_map]

/-- A value is written into slot `p`. -/
theorem fill_slot (hf : info.Fits n) (hp : p < n) (hs : slotAt f info (info.place p) = .blank)
    (hv : v.length = info.sizeByWord) :
    Written f ((inversionDataWrite (info.place p) v).run f) info p (.live v) ∧
      ∀ h, (inversionDataWrite (info.place p) v).Cut f h →
        Written f h info p .blank ∨ Written f h info p .dead ∨ Written f h info p (.live v) := by
  have hpage := hf.page hp
  have hblank := slotAt_eq_blank.mp hs
  have hlen : (bytesOfWords (v ++ v.map (~~~ ·))).length = info.bufSize := by
    rw [length_bytesOfWords, List.length_append, List.length_map, hv]
    unfold SettingInfo.bufSize
    omega
  have hstride : info.stride = info.bufSize + 4 := rfl
  have hin : info.place p % 256 + (bytesOfWords (v ++ v.map (~~~ ·))).length ≤ 256 := by omega
  have hframe : ∀ a, a < info.place p ∨ info.place p + info.bufSize ≤ a →
      Nor.burn f (info.place p) (bytesOfWords (v ++ v.map (~~~ ·))) a = f a := fun a ha =>
    Nor.burn_outside (by omega)
  have hlive : slotAt (Nor.burn f (info.place p) (bytesOfWords (v ++ v.map (~~~ ·)))) info
      (info.place p) = .live v := by
    have hflag : flashWord (Nor.burn f (info.place p) (bytesOfWords (v ++ v.map (~~~ ·))))
        (info.place p + info.bufSize) = notProgrammedData :=
      flashWord_eq_ones.mpr fun i hi => by
        rw [hframe _ (.inr (by omega)), Nat.add_assoc]
        exact hblank _ (by omega)
    have hbuf : flashWords (Nor.burn f (info.place p) (bytesOfWords (v ++ v.map (~~~ ·))))
        (info.place p) (info.sizeByWord * 2) = v ++ v.map (~~~ ·) := by
      have hcount : info.sizeByWord * 2 = (v ++ v.map (~~~ ·)).length := by
        rw [List.length_append, List.length_map, hv]
        omega
      rw [hcount]
      refine flashWords_of_bytes fun j hj => ?_
      rw [Nor.burn_inside (Nat.le_add_right _ _) (by omega), hblank j (by omega)]
      simp only [Nat.add_sub_cancel_left]
      exact NorCell.erased_blend _
    unfold slotAt
    rw [if_pos hflag, hbuf, notProgrammed_rails (by rw [hv]; exact hf.word_pos), ← hv,
      inversionDataCheck_rails, List.take_left]
    rfl
  constructor
  · unfold inversionDataWrite
    rw [run_pageProgram hin]
    exact ⟨hlive, fun a ha => hframe a (by omega)⟩
  · intro h hc
    have ht := cut_pageProgram hin hc
    have hsame : ∀ a, a < info.place p ∨ info.place p + info.stride ≤ a → h a = f a :=
      fun a ha => ht.untouched (hframe a (by omega))
    cases hh : slotAt h info (info.place p) with
    | dead => exact .inr (.inl ⟨hh, hsame⟩)
    | blank => exact .inl ⟨hh, hsame⟩
    | live u =>
        rw [live_of_torn hf.word_pos hs hlive ht hh] at hh
        exact .inr (.inr ⟨hh, hsame⟩)

end written

/-! ### Operations on an area -/

/-- The area of `n` slots is a journal with the value `v` and at least `room` blank slots. -/
structure Journaled (flash : ℕ → UInt8) (info : SettingInfo) (n : ℕ) (v : Option (List UInt32))
    (room : ℕ) : Prop where
  ordered : Journal.Ordered (slots flash info n)
  value_eq : Journal.value (slots flash info n) = v
  free_ge : room ≤ Journal.free (slots flash info n)

/-- Nothing changed outside the first `n` slots. -/
def OnlyArea (info : SettingInfo) (n : ℕ) (f h : ℕ → UInt8) : Prop :=
  ∀ a, a < info.start ∨ info.start + n * info.stride ≤ a → h a = f a

/-- The area has the value `data`, in one slot more than before. -/
structure Filled (f g : ℕ → UInt8) (info : SettingInfo) (n : ℕ) (data : List UInt32) (room : ℕ) :
    Prop where
  journaled : Journaled g info n (some data) room
  onlyArea : OnlyArea info n f g
  free_eq : Journal.free (slots g info n) + 1 = Journal.free (slots f info n)

section area
variable {f g h : ℕ → UInt8} {info : SettingInfo} {n p room : ℕ} {v : Option (List UInt32)}
  {data : List UInt32} {s : Slot (List UInt32)}

theorem OnlyArea.trans (h₁ : OnlyArea info n f g) (h₂ : OnlyArea info n g h) :
    OnlyArea info n f h := fun a ha => (h₂ a ha).trans (h₁ a ha)

theorem Written.onlyArea (hw : Written f h info p s) (hp : p < n) : OnlyArea info n f h := by
  have hle := SettingInfo.place_add_le info hp
  have hplace : info.start ≤ info.place p := Nat.le_add_right _ _
  exact fun a ha => hw.frame a (by omega)

/-- A slot that is written as it was changes nothing. -/
theorem Written.journaled_same (hw : Written f h info p s) (hj : Journaled f info n v room)
    (hs : slotAt f info (info.place p) = s) : Journaled h info n v room := by
  have heq : slots h info n = slots f info n := by
    rw [hw.slots_eq n]
    refine List.ext_getElem (by simp) fun i hi hi' => ?_
    rw [List.getElem_set, getElem_slots]
    split
    · next he => rw [← he, hs]
    · rfl
  refine ⟨?_, ?_, ?_⟩
  · rw [heq]; exact hj.ordered
  · rw [heq]; exact hj.value_eq
  · rw [heq]; exact hj.free_ge

/-- The first slot that is not dead dies. -/
theorem Written.journaled_dead (hw : Written f h info (Journal.passed (slots f info n)) .dead)
    (hj : Journaled f info n v room) :
    Journaled h info n none (if v = none then room - 1 else room) := by
  have hfree := hj.ordered.free_kill
  rw [hj.value_eq] at hfree
  refine ⟨?_, ?_, ?_⟩
  · rw [hw.slots_eq n]; exact hj.ordered.kill
  · rw [hw.slots_eq n]; exact hj.ordered.value_kill
  · rw [hw.slots_eq n, hfree]
    have := hj.free_ge
    split <;> omega

/-- The first blank slot is filled. -/
theorem Written.journaled_live
    (hw : Written f h info (Journal.passed (slots f info n)) (.live data))
    (hj : Journaled f info n none (room + 1)) : Journaled h info n (some data) room := by
  have hroom := hj.free_ge
  refine ⟨?_, ?_, ?_⟩
  · rw [hw.slots_eq n]; exact hj.ordered.fill hj.value_eq data
  · rw [hw.slots_eq n]
    exact hj.ordered.value_fill (Journal.passed_lt_of_free (by omega)) data
  · rw [hw.slots_eq n, hj.ordered.free_fill hj.value_eq]
    omega

theorem Written.free_live
    (hw : Written f h info (Journal.passed (slots f info n)) (.live data))
    (hj : Journaled f info n none (room + 1)) :
    Journal.free (slots h info n) + 1 = Journal.free (slots f info n) := by
  have hroom := hj.free_ge
  rw [hw.slots_eq n, hj.ordered.free_fill hj.value_eq]
  omega

theorem Journaled.passed_lt (hj : Journaled f info n v (room + 1)) :
    Journal.passed (slots f info n) < n := by
  have hlt := Journal.passed_lt_of_free (Nat.lt_of_lt_of_le (Nat.succ_pos room) hj.free_ge)
  rwa [length_slots] at hlt

theorem Journaled.mono (hj : Journaled f info n v room) {room' : ℕ} (h : room' ≤ room) :
    Journaled f info n v room' := ⟨hj.ordered, hj.value_eq, Nat.le_trans h hj.free_ge⟩

/-- `settings_make_invalid`: the value is gone; when power goes, it is there or gone. -/
theorem Journaled.makeInvalid (hj : Journaled f info n v room) (hf : info.Fits n)
    (hd : Decided f info n) :
    (Journaled ((settingsMakeInvalid f info).foldl FlashCommand.run f) info n none room ∧
      OnlyArea info n f ((settingsMakeInvalid f info).foldl FlashCommand.run f)) ∧
    ∀ h, CutShort f (settingsMakeInvalid f info) h →
      (Journaled h info n v room ∨ Journaled h info n none room) ∧ OnlyArea info n f h := by
  unfold settingsMakeInvalid
  dsimp only
  cases v with
  | none =>
      rw [settingsScan_none hf.le_count hd hj.value_eq]
      refine ⟨⟨hj, fun a _ => rfl⟩, fun h hc => ?_⟩
      exact absurd hc not_cut_nil
  | some u =>
      have hp := Journal.passed_lt_of_value hj.value_eq
      rw [length_slots] at hp
      have hslot := slotAt_passed hp
      rw [hj.value_eq, Option.elim_some] at hslot
      obtain ⟨hdone, hcut⟩ := kill_slot hf hp hslot
      rw [settingsScan_live hf.le_count hj.value_eq]
      refine ⟨⟨hdone.journaled_dead hj, hdone.onlyArea hp⟩, fun h hc => ?_⟩
      rcases hcut h ((cut_cons.mp hc).resolve_right not_cut_nil) with hw | hw
      · exact ⟨.inl (hw.journaled_same hj hslot), hw.onlyArea hp⟩
      · exact ⟨.inr (hw.journaled_dead hj), hw.onlyArea hp⟩

/-- The write of a value into a journal that has none. -/
theorem Journaled.fill (hj : Journaled f info n none (room + 1)) (hf : info.Fits n)
    (hv : data.length = info.sizeByWord) :
    Filled f ((inversionDataWrite (info.place (Journal.passed (slots f info n))) data).run f) info n
      data room ∧
    ∀ h, (inversionDataWrite (info.place (Journal.passed (slots f info n))) data).Cut f h →
      (Journaled h info n none room ∨ Journaled h info n (some data) room) ∧
        OnlyArea info n f h := by
  have hp := hj.passed_lt
  have hslot := slotAt_passed hp
  rw [hj.value_eq, Option.elim_none] at hslot
  obtain ⟨hdone, hcut⟩ := fill_slot hf hp hslot hv
  refine ⟨⟨hdone.journaled_live hj, hdone.onlyArea hp, hdone.free_live hj⟩, fun h hc => ?_⟩
  rcases hcut h hc with hw | hw | hw
  · exact ⟨.inl ((hw.journaled_same hj hslot).mono (Nat.le_succ room)), hw.onlyArea hp⟩
  · exact ⟨.inl (hw.journaled_dead hj), hw.onlyArea hp⟩
  · exact ⟨.inr (hw.journaled_live hj), hw.onlyArea hp⟩

/-- `settings_set`, when there is room: afterwards the value is the new one, in one slot more; when
power goes, it is the old one, none or the new one. -/
theorem Journaled.set (hj : Journaled f info n v (room + 1)) (hf : info.Fits n)
    (hv : data.length = info.sizeByWord) : ∃ cs, settingsSet f info data = some cs ∧
      Filled f (cs.foldl FlashCommand.run f) info n data room ∧
      ∀ h, CutShort f cs h → (Journaled h info n v room ∨ Journaled h info n none room ∨
        Journaled h info n (some data) room) ∧ OnlyArea info n f h := by
  have hp := hj.passed_lt
  cases v with
  | none =>
      unfold settingsSet
      dsimp only
      obtain ⟨hdone, hcut⟩ := hj.fill hf hv
      have hne : info.place (Journal.passed (slots f info n)) ≠ 0 :=
        Nat.ne_of_gt (Nat.lt_of_lt_of_le hf.start_pos (Nat.le_add_right _ _))
      rw [settingsScan_blank hf.le_count hp hj.value_eq]
      refine ⟨_, if_neg hne, hdone, fun h hc => ?_⟩
      obtain ⟨hw, hframe⟩ := hcut h ((cut_cons.mp hc).resolve_right not_cut_nil)
      exact ⟨.inr hw, hframe⟩
  | some u =>
      have hslot := slotAt_passed hp
      rw [hj.value_eq, Option.elim_some] at hslot
      obtain ⟨hdead, hdeadcut⟩ := kill_slot hf hp hslot
      have hj' : Journaled _ info n none (room + 1) := hdead.journaled_dead hj
      have hnext : Journal.passed (slots ((invalidFlagWrite
          (info.place (Journal.passed (slots f info n)) + info.bufSize)).run f) info n) =
          Journal.passed (slots f info n) + 1 := by
        rw [hdead.slots_eq n]
        exact hj.ordered.passed_kill hj.value_eq
      obtain ⟨hdone, hcut⟩ := hj'.fill hf hv
      rw [hnext, SettingInfo.place_succ] at hdone hcut
      have hframe := hdead.onlyArea hp
      have hsame : Journal.free (slots ((invalidFlagWrite
          (info.place (Journal.passed (slots f info n)) + info.bufSize)).run f) info n) =
          Journal.free (slots f info n) := by
        rw [hdead.slots_eq n, hj.ordered.free_kill, hj.value_eq]
        rfl
      refine ⟨_, settingsSet_live hf.le_count hj.value_eq data,
        ⟨hdone.journaled, hframe.trans hdone.onlyArea, hdone.free_eq.trans hsame⟩,
        fun h hc => ?_⟩
      rcases cut_cons.mp hc with hc | hc
      · rcases hdeadcut h hc with hw | hw
        · exact ⟨.inl ((hw.journaled_same hj hslot).mono (Nat.le_succ room)), hw.onlyArea hp⟩
        · exact ⟨.inr (.inl ((hw.journaled_dead hj).mono (Nat.le_succ room))), hw.onlyArea hp⟩
      · obtain ⟨hw, hf'⟩ := hcut h ((cut_cons.mp hc).resolve_right not_cut_nil)
        exact ⟨.inr hw, hframe.trans hf'⟩

end area

/-! ### Runs -/

/-- What happens to a setting: a call that returns, or one during which power goes, with the flash
that this leaves. -/
inductive SettingsEvent where
  | set (data : List UInt32)
  | makeInvalid
  | setCut (data : List UInt32) (left : ℕ → UInt8)
  | makeInvalidCut (left : ℕ → UInt8)

namespace SettingsEvent

def isSet : SettingsEvent → Bool
  | set _ | setCut _ _ => true
  | _ => false

/-- The values the setting can have afterwards. -/
def outcomes (values : Set (Option (List UInt32))) : SettingsEvent → Set (Option (List UInt32))
  | set data => {some data}
  | makeInvalid => {none}
  | setCut data _ => values ∪ {none, some data}
  | makeInvalidCut _ => values ∪ {none}

end SettingsEvent

/-- The flash after an event; a failed assertion leaves it as it is. -/
def settingsStep (info : SettingInfo) (flash : ℕ → UInt8) : SettingsEvent → ℕ → UInt8
  | .set data => ((settingsSet flash info data).getD []).foldl FlashCommand.run flash
  | .makeInvalid => (settingsMakeInvalid flash info).foldl FlashCommand.run flash
  | .setCut _ left | .makeInvalidCut left => left

theorem settingsStep_of_some {f : ℕ → UInt8} {info : SettingInfo} {data : List UInt32}
    {cs : List FlashCommand} (h : settingsSet f info data = some cs) :
    settingsStep info f (.set data) = cs.foldl FlashCommand.run f :=
  congrArg (fun o => (Option.getD o []).foldl FlashCommand.run f) h

theorem settingsStep_of_none {f : ℕ → UInt8} {info : SettingInfo} {data : List UInt32}
    (h : settingsSet f info data = none) : settingsStep info f (.set data) = f :=
  congrArg (fun o => (Option.getD o []).foldl FlashCommand.run f) h

/-- The flash, with a record of what the setting can be and of how often it was set. -/
structure SettingsRun where
  flash : ℕ → UInt8
  values : Set (Option (List UInt32))
  sets : ℕ

/-- An event, recorded. -/
def SettingsRun.step (info : SettingInfo) (s : SettingsRun) (e : SettingsEvent) : SettingsRun :=
  ⟨settingsStep info s.flash e, e.outcomes s.values, s.sets + e.isSet.toNat⟩

/-- The caller hands over as many words as the setting has, and power goes during a command. -/
def SettingsEvent.Possible (info : SettingInfo) (flash : ℕ → UInt8) : SettingsEvent → Prop
  | set data => data.length = info.sizeByWord
  | makeInvalid => True
  | setCut data left => data.length = info.sizeByWord ∧
      ∃ cs, settingsSet flash info data = some cs ∧ CutShort flash cs left
  | makeInvalidCut left => CutShort flash (settingsMakeInvalid flash info) left

/-- How many values `n` slots take: one each, but a scan that looks at more slots than these must
end at one of them. -/
def SettingInfo.capacity (info : SettingInfo) (n : ℕ) : ℕ := if n = info.count then n else n - 1

/-- The event is possible, and not more values are set than the first `n` slots take. -/
def SettingsRun.Allows (info : SettingInfo) (n : ℕ) (s : SettingsRun) (e : SettingsEvent) : Prop :=
  e.Possible info s.flash ∧ (e.isSet = true → s.sets < info.capacity n)

/-- The first `n` slots are a journal with one of the recorded values. -/
structure SettingsRun.Sound (info : SettingInfo) (n : ℕ) (flash : ℕ → UInt8) (s : SettingsRun) :
    Prop where
  journaled : ∃ v ∈ s.values, Journaled s.flash info n v (n - s.sets)
  onlyArea : OnlyArea info n flash s.flash
  sets_le : s.sets ≤ info.capacity n

section run
variable {info : SettingInfo} {f flash : ℕ → UInt8} {s : SettingsRun} {e : SettingsEvent} {n : ℕ}

theorem SettingInfo.capacity_le (info : SettingInfo) (n : ℕ) : info.capacity n ≤ n := by
  unfold capacity
  split
  · exact Nat.le_refl n
  · exact Nat.sub_le n 1

theorem SettingsRun.Sound.decided (hs : s.Sound info n flash) (hn : 0 < n) :
    Decided s.flash info n := by
  obtain ⟨v, -, hj⟩ := hs.journaled
  have hle := hs.sets_le
  unfold SettingInfo.capacity at hle
  split at hle
  · next hcount => exact .inl hcount
  · rw [show n - s.sets = n - s.sets - 1 + 1 by omega] at hj
    exact .inr hj.passed_lt

/-- An erased area. -/
theorem journaled_erased (h : ∀ a, info.start ≤ a → a < info.start + n * info.stride →
    f a = 0xFF) : Journaled f info n none n := by
  have hslots : slots f info n = List.replicate n .blank := by
    refine List.eq_replicate_iff.mpr ⟨length_slots f info n, fun s hs => ?_⟩
    obtain ⟨i, hi, rfl⟩ := List.mem_map.mp hs
    have hi := List.mem_range.mp hi
    have hle := SettingInfo.place_add_le info hi
    have hplace : info.start ≤ info.place i := Nat.le_add_right _ _
    exact slotAt_eq_blank.mpr fun j hj => h _ (by omega) (by omega)
  refine ⟨?_, ?_, ?_⟩
  · rw [hslots]; exact .blank n
  · rw [hslots]; exact Journal.value_replicate n
  · rw [hslots, Journal.free_replicate]

theorem SettingsRun.sound_step (hf : info.Fits n) (hn : 0 < n) (hs : s.Sound info n flash)
    (ha : s.Allows info n e) : (s.step info e).Sound info n flash := by
  have hd := hs.decided hn
  obtain ⟨⟨v, hv, hj⟩, hframe, hsets⟩ := hs
  obtain ⟨hpos, hroom⟩ := ha
  have hle := info.capacity_le n
  cases e with
  | set data =>
      have hroom := hroom rfl
      rw [show n - s.sets = n - (s.sets + 1) + 1 by omega] at hj
      obtain ⟨cs, hcs, hdone, -⟩ := hj.set hf hpos
      refine ⟨⟨some data, rfl, ?_⟩, ?_, hroom⟩
      · rw [SettingsRun.step, settingsStep_of_some hcs]
        exact hdone.journaled
      · rw [SettingsRun.step, settingsStep_of_some hcs]
        exact hframe.trans hdone.onlyArea
  | makeInvalid =>
      obtain ⟨⟨hdone, hout⟩, -⟩ := hj.makeInvalid hf hd
      exact ⟨⟨none, rfl, hdone⟩, hframe.trans hout, hsets⟩
  | setCut data left =>
      have hroom := hroom rfl
      rw [show n - s.sets = n - (s.sets + 1) + 1 by omega] at hj
      obtain ⟨hlen, cs, hcs, hcut⟩ := hpos
      obtain ⟨cs', hcs', -, hleft⟩ := hj.set hf hlen
      rw [hcs] at hcs'
      obtain rfl := Option.some.inj hcs'
      obtain ⟨hw, hout⟩ := hleft left hcut
      refine ⟨?_, hframe.trans hout, hroom⟩
      rcases hw with hw | hw | hw
      · exact ⟨v, .inl hv, hw⟩
      · exact ⟨none, .inr (.inl rfl), hw⟩
      · exact ⟨some data, .inr (.inr rfl), hw⟩
  | makeInvalidCut left =>
      obtain ⟨-, hleft⟩ := hj.makeInvalid hf hd
      obtain ⟨hw, hout⟩ := hleft left hpos
      refine ⟨?_, hframe.trans hout, hsets⟩
      rcases hw with hw | hw
      · exact ⟨v, .inl hv, hw⟩
      · exact ⟨none, .inr rfl, hw⟩

theorem SettingsRun.Sound.get (hf : info.Fits n) (hn : 0 < n) (hs : s.Sound info n flash) :
    settingsGet s.flash info ∈ s.values := by
  have hd := hs.decided hn
  obtain ⟨⟨v, hv, hj⟩, -⟩ := hs
  rw [settingsGet_eq hf.le_count hf.word_pos hd, hj.value_eq]
  exact hv

/-- Over every run from erased slots, with power cuts at any point of any command: what is read
back is the value set last, if nothing was cut since, and otherwise one of the values before and
after the calls that were, or none.  Nothing outside the slots changes, and as long as fewer values
were set than they take the next one does not fail.

The area may have more slots than the `n` that lie in its page, as that of the copy record has. -/
theorem settings_get_of_run (hf : info.Fits n) (hn : 0 < n) (flash : ℕ → UInt8)
    (herased : ∀ a, info.start ≤ a → a < info.start + n * info.stride → flash a = 0xFF)
    (es : List SettingsEvent)
    (ha : Machine.Along (SettingsRun.step info) (SettingsRun.Allows info n) ⟨flash, {none}, 0⟩ es) :
    let s := Machine.exec (SettingsRun.step info) ⟨flash, {none}, 0⟩ es
    settingsGet s.flash info ∈ s.values ∧ OnlyArea info n flash s.flash ∧
      (s.sets < info.capacity n → ∀ data, data.length = info.sizeByWord →
        ∃ cs, settingsSet s.flash info data = some cs) := by
  have hstart : SettingsRun.Sound info n flash ⟨flash, {none}, 0⟩ :=
    ⟨⟨none, rfl, journaled_erased herased⟩, fun a _ => rfl, Nat.zero_le _⟩
  have hsound := Machine.exec_invariant (I := SettingsRun.Sound info n flash)
    (fun s e hs => SettingsRun.sound_step hf hn hs) hstart ha
  refine ⟨hsound.get hf hn, hsound.onlyArea, fun hroom data hlen => ?_⟩
  obtain ⟨v, -, hj⟩ := hsound.journaled
  have hle := info.capacity_le n
  rw [show n - _ = n - (_ + 1) + 1 from
    (Nat.succ_pred_eq_of_pos (Nat.sub_pos_of_lt (Nat.lt_of_lt_of_le hroom hle))).symm] at hj
  obtain ⟨cs, hcs, -⟩ := hj.set hf hlen
  exact ⟨cs, hcs⟩

/-- On erased slots the first value is written to the first one. -/
theorem settingsSet_erased (hf : info.Fits n) (hn : 0 < n)
    (herased : ∀ a, info.start ≤ a → a < info.start + n * info.stride → f a = 0xFF)
    (data : List UInt32) :
    settingsSet f info data = some [inversionDataWrite info.start data] := by
  have hplace : info.place 0 = info.start := by
    rw [SettingInfo.place, Nat.zero_mul, Nat.add_zero]
  have hblank : slotAt f info info.start = .blank := by
    refine slotAt_eq_blank.mpr fun j hj => herased _ (Nat.le_add_right _ _) ?_
    have := Nat.le_mul_of_pos_left info.stride hn
    omega
  have hlt := SettingInfo.place_lt_iff.mpr (Nat.lt_of_lt_of_le hn hf.le_count)
  rw [hplace] at hlt
  have hpos := hf.start_pos
  unfold settingsSet
  rw [settingsScan_slot hlt, hblank]
  exact if_neg (Nat.ne_of_gt hpos)

/-- A setting of three words in an area of 128 bytes at the end of a page, which four of its five
slots lie in. -/
def threeWords : SettingInfo := ⟨0x7FF80, 128, 3⟩

theorem threeWords_fits : threeWords.Fits 4 := ⟨by decide, by decide, by decide, by decide⟩

/-- Power goes before the first value is written at all; then a value is set and withdrawn. -/
theorem settings_get_of_cut_run :
    settingsGet (Machine.exec (SettingsRun.step threeWords) ⟨fun _ => 0xFF, {none}, 0⟩
      [.setCut [7, 8, 9] fun _ => 0xFF, .set [4, 5, 6], .makeInvalid]).flash threeWords = none := by
  have hset := settingsSet_erased (f := fun _ => 0xFF) threeWords_fits (by decide)
    (fun _ _ _ => rfl) [7, 8, 9]
  have hcut : CutShort (fun _ => 0xFF) [inversionDataWrite threeWords.start [7, 8, 9]]
      fun _ => 0xFF := .now (fun a => between_left _ _) []
  exact (settings_get_of_run threeWords_fits (by decide) (fun _ => 0xFF) (fun _ _ _ => rfl)
    [.setCut [7, 8, 9] fun _ => 0xFF, .set [4, 5, 6], .makeInvalid]
    ⟨⟨⟨rfl, _, hset, hcut⟩, fun _ => by decide⟩, ⟨rfl, fun _ => by decide⟩,
      ⟨trivial, nofun⟩, trivial⟩).1

end run

/-! ### How often a setting can be set -/

/-- The flags of the first `p` slots are written over. -/
def Flagged (f : ℕ → UInt8) (info : SettingInfo) (p : ℕ) : Prop :=
  ∀ i < p, flashWord f (info.place i + info.bufSize) ≠ notProgrammedData

section capacity
variable {info : SettingInfo} {f flash : ℕ → UInt8} {data u : List UInt32} {o p n : ℕ}

theorem ones_of_blend {c d : UInt8} (h : NorCell.blend c d = 0xFF) : c = 0xFF := by
  have hbits : c.toBitVec &&& d.toBitVec = BitVec.allOnes 8 := congrArg UInt8.toBitVec h
  exact UInt8.toBitVec_inj.mp (BitVec.and_eq_allOnes_iff.mp hbits).1

/-- A byte that is not all ones is not made so by programming. -/
theorem pageProgram_ne_ones {a : ℕ} (h : f a ≠ 0xFF) (off : ℕ) (bs : List UInt8) :
    (FlashCommand.pageProgram off bs).run f a ≠ 0xFF :=
  Nor.program_keeps (P := (· ≠ 0xFF)) (fun _ _ hc hand => hc (ones_of_blend hand)) h

theorem flag_keeps (h : flashWord f o ≠ notProgrammedData) (off : ℕ) (bs : List UInt8) :
    flashWord ((FlashCommand.pageProgram off bs).run f) o ≠ notProgrammedData := by
  intro hones
  refine h (flashWord_eq_ones.mpr fun i hi => ?_)
  by_contra hbyte
  exact pageProgram_ne_ones hbyte off bs (flashWord_eq_ones.mp hones i hi)

/-- The flag that is written is not all ones, whatever was there. -/
theorem flag_written (f : ℕ → UInt8) (o : ℕ) :
    flashWord ((invalidFlagWrite o).run f) o ≠ notProgrammedData := by
  intro hones
  have hbyte := flashWord_eq_ones.mp hones 0 (by decide)
  have hlatch : Nor.latched 256 o 4 o = 0 := by
    have haround : Nor.around 256 o o = 0 := by
      have hlt := Nat.mod_lt o (show 0 < 256 by decide)
      rw [Nor.around, Nat.add_sub_cancel' (Nat.le_of_lt hlt), Nat.mod_self]
    rw [Nor.latched, haround]
  rw [Nat.add_zero] at hbyte
  change Nor.program 256 f o [0x49, 0x4E, 0x56, 0x41] o = 0xFF at hbyte
  rw [Nor.program, if_pos rfl, show ([0x49, 0x4E, 0x56, 0x41] : List UInt8).length = 4 from rfl,
    hlatch] at hbyte
  have hflag : NorCell.blend 0x49 (f o) = 0xFF := by
    rw [← hbyte]
    exact UInt8.and_comm _ _
  exact absurd (ones_of_blend hflag) (by decide)

theorem Flagged.pageProgram (h : Flagged f info p) (off : ℕ) (bs : List UInt8) :
    Flagged ((FlashCommand.pageProgram off bs).run f) info p :=
  fun i hi => flag_keeps (h i hi) off bs

/-- A new value withdraws the old one, wherever it is written itself. -/
theorem Flagged.set (hn : n ≤ info.count) (hv : Journal.value (slots f info n) = some u)
    (h : Flagged f info (Journal.passed (slots f info n))) (data : List UInt32) :
    Flagged (settingsStep info f (.set data)) info (Journal.passed (slots f info n) + 1) := by
  rw [settingsStep_of_some (settingsSet_live hn hv data)]
  refine Flagged.pageProgram (fun i hi => ?_) _ _
  rcases Nat.lt_succ_iff_lt_or_eq.mp hi with hlt | rfl
  · exact flag_keeps (h i hlt) _ _
  · exact flag_written f _

/-- When all flags are written over there is nothing to find and no offset to write at. -/
theorem Flagged.full (h : Flagged f info info.count) :
    settingsGet f info = none ∧ ∀ more, settingsSet f info more = none := by
  have hpassed : info.count ≤ Journal.passed (slots f info info.count) := by
    by_contra hlt
    have hp := Nat.lt_of_not_le hlt
    have hslot := slotAt_passed hp
    unfold slotAt at hslot
    rw [if_neg (h _ hp)] at hslot
    cases hv : Journal.value (slots f info info.count) with
    | none => rw [hv] at hslot; cases hslot
    | some v => rw [hv] at hslot; cases hslot
  have hscan := settingsScan_full hpassed
  constructor
  · unfold settingsGet
    rw [hscan]
    rfl
  · intro more
    unfold settingsSet
    rw [hscan]
    rfl

/-- Calls that fail leave the flash as it is. -/
theorem exec_sets_lost (h : ∀ more, settingsSet f info more = none) (ds : List (List UInt32)) :
    Machine.exec (settingsStep info) f (ds.map .set) = f := by
  induction ds with
  | nil => rfl
  | cons d ds ih =>
      rw [List.map_cons, Machine.exec_cons, settingsStep_of_none (h d), ih]

/-- A setting of one word in an area of 64 bytes. -/
def oneWord : SettingInfo := ⟨0x7FF40, 64, 1⟩

theorem oneWord_fits : oneWord.Fits oneWord.count := ⟨by decide, by decide, by decide, by decide⟩

/-- The values `ds` were set on an erased area: the last one is there, each has taken a slot, and
the flags of those before it are written over. -/
structure HoldsSets (info : SettingInfo) (ds : List (List UInt32)) (f : ℕ → UInt8) : Prop where
  journaled : Journaled f info info.count ds.getLast? (info.count - ds.length)
  free_eq : Journal.free (slots f info info.count) = info.count - ds.length
  flagged : Flagged f info (ds.length - 1)

/-- One value more withdraws the last one, also when there is no slot left for it. -/
theorem HoldsSets.flagged_next {ds : List (List UInt32)} (h : HoldsSets info ds f)
    (hle : ds.length ≤ info.count) (d : List UInt32) :
    Flagged (settingsStep info f (.set d)) info ds.length := by
  obtain ⟨hj, hfree, hflag⟩ := h
  cases hlast : ds.getLast? with
  | none =>
      rw [List.getLast?_eq_none_iff.mp hlast]
      exact nofun
  | some u =>
      rw [hlast] at hj
      have hpassed := hj.ordered.free_eq_of_value hj.value_eq
      have hp := Journal.passed_lt_of_value hj.value_eq
      rw [length_slots] at hpassed hp
      have hlen : Journal.passed (slots f info info.count) + 1 = ds.length := by omega
      rw [show ds.length - 1 = Journal.passed (slots f info info.count) by omega] at hflag
      rw [← hlen]
      exact hflag.set (Nat.le_refl _) hj.value_eq d

/-- Values that are set one after the other, no more than there are slots. -/
theorem holds_sets (hf : info.Fits info.count)
    (herased : ∀ a, info.start ≤ a → a < info.start + info.count * info.stride → flash a = 0xFF)
    (ds : List (List UInt32)) (hlen : ∀ d ∈ ds, d.length = info.sizeByWord)
    (hle : ds.length ≤ info.count) :
    HoldsSets info ds (Machine.exec (settingsStep info) flash (ds.map .set)) := by
  induction ds using List.reverseRecOn with
  | nil =>
      have hj := journaled_erased herased
      refine ⟨hj, ?_, nofun⟩
      have hfree := hj.ordered.free_eq hj.value_eq
      have hroom := hj.free_ge
      rw [length_slots] at hfree
      exact Nat.le_antisymm (by rw [List.map_nil, Machine.exec_nil, hfree]; exact Nat.sub_le _ _)
        hroom
  | append_singleton ds d ih =>
      rw [List.length_append, List.length_singleton] at hle
      have hds := ih (fun d hd => hlen d (List.mem_append_left _ hd)) (by omega)
      have hflag := hds.flagged_next (by omega) d
      obtain ⟨hj, hfree, -⟩ := hds
      rw [show info.count - ds.length = info.count - (ds.length + 1) + 1 by omega] at hj hfree
      obtain ⟨cs, hcs, hdone, -⟩ :=
        hj.set hf (hlen d (List.mem_append_right _ (List.mem_singleton_self d)))
      rw [settingsStep_of_some hcs] at hflag
      rw [List.map_append, Machine.exec_append, List.map_singleton, Machine.exec_cons,
        Machine.exec_nil, settingsStep_of_some hcs]
      have hone := hdone.free_eq
      refine ⟨?_, ?_, ?_⟩
      · rw [List.getLast?_concat, List.length_append, List.length_singleton]
        exact hdone.journaled
      · rw [List.length_append, List.length_singleton]
        omega
      · rw [List.length_append, List.length_singleton]
        exact hflag

/-- How often a setting can be set between two erases: exactly as often as the area has slots.  The
values before that are read back; with one value more the setting is lost, and every further one
fails the assertion. -/
theorem settings_capacity (hf : info.Fits info.count) (flash : ℕ → UInt8)
    (herased : ∀ a, info.start ≤ a → a < info.start + info.count * info.stride → flash a = 0xFF)
    (ds : List (List UInt32)) (hlen : ∀ d ∈ ds, d.length = info.sizeByWord) :
    let g := Machine.exec (settingsStep info) flash (ds.map .set)
    (ds.length ≤ info.count → settingsGet g info = ds.getLast?) ∧
      (info.count < ds.length → settingsGet g info = none ∧
        ∀ more, settingsSet g info more = none) := by
  constructor
  · intro hle
    rw [settingsGet_eq (Nat.le_refl _) hf.word_pos (.inl rfl)]
    exact (holds_sets hf herased ds hlen hle).journaled.value_eq
  · intro hgt
    -- the value behind the last slot withdraws the one in it; what follows fails
    obtain ⟨front, d, rest, rfl, hfront⟩ : ∃ front d rest, ds = front ++ d :: rest ∧
        front.length = info.count := by
      refine ⟨ds.take info.count, ds[info.count], ds.drop (info.count + 1), ?_, ?_⟩
      · rw [List.getElem_cons_drop, List.take_append_drop]
      · rw [List.length_take, Nat.min_eq_left (Nat.le_of_lt hgt)]
    have hflag := (holds_sets hf herased front (fun d hd => hlen d (List.mem_append_left _ hd))
      (Nat.le_of_eq hfront)).flagged_next (Nat.le_of_eq hfront) d
    rw [hfront] at hflag
    rw [List.map_append, Machine.exec_append, List.map_cons, Machine.exec_cons,
      exec_sets_lost hflag.full.2]
    exact hflag.full

theorem oneWord_capacity :
    settingsGet (Machine.exec (settingsStep oneWord) (fun _ => 0xFF)
      ((List.replicate 7 [5]).map .set)) oneWord = none :=
  ((settings_capacity oneWord_fits (fun _ => 0xFF) (fun _ _ _ => rfl)
    (List.replicate 7 [5]) (by simp [oneWord])).2 (by decide)).1

end capacity

end ErgoDock
