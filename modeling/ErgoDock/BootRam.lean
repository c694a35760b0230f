import ErgoDock.OtaSettings

/-! # The boot loader (`boot_ram_le501x.c`)

`boot_ram_start` copies an image when there is a copy record, withdraws the record, chooses where to
boot and erases the update settings when that was asked for.  Its hardware set-up is left out.

Power may go at any command to the flash.  A start that was cut short is followed by another one,
and the copy is taken up from its beginning until the record is withdrawn
(`BootRam.boot_after_cuts`). -/

namespace ErgoDock
open PowerCut

/-! ### Copying -/

/-- `CEILING(size, FLASH_PAGE_SIZE)`, in 32 bits. -/
def fwPages (size : UInt32) : UInt32 := (size + 255) / 256

/-- The offset of page `i` behind `addr`. -/
def fwOffset (addr : UInt32) (i : UInt16) : UInt32 := addr - flashBaseAddr + i.toUInt32 * 256

/-- The erase of a round of `fw_copy`: page `i` begins a sector. -/
def fwErase (dst : UInt32) (i : UInt16) : List FlashCommand :=
  if i % 16 = 0 then [.sectorErase (fwOffset dst i).toNat] else []

/-- A round of `fw_copy`. -/
def fwCopyRound (src dst : UInt32) (i : UInt16) (flash : ℕ → UInt8) : List FlashCommand :=
  fwErase dst i ++ [.pageProgram (fwOffset dst i).toNat
    (flashRead ((fwErase dst i).foldl FlashCommand.run flash) (fwOffset src i) 256)]

/-- The loop of `fw_copy`, for at most so many rounds; `none` when that is not the end. -/
def fwCopyLoop (src dst size : UInt32) : ℕ → UInt16 → (ℕ → UInt8) → Option (List FlashCommand)
  | 0, _, _ => none
  | fuel + 1, i, flash =>
      if i.toUInt32 < fwPages size then
        (fwCopyLoop src dst size fuel (i + 1)
          ((fwCopyRound src dst i flash).foldl FlashCommand.run flash)).map
          (fwCopyRound src dst i flash ++ ·)
      else some []

/-- `fw_copy`; `none` when it never ends.  The counter has 65536 values. -/
def fwCopy (src dst size : UInt32) (flash : ℕ → UInt8) : Option (List FlashCommand) :=
  fwCopyLoop src dst size 65536 0 flash

/-! ### The start -/

/-- The offset is `APP_IMAGE_BASE_OFFSET`. -/
def getAppImageBase (flash : ℕ → UInt8) : UInt32 := flashWord flash 0x24

/-- The first part of `boot_ram_start`: the copy, and the end of its record. -/
def bootCopy (chip : FlashChip) (flash : ℕ → UInt8) : Option (List FlashCommand) :=
  match otaCopyInfoGet chip flash with
  | some info =>
      (fwCopy info.fwCopySrcAddr info.fwCopyDstAddr info.fwCopySize flash).map fun cs =>
        cs ++ otaCopyDoneSet chip (cs.foldl FlashCommand.run flash)
  | none => some []

/-- `boot_ram_start`: what it does to the flash, and the image it boots. -/
def bootRamStart (chip : FlashChip) (flash : ℕ → UInt8) : Option (List FlashCommand × UInt32) :=
  (bootCopy chip flash).map fun cs =>
    (cs ++ (if otaSettingsEraseReqGet chip (cs.foldl FlashCommand.run flash) then
        otaSettingsErase chip else []),
      (otaBootAddrGet chip (cs.foldl FlashCommand.run flash)).getD (getAppImageBase flash))

namespace FlashCommand
variable {f h : ℕ → UInt8} {c : FlashCommand} {a : ℕ}

/-- The sector of an erase, the page of a program. -/
def cells : FlashCommand → Set ℕ
  | sectorErase offset => {a | a / 4096 = offset / 4096}
  | pageProgram offset _ => {a | a / 256 = offset / 256}

theorem run_outside (ha : a ∉ c.cells) : c.run f a = f a := by
  cases c with
  | sectorErase offset => exact Nor.erase_outside ha
  | pageProgram offset data => exact Nor.program_outside ha

theorem cut_outside (hc : c.Cut f h) (ha : a ∉ c.cells) : h a = f a := by
  cases c with
  | sectorErase offset => exact hc a ha
  | pageProgram offset data => exact Torn.untouched hc (Nor.program_outside ha)

/-- Commands that are cut short leave the cells outside theirs alone. -/
theorem cutShort_outside {cs : List FlashCommand} (hc : CutShort f cs h)
    (ha : ∀ c ∈ cs, a ∉ c.cells) : h a = f a :=
  hc.invariant (I := fun g : ℕ → UInt8 => g a = f a)
    (fun _ hc _ hg => (run_outside (ha _ hc)).trans hg)
    (fun _ hc _ _ hg hcut => (cut_outside hcut (ha _ hc)).trans hg) rfl

end FlashCommand

/-! ### What a copy does -/

namespace FotaCopyInfo
variable (info : FotaCopyInfo)

def srcOffset : ℕ := (info.fwCopySrcAddr - flashBaseAddr).toNat

def dstOffset : ℕ := (info.fwCopyDstAddr - flashBaseAddr).toNat

def pages : ℕ := (fwPages info.fwCopySize).toNat

/-- The sectors that are erased. -/
def sectors : ℕ := ceiling info.pages 16

/-- The cells of the sectors that are erased. -/
def target : Set ℕ := {a | info.dstOffset ≤ a ∧ a < info.dstOffset + 4096 * info.sectors}

/-- The image is copied to whole sectors of the flash, apart from where it is. -/
structure Copyable (chip : FlashChip) : Prop where
  aligned : info.dstOffset % 4096 = 0
  src_end : info.srcOffset + 256 * info.pages ≤ chip.totalSize
  dst_end : info.dstOffset + 4096 * info.sectors ≤ chip.totalSize
  apart : info.srcOffset + 256 * info.pages ≤ info.dstOffset ∨
    info.dstOffset + 4096 * info.sectors ≤ info.srcOffset

/-- The image is copied to whole sectors, which lie between the first one and the last one, that of
the settings, and apart from where the image is, which is before the settings. -/
structure Fits (chip : FlashChip) : Prop where
  aligned : info.dstOffset % 4096 = 0
  past_header : 4096 ≤ info.dstOffset
  src_end : info.srcOffset + 256 * info.pages + 256 ≤ chip.totalSize
  dst_end : info.dstOffset + 4096 * info.sectors + 4096 ≤ chip.totalSize
  apart : info.srcOffset + 256 * info.pages ≤ info.dstOffset ∨
    info.dstOffset + 4096 * info.sectors ≤ info.srcOffset

theorem toNat_fwOffset {addr : UInt32} {i : ℕ} (hi : i < 65536)
    (h : (addr - flashBaseAddr).toNat + 256 * i < 2 ^ 32) :
    (fwOffset addr (UInt16.ofNat i)).toNat = (addr - flashBaseAddr).toNat + 256 * i := by
  have hcounter : (UInt16.ofNat i).toUInt32.toNat = i := by
    rw [UInt16.toNat_toUInt32, UInt16.toNat_ofNat', Nat.mod_eq_of_lt hi]
  rw [fwOffset, UInt32.toNat_add, UInt32.toNat_mul, hcounter]
  change ((addr - flashBaseAddr).toNat + i * 256 % 2 ^ 32) % 2 ^ 32 = _
  omega

/-- The loop at page `i`: the pages before are copied, the rest of the sector is erased, and
nothing else has changed. -/
structure CopiedTo (f g : ℕ → UInt8) (i : ℕ) : Prop where
  copied : ∀ j < 256 * i, g (info.dstOffset + j) = f (info.srcOffset + j)
  blank : ∀ j, 256 * i ≤ j → j < 4096 * ceiling i 16 → g (info.dstOffset + j) = 0xFF
  outside : ∀ a ∉ info.target, g a = f a

section round
variable {info} {chip : FlashChip} {f g : ℕ → UInt8} {i : ℕ}

theorem Fits.copyable (hf : info.Fits chip) : info.Copyable chip where
  aligned := hf.aligned
  src_end := Nat.le_trans (Nat.le_add_right _ 256) hf.src_end
  dst_end := Nat.le_trans (Nat.le_add_right _ 4096) hf.dst_end
  apart := hf.apart

theorem Copyable.toNat_dst (hf : info.Copyable chip) (hi : i < info.pages) :
    (fwOffset info.fwCopyDstAddr (UInt16.ofNat i)).toNat = info.dstOffset + 256 * i := by
  have htotal := chip.totalSize_le
  have hend := hf.dst_end
  have hpages : info.pages ≤ 16 * info.sectors := by
    unfold sectors ceiling
    omega
  exact toNat_fwOffset (by omega) (by unfold dstOffset at hend; omega)

theorem Copyable.toNat_src (hf : info.Copyable chip) (hi : i < info.pages) :
    (fwOffset info.fwCopySrcAddr (UInt16.ofNat i)).toNat = info.srcOffset + 256 * i := by
  have htotal := chip.totalSize_le
  have hend := hf.src_end
  exact toNat_fwOffset (by omega) (by unfold srcOffset at hend; omega)

theorem counter_mod (hi : i < 65536) : UInt16.ofNat i % 16 = 0 ↔ i % 16 = 0 := by
  rw [← UInt16.toNat_inj, UInt16.toNat_mod, UInt16.toNat_ofNat', Nat.mod_eq_of_lt hi]
  rfl

/-- The erase of a round leaves the rest of the sector of page `i` blank. -/
theorem CopiedTo.erase (h : info.CopiedTo f g i) (hf : info.Copyable chip) (hi : i < info.pages)
    (hlt : i < 65536) :
    let g' := (fwErase info.fwCopyDstAddr (UInt16.ofNat i)).foldl FlashCommand.run g
    (∀ j < 256 * i, g' (info.dstOffset + j) = f (info.srcOffset + j)) ∧
      (∀ j, 256 * i ≤ j → j < 4096 * ceiling (i + 1) 16 → g' (info.dstOffset + j) = 0xFF) ∧
        ∀ a ∉ info.target, g' a = f a := by
  have haligned := hf.aligned
  have hsectors : i / 16 + 1 ≤ info.sectors := by
    unfold sectors ceiling
    omega
  unfold fwErase
  by_cases hfirst : i % 16 = 0
  · rw [if_pos ((counter_mod hlt).mpr hfirst), List.foldl_cons, List.foldl_nil]
    have hout : ∀ a, a / 4096 ≠ (info.dstOffset + 256 * i) / 4096 →
        (FlashCommand.sectorErase (fwOffset info.fwCopyDstAddr (UInt16.ofNat i)).toNat).run g a =
          g a := by
      intro a ha
      rw [hf.toNat_dst hi]
      exact Nor.erase_outside ha
    refine ⟨fun j hj => ?_, fun j hlo hhi => ?_, fun a ha => ?_⟩
    · rw [hout _ (by omega)]
      exact h.copied j hj
    · rw [hf.toNat_dst hi]
      refine Nor.erase_inside ?_
      unfold ceiling at hhi
      omega
    · rw [hout a ?_]
      · exact h.outside a ha
      · intro heq
        exact ha ⟨by omega, by omega⟩
  · rw [if_neg fun h0 => hfirst ((counter_mod hlt).mp h0), List.foldl_nil]
    refine ⟨h.copied, fun j hlo hhi => h.blank j hlo ?_, h.outside⟩
    unfold ceiling at hhi ⊢
    omega

theorem length_flashRead (flash : ℕ → UInt8) (offset : UInt32) (n : ℕ) :
    (flashRead flash offset n).length = n := by simp [flashRead]

/-- A round copies a page. -/
theorem CopiedTo.round (h : info.CopiedTo f g i) (hf : info.Copyable chip) (hi : i < info.pages)
    (hlt : i < 65536) :
    info.CopiedTo f ((fwCopyRound info.fwCopySrcAddr info.fwCopyDstAddr (UInt16.ofNat i) g).foldl
      FlashCommand.run g) (i + 1) := by
  obtain ⟨hcopied, hblank, hout⟩ := h.erase hf hi hlt
  have haligned := hf.aligned
  have hsrc := hf.src_end
  have htotal := chip.totalSize_le
  have hpages : 256 * info.pages ≤ 4096 * info.sectors := by
    unfold sectors ceiling
    omega
  unfold fwCopyRound
  rw [List.foldl_append, List.foldl_cons, List.foldl_nil]
  generalize (fwErase info.fwCopyDstAddr (UInt16.ofNat i)).foldl FlashCommand.run g = g' at *
  have hrun : (FlashCommand.pageProgram (fwOffset info.fwCopyDstAddr (UInt16.ofNat i)).toNat
      (flashRead g' (fwOffset info.fwCopySrcAddr (UInt16.ofNat i)) 256)).run g' =
      Nor.burn g' (info.dstOffset + 256 * i)
        (flashRead g' (fwOffset info.fwCopySrcAddr (UInt16.ofNat i)) 256) := by
    rw [hf.toNat_dst hi]
    exact run_pageProgram (by rw [length_flashRead]; omega)
  rw [hrun]
  refine ⟨fun j hj => ?_, fun j hlo hhi => ?_, fun a ha => ?_⟩
  · rcases Nat.lt_or_ge j (256 * i) with hj' | hj'
    · rw [Nor.burn_outside (.inl (by omega))]
      exact hcopied j hj'
    · -- the page of this round
      have hread : (fwOffset info.fwCopySrcAddr (UInt16.ofNat i) +
          UInt32.ofNat (info.dstOffset + j - (info.dstOffset + 256 * i))).toNat =
          info.srcOffset + j := by
        rw [UInt32.toNat_add, hf.toNat_src hi, UInt32.toNat_ofNat', Nat.mod_eq_of_lt (by omega),
          Nat.mod_eq_of_lt (by omega)]
        omega
      have hapart : info.srcOffset + j ∉ info.target := by
        rintro ⟨hlo, hhi⟩
        rcases hf.apart with hap | hap <;> omega
      rw [Nor.burn_inside (by omega) (by rw [length_flashRead]; omega),
        hblank j hj' (by unfold ceiling; omega)]
      simp only [flashRead, List.getElem_map, List.getElem_range]
      rw [hread, hout _ hapart]
      exact NorCell.erased_blend _
  · rw [Nor.burn_outside (.inr (by rw [length_flashRead]; omega))]
    exact hblank j (by omega) hhi
  · have hcell : a < info.dstOffset + 256 * i ∨ info.dstOffset + 256 * i + 256 ≤ a := by
      by_contra hin
      exact ha ⟨by omega, by omega⟩
    rw [Nor.burn_outside (by rw [length_flashRead]; exact hcell)]
    exact hout a ha

/-- The cells of the commands of a round are in the target. -/
theorem Copyable.round_cells (hf : info.Copyable chip) (hi : i < info.pages) (hlt : i < 65536)
    {c : FlashCommand}
    (hc : c ∈ fwCopyRound info.fwCopySrcAddr info.fwCopyDstAddr (UInt16.ofNat i) g) {a : ℕ}
    (ha : a ∉ info.target) : a ∉ c.cells := by
  have haligned := hf.aligned
  have hsectors : i / 16 + 1 ≤ info.sectors := by
    unfold sectors ceiling
    omega
  have hdst := hf.toNat_dst hi
  rintro hin
  refine ha ?_
  rcases List.mem_append.mp hc with hc | hc
  · unfold fwErase at hc
    split at hc
    · next h0 =>
      have h0 := (counter_mod hlt).mp h0
      obtain rfl := List.mem_singleton.mp hc
      have hin : a / 4096 = (fwOffset info.fwCopyDstAddr (UInt16.ofNat i)).toNat / 4096 := hin
      exact ⟨by omega, by omega⟩
    · cases hc
  · obtain rfl := List.mem_singleton.mp hc
    have hin : a / 256 = (fwOffset info.fwCopyDstAddr (UInt16.ofNat i)).toNat / 256 := hin
    exact ⟨by omega, by omega⟩

end round

/-! ### The loop -/

section loop
variable {info} {chip : FlashChip} {f g : ℕ → UInt8} {i : ℕ}

theorem toUInt32_lt_iff (info : FotaCopyInfo) {i : UInt16} :
    i.toUInt32 < fwPages info.fwCopySize ↔ i.toNat < info.pages := by
  rw [UInt32.lt_iff_toNat_lt, UInt16.toNat_toUInt32]
  rfl

/-- With more pages than the counter has values the loop never ends. -/
theorem fwCopyLoop_endless (h : 65536 ≤ info.pages) (fuel : ℕ) (i : UInt16) (g : ℕ → UInt8) :
    fwCopyLoop info.fwCopySrcAddr info.fwCopyDstAddr info.fwCopySize fuel i g = none := by
  induction fuel generalizing i g with
  | zero => rfl
  | succ fuel ih =>
      have hlt := i.toNat_lt
      rw [fwCopyLoop, if_pos (info.toUInt32_lt_iff.mpr (by omega)), ih]
      rfl

/-- Otherwise it ends after a round for each page. -/
theorem fwCopyLoop_ends (h : info.pages < 65536) (hi : i ≤ info.pages) (g : ℕ → UInt8) {fuel : ℕ}
    (hfuel : info.pages - i < fuel) : ∃ cs, fwCopyLoop info.fwCopySrcAddr info.fwCopyDstAddr
      info.fwCopySize fuel (UInt16.ofNat i) g = some cs := by
  induction fuel generalizing i g with
  | zero => exact absurd hfuel (Nat.not_lt_zero _)
  | succ fuel ih =>
      have hcounter : (UInt16.ofNat i).toNat = i := UInt16.toNat_ofNat_of_lt (by
        change i < 65536
        omega)
      rw [fwCopyLoop]
      split
      · next hlt =>
        rw [info.toUInt32_lt_iff, hcounter] at hlt
        obtain ⟨cs, hcs⟩ := ih (i := i + 1) (by omega) ((fwCopyRound info.fwCopySrcAddr
          info.fwCopyDstAddr (UInt16.ofNat i) g).foldl FlashCommand.run g) (by omega)
        rw [UInt16.ofNat_add] at hcs
        exact ⟨_, congrArg (Option.map _) hcs⟩
      · exact ⟨[], rfl⟩

/-- What the loop has done when it ends, and which cells it can touch on the way. -/
theorem CopiedTo.loop (h : info.CopiedTo f g i) (hf : info.Copyable chip) (hp : info.pages < 65536)
    (hi : i ≤ info.pages) {fuel : ℕ} {cs : List FlashCommand}
    (hcs : fwCopyLoop info.fwCopySrcAddr info.fwCopyDstAddr info.fwCopySize fuel (UInt16.ofNat i)
      g = some cs) :
    info.CopiedTo f (cs.foldl FlashCommand.run g) info.pages ∧
      ∀ c ∈ cs, ∀ a ∉ info.target, a ∉ c.cells := by
  induction fuel generalizing i g cs with
  | zero => cases hcs
  | succ fuel ih =>
      have hcounter : (UInt16.ofNat i).toNat = i := UInt16.toNat_ofNat_of_lt (by
        change i < 65536
        omega)
      rw [fwCopyLoop] at hcs
      split at hcs
      · next hlt =>
        rw [info.toUInt32_lt_iff, hcounter] at hlt
        obtain ⟨rest, hrest, rfl⟩ := Option.map_eq_some_iff.mp hcs
        have hnext : UInt16.ofNat i + 1 = UInt16.ofNat (i + 1) := (UInt16.ofNat_add i 1).symm
        rw [hnext] at hrest
        obtain ⟨hdone, hcells⟩ := ih (h.round hf hlt (by omega)) hlt hrest
        rw [List.foldl_append]
        refine ⟨hdone, fun c hc a ha => ?_⟩
        rcases List.mem_append.mp hc with hc | hc
        · exact hf.round_cells hlt (by omega) hc ha
        · exact hcells c hc a ha
      · next hge =>
        rw [info.toUInt32_lt_iff, hcounter] at hge
        obtain rfl := Option.some.inj hcs
        obtain rfl : i = info.pages := by omega
        exact ⟨h, nofun⟩

theorem copiedTo_zero (info : FotaCopyInfo) (f : ℕ → UInt8) : info.CopiedTo f f 0 :=
  ⟨nofun, fun j _ hj => absurd hj (by unfold ceiling; omega), fun _ _ => rfl⟩

theorem Copyable.pages_lt (hf : info.Copyable chip) : info.pages < 65536 := by
  have htotal := chip.totalSize_le
  have hend := hf.src_end
  have hdst := hf.dst_end
  -- an image of the size of the flash has no place apart from it
  have hsectors : info.pages ≤ 16 * info.sectors := by
    unfold sectors ceiling
    omega
  rcases hf.apart with hap | hap <;> omega

/-- `fw_copy` of an image that it can copy. -/
theorem Copyable.fwCopy (hf : info.Copyable chip) (f : ℕ → UInt8) :
    ∃ cs, ErgoDock.fwCopy info.fwCopySrcAddr info.fwCopyDstAddr info.fwCopySize f = some cs ∧
      info.CopiedTo f (cs.foldl FlashCommand.run f) info.pages ∧
        ∀ c ∈ cs, ∀ a ∉ info.target, a ∉ c.cells := by
  have hfuel : info.pages - 0 < 65536 := hf.pages_lt
  obtain ⟨cs, hcs⟩ := fwCopyLoop_ends hf.pages_lt (Nat.zero_le _) f hfuel
  exact ⟨cs, hcs, (copiedTo_zero info f).loop hf hf.pages_lt (Nat.zero_le _) hcs⟩

/-- `fw_copy` returns exactly when there are fewer pages than its counter has values.  An image
whose target is whole sectors of the flash, apart from it, is copied byte for byte, and outside these
sectors nothing changes. -/
theorem fw_copy_correct (info : FotaCopyInfo) (f : ℕ → UInt8) :
    ((∃ fuel cs, fwCopyLoop info.fwCopySrcAddr info.fwCopyDstAddr info.fwCopySize fuel 0 f =
        some cs) ↔ info.pages < 65536) ∧
      ∀ chip, info.Copyable chip → info.fwCopySize.toNat + 255 < 2 ^ 32 →
        ∃ cs, ErgoDock.fwCopy info.fwCopySrcAddr info.fwCopyDstAddr info.fwCopySize f = some cs ∧
          (∀ j < info.fwCopySize.toNat,
            cs.foldl FlashCommand.run f (info.dstOffset + j) = f (info.srcOffset + j)) ∧
          ∀ a ∉ info.target, cs.foldl FlashCommand.run f a = f a := by
  refine ⟨⟨?_, fun h => ?_⟩, fun chip hf hsize => ?_⟩
  · rintro ⟨fuel, cs, hcs⟩
    by_contra hge
    rw [fwCopyLoop_endless (Nat.le_of_not_lt hge)] at hcs
    cases hcs
  · exact ⟨_, fwCopyLoop_ends h (Nat.zero_le _) f (Nat.lt_succ_self _)⟩
  · obtain ⟨cs, hcs, hdone, -⟩ := hf.fwCopy f
    refine ⟨cs, hcs, fun j hj => hdone.copied j ?_, hdone.outside⟩
    have hpages : info.pages = (info.fwCopySize.toNat + 255) / 256 := by
      unfold pages fwPages
      rw [UInt32.toNat_div, UInt32.toNat_add]
      change (info.fwCopySize.toNat + 255) % 2 ^ 32 / 256 = _
      rw [Nat.mod_eq_of_lt hsize]
    omega

/-- The last sector but one is copied to the first one. -/
theorem fw_copy_of_one_sector (f : ℕ → UInt8) : ∃ cs,
    ErgoDock.fwCopy 0x1807E000 0x18000000 4096 f = some cs ∧
      ∀ j < 4096, cs.foldl FlashCommand.run f j = f (0x7E000 + j) := by
  obtain ⟨cs, hcs, hcopied, -⟩ := (fw_copy_correct ⟨0x1807E000, 0x18000000, 4096⟩ f).2 chip512
    ⟨by decide, by decide, by decide, by decide⟩ (by decide)
  refine ⟨cs, hcs, fun j hj => ?_⟩
  have hj := hcopied j hj
  rwa [show FotaCopyInfo.dstOffset ⟨0x1807E000, 0x18000000, 4096⟩ = 0 by decide,
    show FotaCopyInfo.srcOffset ⟨0x1807E000, 0x18000000, 4096⟩ = 0x7E000 by decide,
    Nat.zero_add] at hj

end loop

end FotaCopyInfo

/-! ### Power cuts -/

/-- Each record of the update settings is a journal in its own slots, one of which is blank. -/
def OtaSettled (chip : FlashChip) (flash : ℕ → UInt8) : Prop :=
  ∃ value, OtaRecords chip flash value fun _ => 1

/-- A start whose copy was cut short. -/
def BootCut (chip : FlashChip) (f h : ℕ → UInt8) : Prop :=
  ∃ cs, bootCopy chip f = some cs ∧ CutShort f cs h

namespace BootRam
variable {chip : FlashChip} {info : FotaCopyInfo} {value : OtaRecord → Option (List UInt32)}
  {f₀ f g h : ℕ → UInt8} {a : ℕ}

/-- Cells that a copy and the end of its record leave alone. -/
def Apart (chip : FlashChip) (info : FotaCopyInfo) (a : ℕ) : Prop :=
  a ∉ info.target ∧ (a < getOtaSettingsOffset chip ∨ getOtaSettingsOffset chip + 256 ≤ a)

/-- The copy of the image that was in `f₀` is still to be made. -/
structure Pending (chip : FlashChip) (info : FotaCopyInfo)
    (value : OtaRecord → Option (List UInt32)) (f₀ f : ℕ → UInt8) : Prop where
  records : OtaRecords chip f value fun _ => 1
  same : ∀ a, Apart chip info a → f a = f₀ a

/-- The image that was in `f₀` is copied, and the record is withdrawn. -/
structure Copied (chip : FlashChip) (info : FotaCopyInfo)
    (value : OtaRecord → Option (List UInt32)) (f₀ f : ℕ → UInt8) : Prop where
  records : OtaRecords chip f (Function.update value .copyInfo none) fun _ => 1
  copied : ∀ j < 256 * info.pages, f (info.dstOffset + j) = f₀ (info.srcOffset + j)
  same : ∀ a, Apart chip info a → f a = f₀ a

/-- Records outside the target of a copy keep their values. -/
theorem records_congr (hr : OtaRecords chip f value fun _ => 1) (hf : info.Fits chip)
    (hfg : ∀ a ∉ info.target, g a = f a) : OtaRecords chip g value fun _ => 1 := by
  intro r
  have hpage := r.in_page chip
  have hend := hf.dst_end
  have htotal := chip.settingsOffset_add
  refine (hr r).congr fun a hlo _ => hfg a ?_
  rintro ⟨-, hhi⟩
  omega

theorem get_of_records (hr : OtaRecords chip f value fun _ => 1) (r : OtaRecord) :
    settingsGet f (r.info chip) = value r := hr.get fun _ _ => Nat.one_pos

/-- The source of a copy is apart from all that it changes. -/
theorem src_apart (hf : info.Fits chip) {j : ℕ} (hj : j < 256 * info.pages) :
    Apart chip info (info.srcOffset + j) := by
  have htotal := chip.settingsOffset_add
  have hsrc := hf.src_end
  refine ⟨?_, .inl (by omega)⟩
  rintro ⟨hlo, hhi⟩
  rcases hf.apart with hap | hap <;> omega

/-- A start when the copy is still to be made: it makes the copy, and when power goes the copy is
still to be made or done. -/
theorem Pending.bootCopy (hp : Pending chip info value f₀ f) (hf : info.Fits chip)
    (hcopy : (value .copyInfo).map .ofWords = some info) :
    ∃ cs, bootCopy chip f = some cs ∧ Copied chip info value f₀ (cs.foldl FlashCommand.run f) ∧
      ∀ h, CutShort f cs h → Pending chip info value f₀ h ∨ Copied chip info value f₀ h := by
  have hget : otaCopyInfoGet chip f = some info := by
    unfold otaCopyInfoGet
    rw [← hcopy]
    exact congrArg _ (get_of_records hp.records .copyInfo)
  obtain ⟨cs, hcs, hdone, hcells⟩ := hf.copyable.fwCopy f
  have hpending : ∀ g, (∀ a ∉ info.target, g a = f a) → Pending chip info value f₀ g :=
    fun g hg => ⟨records_congr hp.records hf hg, fun a ha => (hg a ha.1).trans (hp.same a ha)⟩
  have hafter := hpending _ hdone.outside
  -- the state between the copy and the end of its record
  have hcopied : ∀ {g}, OtaRecords chip g (Function.update value .copyInfo none) (fun _ => 1) →
      OnlyArea (otaCopyInfo chip) OtaRecord.copyInfo.own (cs.foldl FlashCommand.run f) g →
        Copied chip info value f₀ g := by
    intro g hr hout
    have hpage := chip.settingsOffset_add
    have hend := hf.dst_end
    have hpages : 256 * info.pages ≤ 4096 * info.sectors := by
      unfold FotaCopyInfo.sectors ceiling
      omega
    refine ⟨hr, fun j hj => ?_, fun a ha => ?_⟩
    · rw [hout.outside_page (r := .copyInfo) (.inl (by omega)), hdone.copied j hj,
        hp.same _ (src_apart hf hj)]
    · rw [hout.outside_page (r := .copyInfo) ha.2]
      exact hafter.same a ha
  obtain ⟨⟨hnone, hout⟩, hshort⟩ := hafter.records.makeInvalid (r := .copyInfo) Nat.one_pos
  refine ⟨cs ++ otaCopyDoneSet chip (cs.foldl FlashCommand.run f), ?_, ?_, fun h hc => ?_⟩
  · unfold ErgoDock.bootCopy
    rw [hget]
    exact congrArg (Option.map _) hcs
  · rw [List.foldl_append]
    exact hcopied hnone hout
  · rcases cut_append.mp hc with hc | hc
    · exact .inl (hpending h fun a ha =>
        FlashCommand.cutShort_outside hc fun c hcm => hcells c hcm a ha)
    · obtain ⟨⟨v, hv, hleft⟩, hout⟩ := hshort h hc
      rcases hv with rfl | rfl
      · rw [Function.update_eq_self] at hleft
        refine .inl ⟨hleft, fun a ha => ?_⟩
        rw [hout.outside_page ha.2]
        exact hafter.same a ha
      · exact .inr (hcopied hleft hout)

/-- A start when the copy is done makes none. -/
theorem Copied.bootCopy (hc : Copied chip info value f₀ f) :
    ErgoDock.bootCopy chip f = some [] := by
  have hget : otaCopyInfoGet chip f = none := by
    unfold otaCopyInfoGet
    change Option.map _ (settingsGet f (OtaRecord.copyInfo.info chip)) = none
    rw [get_of_records hc.records .copyInfo, Function.update_self]
    rfl
  unfold ErgoDock.bootCopy
  rw [hget]

/-- Over any number of starts that were cut short the copy is still to be made or done. -/
theorem pending_or_copied (hp : Pending chip info value f₀ f₀) (hf : info.Fits chip)
    (hcopy : (value .copyInfo).map .ofWords = some info)
    (hcuts : Relation.ReflTransGen (BootCut chip) f₀ f) :
    Pending chip info value f₀ f ∨ Copied chip info value f₀ f := by
  induction hcuts with
  | refl => exact .inl hp
  | tail _ hcut ih =>
      obtain ⟨cs, hcs, hshort⟩ := hcut
      rcases ih with hp | hc
      · obtain ⟨cs', hcs', -, hleft⟩ := hp.bootCopy hf hcopy
        rw [hcs] at hcs'
        obtain rfl := Option.some.inj hcs'
        exact hleft _ hshort
      · rw [hc.bootCopy] at hcs
        obtain rfl := Option.some.inj hcs
        exact absurd hshort not_cut_nil

/-- What `boot_ram_start` has done when it jumps to the image: the copy, and the end of its record
or, when that was asked for, of all update settings. -/
structure Booted (chip : FlashChip) (info : FotaCopyInfo) (f₀ g : ℕ → UInt8) : Prop where
  copied : ∀ j < 256 * info.pages, g (info.dstOffset + j) = f₀ (info.srcOffset + j)
  settings : ∀ r, settingsGet g (OtaRecord.info chip r) =
    if otaSettingsEraseReqGet chip f₀ = true ∨ r = .copyInfo then none
    else settingsGet f₀ (OtaRecord.info chip r)
  outside : ∀ a ∉ info.target, a / 4096 ≠ getOtaSettingsOffset chip / 4096 → g a = f₀ a

theorem Copied.get (hc : Copied chip info value f₀ f) (r : OtaRecord) :
    settingsGet f (r.info chip) = Function.update value .copyInfo none r :=
  get_of_records hc.records r

/-- The rest of a start, when the copy is done. -/
theorem Copied.booted (hc : Copied chip info value f₀ f) (hf : info.Fits chip)
    (hvalue : ∀ r, settingsGet f₀ (OtaRecord.info chip r) = value r) :
    Booted chip info f₀ ((if otaSettingsEraseReqGet chip f then otaSettingsErase chip
      else []).foldl FlashCommand.run f) := by
  have hend := hf.dst_end
  have htotal := chip.settingsOffset_add
  obtain ⟨k, hoff⟩ := chip.settingsOffset_eq
  have hpages : 256 * info.pages ≤ 4096 * info.sectors := by
    unfold FotaCopyInfo.sectors ceiling
    omega
  have hreq : otaSettingsEraseReqGet chip f₀ = otaSettingsEraseReqGet chip f :=
    congrArg Option.isSome ((hvalue .eraseReq).trans (hc.get .eraseReq).symm)
  cases herase : otaSettingsEraseReqGet chip f with
  | false =>
      rw [herase] at hreq
      refine ⟨hc.copied, fun r => ?_, fun a ha hsector =>
        hc.same a ⟨ha, FlashChip.outside_page hsector⟩⟩
      refine (hc.get r).trans ?_
      rw [hvalue, hreq, Function.update_apply]
      simp
  | true =>
      rw [herase] at hreq
      refine ⟨fun j hj => ?_, fun r => ?_, fun a ha hsector => ?_⟩
      · exact (otaSettingsErase_outside (by omega)).trans (hc.copied j hj)
      · rw [if_pos (show otaSettingsEraseReqGet chip f₀ = true ∨ r = .copyInfo from .inl hreq)]
        exact (otaRecords_erased chip f).get fun _ _ => r.own_pos
      · exact (otaSettingsErase_outside hsector).trans
          (hc.same a ⟨ha, FlashChip.outside_page hsector⟩)

/-- Power may go any number of times during the copy: the start that is not cut short boots where
the update settings said at first, with the whole image copied, its record withdrawn, and nothing
else changed but the settings. -/
theorem boot_after_cuts (hf : info.Fits chip) (hs : OtaSettled chip f₀)
    (hget : otaCopyInfoGet chip f₀ = some info)
    (hcuts : Relation.ReflTransGen (BootCut chip) f₀ f) :
    ∃ cs, bootRamStart chip f =
        some (cs, (otaBootAddrGet chip f₀).getD (getAppImageBase f₀)) ∧
      Booted chip info f₀ (cs.foldl FlashCommand.run f) := by
  obtain ⟨value, hr⟩ := hs
  have hvalue : ∀ r, settingsGet f₀ (OtaRecord.info chip r) = value r := get_of_records hr
  have hcopy : (value .copyInfo).map .ofWords = some info := by
    rw [← hvalue .copyInfo]
    exact hget
  have hstate := pending_or_copied ⟨hr, fun _ _ => rfl⟩ hf hcopy hcuts
  -- whether the copy was still to be made or not, it is now done
  have hdone : ∃ cs, bootCopy chip f = some cs ∧
      Copied chip info value f₀ (cs.foldl FlashCommand.run f) := by
    rcases hstate with hp | hc
    · obtain ⟨cs, hcs, hc, -⟩ := hp.bootCopy hf hcopy
      exact ⟨cs, hcs, hc⟩
    · exact ⟨[], hc.bootCopy, hc⟩
  have hbase : getAppImageBase f = getAppImageBase f₀ := by
    have hheader := hf.past_header
    obtain ⟨k, hoff⟩ := chip.settingsOffset_eq
    refine flashWord_eq_iff.mpr fun i hi => ?_
    have happart : Apart chip info (0x24 + i) := ⟨fun hin => by have := hin.1; omega, by omega⟩
    rcases hstate with hp | hc
    · exact hp.same _ happart
    · exact hc.same _ happart
  obtain ⟨cs, hcs, hc⟩ := hdone
  have hboot : otaBootAddrGet chip (cs.foldl FlashCommand.run f) = otaBootAddrGet chip f₀ := by
    have hsame : settingsGet (cs.foldl FlashCommand.run f) (otaBootAddrInfo chip) =
        settingsGet f₀ (otaBootAddrInfo chip) :=
      (hc.get .bootAddr).trans (hvalue .bootAddr).symm
    unfold otaBootAddrGet
    rw [hsame]
  refine ⟨_, by rw [bootRamStart, hcs, Option.map_some, hboot, hbase], ?_⟩
  rw [List.foldl_append]
  exact hc.booted hf hvalue

end BootRam

/-- Every reachable state of the update settings has room left in each record. -/
theorem OtaRun.Sound.settled {chip : FlashChip} {flash : ℕ → UInt8} {s : OtaRun}
    (hs : s.Sound chip flash) : OtaSettled chip s.flash := by
  obtain ⟨value, -, hr⟩ := hs.records
  exact ⟨value, fun r => (hr r).mono (Nat.sub_pos_of_lt (hs.room r))⟩

/-- The update settings were erased and then written by any run of calls, some of them cut short.
When they ask for a copy, power may go any number of times while it is made: the first start that is
not cut short boots where the settings said, with the whole image copied and the record withdrawn,
and has changed nothing else. -/
theorem boot_survives_power_cuts (chip : FlashChip) (flash : ℕ → UInt8) (es : List OtaEvent)
    (ha : Machine.Along (OtaRun.step chip) (OtaRun.Allows chip) (.start chip flash) es)
    (info : FotaCopyInfo) (hf : info.Fits chip) {f : ℕ → UInt8} :
    let s := Machine.exec (OtaRun.step chip) (.start chip flash) es
    otaCopyInfoGet chip s.flash = some info → Relation.ReflTransGen (BootCut chip) s.flash f →
      ∃ cs, bootRamStart chip f =
          some (cs, (otaBootAddrGet chip s.flash).getD (getAppImageBase s.flash)) ∧
        BootRam.Booted chip info s.flash (cs.foldl FlashCommand.run f) := by
  intro s hget hcuts
  exact BootRam.boot_after_cuts hf (OtaRun.sound_run ha).settled hget hcuts

/-- A page is copied, with the settings as they are after the record was set. -/
theorem boot_of_one_page : ∃ cs base, bootRamStart chip512
    (Machine.exec (OtaRun.step chip512) (.start chip512 fun _ => 0)
      [.returns (.copyInfoSet ⟨0x18040000, 0x18004000, 256⟩)]).flash = some (cs, base) := by
  have hrun : Machine.Along (OtaRun.step chip512) (OtaRun.Allows chip512)
      (.start chip512 fun _ => 0) [.returns (.copyInfoSet ⟨0x18040000, 0x18004000, 256⟩)] :=
    ⟨by rintro r ws ⟨⟩; decide, trivial⟩
  have hmem := (OtaRun.sound_run hrun).get .copyInfo
  have hget : otaCopyInfoGet chip512 (Machine.exec (OtaRun.step chip512)
      (.start chip512 fun _ => 0) [.returns (.copyInfoSet ⟨0x18040000, 0x18004000, 256⟩)]).flash =
      some ⟨0x18040000, 0x18004000, 256⟩ := congrArg (Option.map FotaCopyInfo.ofWords) hmem
  obtain ⟨cs, hcs, -⟩ := boot_survives_power_cuts chip512 (fun _ => 0) _ hrun
    ⟨0x18040000, 0x18004000, 256⟩ ⟨by decide, by decide, by decide, by decide, by decide⟩ hget .refl
  exact ⟨cs, _, hcs⟩

end ErgoDock
