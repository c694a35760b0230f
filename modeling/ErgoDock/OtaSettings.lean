import ErgoDock.InflashSettings

/-! # The update settings (`ota_settings.c`)

Three settings share the last page of the flash: where to copy an image from and to, where to boot,
and the request to erase these settings.  The area of the boot address runs over the one of the copy
record, and the latter over the end of the page; `OtaRecord.own` counts the slots of each that do
not.  As long as the records stay in these slots they do not disturb one another
(`ota_settings_of_run`). -/

namespace ErgoDock
open PowerCut

/-- The flash chip, by the capacity in its identification. -/
structure FlashChip where
  capacityId : ℕ
  sector_le : 12 ≤ capacityId
  le_offsets : capacityId ≤ 24

/-- `hal_flash_total_size_get`. -/
def FlashChip.totalSize (chip : FlashChip) : ℕ := 1 <<< chip.capacityId

def getOtaSettingsOffset (chip : FlashChip) : ℕ := chip.totalSize - 256

/-- `fota_copy_info`. -/
structure FotaCopyInfo where
  fwCopySrcAddr : UInt32
  fwCopyDstAddr : UInt32
  fwCopySize : UInt32
deriving DecidableEq

def FotaCopyInfo.toWords (info : FotaCopyInfo) : List UInt32 :=
  [info.fwCopySrcAddr, info.fwCopyDstAddr, info.fwCopySize]

def FotaCopyInfo.ofWords (ws : List UInt32) : FotaCopyInfo :=
  ⟨ws.getD 0 0, ws.getD 1 0, ws.getD 2 0⟩

@[simp] theorem FotaCopyInfo.ofWords_toWords (info : FotaCopyInfo) :
    ofWords info.toWords = info := rfl

section settings
variable (chip : FlashChip) (flash : ℕ → UInt8)

/-- `get_ota_copy_info`. -/
def otaCopyInfo : SettingInfo := ⟨getOtaSettingsOffset chip + 128, 128, 3⟩

/-- `get_ota_boot_addr_info`. -/
def otaBootAddrInfo : SettingInfo := ⟨getOtaSettingsOffset chip + 64, 64, 1⟩

/-- `get_ota_settings_erase_req_info`. -/
def otaSettingsEraseReqInfo : SettingInfo := ⟨getOtaSettingsOffset chip + 0, 16, 1⟩

def otaSettingsErase : List FlashCommand := [.sectorErase (getOtaSettingsOffset chip)]

def otaSettingsEraseReqGet : Bool := (settingsGet flash (otaSettingsEraseReqInfo chip)).isSome

/-- The word is `ERAS`. -/
def otaSettingsEraseReqSet : Option (List FlashCommand) :=
  settingsSet flash (otaSettingsEraseReqInfo chip) [0x53415245]

def otaBootAddrGet : Option UInt32 :=
  (settingsGet flash (otaBootAddrInfo chip)).map fun ws => ws.getD 0 0

def otaBootAddrSet (addr : UInt32) : Option (List FlashCommand) :=
  settingsSet flash (otaBootAddrInfo chip) [addr]

def otaCopyInfoGet : Option FotaCopyInfo :=
  (settingsGet flash (otaCopyInfo chip)).map .ofWords

def otaCopyInfoSet (info : FotaCopyInfo) : Option (List FlashCommand) :=
  settingsSet flash (otaCopyInfo chip) info.toWords

def otaCopyDoneSet : List FlashCommand := settingsMakeInvalid flash (otaCopyInfo chip)

end settings

/-! ### The page -/

namespace FlashChip
variable (chip : FlashChip)

/-- The flash consists of sectors. -/
theorem exists_sectors : ∃ k, chip.totalSize = 4096 * (k + 1) := by
  have hpos : 0 < 2 ^ (chip.capacityId - 12) := Nat.two_pow_pos _
  refine ⟨2 ^ (chip.capacityId - 12) - 1, ?_⟩
  rw [totalSize, Nat.one_shiftLeft, Nat.sub_add_cancel hpos, show (4096 : ℕ) = 2 ^ 12 from rfl,
    ← pow_add, Nat.add_sub_cancel' chip.sector_le]

theorem totalSize_le : chip.totalSize ≤ 2 ^ 24 := by
  rw [totalSize, Nat.one_shiftLeft]
  exact Nat.pow_le_pow_right (by decide) chip.le_offsets

/-- The settings are the last page of the last sector. -/
theorem settingsOffset_eq : ∃ k, getOtaSettingsOffset chip = 4096 * k + 3840 := by
  obtain ⟨k, hk⟩ := chip.exists_sectors
  refine ⟨k, ?_⟩
  unfold getOtaSettingsOffset
  omega

theorem settingsOffset_add : getOtaSettingsOffset chip + 256 = chip.totalSize := by
  obtain ⟨k, hk⟩ := chip.exists_sectors
  unfold getOtaSettingsOffset
  omega

end FlashChip

inductive OtaRecord where
  | copyInfo
  | bootAddr
  | eraseReq
deriving DecidableEq

namespace OtaRecord

def info (chip : FlashChip) : OtaRecord → SettingInfo
  | copyInfo => otaCopyInfo chip
  | bootAddr => otaBootAddrInfo chip
  | eraseReq => otaSettingsEraseReqInfo chip

/-- The slots that lie in the page and before the next area. -/
def own : OtaRecord → ℕ
  | copyInfo => 4
  | bootAddr => 5
  | eraseReq => 2

variable (chip : FlashChip) (r : OtaRecord)

/-- Where the area of a record begins in the page. -/
def first : OtaRecord → ℕ
  | copyInfo => 128
  | bootAddr => 64
  | eraseReq => 0

/-- Where the own slots of a record end in the page. -/
def last : OtaRecord → ℕ
  | copyInfo => 240
  | bootAddr => 124
  | eraseReq => 24

theorem start_eq : (r.info chip).start = getOtaSettingsOffset chip + r.first := by
  cases r <;> rfl

theorem end_eq : (r.info chip).start + r.own * (r.info chip).stride =
    getOtaSettingsOffset chip + r.last := by
  have hlast : r.first + r.own * (r.info chip).stride = r.last := by cases r <;> rfl
  rw [start_eq, Nat.add_assoc, hlast]

theorem fits : (r.info chip).Fits r.own := by
  obtain ⟨k, hoff⟩ := chip.settingsOffset_eq
  have hstart := r.start_eq chip
  have hend := r.end_eq chip
  have hlast : r.last ≤ 240 := by cases r <;> decide
  have hfirst : r.first ≤ 128 := by cases r <;> decide
  exact {
    start_pos := by omega
    word_pos := by cases r <;> exact Nat.succ_pos _
    le_count := by
      cases r with
      | copyInfo => exact show 4 ≤ ceiling 128 28 by decide
      | bootAddr => exact show 5 ≤ ceiling 64 12 by decide
      | eraseReq => exact show 2 ≤ ceiling 16 12 by decide
    in_page := by omega }

/-- The own slots of a record lie in the page. -/
theorem in_page : getOtaSettingsOffset chip ≤ (r.info chip).start ∧
    (r.info chip).start + r.own * (r.info chip).stride ≤ getOtaSettingsOffset chip + 256 := by
  have hlast : r.last ≤ 240 := by cases r <;> decide
  rw [end_eq, start_eq]
  omega

/-- The own slots of two records do not overlap. -/
theorem disjoint {r r' : OtaRecord} (h : r ≠ r') :
    (r.info chip).start + r.own * (r.info chip).stride ≤ (r'.info chip).start ∨
      (r'.info chip).start + r'.own * (r'.info chip).stride ≤ (r.info chip).start := by
  have horder : r.last ≤ r'.first ∨ r'.last ≤ r.first := by
    cases r <;> cases r' <;> first | exact absurd rfl h | decide
  rw [end_eq, end_eq, start_eq, start_eq]
  omega

end OtaRecord

/-- The three records have their values, and this much room is left in each. -/
def OtaRecords (chip : FlashChip) (flash : ℕ → UInt8) (value : OtaRecord → Option (List UInt32))
    (room : OtaRecord → ℕ) : Prop :=
  ∀ r, Journaled flash (r.info chip) r.own (value r) (room r)

section records
variable {chip : FlashChip} {f g h : ℕ → UInt8} {value : OtaRecord → Option (List UInt32)}
  {room : OtaRecord → ℕ} {r : OtaRecord} {v : Option (List UInt32)} {k : ℕ}

theorem Journaled.congr {info : SettingInfo} {n : ℕ} (hj : Journaled f info n v k)
    (hfg : ∀ a, info.start ≤ a → a < info.start + n * info.stride → g a = f a) :
    Journaled g info n v k := by
  have hslots : slots g info n = slots f info n := by
    refine List.map_congr_left fun i hi => slotAt_congr fun j hj' => hfg _ ?_ ?_
    · exact Nat.le_trans (Nat.le_add_right _ _) (Nat.le_add_right _ _)
    · have := SettingInfo.place_add_le info (List.mem_range.mp hi)
      omega
  refine ⟨?_, ?_, ?_⟩
  · rw [hslots]; exact hj.ordered
  · rw [hslots]; exact hj.value_eq
  · rw [hslots]; exact hj.free_ge

/-- A record that changes does not disturb the others. -/
theorem OtaRecords.update (hr : OtaRecords chip f value room)
    (hj : Journaled g (r.info chip) r.own v k) (hout : OnlyArea (r.info chip) r.own f g) :
    OtaRecords chip g (Function.update value r v) (Function.update room r k) := by
  intro r'
  by_cases he : r' = r
  · subst he
    rw [Function.update_self, Function.update_self]
    exact hj
  · rw [Function.update_of_ne he, Function.update_of_ne he]
    refine (hr r').congr fun a hlo hhi => hout a ?_
    have := OtaRecord.disjoint chip he
    omega

/-- Cells that do not lie in the page are not changed with a record. -/
theorem OnlyArea.outside_page (hout : OnlyArea (r.info chip) r.own f g) {a : ℕ}
    (ha : a < getOtaSettingsOffset chip ∨ getOtaSettingsOffset chip + 256 ≤ a) : g a = f a := by
  have := r.in_page chip
  exact hout a (by omega)

/-- What is read of a record. -/
theorem OtaRecords.get (hr : OtaRecords chip f value room)
    (hroom : value r = none → r.own < (r.info chip).count → 0 < room r) :
    settingsGet f (r.info chip) = value r := by
  have hf := r.fits chip
  have hj := hr r
  rw [settingsGet_eq hf.le_count hf.word_pos ?_, hj.value_eq]
  rcases Nat.eq_or_lt_of_le hf.le_count with heq | hlt
  · exact .inl heq
  · have hpassed : Journal.passed (slots f (r.info chip) r.own) <
        (slots f (r.info chip) r.own).length := by
      cases hv : value r with
      | none => exact Journal.passed_lt_of_free (Nat.lt_of_lt_of_le (hroom hv hlt) hj.free_ge)
      | some u => exact Journal.passed_lt_of_value (hj.value_eq.trans hv)
    rw [length_slots] at hpassed
    exact .inr hpassed

/-- Erasing the settings erases all records. -/
theorem otaRecords_erased (chip : FlashChip) (flash : ℕ → UInt8) :
    OtaRecords chip ((otaSettingsErase chip).foldl FlashCommand.run flash) (fun _ => none)
      OtaRecord.own := by
  intro r
  refine journaled_erased fun a hlo hhi => Nor.erase_inside ?_
  have hpage := r.in_page chip
  obtain ⟨k, hoff⟩ := chip.settingsOffset_eq
  omega

/-- Setting a record, when there is room. -/
theorem OtaRecords.set (hr : OtaRecords chip f value room) (hroom : room r = k + 1)
    {data : List UInt32} (hlen : data.length = (r.info chip).sizeByWord) :
    ∃ cs, settingsSet f (r.info chip) data = some cs ∧
      (OtaRecords chip (cs.foldl FlashCommand.run f) (Function.update value r (some data))
          (Function.update room r k) ∧
        OnlyArea (r.info chip) r.own f (cs.foldl FlashCommand.run f)) ∧
      ∀ h, CutShort f cs h → (∃ v, (v = value r ∨ v = none ∨ v = some data) ∧
        OtaRecords chip h (Function.update value r v) (Function.update room r k)) ∧
          OnlyArea (r.info chip) r.own f h := by
  have hj := hr r
  rw [hroom] at hj
  obtain ⟨cs, hcs, hdone, hcut⟩ := hj.set (r.fits chip) hlen
  refine ⟨cs, hcs, ⟨hr.update hdone.journaled hdone.onlyArea, hdone.onlyArea⟩, fun h hc => ?_⟩
  obtain ⟨hw, hout⟩ := hcut h hc
  refine ⟨?_, hout⟩
  rcases hw with hw | hw | hw
  · exact ⟨value r, .inl rfl, hr.update hw hout⟩
  · exact ⟨none, .inr (.inl rfl), hr.update hw hout⟩
  · exact ⟨some data, .inr (.inr rfl), hr.update hw hout⟩

/-- Withdrawing a record, when a slot is left. -/
theorem OtaRecords.makeInvalid (hr : OtaRecords chip f value room) (hroom : 0 < room r) :
    (OtaRecords chip ((settingsMakeInvalid f (r.info chip)).foldl FlashCommand.run f)
        (Function.update value r none) room ∧
      OnlyArea (r.info chip) r.own f
        ((settingsMakeInvalid f (r.info chip)).foldl FlashCommand.run f)) ∧
    ∀ h, CutShort f (settingsMakeInvalid f (r.info chip)) h →
      (∃ v, (v = value r ∨ v = none) ∧ OtaRecords chip h (Function.update value r v) room) ∧
        OnlyArea (r.info chip) r.own f h := by
  have hj := hr r
  have hlt := Journal.passed_lt_of_free (Nat.lt_of_lt_of_le hroom hj.free_ge)
  rw [length_slots] at hlt
  have hsame : ∀ {g v}, Journaled g (r.info chip) r.own v (room r) →
      OnlyArea (r.info chip) r.own f g → OtaRecords chip g (Function.update value r v) room := by
    intro g v hg hout
    have hu := hr.update hg hout
    rwa [Function.update_eq_self] at hu
  obtain ⟨⟨hdone, hout⟩, hcut⟩ := hj.makeInvalid (r.fits chip) (.inr hlt)
  refine ⟨⟨hsame hdone hout, hout⟩, fun h hc => ?_⟩
  obtain ⟨hw, hout⟩ := hcut h hc
  refine ⟨?_, hout⟩
  rcases hw with hw | hw
  · exact ⟨value r, .inl rfl, hsame hw hout⟩
  · exact ⟨none, .inr rfl, hsame hw hout⟩

/-- Erasing the settings leaves the other sectors alone. -/
theorem otaSettingsErase_outside {a : ℕ} (ha : a / 4096 ≠ getOtaSettingsOffset chip / 4096) :
    (otaSettingsErase chip).foldl FlashCommand.run f a = f a := Nor.erase_outside ha

end records

/-! ### Runs -/

/-- The calls that write. -/
inductive OtaCall where
  | settingsErase
  | settingsEraseReqSet
  | bootAddrSet (addr : UInt32)
  | copyInfoSet (info : FotaCopyInfo)
  | copyDoneSet

namespace OtaCall

def commands (chip : FlashChip) (flash : ℕ → UInt8) : OtaCall → Option (List FlashCommand)
  | settingsErase => some (otaSettingsErase chip)
  | settingsEraseReqSet => otaSettingsEraseReqSet chip flash
  | bootAddrSet addr => otaBootAddrSet chip flash addr
  | copyInfoSet info => otaCopyInfoSet chip flash info
  | copyDoneSet => some (otaCopyDoneSet chip flash)

/-- The record a call sets, and to what. -/
def sets : OtaCall → Option (OtaRecord × List UInt32)
  | settingsEraseReqSet => some (.eraseReq, [0x53415245])
  | bootAddrSet addr => some (.bootAddr, [addr])
  | copyInfoSet info => some (.copyInfo, info.toWords)
  | _ => none

theorem commands_of_sets {c : OtaCall} {r : OtaRecord} {ws : List UInt32}
    (h : c.sets = some (r, ws)) (chip : FlashChip) (flash : ℕ → UInt8) :
    c.commands chip flash = settingsSet flash (r.info chip) ws ∧
      ws.length = (r.info chip).sizeByWord := by
  cases c with
  | settingsErase | copyDoneSet => cases h
  | settingsEraseReqSet | bootAddrSet addr | copyInfoSet info =>
      cases h
      exact ⟨rfl, rfl⟩

end OtaCall

/-- A call that returns, or one during which power goes, with the flash that this leaves. -/
inductive OtaEvent where
  | returns (c : OtaCall)
  | cut (c : OtaCall) (left : ℕ → UInt8)

/-- The flash, with a record of what each setting can be and of how often it was set since the
last erase. -/
structure OtaRun where
  flash : ℕ → UInt8
  values : OtaRecord → Set (Option (List UInt32))
  sets : OtaRecord → ℕ

namespace OtaRun

/-- `values` and `sets` after a call, which may have been cut short. -/
def note (s : OtaRun) (c : OtaCall) (short : Bool) (flash : ℕ → UInt8) : OtaRun :=
  match c, c.sets with
  | _, some (r, ws) =>
      ⟨flash, Function.update s.values r
        (if short then s.values r ∪ {none, some ws} else {some ws}),
        Function.update s.sets r (s.sets r + 1)⟩
  | .copyDoneSet, none =>
      ⟨flash, Function.update s.values .copyInfo
        (if short then s.values .copyInfo ∪ {none} else {none}), s.sets⟩
  | _, none => ⟨flash, fun _ => {none}, fun _ => 0⟩

theorem note_sets {c : OtaCall} {r : OtaRecord} {ws : List UInt32} (h : c.sets = some (r, ws))
    (s : OtaRun) (short : Bool) (flash : ℕ → UInt8) : s.note c short flash =
      ⟨flash, Function.update s.values r
        (if short then s.values r ∪ {none, some ws} else {some ws}),
        Function.update s.sets r (s.sets r + 1)⟩ := by
  cases c with
  | settingsErase | copyDoneSet => cases h
  | settingsEraseReqSet | bootAddrSet addr | copyInfoSet info =>
      cases h
      rfl

def step (chip : FlashChip) (s : OtaRun) : OtaEvent → OtaRun
  | .returns c =>
      s.note c false (((c.commands chip s.flash).getD []).foldl FlashCommand.run s.flash)
  | .cut c left => s.note c true left

/-- The settings were just erased. -/
def start (chip : FlashChip) (flash : ℕ → UInt8) : OtaRun :=
  ⟨(otaSettingsErase chip).foldl FlashCommand.run flash, fun _ => {none}, fun _ => 0⟩

/-- Each record is set fewer times than it has slots of its own, and power goes during a call that
sets or withdraws a record. -/
def Allows (chip : FlashChip) (s : OtaRun) : OtaEvent → Prop
  | .returns c => ∀ r ws, c.sets = some (r, ws) → s.sets r + 1 < r.own
  | .cut c left => (∀ r ws, c.sets = some (r, ws) → s.sets r + 1 < r.own) ∧
      c ≠ .settingsErase ∧ ∃ cs, c.commands chip s.flash = some cs ∧ CutShort s.flash cs left

/-- Each record has one of its recorded values. -/
structure Sound (chip : FlashChip) (flash : ℕ → UInt8) (s : OtaRun) : Prop where
  records : ∃ value, (∀ r, value r ∈ s.values r) ∧
    OtaRecords chip s.flash value fun r => r.own - s.sets r
  room : ∀ r, s.sets r < r.own
  outside : ∀ a, a / 4096 ≠ getOtaSettingsOffset chip / 4096 → s.flash a = flash a

end OtaRun

section run
variable {chip : FlashChip} {flash : ℕ → UInt8} {s : OtaRun} {e : OtaEvent}

theorem OtaRecord.own_pos (r : OtaRecord) : 0 < r.own := by cases r <;> decide

/-- A cell in another sector is not in the page. -/
theorem FlashChip.outside_page {a : ℕ} (h : a / 4096 ≠ getOtaSettingsOffset chip / 4096) :
    a < getOtaSettingsOffset chip ∨ getOtaSettingsOffset chip + 256 ≤ a := by
  obtain ⟨k, hoff⟩ := chip.settingsOffset_eq
  omega

/-- One record changed to a value that was recorded for it. -/
theorem OtaRun.Sound.changed (hs : s.Sound chip flash) {r : OtaRecord} {g : ℕ → UInt8}
    {value : OtaRecord → Option (List UInt32)} {v : Option (List UInt32)}
    (values : Set (Option (List UInt32))) {n : ℕ} (hvalue : ∀ r, value r ∈ s.values r)
    (hv : v ∈ values) (hn : n < r.own)
    (hr : OtaRecords chip g (Function.update value r v)
      (Function.update (fun r => r.own - s.sets r) r (r.own - n)))
    (hout : OnlyArea (r.info chip) r.own s.flash g) :
    OtaRun.Sound chip flash ⟨g, Function.update s.values r values,
      Function.update s.sets r n⟩ := by
  have hmem : ∀ r', Function.update value r v r' ∈ Function.update s.values r values r' := by
    intro r'
    by_cases he : r' = r
    · subst he
      rwa [Function.update_self, Function.update_self]
    · rw [Function.update_of_ne he, Function.update_of_ne he]
      exact hvalue r'
  have hleft : (fun r' => r'.own - Function.update s.sets r n r') =
      Function.update (fun r => r.own - s.sets r) r (r.own - n) := by
    funext r'
    by_cases he : r' = r
    · subst he
      rw [Function.update_self, Function.update_self]
    · rw [Function.update_of_ne he, Function.update_of_ne he]
  have hroom : ∀ r', Function.update s.sets r n r' < r'.own := by
    intro r'
    by_cases he : r' = r
    · subst he
      rwa [Function.update_self]
    · rw [Function.update_of_ne he]
      exact hs.room r'
  refine ⟨⟨Function.update value r v, hmem, ?_⟩, hroom, fun a ha => ?_⟩
  · rw [← hleft] at hr
    exact hr
  · exact (hout.outside_page (FlashChip.outside_page ha)).trans (hs.outside a ha)

theorem OtaRun.sound_step (hs : s.Sound chip flash) (ha : s.Allows chip e) :
    (s.step chip e).Sound chip flash := by
  obtain ⟨value, hvalue, hrec⟩ := hs.records
  cases e with
  | returns c =>
      cases hc : c.sets with
      | some p =>
          obtain ⟨r, ws⟩ := p
          obtain ⟨hcs, hlen⟩ := OtaCall.commands_of_sets hc chip s.flash
          have hn := ha r ws hc
          obtain ⟨cs, hset, ⟨hdone, hout⟩, -⟩ :=
            hrec.set (k := r.own - (s.sets r + 1)) (by omega) hlen
          have hstep : s.step chip (.returns c) = ⟨cs.foldl FlashCommand.run s.flash,
              Function.update s.values r {some ws},
              Function.update s.sets r (s.sets r + 1)⟩ := by
            rw [OtaRun.step, hcs, hset, OtaRun.note_sets hc]
            rfl
          rw [hstep]
          exact hs.changed {some ws} hvalue rfl (by omega) hdone hout
      | none =>
          cases c with
          | settingsErase =>
              refine ⟨⟨fun _ => none, fun _ => rfl, otaRecords_erased chip s.flash⟩,
                fun r => r.own_pos, fun a hout => ?_⟩
              exact (otaSettingsErase_outside hout).trans (hs.outside a hout)
          | copyDoneSet =>
              have hroom := hs.room .copyInfo
              obtain ⟨⟨hdone, hout⟩, -⟩ := hrec.makeInvalid (r := .copyInfo) (by omega)
              have hu : Function.update (fun r : OtaRecord => r.own - s.sets r) .copyInfo
                  (OtaRecord.copyInfo.own - s.sets .copyInfo) = fun r => r.own - s.sets r :=
                Function.update_eq_self _ _
              rw [← hu] at hdone
              have hnote := hs.changed {none} hvalue rfl hroom hdone hout
              rwa [Function.update_eq_self] at hnote
          | settingsEraseReqSet | bootAddrSet addr | copyInfoSet info => cases hc
  | cut c left =>
      obtain ⟨hbound, herase, cs, hcmd, hcut⟩ := ha
      cases hc : c.sets with
      | some p =>
          obtain ⟨r, ws⟩ := p
          obtain ⟨hcs, hlen⟩ := OtaCall.commands_of_sets hc chip s.flash
          have hn := hbound r ws hc
          obtain ⟨cs', hset, -, hshort⟩ :=
            hrec.set (k := r.own - (s.sets r + 1)) (by omega) hlen
          rw [hcs, hset] at hcmd
          obtain rfl := Option.some.inj hcmd
          obtain ⟨⟨v, hv, hleft⟩, hout⟩ := hshort left hcut
          have hstep : s.step chip (.cut c left) = ⟨left,
              Function.update s.values r (s.values r ∪ {none, some ws}),
              Function.update s.sets r (s.sets r + 1)⟩ := by
            rw [OtaRun.step, OtaRun.note_sets hc]
            rfl
          have hmem : v ∈ s.values r ∪ {none, some ws} := by
            rcases hv with rfl | rfl | rfl
            · exact .inl (hvalue r)
            · exact .inr (.inl rfl)
            · exact .inr (.inr rfl)
          rw [hstep]
          exact hs.changed (s.values r ∪ {none, some ws}) hvalue hmem (by omega) hleft hout
      | none =>
          cases c with
          | settingsErase => exact absurd rfl herase
          | copyDoneSet =>
              have hroom := hs.room .copyInfo
              obtain ⟨-, hshort⟩ := hrec.makeInvalid (r := .copyInfo) (by omega)
              obtain rfl := Option.some.inj hcmd
              obtain ⟨⟨v, hv, hleft⟩, hout⟩ := hshort left hcut
              have hmem : v ∈ s.values .copyInfo ∪ {none} := by
                rcases hv with rfl | rfl
                · exact .inl (hvalue .copyInfo)
                · exact .inr rfl
              have hu : Function.update (fun r : OtaRecord => r.own - s.sets r) .copyInfo
                  (OtaRecord.copyInfo.own - s.sets .copyInfo) = fun r => r.own - s.sets r :=
                Function.update_eq_self _ _
              rw [← hu] at hleft
              have hnote := hs.changed (s.values .copyInfo ∪ {none}) hvalue hmem hroom
                hleft hout
              rwa [Function.update_eq_self] at hnote
          | settingsEraseReqSet | bootAddrSet addr | copyInfoSet info => cases hc

theorem OtaRun.sound_run {es : List OtaEvent}
    (ha : Machine.Along (OtaRun.step chip) (OtaRun.Allows chip) (.start chip flash) es) :
    (Machine.exec (OtaRun.step chip) (.start chip flash) es).Sound chip flash := by
  have hstart : (OtaRun.start chip flash).Sound chip flash :=
    ⟨⟨fun _ => none, fun _ => rfl, otaRecords_erased chip flash⟩, fun r => r.own_pos,
      fun a hout => otaSettingsErase_outside hout⟩
  exact Machine.exec_invariant (I := OtaRun.Sound chip flash)
    (fun s e hs => OtaRun.sound_step hs) hstart ha

/-- A record reads back as one of its recorded values. -/
theorem OtaRun.Sound.get (hs : s.Sound chip flash) (r : OtaRecord) :
    settingsGet s.flash (r.info chip) ∈ s.values r := by
  obtain ⟨value, hvalue, hrec⟩ := hs.records
  rw [hrec.get fun _ _ => Nat.sub_pos_of_lt (hs.room r)]
  exact hvalue r

/-- Over every run of the calls from an erased page, with power cuts at any point of any call that
sets or withdraws a record: as long as the records are set fewer times between two erases than they
have slots of their own, each of them reads back as it was set last, whatever happened to the
others, and after a cut as before or after it, or not at all.  No other sector changes. -/
theorem ota_settings_of_run (chip : FlashChip) (flash : ℕ → UInt8) (es : List OtaEvent)
    (ha : Machine.Along (OtaRun.step chip) (OtaRun.Allows chip) (.start chip flash) es) :
    let s := Machine.exec (OtaRun.step chip) (.start chip flash) es
    otaCopyInfoGet chip s.flash ∈ Option.map .ofWords '' s.values .copyInfo ∧
      otaBootAddrGet chip s.flash ∈ Option.map (fun ws => ws.getD 0 0) '' s.values .bootAddr ∧
      otaSettingsEraseReqGet chip s.flash ∈ Option.isSome '' s.values .eraseReq ∧
      ∀ a, a / 4096 ≠ getOtaSettingsOffset chip / 4096 → s.flash a = flash a := by
  have hsound := OtaRun.sound_run ha
  exact ⟨⟨_, hsound.get .copyInfo, rfl⟩, ⟨_, hsound.get .bootAddr, rfl⟩,
    ⟨_, hsound.get .eraseReq, rfl⟩, hsound.outside⟩

/-- Flash of 512 KiB. -/
def chip512 : FlashChip := ⟨19, by decide, by decide⟩

theorem ota_settings_of_calls :
    otaBootAddrGet chip512 (Machine.exec (OtaRun.step chip512) (.start chip512 fun _ => 0)
      [.returns (.bootAddrSet 0x18004000), .returns (.copyInfoSet ⟨0x18040000, 0x18004000, 99⟩),
        .returns (.bootAddrSet 0x18008000), .returns .copyDoneSet]).flash = some 0x18008000 := by
  obtain ⟨v, hv, hget⟩ := (ota_settings_of_run chip512 (fun _ => 0)
    [.returns (.bootAddrSet 0x18004000), .returns (.copyInfoSet ⟨0x18040000, 0x18004000, 99⟩),
      .returns (.bootAddrSet 0x18008000), .returns .copyDoneSet]
    ⟨by rintro r ws ⟨⟩; decide, by rintro r ws ⟨⟩; decide, by rintro r ws ⟨⟩; decide, nofun,
      trivial⟩).2.1
  obtain rfl : v = some [0x18008000] := hv
  exact hget.symm

end run

end ErgoDock
