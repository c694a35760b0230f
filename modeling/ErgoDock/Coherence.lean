import ErgoDock.Lib.Shadow
import ErgoDock.Settings

/-! # The flash record over runs and restarts (`x_flash.c`)

Three values are kept at three places: in RAM, in the shadow copies and in the record of the flash
page.  Page and shadow copies are a value in a medium with its shadow copy (`flashMedium`), and
`flash_run` and an accepted setting save the values in RAM there (`record_step`).

So after a `flash_run` a restart restores the settings, a speed or time of zero becoming the default
(`settings_survive_restart`).  The record itself is coherent after every `flash_run` unless the
settings are zeros while the page fails its CRC: then nothing looks changed and nothing is saved
(`flash_coherent_iff`). -/

namespace ErgoDock

open Machine

/-- `FLASH_PAGE_SIZE`. -/
def flashPageSize : ℕ := 256

/-- The content of a flash page. -/
structure FlashPage where
  bytes : List UInt8
  length_eq : bytes.length = flashPageSize

/-- The start of a device with this page. -/
def FlashPage.start (page : FlashPage) (key1 key2 : UInt8) : Boot := ⟨page.bytes, key1, key2⟩

/-- The page of a new device. -/
def FlashPage.blank : FlashPage := ⟨List.replicate flashPageSize 0xFF, List.length_replicate⟩

def SnoreCfg.zero : SnoreCfg := ⟨0, 0, 0⟩

/-- What `SnoringInterventionInit` makes of the settings: a speed or time of zero is not set. -/
def SnoreCfg.restored (c : SnoreCfg) : SnoreCfg :=
  ⟨if c.pwm = 0 then siPwm else c.pwm, if c.tmr = 0 then siTmr else c.tmr, c.intensity⟩

/-- The values of a record, with the clamp of `flash_load`. -/
def flashDecode (page : List UInt8) : SnoreCfg :=
  ⟨page.getD 0 0, page.getD 1 0, if page.getD 2 0 > 3 then 3 else page.getD 2 0⟩

/-- What a page holds. -/
def readRecord (page : List UInt8) : Option SnoreCfg :=
  if FlashValid page then some (flashDecode page) else none

/-! ### The record -/

theorem zipWith_erased : ∀ {page data : List UInt8}, data.length ≤ page.length →
    List.zipWith (· &&& ·) (halFlashPageErase page) data = data
  | _, [], _ => by simp
  | [], b :: data, h => by simp at h
  | a :: page, b :: data, h => by
      have hrest : data.length ≤ page.length := by
        simpa using h
      have hbit : (0xFF : UInt8) &&& b = b := UInt8.neg_one_and
      rw [halFlashPageErase, List.map_cons, List.zipWith_cons_cons, hbit]
      exact congrArg (b :: ·) (zipWith_erased hrest)

/-- On an erased page, programming leaves the data. -/
theorem program_erased {page data : List UInt8} (h : data.length ≤ page.length) :
    halFlashPageProgram (halFlashPageErase page) data =
      data ++ (halFlashPageErase page).drop data.length := by
  rw [halFlashPageProgram, zipWith_erased h]

/-- The two bytes of a CRC make up the CRC. -/
theorem ofBytes_crc (n : UInt16) :
    n.toUInt8.toUInt16 ||| (n >>> 8).toUInt8.toUInt16 <<< 8 = n := by
  have hlt : n.toNat < 65536 := n.toNat_lt
  have hlow : n.toNat % 256 < 2 ^ 8 := Nat.mod_lt _ (by decide)
  have hparts := Nat.two_pow_add_eq_or_of_lt hlow (n.toNat / 256)
  have hhigh : (n.toNat >>> 8 % 256) <<< 8 % 65536 = 2 ^ 8 * (n.toNat / 256) := by
    rw [Nat.shiftRight_eq_div_pow, Nat.shiftLeft_eq]
    omega
  refine UInt16.toNat_inj.mp ?_
  have hbits : (n.toUInt8.toUInt16 ||| (n >>> 8).toUInt8.toUInt16 <<< 8).toNat =
      n.toNat % 256 ||| (n.toNat >>> 8 % 256) <<< 8 % 65536 := by simp
  rw [hbits, hhigh, Nat.or_comm, ← hparts]
  omega

theorem readRecord_record {c : SnoreCfg} (h : c.intensity ≤ 3) (rest : List UInt8) :
    readRecord (flashRecord c.pwm c.tmr c.intensity ++ rest) = some c := by
  have hvalid : FlashValid (flashRecord c.pwm c.tmr c.intensity ++ rest) :=
    (ofBytes_crc (modbusCrcCompute [c.pwm, c.tmr, c.intensity])).symm
  have hclamp : (if c.intensity > 3 then 3 else c.intensity) = c.intensity :=
    if_neg (UInt8.not_lt.mpr h)
  rw [readRecord, if_pos hvalid]
  change some (⟨c.pwm, c.tmr, if c.intensity > 3 then 3 else c.intensity⟩ : SnoreCfg) = some c
  rw [hclamp]

/-- Erase the page and program the record of the settings. -/
def writeRecord (page : List UInt8) (c : SnoreCfg) : List UInt8 :=
  halFlashPageProgram (halFlashPageErase page) (flashRecord c.pwm c.tmr c.intensity)

theorem writeRecord_eq {page : List UInt8} (h : page.length = flashPageSize) (c : SnoreCfg) :
    writeRecord page c =
      flashRecord c.pwm c.tmr c.intensity ++ (halFlashPageErase page).drop 5 := by
  have hroom : (flashRecord c.pwm c.tmr c.intensity).length ≤ page.length := by
    rw [h]
    exact (by decide : 5 ≤ flashPageSize)
  exact program_erased hroom

/-- The configuration page. -/
def flashMedium : Medium (List UInt8) SnoreCfg where
  Room page := page.length = flashPageSize
  Fits c := c.intensity ≤ 3
  read := readRecord
  write := writeRecord
  room_write h := by
    rw [writeRecord_eq h, List.length_append, List.length_drop, halFlashPageErase, List.length_map,
      h]
    rfl
  read_write h hc := by
    rw [writeRecord_eq h]
    exact readRecord_record hc _

/-! ### Saving -/

/-- The shadow copies. -/
def FlashModule.shadow (f : FlashModule) : SnoreCfg :=
  ⟨f.oldSnorePwm, f.oldSnoreTmr, f.oldSnoreIntensity⟩

/-- The page with the shadow copies. -/
def FlashModule.record (f : FlashModule) : Shadowed (List UInt8) SnoreCfg := ⟨f.page, f.shadow⟩

namespace Dock
variable (d : Dock)

theorem changed_iff :
    (d.flash.oldSnorePwm ≠ d.anti.snoreIntervention.snoreInterventionPwm ∨
      d.flash.oldSnoreTmr ≠ d.anti.snoreIntervention.snoreInterventionTmr ∨
      d.flash.oldSnoreIntensity ≠ d.anti.antiSnoreIntensity) ↔ d.flash.shadow ≠ d.anti.cfg := by
  simp only [FlashModule.shadow, AntiSnore.cfg, ne_eq, SnoreCfg.mk.injEq, not_and_or]

/-- Nothing is done while the shadow copies agree with the settings. -/
theorem flashSave_of_eq (h : d.flash.shadow = d.anti.cfg) : d.flashSaveSnoreCfgIfChanged = d := by
  obtain ⟨hpwm, htmr, hlevel⟩ := SnoreCfg.mk.inj h
  simp only [flashSaveSnoreCfgIfChanged]
  rw [if_neg fun hc => d.changed_iff.mp hc h, flashSnoreShadowUpdate, ← hpwm, ← htmr, ← hlevel]

/-- `flash_save_snore_cfg_if_changed` saves the settings unless they are those saved last. -/
theorem record_flashSave (h : d.anti.antiSnoreIntensity ≤ 3) :
    d.flashSaveSnoreCfgIfChanged.flash.record =
      flashMedium.sync d.flash.record d.anti.cfg := by
  by_cases hs : d.flash.shadow = d.anti.cfg
  · rw [flashMedium.sync_of_eq hs, d.flashSave_of_eq hs]
  · have hclamp : (if d.anti.antiSnoreIntensity > 3 then 3 else d.anti.antiSnoreIntensity) =
        d.anti.antiSnoreIntensity := if_neg (UInt8.not_lt.mpr h)
    rw [flashMedium.sync_of_ne hs]
    simp only [flashSaveSnoreCfgIfChanged]
    rw [if_pos (d.changed_iff.mpr hs)]
    simp only [flashSave]
    rw [hclamp]
    rfl

end Dock

/-! ### Steps and runs -/

/-- The events that save the settings: `flash_run`, and an accepted setting by itself. -/
def Event.Saves : Event → Prop
  | .flashRun => True
  | .bleWrite value => SetsCfg value
  | .tick | .switchSample _ _ | .control _ | .led | .charge _ | .snoreEdge | .snoreRun
  | .voiceFrame _ _ | .mfpFrame _ | .statusFrame _ | .connected _ | .disconnected
  | .notificationDone | .mtuChanged _ => False

instance : (e : Event) → Decidable e.Saves
  | .flashRun => .isTrue trivial
  | .bleWrite value => inferInstanceAs (Decidable (SetsCfg value))
  | .tick | .switchSample _ _ | .control _ | .led | .charge _ | .snoreEdge | .snoreRun
  | .voiceFrame _ _ | .mfpFrame _ | .statusFrame _ | .connected _ | .disconnected
  | .notificationDone | .mtuChanged _ => .isFalse id

/-- An accepted setting is saved before it is answered. -/
theorem record_of_sets (d : Dock) {value : List UInt8} (h : SetsCfg value) :
    (d.bleApply value).flash.record = flashMedium.sync d.flash.record (cfgOf value) := by
  obtain ⟨ha, hp, hs⟩ := h
  obtain ⟨c, hc, hair, hanti⟩ := d.bleSnoreConfigure_saves (byteAt (value.drop 2) 2)
    (byteAt (value.drop 2) 3) (byteAt (value.drop 2) 4)
  have hcfg : c.anti.cfg = cfgOf value := by
    rw [hanti]
    exact cfg_apply d.anti (.configure _ _ _)
  have hlevel : c.anti.antiSnoreIntensity = byteAt (value.drop 2) 4 :=
    congrArg SnoreCfg.intensity hcfg
  have hflash : c.flash = d.flash := congrArg Air.flash hair
  rw [Dock.bleApply, if_pos ha, if_neg (hp ▸ bleDataPort_ne), if_pos hp, d.effect_snore hs.2.1,
    if_pos hs, hc, ← hcfg, ← hflash]
  exact c.record_flashSave (hlevel ▸ hs.2.2.2)

/-- No other write touches the flash. -/
theorem flash_bleApply_of_not_sets (d : Dock) {value : List UInt8} (h : ¬ SetsCfg value) :
    (d.bleApply value).flash = d.flash := by
  have hflash : ∀ c : Dock, c.air = d.air → c.flash = d.flash := fun c hc =>
    congrArg Air.flash hc
  rw [Dock.bleApply]
  split
  · next ha =>
    split
    · refine hflash _ ?_
      rw [Dock.reportTriging, Dock.aside_air.mapAnti, Dock.aside_air.bleAppKeyDispatch]
    split
    · next hp =>
      have hs : ¬ SetsSnore (value.drop 2) (byteAt value 0) := fun hs => h ⟨ha, hp, hs⟩
      rw [Dock.dataPortApply, if_neg hs, Dock.dataPortEffect, if_neg hs]
      split
      · rfl
      split
      · exact hflash _ (Dock.aside_air.snoreRunModeSet d _)
      · rfl
    · rfl
  · rfl

/-- The settings an accepted frame leaves. -/
theorem cfg_of_sets (d : Dock) {value : List UInt8} (h : SetsCfg value) :
    (step d (.bleWrite value)).anti.cfg = cfgOf value := by
  have hset := congrArg Settings.cfg (settings_step d (.bleWrite value))
  simp only [Settings.next] at hset
  rw [if_pos h] at hset
  exact hset

/-- What a step does to the flash: it saves the settings as they are after the step, or nothing. -/
theorem record_step (d : Dock) (e : Event) (h : d.anti.antiSnoreIntensity ≤ 3) :
    (step d e).flash.record =
      if e.Saves then flashMedium.sync d.flash.record (step d e).anti.cfg else d.flash.record := by
  have hair := congrArg (fun r : Air => r.flash.record) (air_step d e)
  refine hair.trans ?_
  cases e with
  | flashRun =>
      have hanti : (step d .flashRun).anti = d.anti := (Dock.background_flashSave d).anti
      rw [if_pos (show Event.flashRun.Saves from trivial), hanti]
      exact d.record_flashSave h
  | bleWrite value =>
      dsimp only
      rw [Air.flash_deliver]
      by_cases hs : SetsCfg value
      · rw [if_pos (show (Event.bleWrite value).Saves from hs), cfg_of_sets d hs]
        exact record_of_sets d hs
      · rw [if_neg (show ¬ (Event.bleWrite value).Saves from hs)]
        exact congrArg FlashModule.record (flash_bleApply_of_not_sets d hs)
  | _ => rfl

theorem record_flashRun (d : Dock) (h : d.anti.antiSnoreIntensity ≤ 3) :
    (step d .flashRun).flash.record = flashMedium.sync d.flash.record d.anti.cfg :=
  d.record_flashSave h

/-- The level and the flash, as every run keeps them. -/
structure Stored (d : Dock) : Prop where
  level : d.anti.antiSnoreIntensity ≤ 3
  kept : flashMedium.Kept .zero d.flash.record

theorem stored_step (d : Dock) (e : Event) (h : Stored d) : Stored (step d e) := by
  have hlevel : (step d e).anti.antiSnoreIntensity ≤ 3 := by
    rw [step_anti]
    exact intensity_apply_le _ _ (antiOp_allowed d e) h.level
  refine ⟨hlevel, ?_⟩
  rw [record_step d e h.level]
  split
  · exact Medium.kept_sync hlevel h.kept
  · exact h.kept

theorem cfg_init (a : AntiSnore) :
    a.initFields.stateClear.snoringInterventFlatTimerClear.cfg = a.cfg.restored := by
  have hclear : ∀ c : AntiSnore, c.stateClear.cfg = c.cfg := fun _ => rfl
  have hflat : ∀ c : AntiSnore, c.snoringInterventFlatTimerClear.cfg = c.cfg := fun _ => rfl
  rw [hflat, hclear]
  rfl

/-- A start loads the record if it is valid, and fills in the defaults. -/
theorem flash_boot (b : Boot) :
    (boot b).flash.record = ⟨b.page, flashMedium.load .zero b.page⟩ ∧
      (boot b).anti.cfg = (flashMedium.load .zero b.page).restored := by
  have hload : (({ flash := { page := b.page } } : Dock).flashLoad).flash.record =
        ⟨b.page, flashMedium.load .zero b.page⟩ ∧
      (({ flash := { page := b.page } } : Dock).flashLoad).anti.cfg =
        flashMedium.load .zero b.page := by
    simp only [Dock.flashLoad, Medium.load, flashMedium, readRecord]
    split <;> exact ⟨rfl, rfl⟩
  have hanti : (boot b).anti.cfg =
      (({ flash := { page := b.page } } : Dock).flashLoad).anti.cfg.restored := by
    rw [boot, Dock.xUartInit, (Dock.background_ci1302Sync _ _).anti,
      Dock.anti_checkOfflineVoiceKeys, anti_snoringInterventionInit, cfg_init]
  have hflash : (boot b).flash = (({ flash := { page := b.page } } : Dock).flashLoad).flash :=
    congrArg Air.flash (air_boot b)
  rw [hflash, hanti, hload.2]
  exact ⟨hload.1, rfl⟩

section runs
variable (page : FlashPage) (key1 key2 : UInt8)

theorem stored_boot : Stored (boot (page.start key1 key2)) := by
  refine ⟨(initial_boot _).intensity, ?_⟩
  rw [(flash_boot _).1]
  exact ⟨page.length_eq, rfl⟩

theorem stored_run (es : List Event) : Stored (runFrom (page.start key1 key2) es) :=
  exec_invariant_all stored_step (stored_boot page key1 key2) es

end runs

/-! ### Restarts -/

/-- After a `flash_run` a restart finds the settings, with the defaults for a speed or time of
zero. -/
theorem restart_restores {d : Dock} (h : Stored d) (key1 key2 : UInt8) :
    (boot ⟨(step d .flashRun).flash.page, key1, key2⟩).anti.cfg = d.anti.cfg.restored := by
  have hpage : (step d .flashRun).flash.page =
      (flashMedium.sync d.flash.record d.anti.cfg).content :=
    congrArg Shadowed.content (record_flashRun d h.level)
  rw [(flash_boot _).2, hpage, Medium.load_sync h.level h.kept]

/-- The answer of segment `0x11` with the values `c`. -/
def ReportsCfg (c : SnoreCfg) (frame : List UInt8) : Prop :=
  byteAt frame 2 = 0x11 ∧ byteAt frame 3 = 0xB4 ∧ byteAt frame 4 = c.pwm ∧
    byteAt frame 5 = c.tmr ∧ byteAt frame 6 = c.intensity

instance (c : SnoreCfg) (frame : List UInt8) : Decidable (ReportsCfg c frame) := by
  unfold ReportsCfg; infer_instance

/-- The answer to an accepted setting. -/
theorem answer_of_sets (d : Dock) {value : List UInt8} (h : SetsCfg value) :
    d.answer value = some (UInt8.ofNat d.snoreData.length :: bleDataPort :: d.snoreData) := by
  obtain ⟨ha, hp, hs⟩ := h
  have hn : ¬ byteAt value 0 < 2 := by rw [hs.1]; decide
  have h10 : byteAt (value.drop 2) 0 ≠ 0x10 := by rw [hs.2.1]; decide
  have hroom : d.snoreData.length ≤ 160 := by
    rw [d.length_snoreData]
    decide
  rw [Dock.answer, if_pos ha, if_neg (hp ▸ bleDataPort_ne), if_pos hp, Dock.dataPortAnswer,
    if_neg hn, if_neg h10, if_pos hs.2.1, if_pos (Or.inr hs), Dock.linkFrame_of_le hroom]

theorem bletx_deliver (d : Dock) (frame : List UInt8) : (d.deliver (some frame)).bletx = frame := by
  simp only [Dock.deliver, Dock.lsBleupServerSendNotification]
  split <;> rfl

/-- An accepted setting is answered with its values. -/
theorem reports_of_sets (d : Dock) {value : List UInt8} (h : SetsCfg value) :
    ReportsCfg (cfgOf value) (step d (.bleWrite value)).bletx := by
  have hcfg := cfg_of_sets d h
  rw [step, Dock.uartServerWriteReq_eq] at hcfg ⊢
  rw [congrArg AntiSnore.cfg (Dock.background_deliver _ _).anti] at hcfg
  generalize d.bleApply value = c at *
  have hlevel : c.anti.antiSnoreIntensity = byteAt (value.drop 2) 4 :=
    congrArg SnoreCfg.intensity hcfg
  have hle : ¬ c.anti.antiSnoreIntensity > 3 := UInt8.not_lt.mpr (hlevel ▸ h.2.2.2.2.2)
  rw [answer_of_sets c h, bletx_deliver, ← hcfg]
  exact ⟨rfl, rfl, rfl, rfl, if_neg hle⟩

/-- For every page content, every run and every accepted setting: the answer carries its values, and
when then `flash_run` executes, after anything that does not change the settings, a restart
restores them, with the defaults for a speed or time of zero. -/
theorem settings_survive_restart (page : FlashPage) (key1 key2 : UInt8) (es : List Event)
    (value : List UInt8) (h : SetsCfg value) :
    let d := runFrom (page.start key1 key2) (es ++ [.bleWrite value])
    ReportsCfg (cfgOf value) d.bletx ∧
    ∀ fs, Along step (fun c e => (step c e).anti.cfg = c.anti.cfg) d fs → ∀ key1' key2',
      (boot ⟨(exec step d (fs ++ [.flashRun])).flash.page, key1', key2'⟩).anti.cfg =
        (cfgOf value).restored := by
  have hlast : runFrom (page.start key1 key2) (es ++ [.bleWrite value]) =
      step (runFrom (page.start key1 key2) es) (.bleWrite value) := runFrom_concat _ es _
  have hstored := stored_run page key1 key2 (es ++ [.bleWrite value])
  dsimp only
  rw [hlast] at hstored ⊢
  refine ⟨reports_of_sets _ h, fun fs hfs key1' key2' => ?_⟩
  have hkeep := exec_constant (I := fun _ : Dock => True) (f := fun c : Dock => c.anti.cfg)
    (fun _ _ _ _ => trivial) (fun _ _ _ hok => hok) trivial hfs
  have hrestart := restart_restores (exec_invariant_all stored_step hstored fs) key1' key2'
  rw [exec_append]
  refine hrestart.trans ?_
  rw [hkeep, cfg_of_sets _ h]

/-- Speed 90, time 30, level 2, on a new device. -/
theorem settings_survive_restart_level_two :
    (boot ⟨(runFrom (FlashPage.blank.start 1 1)
      [.bleWrite [7, 6, 0x11, 0xB7, 90, 30, 2, 0, 0], .flashRun]).flash.page, 1, 1⟩).anti.cfg =
        ⟨90, 30, 2⟩ :=
  (settings_survive_restart .blank 1 1 [] [7, 6, 0x11, 0xB7, 90, 30, 2, 0, 0] (by decide)).2 []
    trivial 1 1

/-- A speed of zero is accepted, reported and saved, and is the default after the restart. -/
theorem zero_speed_becomes_default : ¬ ∀ (page : FlashPage) (key1 key2 : UInt8) (es : List Event)
    (value : List UInt8), SetsCfg value →
      (boot ⟨(runFrom (page.start key1 key2)
        (es ++ [.bleWrite value, .flashRun])).flash.page, key1, key2⟩).anti.cfg = cfgOf value := by
  intro H
  have hzero := H .blank 1 1 [] [7, 6, 0x11, 0xB7, 0, 0x15, 1, 0, 0] (by decide)
  have hstored := stored_step _ (.bleWrite [7, 6, 0x11, 0xB7, 0, 0x15, 1, 0, 0])
    (stored_boot .blank 1 1)
  have hrestart := restart_restores hstored 1 1
  rw [cfg_of_sets _ (by decide)] at hrestart
  exact absurd (hzero.symm.trans hrestart) (by decide)

/-! ### Coherence -/

/-- What is to hold after a `flash_run`: the record is valid and holds the settings, and so do the
shadow copies, and another `flash_run` does nothing. -/
structure Coherent (d : Dock) : Prop where
  valid : FlashValid d.flash.page
  decoded : flashDecode d.flash.page = d.anti.cfg
  shadow : d.flash.shadow = d.anti.cfg
  settled : step d .flashRun = d

/-- The page fails its CRC and the settings are zeros. -/
def Unsaved (d : Dock) : Prop := ¬ FlashValid d.flash.page ∧ d.anti.cfg = .zero

/-- A setting of zeros that arrives while the page fails its CRC. -/
def ZeroSetting (d : Dock) (e : Event) : Prop :=
  ∃ value, e = .bleWrite value ∧ SetsCfg value ∧ cfgOf value = .zero ∧ ¬ FlashValid d.flash.page

theorem readRecord_eq_some {page : List UInt8} {c : SnoreCfg} :
    readRecord page = some c ↔ FlashValid page ∧ flashDecode page = c := by
  rw [readRecord]
  split
  · next hv => simp [hv]
  · next hv => simp [hv]

theorem readRecord_ne_none {page : List UInt8} : readRecord page ≠ none ↔ FlashValid page := by
  rw [readRecord]
  split
  · next hv => simp [hv]
  · next hv => simp [hv]

theorem coherent_iff {d : Dock} (h : Stored d) : Coherent (step d .flashRun) ↔ ¬ Unsaved d := by
  have hanti : (step d .flashRun).anti = d.anti := (Dock.background_flashSave d).anti
  have hrecord := record_flashRun d h.level
  have hshadow : (step d .flashRun).flash.shadow = (step d .flashRun).anti.cfg := by
    rw [hanti]
    exact (congrArg Shadowed.shadow hrecord).trans flashMedium.shadow_sync
  have hread : readRecord (step d .flashRun).flash.page = some d.anti.cfg ↔
      readRecord d.flash.page ≠ none ∨ d.anti.cfg ≠ .zero := by
    have hpage : (step d .flashRun).flash.page =
        (flashMedium.sync d.flash.record d.anti.cfg).content := congrArg Shadowed.content hrecord
    rw [hpage]
    exact Medium.read_sync_iff h.level h.kept
  rw [Unsaved, not_and_or, not_not, ← ne_eq, ← readRecord_ne_none, ← hread, readRecord_eq_some]
  constructor
  · exact fun hc => ⟨hc.valid, hc.decoded.trans (congrArg AntiSnore.cfg hanti)⟩
  · rintro ⟨hv, hd⟩
    exact ⟨hv, hd.trans (congrArg AntiSnore.cfg hanti).symm, hshadow,
      Dock.flashSave_of_eq _ hshadow⟩

/-- The page is valid, or a speed or time is set. -/
def Safe (d : Dock) : Prop := FlashValid d.flash.page ∨ d.anti.cfg.pwm ≠ 0 ∨ d.anti.cfg.tmr ≠ 0

/-- Speed and time are changed by accepted settings only. -/
theorem speed_step (d : Dock) {e : Event} (he : ∀ value, e = .bleWrite value → ¬ SetsCfg value) :
    (step d e).anti.cfg.pwm = d.anti.cfg.pwm ∧ (step d e).anti.cfg.tmr = d.anti.cfg.tmr := by
  have hset : (step d e).anti.cfg = (d.anti.settings.next d e).cfg :=
    congrArg Settings.cfg (settings_step d e)
  rw [hset]
  cases e with
  | control key =>
      simp only [Settings.next]
      split
      · exact ⟨rfl, rfl⟩
      · split <;> exact ⟨rfl, rfl⟩
  | bleWrite value =>
      simp only [Settings.next]
      rw [if_neg (he value rfl)]
      split <;> exact ⟨rfl, rfl⟩
  | _ => exact ⟨rfl, rfl⟩

/-- What is saved makes the page valid, unless it is zeros on an invalid page. -/
theorem flashValid_saved {d : Dock} {e : Event} (h : Stored d) (hs : e.Saves)
    (hv : FlashValid d.flash.page ∨ (step d e).anti.cfg ≠ .zero) :
    FlashValid (step d e).flash.page := by
  have hrecord := record_step d e h.level
  rw [if_pos hs] at hrecord
  have hpage : (step d e).flash.page =
      (flashMedium.sync d.flash.record (step d e).anti.cfg).content :=
    congrArg Shadowed.content hrecord
  have hread := (Medium.read_sync_iff (stored_step d e h).level h.kept).mpr
    (hv.imp_left readRecord_ne_none.mpr)
  rw [hpage]
  exact (readRecord_eq_some.mp hread).1

theorem safe_step (d : Dock) (e : Event) (h : Stored d) (hd : Safe d) (he : ¬ ZeroSetting d e) :
    Safe (step d e) := by
  have hvalid : FlashValid d.flash.page → FlashValid (step d e).flash.page := by
    intro hv
    by_cases hs : e.Saves
    · exact flashValid_saved h hs (.inl hv)
    · have hrecord := record_step d e h.level
      rw [if_neg hs] at hrecord
      have hpage : (step d e).flash.page = d.flash.page := congrArg Shadowed.content hrecord
      rwa [hpage]
  by_cases hset : ∃ value, e = .bleWrite value ∧ SetsCfg value
  · obtain ⟨value, rfl, hs⟩ := hset
    refine .inl (flashValid_saved h hs ?_)
    by_contra hc
    obtain ⟨hv, hzero⟩ := not_or.mp hc
    exact he ⟨value, rfl, hs, (cfg_of_sets d hs).symm.trans (not_not.mp hzero), hv⟩
  · obtain ⟨hpwm, htmr⟩ := speed_step d fun value hv hs => hset ⟨value, hv, hs⟩
    rcases hd with hv | hnz
    · exact .inl (hvalid hv)
    · refine .inr ?_
      rwa [hpwm, htmr]

theorem safe_boot (b : Boot) : Safe (boot b) := by
  obtain ⟨hrecord, hcfg⟩ := flash_boot b
  have hpage : (boot b).flash.page = b.page := congrArg Shadowed.content hrecord
  by_cases hv : FlashValid b.page
  · exact .inl (hpage ▸ hv)
  · have hread : readRecord b.page = none := if_neg hv
    have hload : flashMedium.load .zero b.page = .zero := by
      rw [Medium.load]
      exact congrArg (Option.getD · SnoreCfg.zero) hread
    refine .inr (.inl ?_)
    rw [hcfg, hload]
    decide

/-- For every content of the page: a run is coherent after every `flash_run` if and only if none
finds zeros in RAM and a page that fails its CRC, which needs a setting of zeros that arrives while
the page fails its CRC. -/
theorem flash_coherent_iff (page : FlashPage) (key1 key2 : UInt8) (es : List Event) :
    (Along step (fun d e => e = .flashRun → Coherent (step d e)) (boot (page.start key1 key2)) es ↔
      Along step (fun d e => e = .flashRun → ¬ Unsaved d) (boot (page.start key1 key2)) es) ∧
    (Along step (fun d e => ¬ ZeroSetting d e) (boot (page.start key1 key2)) es →
      Along step (fun d e => e = .flashRun → Coherent (step d e))
        (boot (page.start key1 key2)) es) := by
  have hstored := stored_boot page key1 key2
  have hiff : Along step (fun d e => e = .flashRun → Coherent (step d e))
        (boot (page.start key1 key2)) es ↔
      Along step (fun d e => e = .flashRun → ¬ Unsaved d) (boot (page.start key1 key2)) es := by
    constructor
    · refine Along.of_invariant (fun d e h _ => stored_step d e h) (fun d e h hc => ?_) hstored
      rintro rfl
      exact (coherent_iff h).mp (hc rfl)
    · refine Along.of_invariant (fun d e h _ => stored_step d e h) (fun d e h hc => ?_) hstored
      rintro rfl
      exact (coherent_iff h).mpr (hc rfl)
  refine ⟨hiff, fun hzero => hiff.mpr ?_⟩
  refine Along.of_invariant (I := fun d => Stored d ∧ Safe d)
    (fun d e h he => ⟨stored_step d e h.1, safe_step d e h.1 h.2 he⟩) (fun d e h _ he hu => ?_)
    ⟨hstored, safe_boot _⟩ hzero
  rcases h.2 with hv | hnz
  · exact hu.1 hv
  · rw [hu.2] at hnz
    exact hnz.elim (fun hc => hc rfl) fun hc => hc rfl

/-- On a new device the APP sets zeros before the first `flash_run`: nothing is ever saved. -/
theorem zero_setting_unsaved : ¬ ∀ (page : FlashPage) (key1 key2 : UInt8) (es : List Event),
    Along step (fun d e => e = .flashRun → Coherent (step d e))
      (boot (page.start key1 key2)) es := by
  intro H
  obtain ⟨-, hrun, -⟩ := H .blank 1 1 [.bleWrite [7, 6, 0x11, 0xB7, 0, 0, 0, 0, 0], .flashRun]
  have hstored := stored_step _ (.bleWrite [7, 6, 0x11, 0xB7, 0, 0, 0, 0, 0])
    (stored_boot .blank 1 1)
  refine (coherent_iff hstored).mp (hrun rfl) ⟨?_, cfg_of_sets _ (by decide)⟩
  have hrecord := record_step _ (.bleWrite [7, 6, 0x11, 0xB7, 0, 0, 0, 0, 0])
    (stored_boot .blank 1 1).level
  rw [if_pos (by decide), cfg_of_sets _ (by decide), (flash_boot _).1,
    flashMedium.sync_of_eq (by decide)] at hrecord
  rw [(Shadowed.mk.inj hrecord).1]
  decide

end ErgoDock
