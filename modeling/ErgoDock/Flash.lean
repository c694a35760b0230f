import ErgoDock.Uart

/-! # The configuration record in flash (`x_flash.c`)

Speed, time and level of the anti-snore lift are kept in a five-byte record with a CRC.  RAM
shadow copies say what was saved last, so that an unchanged configuration is not written. -/

namespace ErgoDock

/-- The bytes of `flash_save_data_st`: the three values, then the CRC, low byte first. -/
def flashRecord (pwm tmr intensity : UInt8) : List UInt8 :=
  let crc := modbusCrcCompute [pwm, tmr, intensity]
  [pwm, tmr, intensity, crc.toUInt8, (crc >>> 8).toUInt8]

/-- The test of `flash_load` on the content of the page. -/
def FlashValid (page : List UInt8) : Prop :=
  modbusCrcCompute [page.getD 0 0, page.getD 1 0, page.getD 2 0] =
    (page.getD 3 0).toUInt16 ||| (page.getD 4 0).toUInt16 <<< 8

instance (page : List UInt8) : Decidable (FlashValid page) := by
  unfold FlashValid; infer_instance

/-- Erasing sets every byte to `0xFF`. -/
def halFlashPageErase (page : List UInt8) : List UInt8 := page.map fun _ => 0xFF

/-- Programming can only clear bits. -/
def halFlashPageProgram (page data : List UInt8) : List UInt8 :=
  List.zipWith (· &&& ·) page data ++ page.drop data.length

namespace Dock

/-- `flash_snore_shadow_update`. -/
def flashSnoreShadowUpdate (d : Dock) : Dock :=
  { d with flash := { d.flash with
    oldSnorePwm := d.anti.snoreIntervention.snoreInterventionPwm
    oldSnoreTmr := d.anti.snoreIntervention.snoreInterventionTmr
    oldSnoreIntensity := d.anti.antiSnoreIntensity } }

/-- `set_savetoflash`. -/
def setSavetoflash (d : Dock) (data : List UInt8) : Dock :=
  let page := halFlashPageProgram (halFlashPageErase d.flash.page) data
  ({ d with flash := { d.flash with page := page } }.emit .flashErase).emit (.flashProgram data)

/-- `flash_save`. -/
def flashSave (d : Dock) : Dock :=
  let intensity := d.anti.antiSnoreIntensity
  d.setSavetoflash (flashRecord d.anti.snoreIntervention.snoreInterventionPwm
    d.anti.snoreIntervention.snoreInterventionTmr (if intensity > 3 then 3 else intensity))

/-- `flash_load`. -/
def flashLoad (d : Dock) : Dock :=
  let p := d.flash.page
  let d₁ := if FlashValid p then
      let intensity := if p.getD 2 0 > 3 then 3 else p.getD 2 0
      d.mapAnti fun a =>
        { a with antiSnoreIntensity := intensity }.mapSi fun si =>
          { si with
            snoreInterventionPwm := p.getD 0 0
            snoreInterventionTmr := p.getD 1 0
            enable := intensity != 0 }
    else d
  d₁.flashSnoreShadowUpdate

/-- `flash_save_snore_cfg_if_changed` (and `flash_run`, which only calls it). -/
def flashSaveSnoreCfgIfChanged (d : Dock) : Dock :=
  let d₁ := if d.flash.oldSnorePwm ≠ d.anti.snoreIntervention.snoreInterventionPwm ∨
      d.flash.oldSnoreTmr ≠ d.anti.snoreIntervention.snoreInterventionTmr ∨
      d.flash.oldSnoreIntensity ≠ d.anti.antiSnoreIntensity then d.flashSave else d
  d₁.flashSnoreShadowUpdate

theorem background_flashSave (d : Dock) : Background d d.flashSaveSnoreCfgIfChanged := by
  simp only [flashSaveSnoreCfgIfChanged]
  split <;> exact ⟨rfl, rfl, rfl, rfl, rfl, rfl⟩

end Dock
end ErgoDock
