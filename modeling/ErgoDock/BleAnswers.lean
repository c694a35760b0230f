import ErgoDock.BleCom

/-! # Writes and their answers

A write of the APP is an effect on the state (`bleApply`) followed by at most one answer
(`answer`, read in the state after the effect), which is put into `bletxbuff` and handed to the
send function (`deliver`).  `uartServerWriteReq_eq` says so for every write; what a write does to
a part of the state is read off the two. -/

namespace ErgoDock
namespace Dock

/-! ### Answers -/

/-- Put a frame into `bletxbuff` and hand it to the send function. -/
def deliver (d : Dock) : Option (List UInt8) → Dock
  | none => d
  | some frame => ((d.setBletx frame).lsBleupServerSendNotification frame).2

/-- The frame `ble_link_send` builds. -/
def linkFrame (port : UInt8) (data : List UInt8) : Option (List UInt8) :=
  if data.length > bleRxMaxPayload.toNat then none
  else some (UInt8.ofNat data.length :: port :: data)

/-- The data of the answer for segment `0x10`. -/
def voiceData (d : Dock) : List UInt8 :=
  [0x10, 0xB4, d.bleOfflineVoiceStateByte, if d.voice.enabled then 1 else 0,
    d.voice.lastControlCmd]

/-- The data of the answer for segment `0x11`. -/
def snoreData (d : Dock) : List UInt8 :=
  let a := d.anti
  let si := a.snoreIntervention
  [0x11, 0xB4, si.snoreInterventionPwm, si.snoreInterventionTmr,
    if a.antiSnoreIntensity > 3 then 3 else a.antiSnoreIntensity,
    if si.isIntervening || si.triggeredFlag then 1 else 0] ++ le32 (remain10ms a) ++
    [satByte a.sf.snoreNub, satByte d.dbg.cnt1min, satByte d.dbg.cnt5min, a.snoreRunModeGet]

/-- The data of the answer for segment `0x12`. -/
def testinfoData (d : Dock) : List UInt8 :=
  let t := d.sys.bleTestinfo
  [0x12, 0xB4, t.offlineVoiceWake.toUInt8, (t.offlineVoiceWake >>> 8).toUInt8,
    t.offlineVoiceResp.toUInt8, (t.offlineVoiceResp >>> 8).toUInt8,
    satByte t.snoreInterventionTrig, satByte d.anti.sf.snoreNub, 0xB3] ++ t.voiceDetail

/-- The data of the answer for segment `0x13`. -/
def dbgmodeData (d : Dock) : List UInt8 := [0x13, 0xB4, d.anti.snoreRunModeGet]

/-- The frame of `x_ble_com_txbuffFill`. -/
def statusFrame (d : Dock) : List UInt8 :=
  UInt8.ofNat d.bleFillAppKeyDataDomain.length :: bleAppPortInner :: d.bleFillAppKeyDataDomain

/-- The answer to a frame on the data port. -/
def dataPortAnswer (d : Dock) (p : List UInt8) (n : UInt8) : Option (List UInt8) :=
  if n < 2 then none
  else if byteAt p 0 = 0x10 then
    if byteAt p 1 = 0xB6 ∨ byteAt p 1 = 0xB7 ∧ n ≥ 3 then linkFrame bleDataPort d.voiceData
    else none
  else if byteAt p 0 = 0x11 then
    if byteAt p 1 = 0xB6 ∨ SetsSnore p n then linkFrame bleDataPort d.snoreData else none
  else if byteAt p 0 = 0x12 then
    if byteAt p 1 = 0xB6 ∨ byteAt p 1 = 0xB7 then linkFrame bleDataPort d.testinfoData else none
  else if byteAt p 0 = 0x13 then
    if byteAt p 1 = 0xB6 ∨ byteAt p 1 = 0xB7 ∧ n ≥ 3 then linkFrame bleDataPort d.dbgmodeData
    else none
  else none

/-- The answer to a write. -/
def answer (d : Dock) (value : List UInt8) : Option (List UInt8) :=
  if Accepted value then
    if byteAt value 1 = bleAppPortInner then some d.statusFrame
    else if byteAt value 1 = bleDataPort then
      d.dataPortAnswer (value.drop 2) (byteAt value 0)
    else none
  else none

/-! ### Effects -/

/-- The effect of a frame on the data port. -/
def dataPortEffect (d : Dock) (p : List UInt8) (n : UInt8) : Dock :=
  if SetsBed p n then { d with voice := { d.voice with bedType := byteAt p 2 } }
  else if SetsSnore p n then d.bleSnoreConfigure (byteAt p 2) (byteAt p 3) (byteAt p 4)
  else if CarriesMode p n then d.snoreRunModeSet (byteAt p 2)
  else d

/-- The effect of a frame on the data port, with the LED that shows a level that was set. -/
def dataPortApply (d : Dock) (p : List UInt8) (n : UInt8) : Dock :=
  let c := d.dataPortEffect p n
  if SetsSnore p n then c.setLed (c.led.ledSnoreLevelSet c.anti.antiSnoreIntensity) else c

/-- The controller's field for the APP, brought up to date before a status frame. -/
def reportTriging (d : Dock) : Dock :=
  d.mapAnti fun a => a.mapSi fun si => { si with triging := if si.isIntervening then 1 else 0 }

/-- The effect of a GATT write. -/
def bleEffect (d : Dock) (value : List UInt8) : Dock :=
  if Accepted value then
    if byteAt value 1 = bleAppPortInner then
      (d.bleAppKeyDispatch (value.drop 2) (byteAt value 0)).reportTriging
    else if byteAt value 1 = bleDataPort then d.dataPortEffect (value.drop 2) (byteAt value 0)
    else d
  else d

/-- The effect of a GATT write, with the LED. -/
def bleApply (d : Dock) (value : List UInt8) : Dock :=
  if Accepted value then
    if byteAt value 1 = bleAppPortInner then
      (d.bleAppKeyDispatch (value.drop 2) (byteAt value 0)).reportTriging
    else if byteAt value 1 = bleDataPort then d.dataPortApply (value.drop 2) (byteAt value 0)
    else d
  else d

/-! ### A write is its effect, then its answer -/

theorem bleLinkSend_eq (d : Dock) (port : UInt8) (data : List UInt8) :
    d.bleLinkSend port data = d.deliver (linkFrame port data) := by
  simp only [bleLinkSend, linkFrame]
  split <;> rfl

section dataPort
variable (d : Dock) {p : List UInt8} {n : UInt8}

/-- The three settings are told apart by the segment. -/
theorem effect_offlineVoice (hp : byteAt p 0 = 0x10) :
    d.dataPortApply p n =
      if SetsBed p n then { d with voice := { d.voice with bedType := byteAt p 2 } } else d := by
  have hs : ¬ SetsSnore p n := fun hs => by simp [hs.2.1] at hp
  have hm : ¬ CarriesMode p n := fun hm => by simp [hm.2.1] at hp
  simp only [dataPortApply, dataPortEffect]
  rw [if_neg hs, if_neg hs, if_neg hm]

theorem effect_snore (hp : byteAt p 0 = 0x11) :
    d.dataPortApply p n =
      if SetsSnore p n then
        let c := d.bleSnoreConfigure (byteAt p 2) (byteAt p 3) (byteAt p 4)
        c.setLed (c.led.ledSnoreLevelSet c.anti.antiSnoreIntensity)
      else d := by
  have hb : ¬ SetsBed p n := fun hb => by simp [hb.2.1] at hp
  have hm : ¬ CarriesMode p n := fun hm => by simp [hm.2.1] at hp
  simp only [dataPortApply, dataPortEffect]
  rw [if_neg hb, if_neg hm]
  split <;> rfl

theorem effect_dbgmode (hp : byteAt p 0 = 0x13) :
    d.dataPortApply p n = if CarriesMode p n then d.snoreRunModeSet (byteAt p 2) else d := by
  have hb : ¬ SetsBed p n := fun hb => by simp [hb.2.1] at hp
  have hs : ¬ SetsSnore p n := fun hs => by simp [hs.2.1] at hp
  simp only [dataPortApply, dataPortEffect]
  rw [if_neg hb, if_neg hs, if_neg hs]

theorem effect_other (h : byteAt p 0 ≠ 0x10) (h₁ : byteAt p 0 ≠ 0x11) (h₃ : byteAt p 0 ≠ 0x13) :
    d.dataPortApply p n = d := by
  have hs : ¬ SetsSnore p n := fun hs => h₁ hs.2.1
  simp only [dataPortApply, dataPortEffect]
  rw [if_neg hs, if_neg hs, if_neg fun hb : SetsBed p n => h hb.2.1,
    if_neg fun hm : CarriesMode p n => h₃ hm.2.1]

theorem effect_short (h : n < 2) : d.dataPortApply p n = d := by
  have h3 : ¬ n ≥ 3 := fun hc =>
    UInt8.not_le.mpr (UInt8.lt_trans h (by decide : (2 : UInt8) < 3)) hc
  have hs : ¬ SetsSnore p n := fun hs => by simp [hs.1] at h
  simp only [dataPortApply, dataPortEffect]
  rw [if_neg hs, if_neg hs, if_neg fun hb : SetsBed p n => h3 hb.1,
    if_neg fun hm : CarriesMode p n => h3 hm.1]

theorem offlineVoiceSegment_eq (hn : ¬ n < 2) (hp : byteAt p 0 = 0x10) :
    d.bleOfflineVoiceSegmentHandle p n =
      (d.dataPortApply p n).deliver ((d.dataPortApply p n).dataPortAnswer p n) := by
  rw [d.effect_offlineVoice hp]
  simp only [bleOfflineVoiceSegmentHandle, dataPortAnswer]
  rw [if_neg hn, if_neg (not_not.mpr hp), if_neg hn, if_pos hp]
  by_cases hq : byteAt p 1 = 0xB6
  · have hb : ¬ SetsBed p n := fun hb => by simp [hb.2.2.1] at hq
    rw [if_pos hq, if_neg hb, if_pos (Or.inl hq)]
    exact bleLinkSend_eq d _ _
  rw [if_neg hq]
  by_cases h7 : byteAt p 1 = 0xB7 ∧ n ≥ 3
  · rw [if_pos h7, if_pos (Or.inr h7)]
    by_cases hv : byteAt p 2 > 1
    · have hb : ¬ SetsBed p n := fun hb => UInt8.not_lt.mpr hb.2.2.2 hv
      rw [if_pos hv, if_neg hb]
      exact bleLinkSend_eq d _ _
    · rw [if_neg hv, if_pos (show SetsBed p n from ⟨h7.2, hp, h7.1, UInt8.not_lt.mp hv⟩)]
      exact bleLinkSend_eq _ _ _
  · have hb : ¬ SetsBed p n := fun hb => h7 ⟨hb.2.2.1, hb.1⟩
    rw [if_neg h7, if_neg hb, if_neg (not_or.mpr ⟨hq, h7⟩)]
    rfl

theorem snoreSegment_eq (hn : ¬ n < 2) (hp : byteAt p 0 = 0x11) :
    d.bleSnoreSegmentHandle p n =
      (d.dataPortApply p n).deliver ((d.dataPortApply p n).dataPortAnswer p n) := by
  have h10 : byteAt p 0 ≠ 0x10 := by simp [hp]
  rw [d.effect_snore hp]
  simp only [bleSnoreSegmentHandle, dataPortAnswer]
  rw [if_neg hn, if_neg (not_not.mpr hp), if_neg hn, if_neg h10, if_pos hp]
  by_cases hq : byteAt p 1 = 0xB6
  · have hs : ¬ SetsSnore p n := fun hs => by simp [hs.2.2.1] at hq
    rw [if_pos hq, if_neg hs, if_pos (Or.inl hq)]
    exact bleLinkSend_eq d _ _
  rw [if_neg hq]
  by_cases h7 : byteAt p 1 = 0xB7 ∧ n = 7
  · rw [if_pos h7]
    by_cases hv : byteAt p 4 > 3
    · have hs : ¬ SetsSnore p n := fun hs => UInt8.not_lt.mpr hs.2.2.2 hv
      rw [if_pos hv, if_neg hs, if_neg (not_or.mpr ⟨hq, hs⟩)]
      rfl
    · have hs : SetsSnore p n := ⟨h7.2, hp, h7.1, UInt8.not_lt.mp hv⟩
      rw [if_neg hv, if_pos hs, if_pos (Or.inr hs)]
      exact bleLinkSend_eq _ _ _
  · have hs : ¬ SetsSnore p n := fun hs => h7 ⟨hs.2.2.1, hs.1⟩
    rw [if_neg h7, if_neg hs, if_neg (not_or.mpr ⟨hq, hs⟩)]
    rfl

theorem testinfoSegment_eq (hn : ¬ n < 2) (hp : byteAt p 0 = 0x12) :
    d.bleTestinfoSegmentHandle p n =
      (d.dataPortApply p n).deliver ((d.dataPortApply p n).dataPortAnswer p n) := by
  have h10 : byteAt p 0 ≠ 0x10 := by simp [hp]
  have h11 : byteAt p 0 ≠ 0x11 := by simp [hp]
  have h13 : byteAt p 0 ≠ 0x13 := by simp [hp]
  rw [d.effect_other h10 h11 h13]
  simp only [bleTestinfoSegmentHandle, dataPortAnswer]
  rw [if_neg hn, if_neg (not_not.mpr hp), if_neg hn, if_neg h10, if_neg h11, if_pos hp]
  by_cases hq : byteAt p 1 = 0xB6
  · rw [if_pos hq, if_pos (Or.inl hq)]
    exact bleLinkSend_eq d _ _
  · rw [if_neg hq]
    by_cases h7 : byteAt p 1 = 0xB7
    · rw [if_pos h7, if_pos (Or.inr h7)]
      exact bleLinkSend_eq d _ _
    · rw [if_neg h7, if_neg (not_or.mpr ⟨hq, h7⟩)]
      rfl

theorem dbgmodeSegment_eq (hn : ¬ n < 2) (hp : byteAt p 0 = 0x13) :
    d.bleSnoreDbgmodeSegmentHandle p n =
      (d.dataPortApply p n).deliver ((d.dataPortApply p n).dataPortAnswer p n) := by
  have h10 : byteAt p 0 ≠ 0x10 := by simp [hp]
  have h11 : byteAt p 0 ≠ 0x11 := by simp [hp]
  have h12 : byteAt p 0 ≠ 0x12 := by simp [hp]
  rw [d.effect_dbgmode hp]
  simp only [bleSnoreDbgmodeSegmentHandle, dataPortAnswer]
  rw [if_neg hn, if_neg (not_not.mpr hp), if_neg hn, if_neg h10, if_neg h11, if_neg h12,
    if_pos hp]
  by_cases hq : byteAt p 1 = 0xB6
  · have hm : ¬ CarriesMode p n := fun hm => by simp [hm.2.2.1] at hq
    rw [if_pos hq, if_neg hm, if_pos (Or.inl hq)]
    exact bleLinkSend_eq d _ _
  rw [if_neg hq]
  by_cases h7 : byteAt p 1 = 0xB7 ∧ n ≥ 3
  · rw [if_pos h7, if_pos (Or.inr h7)]
    by_cases hv : byteAt p 2 > snoreRunModeTest
    · have hm : ¬ CarriesMode p n := fun hm => UInt8.not_lt.mpr hm.2.2.2 hv
      rw [if_pos hv, if_neg hm]
      exact bleLinkSend_eq d _ _
    · rw [if_neg hv, if_pos (show CarriesMode p n from ⟨h7.2, hp, h7.1, UInt8.not_lt.mp hv⟩)]
      exact bleLinkSend_eq _ _ _
  · have hm : ¬ CarriesMode p n := fun hm => h7 ⟨hm.2.2.1, hm.1⟩
    rw [if_neg h7, if_neg hm, if_neg (not_or.mpr ⟨hq, h7⟩)]
    rfl

theorem bleDataPortDispatch_eq (p : List UInt8) (n : UInt8) :
    d.bleDataPortDispatch p n =
      (d.dataPortApply p n).deliver ((d.dataPortApply p n).dataPortAnswer p n) := by
  simp only [bleDataPortDispatch]
  by_cases hn : n < 2
  · rw [if_pos hn, d.effect_short hn, dataPortAnswer, if_pos hn]
    rfl
  rw [if_neg hn]
  split
  · next h0 => exact d.offlineVoiceSegment_eq hn h0
  next h0 =>
  split
  · next h1 => exact d.snoreSegment_eq hn h1
  next h1 =>
  split
  · next h2 => exact d.testinfoSegment_eq hn h2
  next h2 =>
  split
  · next h3 => exact d.dbgmodeSegment_eq hn h3
  next h3 =>
  rw [d.effect_other h0 h1 h3, dataPortAnswer, if_neg hn, if_neg h0, if_neg h1, if_neg h2,
    if_neg h3]
  rfl

end dataPort

theorem uartServerWriteReq_eq (d : Dock) (value : List UInt8) :
    d.uartServerWriteReq value = (d.bleApply value).deliver ((d.bleApply value).answer value) := by
  simp only [uartServerWriteReq, xBleComHandle, bleApply, answer]
  by_cases ha : Accepted value
  · rw [if_pos ha.1, if_pos ha.2, if_pos ha, if_pos ha]
    by_cases hp : byteAt value 1 = bleAppPortInner
    · rw [if_pos hp, if_pos hp, if_pos hp]
      rfl
    · rw [if_neg hp, if_neg hp, if_neg hp]
      by_cases hq : byteAt value 1 = bleDataPort
      · rw [if_pos hq, if_pos hq, if_pos hq]
        exact d.bleDataPortDispatch_eq _ _
      · rw [if_neg hq, if_neg hq, if_neg hq]
        rfl
  · rw [if_neg ha, if_neg ha]
    by_cases hl : value.length ≤ 50 ∧ value.length ≥ 2
    · rw [if_pos hl, if_neg fun hc => ha ⟨hl, hc⟩]
      rfl
    · rw [if_neg hl]
      rfl

/-! ### What an answer is -/

theorem linkFrame_some {port : UInt8} {data frame : List UInt8}
    (h : linkFrame port data = some frame) : frame = UInt8.ofNat data.length :: port :: data := by
  rw [linkFrame] at h
  split at h
  · cases h
  · exact (Option.some.inj h).symm

theorem linkFrame_of_le {port : UInt8} {data : List UInt8} (h : data.length ≤ 160) :
    linkFrame port data = some (UInt8.ofNat data.length :: port :: data) := by
  have hroom : ¬ data.length > bleRxMaxPayload.toNat := Nat.not_lt.mpr h
  rw [linkFrame, if_neg hroom]

section lengths
variable (d : Dock)

theorem length_voiceData : d.voiceData.length = 5 := rfl

theorem length_snoreData : d.snoreData.length = 14 := rfl

theorem length_testinfoData :
    d.testinfoData.length = 9 + d.sys.bleTestinfo.voiceDetail.length := by
  simp only [testinfoData, List.length_append]
  rfl

theorem length_dbgmodeData : d.dbgmodeData.length = 3 := rfl

end lengths

/-- An answer is the status frame, or the data of the segment that was asked for. -/
theorem answer_cases {d : Dock} {value frame : List UInt8} (h : d.answer value = some frame) :
    (byteAt value 1 = bleAppPortInner ∧ frame = d.statusFrame) ∨
    ∃ data, frame = UInt8.ofNat data.length :: bleDataPort :: data ∧
      byteAt value 1 = bleDataPort ∧
      ((byteAt (value.drop 2) 0 = 0x10 ∧ data = d.voiceData) ∨
        (byteAt (value.drop 2) 0 = 0x11 ∧ data = d.snoreData) ∨
        (byteAt (value.drop 2) 0 = 0x12 ∧ data = d.testinfoData) ∨
        (byteAt (value.drop 2) 0 = 0x13 ∧ data = d.dbgmodeData)) := by
  have hite : ∀ {c : Prop} [Decidable c] {data},
      (if c then linkFrame bleDataPort data else none) = some frame →
        frame = UInt8.ofNat data.length :: bleDataPort :: data := by
    intro c _ data hc
    split at hc
    · exact linkFrame_some hc
    · cases hc
  rw [answer] at h
  split at h
  · split at h
    · next hp => exact .inl ⟨hp, (Option.some.inj h).symm⟩
    split at h
    · next hq =>
      refine .inr ?_
      simp only [dataPortAnswer] at h
      split at h
      · cases h
      split at h
      · next h0 => exact ⟨_, hite h, hq, .inl ⟨h0, rfl⟩⟩
      split at h
      · next h1 => exact ⟨_, hite h, hq, .inr (.inl ⟨h1, rfl⟩)⟩
      split at h
      · next h2 => exact ⟨_, hite h, hq, .inr (.inr (.inl ⟨h2, rfl⟩))⟩
      split at h
      · next h3 => exact ⟨_, hite h, hq, .inr (.inr (.inr ⟨h3, rfl⟩))⟩
      · cases h
    · cases h
  · cases h

/-- An answer begins with its length. -/
theorem answer_ne_nil {d : Dock} {value frame : List UInt8} (h : d.answer value = some frame) :
    frame ≠ [] := by
  rcases answer_cases h with ⟨-, rfl⟩ | ⟨data, rfl, -⟩
  · exact List.cons_ne_nil _ _
  · exact List.cons_ne_nil _ _

/-! ### Answers are background work -/

theorem background_sendNotification (d : Dock) (data : List UInt8) :
    Background d (d.lsBleupServerSendNotification data).2 := by
  simp only [lsBleupServerSendNotification]
  split
  · exact ⟨rfl, rfl, rfl, rfl, rfl, rfl⟩
  · exact .refl d

theorem background_deliver (d : Dock) (frame : Option (List UInt8)) :
    Background d (d.deliver frame) := by
  cases frame with
  | none => exact .refl d
  | some frame => exact (background_setBletx d frame).trans (background_sendNotification _ _)

theorem background_dataPortApply (d : Dock) (p : List UInt8) (n : UInt8) :
    Background (d.dataPortEffect p n) (d.dataPortApply p n) := by
  simp only [dataPortApply]
  split
  · exact background_setLed _ _
  · exact .refl _

theorem background_bleApply (d : Dock) (value : List UInt8) :
    Background (d.bleEffect value) (d.bleApply value) := by
  simp only [bleEffect, bleApply]
  split
  · split
    · exact .refl _
    · split
      · exact d.background_dataPortApply _ _
      · exact .refl d
  · exact .refl d

/-- Everything else a write does is background work. -/
theorem background_uartServerWriteReq (d : Dock) (value : List UInt8) :
    Background (d.bleEffect value) (d.uartServerWriteReq value) := by
  rw [uartServerWriteReq_eq]
  exact (d.background_bleApply value).trans (background_deliver _ _)

end Dock
end ErgoDock
