import ErgoDock.Air

/-! # Frames of the APP: commands, rejected frames, and the bytes that are read

The frames that are commands form a small grammar (`IsCommand`); every other write leaves the
configuration, the controller, the queue and the flash as they are, although some are answered
(`rejected_frame_atomic`).

The handlers are given again with every read checked: a read fails outside the frame and outside
the received bytes (`frameByte`).  No read ever fails (`xBleComHandleChecked_eq`), and since the
checked handlers see nothing but the bytes of the frame, whatever follows it is ignored. -/

namespace ErgoDock

/-! ### Commands -/

/-- A `B6` frame of one of the four segments. -/
def Queries (p : List UInt8) (n : UInt8) : Prop :=
  n ≥ 2 ∧ (byteAt p 0 = 0x10 ∨ byteAt p 0 = 0x11 ∨ byteAt p 0 = 0x12 ∨ byteAt p 0 = 0x13) ∧
    byteAt p 1 = 0xB6

instance (p : List UInt8) (n : UInt8) : Decidable (Queries p n) := by
  unfold Queries; infer_instance

/-- A `12 B7` frame, which only asks for the counters. -/
def EchoesCounters (p : List UInt8) (n : UInt8) : Prop :=
  n ≥ 2 ∧ byteAt p 0 = 0x12 ∧ byteAt p 1 = 0xB7

instance (p : List UInt8) (n : UInt8) : Decidable (EchoesCounters p n) := by
  unfold EchoesCounters; infer_instance

/-- The commands of the data port. -/
def IsDataCommand (p : List UInt8) (n : UInt8) : Prop :=
  Queries p n ∨ EchoesCounters p n ∨ SetsBed p n ∨ SetsSnore p n ∨ CarriesMode p n

instance (p : List UInt8) (n : UInt8) : Decidable (IsDataCommand p n) := by
  unfold IsDataCommand; infer_instance

/-- A complete frame with a key in one of its two forms, a query or a setting. -/
def IsCommand (value : List UInt8) : Prop :=
  Dock.Accepted value ∧
    (byteAt value 1 = bleAppPortInner ∧ (byteAt value 0 = 5 ∨ byteAt value 0 = 7) ∨
      byteAt value 1 = bleDataPort ∧ IsDataCommand (value.drop 2) (byteAt value 0))

instance (value : List UInt8) : Decidable (IsCommand value) := by
  unfold IsCommand; infer_instance

/-! ### Rejected frames -/

/-- What a frame that is no command must not touch.  (`triging` is written for the status frame
and read by nothing.) -/
structure Untouched (d d' : Dock) : Prop where
  anti : ∃ t, d'.anti = d.anti.mapSi fun si => { si with triging := t }
  voice : d'.voice = d.voice
  mfp : d'.mfp = d.mfp
  flash : d'.flash = d.flash

namespace Dock

section rejected
variable (d : Dock) {value : List UInt8}

theorem dataPortApply_of_not_command {p : List UInt8} {n : UInt8} (h : ¬ IsDataCommand p n) :
    d.dataPortApply p n = d := by
  have hb : ¬ SetsBed p n := fun hb => h (.inr (.inr (.inl hb)))
  have hs : ¬ SetsSnore p n := fun hs => h (.inr (.inr (.inr (.inl hs))))
  have hm : ¬ CarriesMode p n := fun hm => h (.inr (.inr (.inr (.inr hm))))
  simp only [dataPortApply, dataPortEffect]
  rw [if_neg hs, if_neg hb, if_neg hs, if_neg hm]

/-- Before it is answered, a frame that is no command does nothing, except that a frame on the
key port brings the field of the status frame up to date. -/
theorem bleApply_of_not_command (h : ¬ IsCommand value) :
    d.bleApply value = d ∨ d.bleApply value = d.reportTriging := by
  rw [bleApply]
  by_cases ha : Accepted value
  · rw [if_pos ha]
    by_cases hp : byteAt value 1 = bleAppPortInner
    · have h5 : byteAt value 0 ≠ 5 := fun hn => h ⟨ha, .inl ⟨hp, .inl hn⟩⟩
      have h7 : byteAt value 0 ≠ 7 := fun hn => h ⟨ha, .inl ⟨hp, .inr hn⟩⟩
      refine .inr ?_
      rw [if_pos hp, bleAppKeyDispatch, if_neg h5, if_neg h7]
    · refine .inl ?_
      rw [if_neg hp]
      split
      · next hq => exact d.dataPortApply_of_not_command fun hc => h ⟨ha, .inr ⟨hq, hc⟩⟩
      · rfl
  · exact .inl (if_neg ha)

theorem flash_deliver (frame : Option (List UInt8)) : (d.deliver frame).flash = d.flash := by
  cases frame with
  | none => rfl
  | some frame =>
      simp only [deliver, lsBleupServerSendNotification]
      split <;> rfl

end rejected
end Dock

/-- A frame that is no command is atomic: in every state it leaves the configuration, the
controller, the queue and the flash as they were. -/
theorem rejected_frame_atomic (d : Dock) (value : List UInt8) (h : ¬ IsCommand value) :
    Untouched d (d.uartServerWriteReq value) := by
  rw [Dock.uartServerWriteReq_eq]
  have hback := Dock.background_deliver (d.bleApply value) ((d.bleApply value).answer value)
  have hflash := Dock.flash_deliver (d.bleApply value) ((d.bleApply value).answer value)
  rcases d.bleApply_of_not_command h with ha | ha
  · rw [ha] at hback hflash ⊢
    exact ⟨⟨_, hback.anti⟩, hback.voice, hback.mfp, hflash⟩
  · rw [ha] at hback hflash ⊢
    exact ⟨⟨_, hback.anti⟩, hback.voice, hback.mfp, hflash⟩

/-- A level above 3 is not a command, and nothing of the frame is taken over. -/
theorem level_nine_atomic :
    Untouched {} (({} : Dock).uartServerWriteReq [7, 6, 0x11, 0xB7, 0x50, 0x15, 9, 0, 0]) :=
  rejected_frame_atomic {} [7, 6, 0x11, 0xB7, 0x50, 0x15, 9, 0, 0] (by decide)

/-! ### Checked reads -/

/-- A read of the received bytes that fails outside the frame and outside the bytes. -/
def frameByte (value : List UInt8) (i : ℕ) : Option UInt8 :=
  if i < 2 + (byteAt value 0).toNat then value[i]? else none

namespace Dock

/-- `ble_offline_voice_segment_handle` with its reads. -/
def readOfflineVoiceSegment (d : Dock) (rd : ℕ → Option UInt8) (n : UInt8) : Option Dock :=
  if n < 2 then some d
  else do
    let seg ← rd 0
    if seg ≠ 0x10 then some d
    else
      let param ← rd 1
      if param = 0xB6 then some d.bleOfflineVoiceSendResponse
      else if param = 0xB7 ∧ n ≥ 3 then
        let bedType ← rd 2
        let d₁ :=
          if bedType > 1 then d else { d with voice := { d.voice with bedType := bedType } }
        some d₁.bleOfflineVoiceSendResponse
      else some d

/-- `ble_snore_segment_handle` with its reads; the reserved bytes are read for the log. -/
def readSnoreSegment (d : Dock) (rd : ℕ → Option UInt8) (n : UInt8) : Option Dock :=
  if n < 2 then some d
  else do
    let seg ← rd 0
    if seg ≠ 0x11 then some d
    else
      let param ← rd 1
      if param = 0xB6 then some d.bleSnoreSendResponse
      else if param = 0xB7 ∧ n = 7 then
        let intensity ← rd 4
        if intensity > 3 then some d
        else
          let _ ← rd 5
          let _ ← rd 6
          let pwm ← rd 2
          let tmr ← rd 3
          let d₁ := d.bleSnoreConfigure pwm tmr intensity
          some (d₁.setLed (d₁.led.ledSnoreLevelSet d₁.anti.antiSnoreIntensity)).bleSnoreSendResponse
      else some d

/-- `ble_testinfo_segment_handle` with its reads. -/
def readTestinfoSegment (d : Dock) (rd : ℕ → Option UInt8) (n : UInt8) : Option Dock :=
  if n < 2 then some d
  else do
    let seg ← rd 0
    if seg ≠ 0x12 then some d
    else
      let param ← rd 1
      if param = 0xB6 then some d.bleTestinfoSendResponse
      else if param = 0xB7 then some d.bleTestinfoSendResponse
      else some d

/-- `ble_snore_dbgmode_segment_handle` with its reads. -/
def readDbgmodeSegment (d : Dock) (rd : ℕ → Option UInt8) (n : UInt8) : Option Dock :=
  if n < 2 then some d
  else do
    let seg ← rd 0
    if seg ≠ 0x13 then some d
    else
      let param ← rd 1
      if param = 0xB6 then some d.bleSnoreDbgmodeSendResponse
      else if param = 0xB7 ∧ n ≥ 3 then
        let mode ← rd 2
        if mode > snoreRunModeTest then some d.bleSnoreDbgmodeSendResponse
        else some (d.snoreRunModeSet mode).bleSnoreDbgmodeSendResponse
      else some d

/-- `ble_data_port_dispatch` with its reads; the first two bytes are read for the log. -/
def readDataPort (d : Dock) (rd : ℕ → Option UInt8) (n : UInt8) : Option Dock :=
  if n < 2 then some d
  else do
    let seg ← rd 0
    let _ ← rd 1
    if seg = 0x10 then d.readOfflineVoiceSegment rd n
    else if seg = 0x11 then d.readSnoreSegment rd n
    else if seg = 0x12 then d.readTestinfoSegment rd n
    else if seg = 0x13 then d.readDbgmodeSegment rd n
    else some d

/-- `ble_app_key_dispatch` with its reads; the byte after the key is read for the log. -/
def readAppKey (d : Dock) (rd : ℕ → Option UInt8) (n : UInt8) : Option Dock :=
  if n = 5 then do
    let key := ofLe32 (← rd 0) (← rd 1) (← rd 2) (← rd 3)
    some { d with mfp := d.mfp.prepareMfpNormalKet .app key 3 }
  else if n = 7 then do
    let key := ofLe32 (← rd 0) (← rd 1) (← rd 2) (← rd 3)
    let _ ← rd 4
    some { d with mfp := d.mfp.prepareMfpSoftStart .app key (← rd 5) (← rd 6) 3 }
  else some d

/-- `x_ble_com_handle` with its reads; the first four bytes of a truncated frame are read for
the log, as far as they were received. -/
def readBleCom (d : Dock) (value : List UInt8) : Option Dock := do
  let rd := frameByte value
  let dataLen ← rd 0
  let port ← rd 1
  if dataLen > bleRxMaxPayload then some d
  else if value.length < 2 + dataLen.toNat then
    let _ ← ((List.range 4).filter (· < value.length)).mapM rd
    some d
  else if port = bleAppPortInner then
    let d₁ ← d.readAppKey (fun i => rd (2 + i)) dataLen
    some d₁.xBleComTxbuffFill
  else if port = bleDataPort then d.readDataPort (fun i => rd (2 + i)) dataLen
  else some d

/-! ### No read leaves the frame -/

section reads
variable (d : Dock) {rd : ℕ → Option UInt8} {p : List UInt8} {n : UInt8}

theorem readOfflineVoiceSegment_eq (h : ∀ i < n.toNat, rd i = some (byteAt p i)) :
    d.readOfflineVoiceSegment rd n = some (d.bleOfflineVoiceSegmentHandle p n) := by
  simp only [readOfflineVoiceSegment, bleOfflineVoiceSegmentHandle]
  by_cases hn : n < 2
  · rw [if_pos hn, if_pos hn]
  have h2 : 2 ≤ n.toNat := UInt8.not_lt.mp hn
  rw [if_neg hn, if_neg hn, h 0 (by omega), h 1 (by omega)]
  simp only [Option.bind_eq_bind, Option.bind_some]
  split
  · rfl
  split
  · rfl
  split
  · next h7 =>
    have h3 : 3 ≤ n.toNat := h7.2
    rw [h 2 (by omega)]
    rfl
  · rfl

theorem readSnoreSegment_eq (h : ∀ i < n.toNat, rd i = some (byteAt p i)) :
    d.readSnoreSegment rd n = some (d.bleSnoreSegmentHandle p n) := by
  simp only [readSnoreSegment, bleSnoreSegmentHandle]
  by_cases hn : n < 2
  · rw [if_pos hn, if_pos hn]
  have h2 : 2 ≤ n.toNat := UInt8.not_lt.mp hn
  rw [if_neg hn, if_neg hn, h 0 (by omega), h 1 (by omega)]
  simp only [Option.bind_eq_bind, Option.bind_some]
  split
  · rfl
  split
  · rfl
  split
  · next h7 =>
    have hlen : n.toNat = 7 := congrArg UInt8.toNat h7.2
    rw [h 4 (by omega), h 5 (by omega), h 6 (by omega), h 2 (by omega), h 3 (by omega)]
    simp only [Option.bind_some]
    split <;> rfl
  · rfl

theorem readTestinfoSegment_eq (h : ∀ i < n.toNat, rd i = some (byteAt p i)) :
    d.readTestinfoSegment rd n = some (d.bleTestinfoSegmentHandle p n) := by
  simp only [readTestinfoSegment, bleTestinfoSegmentHandle]
  by_cases hn : n < 2
  · rw [if_pos hn, if_pos hn]
  have h2 : 2 ≤ n.toNat := UInt8.not_lt.mp hn
  rw [if_neg hn, if_neg hn, h 0 (by omega), h 1 (by omega)]
  simp only [Option.bind_eq_bind, Option.bind_some, apply_ite some]

theorem readDbgmodeSegment_eq (h : ∀ i < n.toNat, rd i = some (byteAt p i)) :
    d.readDbgmodeSegment rd n = some (d.bleSnoreDbgmodeSegmentHandle p n) := by
  simp only [readDbgmodeSegment, bleSnoreDbgmodeSegmentHandle]
  by_cases hn : n < 2
  · rw [if_pos hn, if_pos hn]
  have h2 : 2 ≤ n.toNat := UInt8.not_lt.mp hn
  rw [if_neg hn, if_neg hn, h 0 (by omega), h 1 (by omega)]
  simp only [Option.bind_eq_bind, Option.bind_some]
  split
  · rfl
  split
  · rfl
  split
  · next h7 =>
    have h3 : 3 ≤ n.toNat := h7.2
    rw [h 2 (by omega)]
    simp only [Option.bind_some, apply_ite some]
  · rfl

theorem readDataPort_eq (h : ∀ i < n.toNat, rd i = some (byteAt p i)) :
    d.readDataPort rd n = some (d.bleDataPortDispatch p n) := by
  simp only [readDataPort, bleDataPortDispatch]
  by_cases hn : n < 2
  · rw [if_pos hn, if_pos hn]
  have h2 : 2 ≤ n.toNat := UInt8.not_lt.mp hn
  rw [if_neg hn, if_neg hn, h 0 (by omega), h 1 (by omega), d.readOfflineVoiceSegment_eq h,
    d.readSnoreSegment_eq h, d.readTestinfoSegment_eq h, d.readDbgmodeSegment_eq h]
  simp only [Option.bind_eq_bind, Option.bind_some, apply_ite some]

theorem readAppKey_eq (h : ∀ i < n.toNat, rd i = some (byteAt p i)) :
    d.readAppKey rd n = some (d.bleAppKeyDispatch p n) := by
  simp only [readAppKey, bleAppKeyDispatch]
  split
  · next h5 =>
    have hlen : n.toNat = 5 := congrArg UInt8.toNat h5
    rw [h 0 (by omega), h 1 (by omega), h 2 (by omega), h 3 (by omega)]
    rfl
  · split
    · next h7 =>
      have hlen : n.toNat = 7 := congrArg UInt8.toNat h7
      rw [h 0 (by omega), h 1 (by omega), h 2 (by omega), h 3 (by omega), h 4 (by omega),
        h 5 (by omega), h 6 (by omega)]
      rfl
    · rfl

/-- A byte of the frame that was received. -/
theorem frameByte_eq {value : List UInt8} {i : ℕ} (hi : i < 2 + (byteAt value 0).toNat)
    (hl : i < value.length) : frameByte value i = some (byteAt value i) := by
  rw [frameByte, if_pos hi, byteAt, List.getElem?_eq_getElem hl, List.getD_eq_getElem _ _ hl]

/-- The handler reads nothing outside the frame or the received bytes, whatever the frame. -/
theorem readBleCom_eq {value : List UInt8} (hl : 2 ≤ value.length) :
    d.readBleCom value = some (d.xBleComHandle value) := by
  simp only [readBleCom, xBleComHandle]
  rw [frameByte_eq (by omega) (by omega), frameByte_eq (by omega) (by omega)]
  simp only [Option.bind_eq_bind, Option.bind_some]
  by_cases hmax : byteAt value 0 > bleRxMaxPayload
  · rw [if_pos hmax, if_neg fun hc : BleComplete value => UInt8.not_le.mpr hmax hc.1]
  rw [if_neg hmax]
  by_cases hneed : value.length < 2 + (byteAt value 0).toNat
  · rw [if_pos hneed, if_neg fun hc : BleComplete value => absurd hc.2 (by omega)]
    have hlog : ∀ is : List ℕ, (∀ i ∈ is, i < value.length) →
        is.mapM (frameByte value) = some (is.map (byteAt value)) := by
      intro is his
      induction is with
      | nil => rfl
      | cons i is ih =>
          have hi := his i (List.mem_cons_self ..)
          rw [List.mapM_cons, frameByte_eq (by omega) hi,
            ih fun j hj => his j (List.mem_cons_of_mem i hj)]
          rfl
    rw [hlog _ (by simp)]
    rfl
  · have hc : BleComplete value := ⟨UInt8.not_lt.mp hmax, by omega⟩
    have hrd : ∀ i < (byteAt value 0).toNat,
        frameByte value (2 + i) = some (byteAt (value.drop 2) i) := by
      intro i hi
      rw [frameByte_eq (by omega) (by omega), byteAt, byteAt, List.getD_eq_getElem?_getD,
        List.getD_eq_getElem?_getD, List.getElem?_drop]
    rw [if_neg hneed, if_pos hc, d.readAppKey_eq hrd, d.readDataPort_eq hrd]
    simp only [Option.bind_some, apply_ite some]
    rfl

/-! ### What follows the frame is ignored -/

/-- A frame that is too long, or not there as a whole, is dropped. -/
theorem xBleComHandle_of_incomplete {value : List UInt8}
    (h : value.length < 2 + (byteAt value 0).toNat ∨ byteAt value 0 > bleRxMaxPayload) :
    d.xBleComHandle value = d := by
  have hc : ¬ BleComplete value := by
    intro hc
    rcases h with h | h
    · have := hc.2
      omega
    · exact UInt8.not_le.mpr h hc.1
  rw [xBleComHandle]
  exact if_neg hc

/-- Two values with the same frame read the same. -/
theorem frameByte_congr {value value' : List UInt8} {m : ℕ} (hm : m = 2 + (byteAt value 0).toNat)
    (h : value'.take m = value.take m) :
    byteAt value' 0 = byteAt value 0 ∧ frameByte value' = frameByte value := by
  have hget : ∀ i < m, value'[i]? = value[i]? := by
    intro i hi
    rw [← List.getElem?_take_of_lt hi, h, List.getElem?_take_of_lt hi]
  have hlen : byteAt value' 0 = byteAt value 0 := by
    rw [byteAt, List.getD_eq_getElem?_getD, hget 0 (by omega), ← List.getD_eq_getElem?_getD, byteAt]
  refine ⟨hlen, funext fun i => ?_⟩
  rw [frameByte, frameByte, hlen, ← hm]
  split
  · next hi => exact hget i hi
  · rfl

theorem xBleComHandle_congr {value value' : List UInt8} {m : ℕ}
    (hm : m = 2 + (byteAt value 0).toNat) (h : value'.take m = value.take m)
    (hl : 2 ≤ value.length) (hl' : 2 ≤ value'.length) :
    d.xBleComHandle value' = d.xBleComHandle value := by
  obtain ⟨hbyte, hread⟩ := frameByte_congr hm h
  have htake : min m value'.length = min m value.length := by
    rw [← List.length_take, ← List.length_take, h]
  by_cases hneed : value.length < m
  · have hneed' : value'.length < 2 + (byteAt value' 0).toNat := by
      rw [hbyte]
      omega
    rw [d.xBleComHandle_of_incomplete (.inl hneed'),
      d.xBleComHandle_of_incomplete (.inl (by omega))]
  · have hsame : d.readBleCom value' = d.readBleCom value := by
      have hn : ¬ value'.length < 2 + (byteAt value 0).toNat := by omega
      have hn' : ¬ value.length < 2 + (byteAt value 0).toNat := by omega
      simp only [readBleCom, hread]
      rw [frameByte_eq (by omega) (by omega)]
      simp only [Option.bind_eq_bind, Option.bind_some, if_neg hn, if_neg hn']
    rw [d.readBleCom_eq hl, d.readBleCom_eq hl'] at hsame
    exact Option.some.inj hsame

end reads
end Dock

/-- The lengths of a write that is looked at. -/
def IsWrite (value : List UInt8) : Prop := value.length ≤ 50 ∧ value.length ≥ 2

/-- For every state and every write of 2 to 50 bytes: every read of the handler and of those it
reaches succeeds inside the frame and the received bytes; a write with the same frame has the
same effect and the same answer; a frame that is too long or truncated does nothing. -/
theorem ble_reads_in_frame (d : Dock) (value : List UInt8) (h : IsWrite value) :
    d.readBleCom value = some (d.uartServerWriteReq value) ∧
    (∀ value', IsWrite value' →
      value'.take (2 + (byteAt value 0).toNat) = value.take (2 + (byteAt value 0).toNat) →
        d.uartServerWriteReq value' = d.uartServerWriteReq value) ∧
    ((byteAt value 0).toNat > value.length - 2 ∨ (byteAt value 0).toNat > 160 →
      d.uartServerWriteReq value = d) := by
  have hreq : ∀ v, IsWrite v → d.uartServerWriteReq v = d.xBleComHandle v := fun v hv => if_pos hv
  have hlen : 2 ≤ value.length := h.2
  rw [hreq value h]
  refine ⟨d.readBleCom_eq hlen, fun value' h' hsame => ?_, fun hbad => ?_⟩
  · rw [hreq value' h']
    exact d.xBleComHandle_congr rfl hsame hlen h'.2
  · refine d.xBleComHandle_of_incomplete ?_
    rcases hbad with hbad | hbad
    · exact .inl (by omega)
    · exact .inr hbad

theorem ble_reads_in_query :
    ({} : Dock).readBleCom [2, 6, 0x10, 0xB6, 0xFF] =
      some (({} : Dock).uartServerWriteReq [2, 6, 0x10, 0xB6, 0xFF]) :=
  (ble_reads_in_frame {} [2, 6, 0x10, 0xB6, 0xFF] ⟨by decide, by decide⟩).1

end ErgoDock
