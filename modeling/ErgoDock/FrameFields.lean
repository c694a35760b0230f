import ErgoDock.Serial

/-! # What the fields of a frame are read from

The handlers of UART1 and UART3 check a frame whose length the sender chooses, and read the fields
at fixed offsets of the buffer.  A decoder is covered by the check (`Covered`) if what it stores
depends on the checked bytes alone and a field that does not lie within them is kept.

UART1 is covered by its checksum exactly for the length bytes from 12 on other than 15
(`uart1_covered_iff`): nothing but the length test guards a field, and it counts the checksum.
UART3 is covered by its CRC exactly for the length bytes from 7 on (`uart3_covered_iff`). -/

namespace ErgoDock

open Machine

/-- The first `n` bytes are the same. -/
def SameUpTo (n : ℕ) (raw raw' : List UInt8) : Prop := ∀ i < n, raw'.getD i 0 = raw.getD i 0

theorem SameUpTo.mono {n m : ℕ} {raw raw' : List UInt8} (h : SameUpTo n raw raw') (hm : m ≤ n) :
    SameUpTo m raw raw' := fun i hi => h i (Nat.lt_of_lt_of_le hi hm)

/-- Of a frame with `n` checked bytes the decoder takes its fields from these alone: another
accepted frame with the same bytes gives the same fields, and a field that ends behind them is
kept. -/
structure Covered {F : Type} (decode : Dock → List UInt8 → Dock) (accepts : List UInt8 → Prop)
    (field : F → Dock → ℕ) (stop : F → ℕ) (n : ℕ) (raw : List UInt8) : Prop where
  reads : ∀ d raw' f, accepts raw' → SameUpTo n raw raw' →
    field f (decode d raw') = field f (decode d raw)
  keeps : ∀ d f, n < stop f → field f (decode d raw) = field f d

/-! ### UART1 -/

/-- What `uart1_cmdHandle` decodes. -/
inductive MfpField where
  | ubb
  | ubbEnable
  | m1
  | m2
  | mfpKeys
  | massageTimer
deriving DecidableEq, Repr

namespace MfpField

/-- The position behind the field in `syncPacket`. -/
def stop : MfpField → ℕ
  | ubb | ubbEnable => 12
  | m1 => 13
  | m2 => 14
  | mfpKeys => 6
  | massageTimer => 18

def get : MfpField → Dock → ℕ
  | ubb, d => d.sys.ubb.toNat
  | ubbEnable, d => d.voice.ubbEnable.toNat
  | m1, d => d.sys.m1.toNat
  | m2, d => d.sys.m2.toNat
  | mfpKeys, d => d.sys.mfpKeys.toNat
  | massageTimer, d => d.sys.massageTimer.toNat

/-- The field in the bytes of the frame. -/
def value (raw : List UInt8) : MfpField → ℕ
  | ubb => (raw.getD 11 0 &&& 0x01).toNat
  | ubbEnable => (raw.getD 11 0 &&& 0x01 != 0).toNat
  | m1 => (raw.getD 12 0).toNat
  | m2 => (raw.getD 13 0).toNat
  | mfpKeys => (ofLe32 (raw.getD 2 0) (raw.getD 3 0) (raw.getD 4 0) (raw.getD 5 0)).toNat
  | massageTimer =>
      (ofLe32 (raw.getD 14 0) (raw.getD 15 0) (raw.getD 16 0) (raw.getD 17 0)).toNat

/-- The handler stores the field for this length byte. -/
def Stored (length : ℕ) : MfpField → Prop
  | mfpKeys | massageTimer => 15 ≤ length
  | ubb | ubbEnable | m1 | m2 => True

instance (length : ℕ) : DecidablePred (Stored length)
  | mfpKeys | massageTimer => inferInstanceAs (Decidable (15 ≤ length))
  | ubb | ubbEnable | m1 | m2 => .isTrue trivial

theorem value_congr {raw raw' : List UInt8} (f : MfpField) (h : SameUpTo f.stop raw raw') :
    f.value raw' = f.value raw := by
  cases f with
  | ubb | ubbEnable => simp only [value, h 11 (by decide)]
  | m1 => simp only [value, h 12 (by decide)]
  | m2 => simp only [value, h 13 (by decide)]
  | mfpKeys =>
      simp only [value, h 2 (by decide), h 3 (by decide), h 4 (by decide), h 5 (by decide)]
  | massageTimer =>
      simp only [value, h 14 (by decide), h 15 (by decide), h 16 (by decide), h 17 (by decide)]

theorem get_uart1CmdHandle (f : MfpField) (d : Dock) (raw : List UInt8) :
    f.get (d.uart1CmdHandle raw) =
      if f.Stored (raw.getD 0 0).toNat then f.value raw else f.get d := by
  have hlt := (raw.getD 0 0).toNat_lt
  have hflen : min ((raw.getD 0 0).toNat + 3) Dock.uartRxBufSize ≥ 18 ↔
      15 ≤ (raw.getD 0 0).toNat := by
    unfold Dock.uartRxBufSize
    omega
  simp only [Dock.uart1CmdHandle, hflen]
  cases f with
  | mfpKeys | massageTimer =>
      by_cases h : 15 ≤ (raw.getD 0 0).toNat
      · rw [if_pos h]
        exact (if_pos h).symm
      · rw [if_neg h]
        exact (if_neg h).symm
  | ubb | ubbEnable | m1 | m2 =>
      split <;> exact (if_pos trivial).symm

/-- A field may have any value before a frame comes in. -/
theorem exists_get_ne (f : MfpField) (n : ℕ) : ∃ d, f.get d ≠ n := by
  have htwo : ∃ d d', f.get d ≠ f.get d' := by
    refine ⟨{}, { sys := { ubb := 1, m1 := 1, m2 := 1, mfpKeys := 1, massageTimer := 1 },
                  voice := { ubbEnable := true } }, ?_⟩
    cases f <;> decide
  obtain ⟨d, d', hne⟩ := htwo
  by_cases h : f.get d = n
  · exact ⟨d', fun h' => hne (h.trans h'.symm)⟩
  · exact ⟨d, h⟩

end MfpField

/-- `uart1_cmdHandle` uses the payload of the frame only: what stands before its checksum. -/
def PayloadOnly (raw : List UInt8) : Prop :=
  Covered Dock.uart1CmdHandle (fun _ => True) MfpField.get MfpField.stop
    (2 + (raw.getD 0 0).toNat) raw

/-- It does so exactly if every field it stores ends before the checksum. -/
theorem payloadOnly_iff (raw : List UInt8) :
    PayloadOnly raw ↔
      ∀ f : MfpField, f.Stored (raw.getD 0 0).toNat → f.stop ≤ 2 + (raw.getD 0 0).toNat := by
  constructor
  · intro h f hf
    by_contra hstop
    obtain ⟨d, hne⟩ := f.exists_get_ne (f.value raw)
    have hkept := h.keeps d f (Nat.lt_of_not_le hstop)
    rw [f.get_uart1CmdHandle, if_pos hf] at hkept
    exact hne hkept.symm
  · intro h
    refine ⟨fun d raw' f _ hsame => ?_, fun d f hstop => ?_⟩
    · have hlen : raw'.getD 0 0 = raw.getD 0 0 := hsame 0 (by omega)
      rw [f.get_uart1CmdHandle, f.get_uart1CmdHandle, hlen]
      split
      · next hf => exact f.value_congr (hsame.mono (h f hf))
      · rfl
    · rw [f.get_uart1CmdHandle, if_neg fun hf => Nat.not_lt_of_le (h f hf) hstop]

/-- For every frame: the handler of UART1 decodes the payload only, exactly if the length byte is
at least 12 and not 15. -/
theorem uart1_covered_iff (raw : List UInt8) :
    PayloadOnly raw ↔ 12 ≤ (raw.getD 0 0).toNat ∧ (raw.getD 0 0).toNat ≠ 15 := by
  rw [payloadOnly_iff]
  generalize (raw.getD 0 0).toNat = n
  constructor
  · intro h
    have hm2 : 14 ≤ 2 + n := h .m2 trivial
    have htimer : 15 ≤ n → 18 ≤ 2 + n := h .massageTimer
    omega
  · rintro ⟨h12, h15⟩ f hf
    cases f with
    | massageTimer =>
        change 15 ≤ n at hf
        change 18 ≤ 2 + n
        omega
    | ubb | ubbEnable | m1 | m2 | mfpKeys =>
        simp only [MfpField.stop]
        omega

/-- A frame of three bytes overwrites the light and the massage state. -/
theorem short_mfp_frame_decoded : ¬ ∀ raw : List UInt8, Dock.Uart1Valid raw →
    (raw.getD 0 0).toNat ≤ 97 → PayloadOnly raw := by
  intro h
  have hm1 := (h [0x00, 0x07, 0xF8] (by decide) (by decide)).keeps
    { sys := { m1 := 1 } } .m1 (by decide)
  exact absurd hm1 (by decide)

/-! ### UART3 -/

/-- What `x_uart3_dateReceiveHandle` stores. -/
inductive StatusField where
  | version
  | snorevolume
  | snoreState
  | sfSnorevolume
  | snorevolumeAcc
  | snorevolumeCnt
deriving DecidableEq, Repr

namespace StatusField

/-- The position behind the bytes the field is stored from. -/
def stop : StatusField → ℕ
  | version => 6
  | snorevolume | sfSnorevolume => 8
  | snoreState | snorevolumeAcc | snorevolumeCnt => 9

def get : StatusField → Dock → ℕ
  | version, d => d.sys.ci1302.version.toNat
  | snorevolume, d => d.sys.ci1302.snorevolume.toNat
  | snoreState, d => d.sys.ci1302.snoreState.toNat
  | sfSnorevolume, d => d.anti.sf.snorevolume.toNat
  | snorevolumeAcc, d => d.anti.sf.snorevolumeAcc.toNat
  | snorevolumeCnt, d => d.anti.sf.snorevolumeCnt.toNat

/-- Two accepted frames that agree up to the end of a field store the same in it. -/
theorem get_congr (f : StatusField) (d : Dock) {raw raw' : List UInt8} (hv : Dock.Uart3Valid raw)
    (hv' : Dock.Uart3Valid raw') (h : SameUpTo f.stop raw raw') :
    f.get (d.xUart3DateReceiveHandle raw') = f.get (d.xUart3DateReceiveHandle raw) := by
  rw [Dock.xUart3DateReceiveHandle, Dock.xUart3DateReceiveHandle, if_pos hv, if_pos hv']
  cases f with
  | version =>
      simp only [get, h 4 (by decide), h 5 (by decide)]
      rfl
  | snorevolume =>
      simp only [get, h 6 (by decide), h 7 (by decide)]
      rfl
  | snoreState =>
      simp only [get, h 8 (by decide)]
      rfl
  | sfSnorevolume =>
      simp only [get, Dock.anti_mapAnti, h 6 (by decide), h 7 (by decide)]
      split <;> split <;> rfl
  | snorevolumeAcc | snorevolumeCnt =>
      simp only [get, Dock.anti_mapAnti, h 6 (by decide), h 7 (by decide), h 8 (by decide)]
      rfl

theorem get_snoreState (d : Dock) {raw : List UInt8} (hv : Dock.Uart3Valid raw) :
    snoreState.get (d.xUart3DateReceiveHandle raw) = (raw.getD 8 0).toNat := by
  rw [Dock.xUart3DateReceiveHandle, if_pos hv]
  rfl

end StatusField

/-- What the handler stores from the frame comes from the bytes under its CRC, and a frame whose
CRC does not match changes nothing. -/
structure StatusCovered (raw : List UInt8) : Prop where
  covered : Dock.Uart3Valid raw → Covered Dock.xUart3DateReceiveHandle Dock.Uart3Valid
    StatusField.get StatusField.stop (2 + (raw.getD 1 0).toNat) raw
  mismatch : ¬ Dock.Uart3Valid raw → ∀ d : Dock, d.xUart3DateReceiveHandle raw = d

theorem statusCovered_iff (raw : List UInt8) :
    StatusCovered raw ↔ (Dock.Uart3Valid raw → 7 ≤ (raw.getD 1 0).toNat) := by
  constructor
  · intro h hv
    by_contra hlt
    have hstop : 2 + (raw.getD 1 0).toNat < StatusField.snoreState.stop := by
      change _ < 9
      omega
    have hkeep : ∀ d : Dock, (raw.getD 8 0).toNat = d.sys.ci1302.snoreState.toNat := fun d => by
      rw [← StatusField.get_snoreState d hv]
      exact (h.covered hv).keeps d .snoreState hstop
    have h0 := hkeep {}
    have h1 := hkeep { sys := { ci1302 := { snoreState := 1 } } }
    exact absurd (h0.symm.trans h1) (by decide)
  · intro h
    refine ⟨fun hv => ⟨fun d raw' f hv' hsame => ?_, fun d f hstop => ?_⟩, fun hv d => if_neg hv⟩
    · refine f.get_congr d hv hv' (hsame.mono ?_)
      have hle := h hv
      cases f <;> simp only [StatusField.stop] <;> omega
    · have hle := h hv
      exfalso
      cases f <;> simp only [StatusField.stop] at hstop <;> omega

/-! ### Reads of the UART3 buffer -/

namespace MfpData

/-- `Modbus_Crc_Compute` on the first `n` bytes of the buffer, with its reads. -/
def readCrc (u : MfpData) (n : ℕ) : Option UInt16 :=
  (List.range n).foldlM (fun modbus16 i => do
    let x ← u.read i
    some (modbusCrcByte modbus16 x)) 0xFFFF

/-- `x_uart3_dateReceiveHandle` with its reads. -/
def readUart3DateReceiveHandle (u : MfpData) (d : Dock) : Option (MfpData × Dock) :=
  let u₁ := if u.rxindex ≠ 0 ∧ u.timeout = 0 then u.clear else u
  if u₁.rxindex > 0 then do
    let length ← u₁.read 1
    if u₁.rxindex ≥ length.toNat + 4 then do
      let crcHigh ← u₁.read (length.toNat + 2)
      let crcLow ← u₁.read (length.toNat + 3)
      let crc ← u₁.readCrc (length.toNat + 2)
      if crc = crcHigh.toUInt16 <<< 8 ||| crcLow.toUInt16 then do
        let x₄ ← u₁.read 4
        let x₅ ← u₁.read 5
        let x₆ ← u₁.read 6
        let x₇ ← u₁.read 7
        let x₈ ← u₁.read 8
        let volume := x₆.toUInt16 <<< 8 ||| x₇.toUInt16
        let ci1302 : Ci1302 := ⟨x₄.toUInt16 <<< 8 ||| x₅.toUInt16, volume, x₈⟩
        let d₁ := { d with sys := { d.sys with ci1302 := ci1302 } }
        some (u₁.clear, d₁.mapAnti fun a =>
          let sf := { a.sf with snorevolume := volume }
          if x₈ = 1 ∧ a.snoreIntervention.enable then
            { a with sf := { sf with
              snorevolumeAcc := sf.snorevolumeAcc + volume.toUInt32
              snorevolumeCnt := sf.snorevolumeCnt + 1 } }
          else { a with sf := sf })
      else some (u₁.clear, d)
    else some (u₁, d)
  else some (u₁, d)

variable {u : MfpData}

theorem readCrc_eq (ht : u.Tidy) {n : ℕ} (hn : n ≤ u.rxindex) :
    u.readCrc n = some (modbusCrcCompute (u.received.take n)) := by
  have htake : u.received.take n = (List.range n).map u.rawData := by
    rw [received, ← List.map_take, List.take_range, Nat.min_eq_left hn]
  have hle := ht.rxindex_le
  rw [readCrc, htake, modbusCrcCompute, List.foldl_map]
  exact foldlM_read modbusCrcByte _ fun i hi => by
    rw [List.mem_range] at hi
    omega

/-- No read of the UART3 handler fails. -/
theorem readUart3DateReceiveHandle_eq (h : u.Tidy) (d : Dock) :
    u.readUart3DateReceiveHandle d = some (Uart.uart3.dateReceiveHandle u d) := by
  have ht : (if u.rxindex ≠ 0 ∧ u.timeout = 0 then u.clear else u).Tidy := by
    split
    · exact tidy_clear
    · exact h
  unfold readUart3DateReceiveHandle Uart.dateReceiveHandle
  generalize (if u.rxindex ≠ 0 ∧ u.timeout = 0 then u.clear else u) = v at *
  dsimp only
  by_cases hpos : v.rxindex > 0
  · have h1 : v.read 1 = some (v.rawData 1) := read_of_lt (by decide)
    rw [if_pos hpos, h1, Option.bind_eq_bind, Option.bind_some]
    by_cases hlen : v.rxindex ≥ (v.rawData 1).toNat + 4
    · have hread : ∀ i, i < rxbuffLen → v.read i = some (v.received.getD i 0) := fun i hi => by
        rw [getD_received ht]
        exact read_of_lt hi
      have hle : (v.rawData 1).toNat + 4 ≤ rxbuffLen := Nat.le_trans hlen ht.rxindex_le
      have hvalid : Dock.Uart3Valid v.received ↔
          modbusCrcCompute (v.received.take ((v.rawData 1).toNat + 2)) =
            (v.received.getD ((v.rawData 1).toNat + 2) 0).toUInt16 <<< 8 |||
              (v.received.getD ((v.rawData 1).toNat + 3) 0).toUInt16 := by
        unfold Dock.Uart3Valid
        rw [length_received, getD_received ht 1]
        exact ⟨fun hv => hv.2.2, fun hc => ⟨hpos, hlen, hc⟩⟩
      have hcomplete : Uart.uart3.Complete v := ⟨hpos, hlen⟩
      rw [if_pos hlen, hread _ (by omega), hread _ (by omega), readCrc_eq ht (by omega),
        if_pos hcomplete, Uart.handle, Dock.xUart3DateReceiveHandle, hread 4 (by decide),
        hread 5 (by decide), hread 6 (by decide), hread 7 (by decide), hread 8 (by decide)]
      simp only [Option.bind_eq_bind, Option.bind_some, hvalid]
      split <;> rfl
    · rw [if_neg hlen, if_neg fun hc : Uart.uart3.Complete v => hlen hc.2]
  · rw [if_neg hpos, if_neg fun hc : Uart.uart3.Complete v => hpos hc.1]

end MfpData

/-- Every accepted frame with fewer than 7 bytes under its length byte, and no other frame, is
decoded past its CRC; and in every reachable state the handler of UART3 reads no byte of its
buffer from index 100 on. -/
theorem uart3_covered_iff (raw : List UInt8) (b : Boot) (es : List SerialEvent) :
    (StatusCovered raw ↔ (Dock.Uart3Valid raw → 7 ≤ (raw.getD 1 0).toNat)) ∧
      let w := exec Serial.step (Serial.boot b) es
      (w.pack .uart3).tick.readUart3DateReceiveHandle w.dock =
        some (Uart.uart3.dateReceiveHandle (w.pack .uart3).tick w.dock) :=
  ⟨statusCovered_iff raw,
    MfpData.readUart3DateReceiveHandle_eq (Serial.tidy_run b es .uart3).tick _⟩

/-- A frame of nothing but its length byte and its CRC overwrites the version with zeros. -/
theorem short_status_frame_decoded : ¬ ∀ raw : List UInt8, StatusCovered raw := by
  intro h
  have hversion := ((h [0x00, 0x00, 0xB0, 0x01]).covered (by decide)).keeps
    { sys := { ci1302 := { version := 1 } } } .version (by decide)
  exact absurd hversion (by decide)

end ErgoDock
