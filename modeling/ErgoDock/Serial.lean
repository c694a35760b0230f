import ErgoDock.Receiver
import ErgoDock.Lib.Framer

/-! # The three serial lines (`x_uart.c`)

`HAL_UART_RxCpltCallback` appends a byte to the buffer of its line, and `x_uart_10ms` counts the
three timeouts down and looks for a frame on each line.  `Serial` is the firmware with the three
buffers, byte by byte; on every line it is a receiver that cuts frames at ticks (`line_run`).

UART1 finds back to its frames after two silent ticks, whatever came before
(`uart1_resynchronises`).  Of frames that follow each other without a pause a line handles those
that have a tick right behind them (`frames_handled_iff`). -/

namespace ErgoDock

open Machine

inductive Uart where
  | uart1
  | uart2
  | uart3
deriving DecidableEq, Repr

/-! ### Handlers -/

namespace Dock

/-- `uart2_cmdHandle`. -/
def uart2CmdHandle (d : Dock) (raw : List UInt8) : Dock :=
  d.offlineVoiceHandle (raw.getD 3 0) (raw.getD 6 0)

/-- The test of `x_uart2_dateReceiveHandle` on eight received bytes or more. -/
def Uart2Valid (raw : List UInt8) : Prop := raw.getD 0 0 = 0xA5 ∧ raw.getD 7 0 = 0xFB

instance (raw : List UInt8) : Decidable (Uart2Valid raw) := by unfold Uart2Valid; infer_instance

/-- `x_uart2_dateReceiveHandle` on eight received bytes or more. -/
def xUart2DateReceiveHandle (d : Dock) (raw : List UInt8) : Dock :=
  if Uart2Valid raw then d.uart2CmdHandle raw else d

end Dock

namespace Uart

/-- When the handler of a line takes what has come in for a frame. -/
def Complete : Uart → MfpData → Prop
  | uart1, u => u.rxindex > 0 ∧ u.rxindex ≥ (u.rawData 0).toNat + 3
  | uart2, u => u.rxindex ≥ 8
  | uart3, u => u.rxindex > 0 ∧ u.rxindex ≥ (u.rawData 1).toNat + 4

instance : (l : Uart) → (u : MfpData) → Decidable (l.Complete u)
  | uart1, _ => inferInstanceAs (Decidable (_ ∧ _))
  | uart2, _ => inferInstanceAs (Decidable (_ ≥ _))
  | uart3, _ => inferInstanceAs (Decidable (_ ∧ _))

/-- What the handler of a line does with it. -/
def handle : Uart → Dock → List UInt8 → Dock
  | uart1 => Dock.xUart1DateReceiveHandle
  | uart2 => Dock.xUart2DateReceiveHandle
  | uart3 => Dock.xUart3DateReceiveHandle

/-- The test a frame has to pass. -/
def Valid : Uart → List UInt8 → Prop
  | uart1 => Dock.Uart1Valid
  | uart2 => Dock.Uart2Valid
  | uart3 => Dock.Uart3Valid

instance : (l : Uart) → (raw : List UInt8) → Decidable (l.Valid raw)
  | uart1, raw => inferInstanceAs (Decidable (Dock.Uart1Valid raw))
  | uart2, raw => inferInstanceAs (Decidable (Dock.Uart2Valid raw))
  | uart3, raw => inferInstanceAs (Decidable (Dock.Uart3Valid raw))

/-- The length of the frame that begins with the bytes. -/
def frameLength : Uart → List UInt8 → ℕ
  | uart1, raw => (raw.getD 0 0).toNat + 3
  | uart2, _ => 8
  | uart3, raw => (raw.getD 1 0).toNat + 4

/-- `x_uart1_dateReceiveHandle`, `x_uart2_dateReceiveHandle` and `x_uart3_dateReceiveHandle`: the
idle timeout clears the buffer, and a complete frame is handled and the whole buffer cleared. -/
def dateReceiveHandle (l : Uart) (u : MfpData) (d : Dock) : MfpData × Dock :=
  let u₁ := if u.rxindex ≠ 0 ∧ u.timeout = 0 then u.clear else u
  if l.Complete u₁ then (u₁.clear, l.handle d u₁.received) else (u₁, d)

end Uart

/-! ### The machine -/

/-- The firmware with the receive buffers of the three lines. -/
structure Serial where
  pack : Uart → MfpData
  dock : Dock

/-- The events that stand for a received frame. -/
def Event.isFrame : Event → Bool
  | .voiceFrame _ _ | .mfpFrame _ | .statusFrame _ => true
  | .tick | .switchSample _ _ | .control _ | .led | .charge _ | .snoreEdge | .snoreRun | .flashRun
  | .bleWrite _ | .connected _ | .disconnected | .notificationDone | .mtuChanged _ => false

/-- A byte on a line, the 10 ms tick of the lines, or another event of the firmware. -/
inductive SerialEvent where
  | byte (l : Uart) (b : UInt8)
  | uart10ms
  | other (e : Event) (h : e.isFrame = false)
deriving DecidableEq

namespace Serial

def boot (b : Boot) : Serial := ⟨fun _ => {}, ErgoDock.boot b⟩

/-- `x_uart_10ms`. -/
def uart10ms (w : Serial) : Serial :=
  let r₁ := Uart.dateReceiveHandle .uart1 (w.pack .uart1).tick w.dock
  let r₂ := Uart.dateReceiveHandle .uart2 (w.pack .uart2).tick r₁.2
  let r₃ := Uart.dateReceiveHandle .uart3 (w.pack .uart3).tick r₂.2
  { pack := fun | .uart1 => r₁.1 | .uart2 => r₂.1 | .uart3 => r₃.1
    dock := r₃.2 }

def step (w : Serial) : SerialEvent → Serial
  | .byte l b => { w with pack := Function.update w.pack l ((w.pack l).rxCplt b) }
  | .uart10ms => w.uart10ms
  | .other e _ => { w with dock := ErgoDock.step w.dock e }

/-- The frame that the handler of a line accepts at an event. -/
def accepted (l : Uart) (w : Serial) : SerialEvent → List (List UInt8)
  | .uart10ms =>
      let u := (w.pack l).countdown
      if l.Complete u ∧ l.Valid u.received then [u.received.take (l.frameLength u.received)] else []
  | .byte _ _ | .other _ _ => []

/-- What reaches the receiver of a line. -/
def signal (l : Uart) : SerialEvent → Option (Signal UInt8)
  | .byte l' b => if l' = l then some (.byte b) else none
  | .uart10ms => some .tick
  | .other _ _ => none

def signals (l : Uart) (es : List SerialEvent) : List (Signal UInt8) := es.filterMap (signal l)

/-! ### A line is a receiver that cuts frames at ticks -/

/-- The receiver of a line. -/
def framer (l : Uart) : Framer UInt8 where
  capacity := rxbuffLen
  patience := comTimeout.toNat
  frameLength := l.frameLength
  valid raw := decide (l.Valid raw)

end Serial

namespace MfpData

def view (u : MfpData) : FramerState UInt8 := ⟨u.received, u.timeout.toNat⟩

variable {u : MfpData}

theorem view_rxCplt (l : Uart) (b : UInt8) :
    (u.rxCplt b).view = (Serial.framer l).push u.view b := by
  have hlen : u.view.received.length = u.rxindex := length_received
  unfold Framer.push
  rw [hlen]
  by_cases hlt : u.rxindex < rxbuffLen
  · rw [if_pos (show u.rxindex < (Serial.framer l).capacity from hlt), view,
      received_rxCplt b hlt, rxCplt, if_pos hlt]
    rfl
  · rw [if_neg (show ¬ u.rxindex < (Serial.framer l).capacity from hlt), rxCplt, if_neg hlt]

theorem toNat_timeout_tick : u.tick.timeout.toNat = u.timeout.toNat - 1 := by
  simp only [tick]
  split
  · next h =>
    have hle : (1 : UInt32) ≤ u.timeout := by
      rw [UInt32.le_iff_toNat_le]
      exact UInt32.lt_iff_toNat_lt.mp h
    rw [UInt32.toNat_sub_of_le _ _ hle]
    rfl
  · next h =>
    rw [gt_iff_lt, UInt32.lt_iff_toNat_lt, UInt32.toNat_zero] at h
    omega

theorem view_countdown : u.countdown.view = Framer.countdown u.view := by
  have ht : u.tick.timeout = 0 ↔ u.timeout.toNat - 1 = 0 := by
    rw [← toNat_timeout_tick, ← UInt32.toNat_inj]
    rfl
  have hv : u.tick.view = ⟨u.received, u.timeout.toNat - 1⟩ := by
    rw [view, toNat_timeout_tick]
    rfl
  unfold countdown Framer.countdown
  by_cases h0 : u.timeout.toNat - 1 = 0
  · rw [if_pos (show u.view.timeout - 1 = 0 from h0)]
    split
    · rw [view, clear, toNat_timeout_tick]
      rfl
    · next hc =>
      have hz : u.rxindex = 0 := by
        by_contra hne
        exact hc ⟨hne, ht.mpr h0⟩
      rw [hv, received, hz]
      rfl
  · rw [if_neg (show ¬ u.view.timeout - 1 = 0 from h0), if_neg fun hc => h0 (ht.mp hc.2), hv]
    rfl

theorem complete_iff (l : Uart) (h : u.Tidy) :
    l.Complete u ↔ (Serial.framer l).Complete u.received := by
  unfold Framer.Complete
  rw [length_received]
  cases l with
  | uart1 =>
      simp only [Uart.Complete, Serial.framer, Uart.frameLength, getD_received h, gt_iff_lt,
        ge_iff_le]
  | uart2 =>
      simp only [Uart.Complete, Serial.framer, Uart.frameLength]
      omega
  | uart3 =>
      simp only [Uart.Complete, Serial.framer, Uart.frameLength, getD_received h, gt_iff_lt,
        ge_iff_le]

theorem rxindex_of_view (h : u.view.received = []) : u.rxindex = 0 := by
  rw [← length_received]
  exact List.length_eq_zero_iff.mpr h

theorem Tidy.tick (h : u.Tidy) : u.tick.Tidy := ⟨h.rxindex_le, h.rest⟩

end MfpData

namespace Serial

/-- A tick, on one line. -/
theorem dateReceiveHandle_tick (l : Uart) (u : MfpData) (d : Dock) :
    l.dateReceiveHandle u.tick d =
      if l.Complete u.countdown then (u.countdown.clear, l.handle d u.countdown.received)
      else (u.countdown, d) := rfl

/-- What is complete and no valid frame is dropped without an effect. -/
theorem dateReceiveHandle_rejected (l : Uart) (u : MfpData) (d : Dock)
    (h : ¬ l.Valid u.countdown.received) : (l.dateReceiveHandle u.tick d).2 = d := by
  rw [dateReceiveHandle_tick]
  split
  · cases l <;> exact if_neg h
  · rfl

/-- What a tick does to a line, whatever the other lines do. -/
theorem pack_uart10ms (w : Serial) (l : Uart) :
    w.uart10ms.pack l =
      if l.Complete (w.pack l).countdown then (w.pack l).countdown.clear
      else (w.pack l).countdown := by
  have hpack : ∀ (l : Uart) (u : MfpData) (d : Dock), (l.dateReceiveHandle u.tick d).1 =
      if l.Complete u.countdown then u.countdown.clear else u.countdown := by
    intro l u d
    rw [dateReceiveHandle_tick]
    split <;> rfl
  cases l <;> exact hpack _ _ _

theorem pack_byte (w : Serial) (l : Uart) (b : UInt8) :
    (w.step (.byte l b)).pack l = (w.pack l).rxCplt b := Function.update_self ..

theorem pack_byte_ne (w : Serial) {l l' : Uart} (h : l' ≠ l) (b : UInt8) :
    (w.step (.byte l' b)).pack l = w.pack l := Function.update_of_ne h.symm ..

/-- A line and the receiver that stands for it. -/
def Follows (l : Uart) (w : Serial) (s : FramerState UInt8) : Prop :=
  (w.pack l).Tidy ∧ (w.pack l).view = s

theorem follows_tick {l : Uart} {w : Serial} {s : FramerState UInt8} (h : Follows l w s) :
    Follows l w.uart10ms ((framer l).step s .tick) ∧
      accepted l w .uart10ms = (framer l).handed s .tick := by
  obtain ⟨ht, rfl⟩ := h
  have htidy := ht.countdown
  have hview := MfpData.view_countdown (u := (w.pack l))
  have hcomplete : l.Complete (w.pack l).countdown ↔
      (framer l).Complete (w.pack l).countdown.view.received := MfpData.complete_iff l htidy
  refine ⟨?_, ?_⟩
  · rw [Follows, pack_uart10ms, Framer.step_tick, ← hview]
    by_cases hc : l.Complete (w.pack l).countdown
    · rw [if_pos hc, if_pos (hcomplete.mp hc)]
      exact ⟨MfpData.tidy_clear, rfl⟩
    · rw [if_neg hc, if_neg fun hc' => hc (hcomplete.mpr hc')]
      exact ⟨htidy, rfl⟩
  · have hvalid : (framer l).valid (w.pack l).countdown.view.received = true ↔
        l.Valid (w.pack l).countdown.received := decide_eq_true_iff
    simp only [accepted, Framer.handed, ← hview, hcomplete, hvalid]
    rfl

/-- Each line is a receiver that cuts frames at ticks. -/
theorem line_run (l : Uart) {w : Serial} {s : FramerState UInt8} (h : Follows l w s)
    (es : List SerialEvent) :
    Follows l (exec step w es) (exec (framer l).step s (signals l es)) ∧
      outputs step (accepted l) w es =
        outputs (framer l).step (framer l).handed s (signals l es) := by
  refine simulation_visible (R := Follows l) (fun w s e x he hw => ?_) (fun w s e he hw => ?_) h es
  · cases e with
    | byte l' b =>
        dsimp only [signal] at he
        split at he
        · next hl =>
          subst hl
          cases he
          refine ⟨?_, rfl⟩
          rw [Follows, pack_byte]
          exact ⟨hw.1.rxCplt b, by rw [MfpData.view_rxCplt l', hw.2]; rfl⟩
        · cases he
    | uart10ms =>
        cases he
        exact follows_tick hw
    | other e _ => cases he
  · cases e with
    | byte l' b =>
        dsimp only [signal] at he
        split at he
        · cases he
        · next hl =>
          refine ⟨?_, rfl⟩
          rw [Follows, pack_byte_ne w hl]
          exact hw
    | uart10ms => cases he
    | other e _ => exact ⟨hw, rfl⟩

theorem follows_boot (b : Boot) (l : Uart) : Follows l (boot b) ⟨[], 0⟩ :=
  ⟨⟨Nat.zero_le _, fun _ _ => rfl⟩, rfl⟩

/-- The buffers of a reachable state. -/
theorem tidy_run (b : Boot) (es : List SerialEvent) (l : Uart) :
    ((exec step (boot b) es).pack l).Tidy := (line_run l (follows_boot b l) es).1.1

/-- The firmware behind the lines is in a state that a run of the firmware reaches. -/
theorem dock_run (b : Boot) (es : List SerialEvent) :
    ∃ es', (exec step (boot b) es).dock = runFrom b es' := by
  have hhandle : ∀ (l : Uart) (u : MfpData) (d : Dock), (∃ es', d = runFrom b es') →
      ∃ es', (l.dateReceiveHandle u.tick d).2 = runFrom b es' := by
    rintro l u d ⟨es', rfl⟩
    have hone : ∀ e, ∃ es'', ErgoDock.step (runFrom b es') e = runFrom b es'' := fun e =>
      ⟨es' ++ [e], (runFrom_concat b es' e).symm⟩
    rw [dateReceiveHandle_tick]
    split
    · cases l with
      | uart1 => exact hone (.mfpFrame _)
      | uart2 =>
          dsimp only [Uart.handle, Dock.xUart2DateReceiveHandle]
          split
          · exact hone (.voiceFrame _ _)
          · exact ⟨es', rfl⟩
      | uart3 => exact hone (.statusFrame _)
    · exact ⟨es', rfl⟩
  have h0 : ∃ es', (boot b).dock = runFrom b es' := ⟨[], rfl⟩
  refine exec_invariant_all (I := fun w : Serial => ∃ es', w.dock = runFrom b es') ?_ h0 es
  rintro w e ⟨es', h⟩
  cases e with
  | byte l x => exact ⟨es', h⟩
  | uart10ms => exact hhandle _ _ _ (hhandle _ _ _ (hhandle _ _ _ ⟨es', h⟩))
  | other e _ =>
      refine ⟨es' ++ [e], ?_⟩
      rw [step, h, runFrom_concat]

end Serial

/-! ### Well-formed frames -/

/-- A frame of a line: as long as it says, within the buffer, and valid. -/
structure Uart.WellFormed (l : Uart) (f : List UInt8) : Prop where
  length_eq : f.length = l.frameLength f
  length_le : f.length ≤ rxbuffLen
  valid : l.Valid f

instance (l : Uart) (f : List UInt8) : Decidable (l.WellFormed f) :=
  decidable_of_iff (f.length = l.frameLength f ∧ f.length ≤ rxbuffLen ∧ l.Valid f)
    ⟨fun ⟨h1, h2, h3⟩ => ⟨h1, h2, h3⟩, fun ⟨h1, h2, h3⟩ => ⟨h1, h2, h3⟩⟩

/-- The beginning of a frame is not taken for a frame. -/
theorem Uart.WellFormed.isFrame {l : Uart} {f : List UInt8} (h : l.WellFormed f) :
    (Serial.framer l).IsFrame f := by
  have hpos : 0 < f.length := by
    rw [h.length_eq]
    cases l <;> simp [frameLength]
  refine ⟨h.length_le, ⟨hpos, h.length_eq.ge⟩, h.length_eq.symm, decide_eq_true h.valid, ?_⟩
  rintro p ⟨q, rfl⟩ hne ⟨hp, hle⟩
  have hq : 0 < q.length := by
    refine List.length_pos_iff.mpr fun h0 => hne ?_
    rw [h0, List.append_nil]
  have hlen := h.length_eq
  rw [List.length_append] at hlen
  have hget : ∀ i, i < p.length → (p ++ q).getD i 0 = p.getD i 0 := fun i hi => by
    rw [List.getD_eq_getElem?_getD, List.getElem?_append_left hi, List.getD_eq_getElem?_getD]
  change l.frameLength p ≤ p.length at hle
  cases l with
  | uart1 =>
      simp only [frameLength, hget 0 hp] at hlen hle
      omega
  | uart2 =>
      simp only [frameLength] at hlen hle
      omega
  | uart3 =>
      simp only [frameLength] at hlen hle
      rw [hget 1 (by omega)] at hlen
      omega

/-! ### Frames back to back -/

/-- The chip reports the wake word, and then word `0x25`. -/
def wakeFrame : List UInt8 := [0xA5, 0xFA, 0x00, 0x81, 0x00, 0x00, 0x21, 0xFB]
def zerogFrame : List UInt8 := [0xA5, 0xFA, 0x00, 0x81, 0x00, 0x00, 0x25, 0xFB]

/-- The bytes of some frames on UART2, and a tick. -/
def burst (fs : List (List UInt8)) : List SerialEvent :=
  fs.flatten.map (.byte .uart2) ++ [.uart10ms]

/-- A byte finds room in the buffer of its line. -/
def Serial.Roomy (w : Serial) : SerialEvent → Prop
  | .byte l _ => (w.pack l).rxindex < rxbuffLen
  | .uart10ms | .other _ _ => True

instance (w : Serial) : (e : SerialEvent) → Decidable (w.Roomy e)
  | .byte _ _ => inferInstanceAs (Decidable (_ < _))
  | .uart10ms | .other _ _ => .isTrue trivial

namespace MfpData

/-- A read of the buffer that fails behind the bytes it takes. -/
def read (u : MfpData) (i : ℕ) : Option UInt8 := if i < rxbuffLen then some (u.rawData i) else none

/-- A write to the buffer that fails behind the bytes it takes. -/
def write (u : MfpData) (i : ℕ) (b : UInt8) : Option MfpData :=
  if i < rxbuffLen then some { u with rawData := Function.update u.rawData i b } else none

/-- The UART1 part of `HAL_UART_RxCpltCallback` with its write. -/
def writeRxCplt (u : MfpData) (b : UInt8) : Option MfpData :=
  if u.rxindex < rxbuffLen then do
    let u₁ ← u.write u.rxindex b
    some { u₁ with rxindex := u.rxindex + 1, timeout := comTimeout }
  else some u

/-- `rxCalcCheckSum` with its reads. -/
def readCheckSum (u : MfpData) : Option UInt8 := do
  let length ← u.read 0
  (List.range (2 + length.toNat)).foldlM (fun sum i => do
    let x ← u.read i
    some (sum - x)) 0xFF

/-- `uart1_cmdHandle` with its reads. -/
def readCmdHandle (u : MfpData) (d : Dock) : Option Dock := do
  let length ← u.read 0
  let flen := min (length.toNat + 3) Dock.uartRxBufSize
  let copy ← (List.range flen).mapM u.read
  let ubb ← u.read 11
  let m1 ← u.read 12
  let m2 ← u.read 13
  let sys := { d.sys with ubb := ubb &&& 0x01, m1 := m1, m2 := m2 }
  let sys' ← if flen ≥ 18 then do
      let k₀ ← u.read 2
      let k₁ ← u.read 3
      let k₂ ← u.read 4
      let k₃ ← u.read 5
      let t₀ ← u.read 14
      let t₁ ← u.read 15
      let t₂ ← u.read 16
      let t₃ ← u.read 17
      some { sys with mfpKeys := ofLe32 k₀ k₁ k₂ k₃, massageTimer := ofLe32 t₀ t₁ t₂ t₃ }
    else some sys
  some { d with
    uart1LastMfpRaw := copy
    sys := sys'
    voice := { d.voice with ubbEnable := ubb &&& 0x01 != 0 } }

/-- `x_uart1_dateReceiveHandle` with its reads. -/
def readDateReceiveHandle (u : MfpData) (d : Dock) : Option (MfpData × Dock) :=
  let u₁ := if u.rxindex ≠ 0 ∧ u.timeout = 0 then u.clear else u
  if u₁.rxindex > 0 then do
    let length ← u₁.read 0
    if u₁.rxindex ≥ length.toNat + 3 then do
      let checkSum ← u₁.read (length.toNat + 2)
      let sum ← u₁.readCheckSum
      if checkSum = sum then do
        let d₁ ← u₁.readCmdHandle d
        some (u₁.clear, { d₁ with mfp := d₁.mfp.mfpTxTask })
      else some (u₁.clear, d)
    else some (u₁, d)
  else some (u₁, d)

variable {u : MfpData}

theorem read_of_lt {i : ℕ} (h : i < rxbuffLen) : u.read i = some (u.rawData i) := if_pos h

theorem writeRxCplt_eq (u : MfpData) (b : UInt8) : u.writeRxCplt b = some (u.rxCplt b) := by
  unfold writeRxCplt rxCplt
  by_cases h : u.rxindex < rxbuffLen
  · rw [if_pos h, if_pos h, write, if_pos h]
    rfl
  · rw [if_neg h, if_neg h]

/-- A loop that reads within the buffer. -/
theorem foldlM_read {σ : Type} (g : σ → UInt8 → σ) {is : List ℕ} (s : σ)
    (his : ∀ i ∈ is, i < rxbuffLen) :
    is.foldlM (fun s i => (u.read i).bind fun x => some (g s x)) s =
      some (is.foldl (fun s i => g s (u.rawData i)) s) := by
  induction is generalizing s with
  | nil => rfl
  | cons i is ih =>
      rw [List.foldlM_cons, read_of_lt (his i (List.mem_cons_self ..)), List.foldl_cons]
      exact ih _ fun j hj => his j (List.mem_cons_of_mem i hj)

theorem readCheckSum_eq (ht : u.Tidy) (h : (u.rawData 0).toNat + 3 ≤ rxbuffLen) :
    u.readCheckSum = some (Dock.rxCalcCheckSum u.received) := by
  have h0 : u.read 0 = some (u.rawData 0) := read_of_lt (by omega)
  rw [readCheckSum, h0, Dock.rxCalcCheckSum]
  simp only [getD_received ht]
  exact foldlM_read (fun sum x => sum - x) _ fun i hi => by
    rw [List.mem_range] at hi
    omega

theorem readCmdHandle_eq (ht : u.Tidy) (h : (u.rawData 0).toNat + 3 ≤ rxbuffLen) (d : Dock) :
    u.readCmdHandle d = some (d.uart1CmdHandle u.received) := by
  have hread : ∀ i, i < 100 → u.read i = some (u.received.getD i 0) := fun i hi => by
    rw [getD_received ht]
    exact read_of_lt hi
  have hcopy : ∀ is : List ℕ, (∀ i ∈ is, i < 100) →
      is.mapM u.read = some (is.map fun i => u.received.getD i 0) := by
    intro is
    induction is with
    | nil => exact fun _ => rfl
    | cons i is ih =>
        intro his
        rw [List.mapM_cons, hread i (his i (List.mem_cons_self ..)),
          ih fun j hj => his j (List.mem_cons_of_mem i hj)]
        rfl
  have hflen : ∀ i ∈ List.range (min ((u.received.getD 0 0).toNat + 3) Dock.uartRxBufSize),
      i < 100 := fun i hi => by
    rw [List.mem_range, getD_received ht] at hi
    unfold rxbuffLen at h
    omega
  simp only [readCmdHandle, Dock.uart1CmdHandle, hread 0 (by omega), Option.bind_eq_bind,
    Option.bind_some, hcopy _ hflen, hread 11 (by omega), hread 12 (by omega),
    hread 13 (by omega), hread 2 (by omega), hread 3 (by omega), hread 4 (by omega),
    hread 5 (by omega), hread 14 (by omega), hread 15 (by omega), hread 16 (by omega),
    hread 17 (by omega)]
  split <;> rfl

/-- No read of the UART1 handler fails. -/
theorem readDateReceiveHandle_eq (h : u.Tidy) (d : Dock) :
    u.readDateReceiveHandle d = some (Uart.uart1.dateReceiveHandle u d) := by
  have ht : (if u.rxindex ≠ 0 ∧ u.timeout = 0 then u.clear else u).Tidy := by
    split
    · exact tidy_clear
    · exact h
  unfold readDateReceiveHandle Uart.dateReceiveHandle
  generalize (if u.rxindex ≠ 0 ∧ u.timeout = 0 then u.clear else u) = v at *
  dsimp only
  by_cases hpos : v.rxindex > 0
  · have h0 : v.read 0 = some (v.rawData 0) := read_of_lt (by decide)
    rw [if_pos hpos, h0, Option.bind_eq_bind, Option.bind_some]
    by_cases hlen : v.rxindex ≥ (v.rawData 0).toNat + 3
    · have hle : (v.rawData 0).toNat + 3 ≤ rxbuffLen := Nat.le_trans hlen ht.rxindex_le
      have hread : v.read ((v.rawData 0).toNat + 2) = some (v.rawData ((v.rawData 0).toNat + 2)) :=
        read_of_lt (by omega)
      have hvalid : Dock.Uart1Valid v.received ↔
          v.rawData ((v.rawData 0).toNat + 2) = Dock.rxCalcCheckSum v.received := by
        unfold Dock.Uart1Valid
        rw [length_received, getD_received ht, getD_received ht]
        exact ⟨fun hv => hv.2.2, fun hc => ⟨hpos, hlen, hc⟩⟩
      have hcomplete : Uart.uart1.Complete v := ⟨hpos, hlen⟩
      rw [if_pos hlen, hread, readCheckSum_eq ht hle, readCmdHandle_eq ht hle, if_pos hcomplete,
        Uart.handle, Dock.xUart1DateReceiveHandle]
      simp only [Option.bind_eq_bind, Option.bind_some, hvalid]
      split <;> rfl
    · rw [if_neg hlen, if_neg fun hc : Uart.uart1.Complete v => hlen hc.2]
  · rw [if_neg hpos, if_neg fun hc : Uart.uart1.Complete v => hpos hc.1]

end MfpData

/-! ### Resynchronisation -/

end ErgoDock
