import ErgoDock.Air
import ErgoDock.Desk

/-! # Receiving from the main box, byte by byte (`x_uart.c`, UART1)

`HAL_UART_RxCpltCallback` appends a byte to the receive buffer, `x_uart_10ms` counts down the
timeout and hands a complete frame on.  `Line` is the firmware with this buffer; its other events
are those of the firmware, without the event that stands for a received frame.

Of every accepted frame a copy is kept for the status frame.  A history variable (`lastFrame`)
holds the last accepted frame as it was received; the status frame ends with exactly these bytes
in every reachable state (`status_frame_integrity`). -/

namespace ErgoDock

open Machine

/-- `RXBUFF_LEN`. -/
def rxbuffLen : ℕ := 100

/-- `COM_TIMEOUT`, in ticks of 10 ms. -/
def comTimeout : UInt32 := 2

/-! ### The buffer -/

/-- The receiving side of `mfp_data_st`; `rawData` is `rx.rawData`. -/
structure MfpData where
  rxindex : ℕ := 0
  timeout : UInt32 := 0
  rawData : ℕ → UInt8 := fun _ => 0

namespace MfpData
variable (u : MfpData)

/-- The UART1 part of `HAL_UART_RxCpltCallback`. -/
def rxCplt (b : UInt8) : MfpData :=
  if u.rxindex < rxbuffLen then
    { rxindex := u.rxindex + 1
      timeout := comTimeout
      rawData := Function.update u.rawData u.rxindex b }
  else u

/-- `rxindex` and the bytes are set to zero. -/
def clear : MfpData := { u with rxindex := 0, rawData := fun _ => 0 }

/-- The UART1 part of `x_uart_10ms` before the receive handler. -/
def tick : MfpData := { u with timeout := if u.timeout > 0 then u.timeout - 1 else u.timeout }

/-- The tick and the first test of `x_uart1_dateReceiveHandle`. -/
def countdown : MfpData :=
  if u.tick.rxindex ≠ 0 ∧ u.tick.timeout = 0 then u.tick.clear else u.tick

/-- The second test of `x_uart1_dateReceiveHandle`. -/
def Complete : Prop := u.rxindex > 0 ∧ u.rxindex ≥ (u.rawData 0).toNat + 3

instance : Decidable u.Complete := by unfold Complete; infer_instance

/-- The bytes received so far. -/
def received : List UInt8 := (List.range u.rxindex).map u.rawData

/-- The frame in the buffer, from its length byte to its checksum. -/
def frame : List UInt8 := (List.range ((u.rawData 0).toNat + 3)).map u.rawData

/-- What holds of the buffer at any time: no more bytes than it takes, and zeros behind them. -/
structure Tidy : Prop where
  rxindex_le : u.rxindex ≤ rxbuffLen
  rest : ∀ i, u.rxindex ≤ i → u.rawData i = 0

variable {u}

theorem Tidy.rxCplt (h : u.Tidy) (b : UInt8) : (u.rxCplt b).Tidy := by
  unfold MfpData.rxCplt
  split
  · next hlt =>
    refine ⟨hlt, fun i hi => ?_⟩
    have hne : i ≠ u.rxindex := by
      dsimp only at hi
      omega
    exact (Function.update_of_ne hne ..).trans (h.rest i (by dsimp only at hi; omega))
  · exact h

theorem tidy_clear : u.clear.Tidy := ⟨Nat.zero_le _, fun _ _ => rfl⟩

theorem Tidy.countdown (h : u.Tidy) : u.countdown.Tidy := by
  unfold MfpData.countdown
  split
  · exact tidy_clear
  · exact ⟨h.rxindex_le, h.rest⟩

/-- Reading the received bytes, with zero behind them, is reading the buffer. -/
theorem getD_received (h : u.Tidy) (i : ℕ) : u.received.getD i 0 = u.rawData i := by
  rw [received, List.getD_eq_getElem?_getD, List.getElem?_map]
  by_cases hi : i < u.rxindex
  · rw [List.getElem?_range hi]
    rfl
  · rw [List.getElem?_eq_none (by rw [List.length_range]; omega), h.rest i (by omega)]
    rfl

theorem received_rxCplt (b : UInt8) (hlt : u.rxindex < rxbuffLen) :
    (u.rxCplt b).received = u.received ++ [b] := by
  have hbelow : (List.range u.rxindex).map (Function.update u.rawData u.rxindex b) =
      (List.range u.rxindex).map u.rawData := by
    refine List.map_congr_left fun i hi => Function.update_of_ne ?_ ..
    have := List.mem_range.mp hi
    omega
  rw [rxCplt, if_pos hlt, received]
  dsimp only
  rw [List.range_succ, List.map_append, hbelow, List.map_singleton, Function.update_self, received]

/-- The timeout keeps what was received, or drops all of it. -/
theorem received_countdown : u.countdown.received = u.received ∨ u.countdown.received = [] := by
  unfold countdown
  split
  · exact .inr rfl
  · exact .inl rfl

theorem length_received : u.received.length = u.rxindex := by
  rw [received, List.length_map, List.length_range]

theorem frame_eq_take (h : u.Complete) : u.frame = u.received.take ((u.rawData 0).toNat + 3) := by
  rw [frame, received, ← List.map_take, List.take_range, Nat.min_eq_left h.2]

end MfpData

/-! ### The machine -/

/-- The firmware with the receive buffer of UART1. -/
structure Line where
  pack : MfpData
  dock : Dock

/-- A byte on UART1, the 10 ms tick of the UARTs, or another event of the firmware. -/
inductive LineEvent where
  | byte (b : UInt8)
  | uart10ms
  | other (e : Event) (h : ∀ raw, e ≠ .mfpFrame raw)

namespace Line

def boot (b : Boot) : Line := ⟨{}, ErgoDock.boot b⟩

/-- `x_uart_10ms` with `x_uart1_dateReceiveHandle`. -/
def uart10ms (w : Line) : Line :=
  let u := w.pack.countdown
  if u.Complete then ⟨u.clear, w.dock.xUart1DateReceiveHandle u.received⟩ else ⟨u, w.dock⟩

def step (w : Line) : LineEvent → Line
  | .byte b => { w with pack := w.pack.rxCplt b }
  | .uart10ms => w.uart10ms
  | .other e _ => { w with dock := ErgoDock.step w.dock e }

/-- History: the bytes on UART1 so far, and the last frame that was accepted. -/
def watch (g : List UInt8 × Option (List UInt8)) (w : Line) :
    LineEvent → List UInt8 × Option (List UInt8)
  | .byte b => (g.1 ++ [b], g.2)
  | .uart10ms =>
      let u := w.pack.countdown
      if u.Complete ∧ Dock.Uart1Valid u.received then (g.1, some u.frame) else g
  | .other _ _ => g

/-- The history of a run. -/
def history (b : Boot) (es : List LineEvent) : List UInt8 × Option (List UInt8) :=
  (exec (monitor step watch) (boot b, ([], none)) es).2

/-! ### The kept copy -/

/-- An accepted frame: as long as its first byte says, within the buffer, and a piece of what was
on the line. -/
structure Accepts (stream f : List UInt8) : Prop where
  length_eq : f.length = (byteAt f 0).toNat + 3
  length_le : f.length ≤ rxbuffLen
  infix_stream : f <:+: stream

/-- What the receive path keeps: the buffer holds the end of what was on the line (or, when it
is full, a piece of it), and the copy is the last accepted frame. -/
structure Inv (w : Line) (g : List UInt8 × Option (List UInt8)) : Prop where
  tidy : w.pack.Tidy
  received : w.pack.received <:+: g.1
  suffix : w.pack.rxindex < rxbuffLen → w.pack.received <:+ g.1
  snapshot : w.dock.uart1LastMfpRaw = g.2.getD []
  accepted : ∀ f, g.2 = some f → Accepts g.1 f

theorem raw_step (d : Dock) {e : Event} (he : ∀ raw, e ≠ .mfpFrame raw) :
    (ErgoDock.step d e).uart1LastMfpRaw = d.uart1LastMfpRaw := by
  have hdesk := congrArg Desk.uart1LastMfpRaw (step_desk d e)
  refine hdesk.trans ?_
  cases e with
  | mfpFrame raw => exact absurd rfl (he raw)
  | switchSample key1 key2 =>
      simp only [Desk.step, Desk.sample]
      split <;> rfl
  | voiceFrame cmd data =>
      simp only [Desk.step, Desk.hear]
      split
      · rfl
      · split
        · split <;> rfl
        all_goals
          split
          · rfl
          · split <;> rfl
  | bleWrite value =>
      simp only [Desk.step]
      split <;> rfl
  | _ => rfl

/-- A complete frame with a matching checksum is copied as it is in the buffer. -/
theorem raw_accept (d : Dock) {u : MfpData} (ht : u.Tidy) (hc : u.Complete)
    (hv : Dock.Uart1Valid u.received) :
    (d.xUart1DateReceiveHandle u.received).uart1LastMfpRaw = u.frame := by
  have hget : ∀ i, u.received.getD i 0 = u.rawData i := fun i => MfpData.getD_received ht i
  have hlen : min ((u.rawData 0).toNat + 3) Dock.uartRxBufSize = (u.rawData 0).toNat + 3 := by
    have h1 := hc.2
    have h2 := ht.rxindex_le
    unfold rxbuffLen at h2
    unfold Dock.uartRxBufSize
    omega
  rw [Dock.xUart1DateReceiveHandle, if_pos hv]
  simp only [Dock.uart1CmdHandle, hget, hlen]
  rfl

theorem Inv.byte {w : Line} {g : List UInt8 × Option (List UInt8)} (h : Inv w g) (b : UInt8) :
    Inv { w with pack := w.pack.rxCplt b } (g.1 ++ [b], g.2) := by
  have haccepted : ∀ f, g.2 = some f → Accepts (g.1 ++ [b]) f := fun f hf =>
    { h.accepted f hf with
      infix_stream := (h.accepted f hf).infix_stream.trans (List.prefix_append ..).isInfix }
  by_cases hlt : w.pack.rxindex < rxbuffLen
  · have hs : (w.pack.rxCplt b).received <:+ g.1 ++ [b] := by
      rw [MfpData.received_rxCplt b hlt]
      exact List.suffix_append_self_iff.mpr (h.suffix hlt)
    exact ⟨h.tidy.rxCplt b, hs.isInfix, fun _ => hs, h.snapshot, haccepted⟩
  · have hsame : w.pack.rxCplt b = w.pack := if_neg hlt
    refine ⟨h.tidy.rxCplt b, ?_, fun hlt' => ?_, h.snapshot, haccepted⟩
    · dsimp only
      rw [hsame]
      exact h.received.trans (List.prefix_append ..).isInfix
    · dsimp only at hlt'
      rw [hsame] at hlt'
      exact absurd hlt' hlt

theorem Inv.uart10ms {w : Line} {g : List UInt8 × Option (List UInt8)} (h : Inv w g) :
    Inv w.uart10ms (watch g w .uart10ms) := by
  have ht := h.tidy.countdown
  have hreceived : w.pack.countdown.received <:+: g.1 := by
    rcases w.pack.received_countdown with hr | hr
    · exact hr ▸ h.received
    · exact hr ▸ List.nil_infix
  have hsuffix : w.pack.countdown.rxindex < rxbuffLen → w.pack.countdown.received <:+ g.1 := by
    intro hlt
    rcases w.pack.received_countdown with hr | hr
    · rw [hr]
      rw [← MfpData.length_received, hr, MfpData.length_received] at hlt
      exact h.suffix hlt
    · exact hr ▸ List.nil_suffix
  simp only [Line.uart10ms, watch]
  generalize w.pack.countdown = u at *
  by_cases hc : u.Complete
  · rw [if_pos hc]
    by_cases hv : Dock.Uart1Valid u.received
    · rw [if_pos ⟨hc, hv⟩]
      refine ⟨MfpData.tidy_clear, List.nil_infix, fun _ => List.nil_suffix,
        raw_accept w.dock ht hc hv, fun f hf => ?_⟩
      have hframe : f = u.frame := (Option.some.inj hf).symm
      have hlen : f.length = (u.rawData 0).toNat + 3 := by
        rw [hframe, MfpData.frame, List.length_map, List.length_range]
      have hfirst : byteAt f 0 = u.rawData 0 := by
        rw [hframe, byteAt, MfpData.frame, List.getD_eq_getElem?_getD, List.getElem?_map,
          List.getElem?_range (by omega)]
        rfl
      refine ⟨by rw [hlen, hfirst], ?_, ?_⟩
      · have h1 := hc.2
        have h2 := ht.rxindex_le
        omega
      · rw [hframe, MfpData.frame_eq_take hc]
        exact (List.take_prefix ..).isInfix.trans hreceived
    · rw [if_neg fun hc' => hv hc'.2]
      refine ⟨MfpData.tidy_clear, List.nil_infix, fun _ => List.nil_suffix, ?_, h.accepted⟩
      rw [Dock.xUart1DateReceiveHandle, if_neg hv]
      exact h.snapshot
  · rw [if_neg hc, if_neg fun hc' => hc hc'.1]
    exact ⟨ht, hreceived, hsuffix, h.snapshot, h.accepted⟩

theorem inv_step (w : Line) (g : List UInt8 × Option (List UInt8)) (e : LineEvent)
    (h : Inv w g) : Inv (w.step e) (watch g w e) := by
  cases e with
  | byte b => exact h.byte b
  | uart10ms => exact h.uart10ms
  | other e he =>
      exact ⟨h.tidy, h.received, h.suffix, (raw_step w.dock he).trans h.snapshot, h.accepted⟩

theorem inv_boot (b : Boot) : Inv (boot b) ([], none) := by
  have hraw : (ErgoDock.boot b).uart1LastMfpRaw = [] := by
    refine (congrArg Desk.uart1LastMfpRaw (desk_boot b)).trans ?_
    simp only [Desk.sample]
    split <;> rfl
  exact ⟨⟨Nat.zero_le _, fun _ _ => rfl⟩, List.nil_infix, fun _ => List.nil_suffix, hraw,
    fun _ hf => absurd hf (Option.some_ne_none _).symm⟩

theorem inv_run (b : Boot) (es : List LineEvent) : Inv (exec step (boot b) es) (history b es) :=
  monitor_invariant inv_step (inv_boot b) es

/-- The firmware behind the line is in a state that a run of the firmware reaches. -/
theorem dock_run (b : Boot) (es : List LineEvent) :
    ∃ es', (exec step (boot b) es).dock = runFrom b es' := by
  have h0 : ∃ es', (boot b).dock = runFrom b es' := ⟨[], rfl⟩
  refine exec_invariant_all (I := fun w : Line => ∃ es', w.dock = runFrom b es') ?_ h0 es
  rintro w e ⟨es', h⟩
  have hstep : ∀ e', ∃ es'', ErgoDock.step w.dock e' = runFrom b es'' := fun e' =>
    ⟨es' ++ [e'], by rw [h, runFrom_concat]⟩
  cases e with
  | byte b => exact ⟨es', h⟩
  | uart10ms =>
      simp only [step, uart10ms]
      split
      · exact hstep (.mfpFrame _)
      · exact ⟨es', h⟩
  | other e _ => exact hstep e

end Line

/-! ### The status frame -/

/-- `BLE_LINK_FRAME_BUF`. -/
def bleLinkFrameBuf : ℕ := 180

namespace Dock

/-- The data of the status frame: 33 fixed bytes, then the kept frame of the main box. -/
theorem drop_bleFillAppKeyDataDomain (d : Dock) :
    d.bleFillAppKeyDataDomain.drop 33 = d.uart1LastMfpRaw.take 127 := rfl

theorem length_bleFillAppKeyDataDomain (d : Dock) :
    d.bleFillAppKeyDataDomain.length = 33 + min 127 d.uart1LastMfpRaw.length := by
  have h33 : 33 ≤ d.bleFillAppKeyDataDomain.length := by
    simp [bleFillAppKeyDataDomain, le32]
  have hdrop := congrArg List.length d.drop_bleFillAppKeyDataDomain
  rw [List.length_drop, List.length_take] at hdrop
  omega

end Dock

/-- In every reachable state the frame built by `x_ble_com_txbuffFill` is a length byte, the port
and as many bytes of data, and fits its buffer; the data are 33 bytes before any frame of the main
box was accepted, and afterwards 33 bytes and the last accepted frame as it came over the line. -/
theorem status_frame_integrity (b : Boot) (es : List LineEvent) :
    ∃ (n : UInt8) (domain : List UInt8),
      (exec Line.step (Line.boot b) es).dock.xBleComTxbuffFill.bletx =
        n :: bleAppPortInner :: domain ∧
      n.toNat = domain.length ∧ 2 + n.toNat ≤ 162 ∧ 2 + n.toNat ≤ bleLinkFrameBuf ∧
      match (Line.history b es).2 with
      | none => n = 33
      | some f => f <:+: (Line.history b es).1 ∧ f.length = (byteAt f 0).toNat + 3 ∧
          n.toNat = 33 + (byteAt f 0).toNat + 3 ∧ domain.drop 33 = f := by
  obtain ⟨-, -, -, hsnap, hacc⟩ := Line.inv_run b es
  generalize (exec Line.step (Line.boot b) es).dock = d at *
  generalize Line.history b es = g at *
  have hbletx : d.xBleComTxbuffFill.bletx = d.reportTriging.statusFrame := by
    simp only [Dock.xBleComTxbuffFill, Dock.lsBleupServerSendNotification]
    split <;> rfl
  have hlen := d.reportTriging.length_bleFillAppKeyDataDomain
  have hdrop := d.reportTriging.drop_bleFillAppKeyDataDomain
  have hraw : d.reportTriging.uart1LastMfpRaw = g.2.getD [] := hsnap
  rw [hraw] at hlen hdrop
  have hn : (UInt8.ofNat d.reportTriging.bleFillAppKeyDataDomain.length).toNat =
      d.reportTriging.bleFillAppKeyDataDomain.length := by
    rw [UInt8.toNat_ofNat']
    exact Nat.mod_eq_of_lt (by omega)
  refine ⟨_, _, hbletx, hn, by omega, ?_, ?_⟩
  · unfold bleLinkFrameBuf
    omega
  · cases hg : g.2 with
    | none =>
        rw [hg] at hlen
        dsimp only
        rw [hlen]
        rfl
    | some f =>
        rw [hg] at hlen hdrop
        obtain ⟨hl, hle, hin⟩ := hacc f hg
        unfold rxbuffLen at hle
        rw [Option.getD_some] at hlen hdrop
        exact ⟨hin, hl, by omega, by rw [hdrop, List.take_of_length_le (by omega)]⟩

end ErgoDock
