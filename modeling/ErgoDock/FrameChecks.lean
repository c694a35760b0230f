import ErgoDock.FrameFields

/-! # What the checks of the lines detect

The key frames for the main box carry a checksum that `syncCalcCheckSum` computes and
`rxCalcCheckSum` tests: the receiver accepts what the firmware builds, the packed layouts give back
what went in, and a single wrong byte behind the length byte is always found (`mfp_codec`).

On UART2 the two delimiters are tested and nothing else, and the word to execute is read from the
byte that carries the checksum (`uart2_checked_iff`). -/

namespace ErgoDock

/-! ### The checksum of the main box -/

theorem foldl_sub (g : ℕ → UInt8) (n : ℕ) (s : UInt8) :
    (List.range n).foldl (fun sum i => sum - g i) s = s - ∑ i ∈ Finset.range n, g i := by
  induction n with
  | zero => simp
  | succ n ih =>
      rw [List.range_succ, List.foldl_append, ih, Finset.sum_range_succ, ← sub_sub]
      rfl

theorem rxCalcCheckSum_eq (raw : List UInt8) :
    Dock.rxCalcCheckSum raw =
      0xFF - ∑ i ∈ Finset.range (2 + (raw.getD 0 0).toNat), raw.getD i 0 :=
  foldl_sub (fun i => raw.getD i 0) _ _

/-- Both checksums are the same function of the bytes. -/
theorem rxCalcCheckSum_append {body : List UInt8} (c : UInt8)
    (h : body.length = 2 + (body.getD 0 0).toNat) :
    Dock.rxCalcCheckSum (body ++ [c]) = syncCalcCheckSum body := by
  have hget : ∀ i < body.length, (body ++ [c]).getD i 0 = body.getD i 0 := fun i hi => by
    rw [List.getD_eq_getElem?_getD, List.getElem?_append_left hi, List.getD_eq_getElem?_getD]
  have hbody : (List.range body.length).map (fun i => (body ++ [c]).getD i 0) = body := by
    refine List.ext_getElem (by simp) fun i h₁ h₂ => ?_
    rw [List.getElem_map, List.getElem_range, hget i h₂, List.getD_eq_getElem _ _ h₂]
  rw [Dock.rxCalcCheckSum, hget 0 (by omega), ← h, syncCalcCheckSum]
  conv_rhs => rw [← hbody, List.foldl_map]

theorem getD_set (raw : List UInt8) {i : ℕ} (hi : i < raw.length) (b : UInt8) (j : ℕ) :
    (raw.set i b).getD j 0 = if i = j then b else raw.getD j 0 := by
  rw [List.getD_eq_getElem?_getD, List.getElem?_set]
  split
  · next h =>
    subst h
    rfl
  · rw [List.getD_eq_getElem?_getD]

/-- A changed byte behind the length byte is found. -/
theorem single_byte_rejected {raw : List UInt8} {i : ℕ} {b : UInt8} (hv : Dock.Uart1Valid raw)
    (h0 : i ≠ 0) (hi : i < (raw.getD 0 0).toNat + 3) (hb : b ≠ raw.getD i 0) :
    ¬ Dock.Uart1Valid (raw.set i b) := by
  obtain ⟨-, hlen, hsum⟩ := hv
  have hget := getD_set raw (Nat.lt_of_lt_of_le hi hlen) b
  rintro ⟨-, -, hsum'⟩
  rw [rxCalcCheckSum_eq] at hsum hsum'
  rw [hget 0, if_neg h0, hget] at hsum'
  split at hsum'
  · -- the checksum byte itself: the sum is the same
    next hcheck =>
    have hsame : ∑ j ∈ Finset.range (2 + (raw.getD 0 0).toNat), (raw.set i b).getD j 0 =
        ∑ j ∈ Finset.range (2 + (raw.getD 0 0).toNat), raw.getD j 0 := by
      refine Finset.sum_congr rfl fun j hj => ?_
      rw [Finset.mem_range] at hj
      rw [hget, if_neg (by omega)]
    rw [hsame, ← hsum, ← hcheck] at hsum'
    exact hb hsum'
  · -- a byte of the sum: the sum changes by the difference
    next hcheck =>
    have hmem : i ∈ Finset.range (2 + (raw.getD 0 0).toNat) := by
      rw [Finset.mem_range]
      omega
    have hdiff : ∑ j ∈ Finset.range (2 + (raw.getD 0 0).toNat),
        ((raw.set i b).getD j 0 - raw.getD j 0) = b - raw.getD i 0 := by
      rw [Finset.sum_eq_single_of_mem i hmem fun j _ hj => ?_]
      · rw [hget, if_pos rfl]
      · rw [hget, if_neg hj.symm, sub_self]
    rw [Finset.sum_sub_distrib, ← sub_right_inj.mp (hsum.symm.trans hsum'), sub_self] at hdiff
    exact hb (sub_eq_zero.mp hdiff.symm)

/-! ### The key frames -/

/-- `PlugInPacket`. -/
structure PlugInPacket where
  length : UInt8
  type : UInt8
  keys : UInt32
  ctrlMode : UInt8
  checksum : UInt8
deriving DecidableEq, Repr

/-- `btPacket`. -/
structure BtPacket where
  length : UInt8
  type : UInt8
  keys : UInt32
  ctrlMode : UInt8
  drivePwm : UInt8
  driveTmr : UInt8
  checksum : UInt8
deriving DecidableEq, Repr

/-- The bytes of a frame read as a packed `PlugInPacket`. -/
def plugInPacket (f : List UInt8) : PlugInPacket :=
  ⟨f.getD 0 0, f.getD 1 0, frameKey f, f.getD 6 0, f.getD 7 0⟩

/-- The bytes of a frame read as a packed `btPacket`. -/
def btPacket (f : List UInt8) : BtPacket :=
  ⟨f.getD 0 0, f.getD 1 0, frameKey f, f.getD 6 0, f.getD 7 0, f.getD 8 0, f.getD 9 0⟩

/-- The receiver of the main box accepts a body with the checksum of the sender behind it. -/
theorem wellFormed_append_checkSum {body : List UInt8} (hle : body.length < rxbuffLen)
    (h : body.length = 2 + (body.getD 0 0).toNat) :
    Uart.uart1.WellFormed (body ++ [syncCalcCheckSum body]) := by
  have hfirst : (body ++ [syncCalcCheckSum body]).getD 0 0 = body.getD 0 0 := by
    rw [List.getD_eq_getElem?_getD, List.getElem?_append_left (by omega),
      List.getD_eq_getElem?_getD]
  have hlast : (body ++ [syncCalcCheckSum body]).getD body.length 0 = syncCalcCheckSum body := by
    rw [List.getD_eq_getElem?_getD, List.getElem?_concat_length]
    rfl
  have hlen : (body ++ [syncCalcCheckSum body]).length = (body.getD 0 0).toNat + 3 := by
    rw [List.length_append, List.length_singleton]
    omega
  refine ⟨?_, ?_, ?_, ?_, ?_⟩
  · rw [Uart.frameLength, hfirst, hlen]
  · rw [List.length_append, List.length_singleton]
    omega
  · omega
  · rw [hfirst, hlen]
  · rw [hfirst, rxCalcCheckSum_append _ h, Nat.add_comm, ← h, hlast]

theorem wellFormed_normalKetFrame (keys : UInt32) :
    Uart.uart1.WellFormed (normalKetFrame keys) :=
  @wellFormed_append_checkSum (0x05 :: 0x01 :: (le32 keys ++ [0x00]))
    (show 7 < rxbuffLen by decide) rfl

theorem wellFormed_softStartFrame (keys : UInt32) (pwm tmr : UInt8) :
    Uart.uart1.WellFormed (softStartFrame keys pwm tmr) :=
  @wellFormed_append_checkSum (0x07 :: 0x01 :: (le32 keys ++ [0x00, pwm, tmr]))
    (show 9 < rxbuffLen by decide) rfl

theorem plugInPacket_normalKetFrame (keys : UInt32) :
    (plugInPacket (normalKetFrame keys)).keys = keys := ofLe32_le32 keys

theorem btPacket_softStartFrame (keys : UInt32) (pwm tmr : UInt8) :
    (btPacket (softStartFrame keys pwm tmr)).keys = keys ∧
      (btPacket (softStartFrame keys pwm tmr)).drivePwm = pwm ∧
      (btPacket (softStartFrame keys pwm tmr)).driveTmr = tmr := ⟨ofLe32_le32 keys, rfl, rfl⟩

/-- For every key, pwm and tmr: what the queue takes is a frame its receiver accepts, and the
packed layout gives back what went in.  And the receiver rejects every frame that differs from a
valid one in a single byte behind the length byte. -/
theorem mfp_codec (q : MfpQueue) (hroom : q.items.length < mfpTxQueueMaxItems) (o : Origin)
    (keys : UInt32) (pwm tmr repeats : UInt8) :
    (∃ f, (q.prepareMfpNormalKet o keys repeats).items = q.items ++ [⟨f, repeats, o⟩] ∧
      Uart.uart1.WellFormed f ∧ (plugInPacket f).keys = keys) ∧
    (∃ f, (q.prepareMfpSoftStart o keys pwm tmr repeats).items = q.items ++ [⟨f, repeats, o⟩] ∧
      Uart.uart1.WellFormed f ∧ (btPacket f).keys = keys ∧ (btPacket f).drivePwm = pwm ∧
      (btPacket f).driveTmr = tmr) ∧
    ∀ (raw : List UInt8) (i : ℕ) (b : UInt8), Dock.Uart1Valid raw → i ≠ 0 →
      i < (raw.getD 0 0).toNat + 3 → b ≠ raw.getD i 0 → ¬ Dock.Uart1Valid (raw.set i b) := by
  refine ⟨⟨normalKetFrame keys, ?_, wellFormed_normalKetFrame keys,
    plugInPacket_normalKetFrame keys⟩, ⟨softStartFrame keys pwm tmr, ?_,
    wellFormed_softStartFrame keys pwm tmr, btPacket_softStartFrame keys pwm tmr⟩,
    fun raw i b => single_byte_rejected⟩
  · rw [MfpQueue.prepareMfpNormalKet, MfpQueue.items_send,
      if_pos ⟨hroom, show 8 ≤ mfpTxDataMaxLen by decide⟩]
  · rw [MfpQueue.prepareMfpSoftStart, MfpQueue.items_send,
      if_pos ⟨hroom, show 10 ≤ mfpTxDataMaxLen by decide⟩]

/-- A lift pulse on the empty queue, and its key frame with a wrong byte. -/
theorem mfp_codec_pulse :
    (∃ f, (({} : MfpQueue).prepareMfpSoftStart .release keyMemory4 80 5 3).items =
      [⟨f, 3, .release⟩] ∧ Uart.uart1.WellFormed f ∧ (btPacket f).keys = keyMemory4 ∧
      (btPacket f).drivePwm = 80 ∧ (btPacket f).driveTmr = 5) ∧
    ¬ Dock.Uart1Valid ((normalKetFrame keyMemory4).set 2 0xFF) := by
  obtain ⟨-, hsoft, hset⟩ := mfp_codec {} (by decide) .release keyMemory4 80 5 3
  exact ⟨hsoft, hset (normalKetFrame keyMemory4) 2 0xFF (by decide) (by decide) (by decide)
    (by decide)⟩

/-! ### The line of the voice chip -/

namespace Dock

/-- The call of `offline_voice_Handle` that `x_uart2_dateReceiveHandle` makes for its bytes. -/
def uart2Call (raw : List UInt8) : Option (UInt8 × UInt8) :=
  if Uart2Valid raw then some (raw.getD 3 0, raw.getD 6 0) else none

theorem xUart2DateReceiveHandle_eq (d : Dock) (raw : List UInt8) :
    d.xUart2DateReceiveHandle raw =
      match uart2Call raw with
      | some (cmd, data) => d.offlineVoiceHandle cmd data
      | none => d := by
  rw [xUart2DateReceiveHandle, uart2Call]
  split <;> rfl

end Dock

/-- The law of the frames on UART2: head, tail, and the sum of the first six bytes. -/
structure Uart2Lawful (raw : List UInt8) : Prop where
  head : raw.getD 0 0 = 0xA5
  mark : raw.getD 1 0 = 0xFA
  tail : raw.getD 7 0 = 0xFB
  sum : raw.getD 6 0 = raw.getD 0 0 + raw.getD 1 0 + raw.getD 2 0 + raw.getD 3 0 + raw.getD 4 0 +
    raw.getD 5 0

/-- The firmware's own frames obey it. -/
theorem lawful_ci1302Frame (en : Bool) (ww : UInt8) : Uart2Lawful (Dock.ci1302Frame en ww) := by
  unfold Dock.ci1302Frame
  split
  · split
    · exact ⟨rfl, rfl, rfl, rfl⟩
    · split <;> exact ⟨rfl, rfl, rfl, rfl⟩
  · exact ⟨rfl, rfl, rfl, rfl⟩

/-- The bytes reach `offline_voice_Handle`, or change the queue to the main box, only as a frame
that obeys the law. -/
structure OnlyLawful (raw : List UInt8) : Prop where
  dispatched : ∀ c, Dock.uart2Call raw = some c → Uart2Lawful raw
  enqueued : ∀ d : Dock, (d.xUart2DateReceiveHandle raw).mfp ≠ d.mfp → Uart2Lawful raw

/-- With this byte changed the frame is rejected, or calls for the same command. -/
def ChangeHarmless (raw : List UInt8) (i : ℕ) (b : UInt8) : Prop :=
  ∀ c, Dock.uart2Call (raw.set i b) = some c → Dock.uart2Call raw = some c

theorem onlyLawful_iff (raw : List UInt8) :
    OnlyLawful raw ↔ raw.getD 0 0 ≠ 0xA5 ∨ raw.getD 7 0 ≠ 0xFB ∨ Uart2Lawful raw := by
  constructor
  · intro h
    by_contra hno
    obtain ⟨h0, h7, hlaw⟩ := not_or.mp hno |>.imp_right not_or.mp
    exact hlaw (h.dispatched _ (if_pos ⟨not_not.mp h0, not_not.mp h7⟩))
  · intro h
    have hvalid : Dock.Uart2Valid raw → Uart2Lawful raw := fun hv => by
      rcases h with h0 | h7 | hlaw
      · exact absurd hv.1 h0
      · exact absurd hv.2 h7
      · exact hlaw
    refine ⟨fun c hc => ?_, fun d hd => ?_⟩
    · rw [Dock.uart2Call] at hc
      split at hc
      · next hv => exact hvalid hv
      · exact absurd hc.symm (Option.some_ne_none _)
    · rw [Dock.xUart2DateReceiveHandle] at hd
      split at hd
      · next hv => exact hvalid hv
      · exact absurd rfl hd

theorem changeHarmless_iff {raw : List UInt8} (hlaw : Uart2Lawful raw) {i : ℕ} (hi : i < 8)
    {b : UInt8} (hb : b ≠ raw.getD i 0) : ChangeHarmless raw i b ↔ i ≠ 3 ∧ i ≠ 6 := by
  have hlen : 7 < raw.length := by
    by_contra hle
    have h7 := hlaw.tail
    rw [List.getD_eq_getElem?_getD, List.getElem?_eq_none (Nat.le_of_not_lt hle)] at h7
    exact absurd h7 (by decide)
  have hget := getD_set raw (Nat.lt_of_lt_of_le hi hlen) b
  have hsame : ∀ j, (if i = j then b else raw.getD j 0) = raw.getD j 0 ↔ i ≠ j := fun j => by
    by_cases hij : i = j
    · subst hij
      rw [if_pos rfl]
      exact ⟨fun h => absurd h hb, fun h => absurd rfl h⟩
    · rw [if_neg hij]
      exact ⟨fun _ => hij, fun _ => rfl⟩
  have hcall : Dock.uart2Call raw = some (raw.getD 3 0, raw.getD 6 0) :=
    if_pos ⟨hlaw.head, hlaw.tail⟩
  have hvalid : Dock.Uart2Valid (raw.set i b) ↔ i ≠ 0 ∧ i ≠ 7 := by
    rw [Dock.Uart2Valid, hget, hget, ← hlaw.head, ← hlaw.tail, hsame, hsame]
  rw [ChangeHarmless, hcall, Dock.uart2Call, hget, hget]
  simp only [hvalid]
  constructor
  · intro h
    refine ⟨?_, ?_⟩
    · rintro rfl
      have hcmd := Prod.mk.inj (Option.some.inj (h _ (if_pos (by decide))))
      exact (hsame 3).mp hcmd.1.symm rfl
    · rintro rfl
      have hdata := Prod.mk.inj (Option.some.inj (h _ (if_pos (by decide))))
      exact (hsame 6).mp hdata.2.symm rfl
  · rintro ⟨h3, h6⟩ c hc
    rw [if_neg h3, if_neg h6] at hc
    split at hc
    · exact hc
    · exact absurd hc.symm (Option.some_ne_none _)

/-- For every eight bytes: only a frame that obeys the law is executed, exactly if one of the
delimiters is missing or the law is obeyed; and a change of one byte of such a frame executes no
other command, exactly if it is neither byte 3 nor byte 6. -/
theorem uart2_checked_iff (raw : List UInt8) :
    (OnlyLawful raw ↔ raw.getD 0 0 ≠ 0xA5 ∨ raw.getD 7 0 ≠ 0xFB ∨ Uart2Lawful raw) ∧
    ∀ (i : ℕ) (b : UInt8), Uart2Lawful raw → i < 8 → b ≠ raw.getD i 0 →
      (ChangeHarmless raw i b ↔ i ≠ 3 ∧ i ≠ 6) :=
  ⟨onlyLawful_iff raw, fun _ _ hlaw hi hb => changeHarmless_iff hlaw hi hb⟩

/-- The frame of STOP with byte 6 changed. -/
theorem uart2_checked_iff_stop :
    ¬ ChangeHarmless [0xA5, 0xFA, 0x00, 0x81, 0x03, 0x00, 0x23, 0xFB] 6 0x24 := by
  have hiff := (uart2_checked_iff [0xA5, 0xFA, 0x00, 0x81, 0x03, 0x00, 0x23, 0xFB]).2 6 0x24
    ⟨rfl, rfl, rfl, rfl⟩ (by decide) (by decide)
  exact fun h => (hiff.mp h).2 rfl

/-- In an open session this frame, whose sum is wrong, is executed as the word for lifting head and
foot. -/
theorem corrupted_stop_lifts : ¬ ∀ (d : Dock) (raw : List UInt8), raw.length = 8 →
    (d.xUart2DateReceiveHandle raw).mfp ≠ d.mfp → Uart2Lawful raw := by
  intro h
  have hlaw := h { voice := { keyEnable := true }, voiceState := .active }
    [0xA5, 0xFA, 0x00, 0x81, 0x03, 0x00, 0x24, 0xFB] rfl fun hmfp =>
      absurd (congrArg (fun q => q.items.length) hmfp) (by decide)
  exact absurd hlaw.sum (by decide)

end ErgoDock
