import ErgoDock.Lib.Nor
import ErgoDock.Lib.RawMemory
import ErgoDock.Lib.Run
import ErgoDock.Sha256

/-! # The firmware update service (`fota_svc_server.c`)

The handlers of the two characteristics, control and data, and the flash they work on.  A
handler answers with the environment it leaves, what it did (`FotaAct`, in order), and whether the
program goes on: where the C code writes through a pointer that nothing has set or fails an
assertion, and when it resets the platform, it takes no further step.  The next start begins in
`Fota.boot`.

Neither a copy that leaves its array nor a division by zero stops the program.  The copy goes over
the fields that lie behind the array in memory (`FotasEnv.memcpy`); the division is done by the
chip's divider, and the handlers go on with whatever it leaves (`Divider`).

A packet carries the memory behind its received bytes, since the handlers read it too. -/

namespace ErgoDock

instance : NorCell UInt8 where
  erased := 0xFF
  blend := (· &&& ·)
  erased_blend d := by
    apply UInt8.toNat_inj.mp
    rw [UInt8.toNat_and, Nat.and_comm]
    exact Nat.and_two_pow_sub_one_of_lt_two_pow (n := 8) d.toNat_lt
  blend_self _ := UInt8.and_self

/-! ### Packets -/

/-- A write request: the received bytes, at most as many as a 16-bit length can say, and the
memory behind them. -/
structure Packet where
  value : List UInt8
  length_lt : value.length < 65536
  beyond : ℕ → UInt8

namespace Packet
variable (p : Packet)

/-- Byte `i` of the memory at `value`. -/
def byte (i : ℕ) : UInt8 :=
  if h : i < p.value.length then p.value[i] else p.beyond (i - p.value.length)

def bytes (i n : ℕ) : List UInt8 := (List.range n).map fun j => p.byte (i + j)

def le16 (i : ℕ) : UInt16 := (p.byte i).toUInt16 ||| (p.byte (i + 1)).toUInt16 <<< 8

def le24 (i : ℕ) : UInt32 :=
  (p.byte i).toUInt32 ||| (p.byte (i + 1)).toUInt32 <<< 8 ||| (p.byte (i + 2)).toUInt32 <<< 16

def le32 (i : ℕ) : UInt32 := p.le24 i ||| (p.byte (i + 3)).toUInt32 <<< 24

end Packet

/-- `fotas_ctrl_type`, with the values that have no name. -/
inductive FotasCtrlType where
  | signatureCmd
  | digestCmd
  | startReq
  | startRsp
  | newSectorCmd
  | integrityCheckReq
  | integrityCheckRsp
  | finishCmd
  | other
deriving DecidableEq

/-- The type a control packet carries in its first byte. -/
def FotasCtrlType.ofByte (b : UInt8) : FotasCtrlType :=
  match b.toNat with
  | 0 => signatureCmd
  | 1 => digestCmd
  | 2 => startReq
  | 3 => startRsp
  | 4 => newSectorCmd
  | 5 => integrityCheckReq
  | 6 => integrityCheckRsp
  | 7 => finishCmd
  | _ => other

def Packet.ctrlType (p : Packet) : FotasCtrlType := .ofByte (p.byte 0)

/-! ### State -/

inductive FotasStat where
  | idle
  | busy
deriving DecidableEq

structure FotaImageInfo where
  base : UInt32
  size : UInt32
deriving DecidableEq

/-- `fotas_finish_ind`; its pointer to the image is never used. -/
structure FotasFinishInd where
  integrityCheckingResult : Bool
deriving DecidableEq

/-- `fotas_env`. -/
structure FotasEnv where
  state : FotasStat
  signature : Fin 64 → UInt8
  digest : Fin 32 → UInt8
  newImage : FotaImageInfo
  /-- A pointer: `none` is not set, that is null or overwritten by a copy. -/
  finishInd : Option FotasFinishInd
  segmentDataMaxLength : UInt16
  currentSector : UInt16
  cccdConfig : UInt16
  ack : Fin 27 → UInt8
  conidx : UInt8

/-- The arrays of `fotas_env`. -/
inductive FotasArray where
  | signature
  | digest
  | ack
deriving DecidableEq

namespace FotasArray

def size : FotasArray → ℕ
  | signature => 64
  | digest => 32
  | ack => 27

/-- Where the array begins in `fotas_env`. -/
def offset : FotasArray → ℕ
  | signature => 1
  | digest => 65
  | ack => 120

end FotasArray

/-- What the handlers do to the outside, where they write into arrays, and what they divide. -/
inductive FotaAct where
  /-- `hal_flash_sector_erase`. -/
  | sectorErase (offset : UInt32)
  /-- `hal_flash_multi_io_page_program`. -/
  | pageProgram (offset : UInt32) (data : List UInt8)
  | indication (conidx type status : UInt8)
  | readReply (conidx : UInt8) (data : List UInt8)
  | otaBootAddrSet (addr : UInt32)
  | otaSettingsEraseReqSet
  | otaCopyInfoSet (src dst size : UInt32)
  | platformReset
  /-- The status returned to the write request. -/
  | confirm (status : UInt8)
  /-- A write of `n` bytes, from byte `start` of an array on. -/
  | store (array : FotasArray) (start n : ℕ)
  | divide (dividend divisor : UInt32)
deriving DecidableEq

/-- Why the program goes no further. -/
inductive FotaStop where
  | reset
  | unsetPointer
  | assertion
deriving DecidableEq

structure FotaOutcome where
  env : FotasEnv
  acts : List FotaAct
  stop : Option FotaStop

inductive FotaEvent where
  | ctrlWrite (conidx : UInt8) (p : Packet)
  | cccdWrite (p : Packet)
  | dataWrite (p : Packet)
  | dataRead (conidx : UInt8)
  | cccdRead (conidx : UInt8)
  | connected
  | disconnected

/-! ### Control packets -/

open RawMemory in
/-- A field of 32 bits at byte `i` of a record, after `src` was copied to byte `start` of it. -/
def wordAfter (start : ℕ) (src : List UInt8) (i : ℕ) (old : UInt32) : UInt32 :=
  ⟨word (overlay (setWord (fun _ => 0) i old.toBitVec) start src) i⟩

open RawMemory in
/-- `memcpy` to byte `start` of `fotas_env`.  The fields lie at bytes 1 (`signature`), 65, 100, 108
(the pointer), 112, 116, 118, 120 and 147; between them are padding and a field nothing uses, and
behind them is nothing of the server. -/
def FotasEnv.memcpy (env : FotasEnv) (start : ℕ) (src : List UInt8) : FotasEnv where
  state := env.state
  signature := fun i => overlay (fun _ => env.signature i) start src (1 + i)
  digest := fun i => overlay (fun _ => env.digest i) start src (65 + i)
  newImage := ⟨wordAfter start src 100 env.newImage.base, wordAfter start src 104 env.newImage.size⟩
  finishInd := if start < 112 ∧ 108 < start + src.length then none else env.finishInd
  segmentDataMaxLength := (wordAfter start src 112 env.segmentDataMaxLength.toUInt32).toUInt16
  currentSector := (wordAfter start src 116 env.currentSector.toUInt32).toUInt16
  cccdConfig := (wordAfter start src 118 env.cccdConfig.toUInt32).toUInt16
  ack := fun i => overlay (fun _ => env.ack i) start src (120 + i)
  conidx := overlay (fun _ => env.conidx) start src 147

section memcpy
variable {env : FotasEnv} {start : ℕ} {src : List UInt8}

open RawMemory

theorem wordAfter_outside {i : ℕ} (h : i + 4 ≤ start ∨ start + src.length ≤ i) (old : UInt32) :
    wordAfter start src i old = old := by
  have hword : word (overlay (setWord (fun _ => 0) i old.toBitVec) start src) i =
      word (setWord (fun _ => 0) i old.toBitVec) i :=
    word_congr fun k hk => overlay_outside (by omega)
  rw [wordAfter, hword, word_setWord]

/-- A copy that ends before the image record reaches the signature and the digest only. -/
theorem FotasEnv.memcpy_eq (h : start + src.length ≤ 100) :
    env.memcpy start src = { env with
      signature := fun i => overlay (fun _ => env.signature i) start src (1 + i)
      digest := fun i => overlay (fun _ => env.digest i) start src (65 + i) } := by
  have hword : ∀ {i} (old : UInt32), 100 ≤ i → wordAfter start src i old = old :=
    fun old hi => wordAfter_outside (.inr (by omega)) old
  have hbyte : ∀ {i} (old : UInt8), 100 ≤ i → overlay (fun _ => old) start src i = old :=
    fun old hi => overlay_outside (.inr (by omega))
  have hack : (fun i : Fin 27 => overlay (fun _ => env.ack i) start src (120 + i)) = env.ack :=
    funext fun i => hbyte _ (by omega)
  rw [memcpy, hword _ (by decide), hword _ (by decide), hword _ (by decide), hword _ (by decide),
    hword _ (by decide), if_neg (by omega), hbyte _ (by decide), hack]
  simp

theorem FotasEnv.memcpy_signature (h : start + src.length ≤ 65) :
    env.memcpy start src = { env with signature := (env.memcpy start src).signature } := by
  have hdigest : (fun i : Fin 32 => overlay (fun _ => env.digest i) start src (65 + i)) =
      env.digest := funext fun i => overlay_outside (.inr (by omega))
  rw [memcpy_eq (by omega), hdigest]

theorem FotasEnv.memcpy_digest (hlo : 65 ≤ start) (h : start + src.length ≤ 100) :
    env.memcpy start src = { env with digest := (env.memcpy start src).digest } := by
  have hsignature : (fun i : Fin 64 => overlay (fun _ => env.signature i) start src (1 + i)) =
      env.signature := funext fun i => overlay_outside (.inl (by omega))
  rw [memcpy_eq (by omega), hsignature]

end memcpy

/-- `FLASH_BASE_ADDR`. -/
def flashBaseAddr : UInt32 := 0x18000000

/-- `fw_signature_check` without `FW_ECC_VERIFY`. -/
def fwSignatureCheck (_digest : Fin 32 → UInt8) (_signature : Fin 64 → UInt8) : Bool := true

theorem toNat_sub_lt {n k : UInt32} (h : n > k) (hk : 0 < k) : (n - k).toNat < n.toNat := by
  rw [UInt32.toNat_sub_of_le n k (UInt32.le_of_lt h)]
  exact Nat.sub_lt (Nat.lt_trans hk h) hk

/-- The loop of `fotas_flash_cleanup`. -/
def fotasFlashCleanup (offset size : UInt32) : List FotaAct :=
  if size = 0 then []
  else .sectorErase offset ::
    if size > 4096 then fotasFlashCleanup (offset + 4096) (size - 4096) else []
termination_by size.toNat
decreasing_by
  rename_i _ h
  exact toNat_sub_lt h (by decide)

/-- `hal_flash_quad_io_read`. -/
def flashRead (flash : ℕ → UInt8) (offset : UInt32) (n : ℕ) : List UInt8 :=
  (List.range n).map fun i => flash (offset + UInt32.ofNat i).toNat

/-- The reads of the loop of `fw_digest_check`, one a round: offset and length. -/
def digestReads (offset size : UInt32) : List (UInt32 × UInt16) :=
  if size = 0 then []
  else if size > 64 then (offset, 64) :: digestReads (offset + 64) (size - 64)
  else [(offset, size.toUInt16)]
termination_by size.toNat
decreasing_by
  rename_i _ h
  exact toNat_sub_lt h (by decide)

/-- The loop of `fw_digest_check`: every round reads, and hashes what it has read. -/
def fwDigestLoop (flash : ℕ → UInt8) (sha : TcSha256) (offset size : UInt32) : TcSha256 :=
  (digestReads offset size).foldl
    (fun sha q => tcSha256Update sha (flashRead flash q.1 q.2.toNat)) sha

def fwDigestCheck (env : FotasEnv) (flash : ℕ → UInt8) : Bool :=
  tcSha256Final (fwDigestLoop flash tcSha256Init (env.newImage.base - flashBaseAddr)
    env.newImage.size) = List.ofFn env.digest

/-- A fragment of 16 bytes goes to its place in an array, wherever its index says that is. -/
def fragmentCmd (array : FotasArray) (env : FotasEnv) (p : Packet) : FotaOutcome :=
  ⟨env.memcpy (array.offset + (p.byte 1).toNat * 16) (p.bytes 2 16),
    [.store array ((p.byte 1).toNat * 16) 16, .confirm 0], none⟩

def signatureCmd (env : FotasEnv) (p : Packet) : FotaOutcome := fragmentCmd .signature env p

def digestCmd (env : FotasEnv) (p : Packet) : FotaOutcome := fragmentCmd .digest env p

/-- The image a `START_REQ` announces. -/
def Packet.image (p : Packet) : FotaImageInfo := ⟨p.le32 1, p.le32 5⟩

def startReq (env : FotasEnv) (conidx : UInt8) (p : Packet) : FotaOutcome :=
  match env.state with
  | .idle =>
      let started := { env with
        state := .busy
        conidx
        newImage := p.image
        segmentDataMaxLength := p.le16 9 }
      if fwSignatureCheck env.digest env.signature then
        ⟨started, fotasFlashCleanup (p.image.base - flashBaseAddr) p.image.size ++
          [.indication conidx 3 0, .confirm 0], none⟩
      else ⟨started, [.indication conidx 3 1, .confirm 0], none⟩
  | .busy => ⟨env, [.confirm 1], none⟩

def newSectorCmd (env : FotasEnv) (p : Packet) : FotaOutcome :=
  ⟨{ env with currentSector := p.le16 1, ack := fun _ => 0 },
    [.store .ack 0 27, .confirm 0], none⟩

def integrityCheckReq (env : FotasEnv) (flash : ℕ → UInt8) (conidx : UInt8) : FotaOutcome :=
  match env.finishInd with
  | none => ⟨env, [], some .unsetPointer⟩
  | some _ =>
      let result := fwDigestCheck env flash
      ⟨{ env with finishInd := some ⟨result⟩ },
        [.indication conidx 6 (if result then 0 else 0x80), .confirm 0], none⟩

/-- Both `FOTA_STATUS_MASK` and `FOTA_REBOOT_MASK` are set. -/
def StatusReboots (status : UInt8) : Prop := status &&& 1 ≠ 0 ∧ status &&& 2 ≠ 0

instance (status : UInt8) : Decidable (StatusReboots status) := inferInstanceAs (Decidable (_ ∧ _))

/-- The status of the `FINISH_CMD` asks for a reboot. -/
abbrev Packet.Reboots (p : Packet) : Prop := StatusReboots (p.byte 1)

def finishCmd (env : FotasEnv) (p : Packet) : FotaOutcome :=
  if p.Reboots then
    ⟨env, (if p.le32 13 ≠ 0 then [.otaBootAddrSet (p.le32 13)] else []) ++
      (if p.byte 1 &&& 4 ≠ 0 then [.otaSettingsEraseReqSet] else []) ++
      (if p.le24 2 ≠ 0 then [.otaCopyInfoSet (p.le32 5) (p.le32 9) (p.le24 2)] else []) ++
      [.platformReset], some .reset⟩
  else ⟨{ env with state := .idle }, [.confirm 0], none⟩

def ctrlPktDispatch (env : FotasEnv) (flash : ℕ → UInt8) (conidx : UInt8) (p : Packet) :
    FotaOutcome :=
  match p.ctrlType with
  | .signatureCmd => signatureCmd env p
  | .digestCmd => digestCmd env p
  | .startReq => startReq env conidx p
  | .newSectorCmd => newSectorCmd env p
  | .integrityCheckReq => integrityCheckReq env flash conidx
  | .finishCmd => finishCmd env p
  | .startRsp | .integrityCheckRsp | .other => ⟨env, [], some .assertion⟩

/-! ### Data packets -/

/-- `CEILING`. -/
def ceiling (dividend divisor : ℕ) : ℕ := (dividend + (divisor - 1)) / divisor

/-- The divider of the chip, to which `calc_div` hands its numbers.  It flags a division by zero and
goes on; what it leaves in `DIVQ` and `DIVR` then is for the chip to say. -/
class Divider where
  divqZero : UInt32 → UInt32
  divrZero : UInt32 → UInt32

namespace ShiftDivider

/-- A divider by shifting and subtracting: it leaves all ones and the dividend. -/
scoped instance divider : Divider := ⟨fun _ => 0xFFFFFFFF, fun dividend => dividend⟩

end ShiftDivider

/-- `__aeabi_idiv` of numbers that are not negative. -/
def aeabiIdiv [Divider] (dividend divisor : UInt32) : UInt32 :=
  if divisor = 0 then Divider.divqZero dividend else dividend / divisor

/-- The remainder of `__aeabi_idivmod`, likewise. -/
def aeabiIdivmod [Divider] (dividend divisor : UInt32) : UInt32 :=
  if divisor = 0 then Divider.divrZero dividend else dividend % divisor

section
variable [Divider]

/-- `CEILING(FOTAS_SECTOR_SIZE, s) - 1`, as the handler computes it. -/
def lastSegment (s : UInt16) : UInt32 := aeabiIdiv (4096 + (s.toUInt32 - 1)) s.toUInt32 - 1

/-- The length of a segment: the last one of a sector is what is left of it. -/
def segmentLen (s : UInt16) (segmentId : UInt8) : UInt16 :=
  if segmentId.toUInt32 = lastSegment s then
    if aeabiIdivmod 4096 s.toUInt32 ≠ 0 then (aeabiIdivmod 4096 s.toUInt32).toUInt16 else s
  else s

/-- The divisions of `lastSegment` and `segmentLen`. -/
def segmentDivisions (s : UInt16) (segmentId : UInt8) : List FotaAct :=
  .divide (4096 + (s.toUInt32 - 1)) s.toUInt32 ::
    if segmentId.toUInt32 = lastSegment s then
      .divide 4096 s.toUInt32 ::
        if aeabiIdivmod 4096 s.toUInt32 ≠ 0 then [.divide 4096 s.toUInt32] else []
    else []

/-- With a length that is not zero, the length of a segment is what arithmetic says. -/
theorem segmentLen_eq {s : UInt16} (hs : s ≠ 0) (segmentId : UInt8) :
    segmentLen s segmentId =
      if segmentId.toNat = ceiling 4096 s.toNat - 1 then if 4096 % s ≠ 0 then 4096 % s else s
      else s := by
  have hpos : 0 < s.toNat := Nat.pos_of_ne_zero fun h0 => hs (UInt16.toNat_inj.mp h0)
  have hlt := s.toNat_lt
  have hne : s.toUInt32 ≠ 0 := fun h0 => hpos.ne' (by
    rw [← UInt16.toNat_toUInt32, h0]
    rfl)
  have hsum : (4096 + (s.toUInt32 - 1)).toNat = 4096 + (s.toNat - 1) := by
    have hone : (1 : UInt32) ≤ s.toUInt32 := by
      rw [UInt32.le_iff_toNat_le, UInt16.toNat_toUInt32]
      exact hpos
    rw [UInt32.toNat_add, UInt32.toNat_sub_of_le _ _ hone, UInt16.toNat_toUInt32]
    exact Nat.mod_eq_of_lt (by change 4096 + (s.toNat - 1) < _; omega)
  have hceil : (aeabiIdiv (4096 + (s.toUInt32 - 1)) s.toUInt32).toNat = ceiling 4096 s.toNat := by
    rw [aeabiIdiv, if_neg hne, UInt32.toNat_div, hsum, UInt16.toNat_toUInt32, ceiling]
  have hlast : segmentId.toUInt32 = lastSegment s ↔ segmentId.toNat = ceiling 4096 s.toNat - 1 := by
    have hc : 0 < ceiling 4096 s.toNat := Nat.div_pos (by omega) hpos
    have hone : (1 : UInt32) ≤ aeabiIdiv (4096 + (s.toUInt32 - 1)) s.toUInt32 := by
      rw [UInt32.le_iff_toNat_le, hceil]
      exact hc
    rw [lastSegment, ← UInt32.toNat_inj, UInt32.toNat_sub_of_le _ _ hone, hceil,
      UInt8.toNat_toUInt32]
    rfl
  have hmod : (aeabiIdivmod 4096 s.toUInt32).toUInt16 = 4096 % s := by
    rw [aeabiIdivmod, if_neg hne, ← UInt16.toNat_inj, UInt32.toNat_toUInt16, UInt32.toNat_mod,
      UInt16.toNat_toUInt32, UInt16.toNat_mod]
    exact Nat.mod_eq_of_lt (Nat.lt_of_lt_of_le (Nat.mod_lt _ hpos) (Nat.le_of_lt hlt))
  have hzero : aeabiIdivmod 4096 s.toUInt32 = 0 ↔ 4096 % s = 0 := by
    rw [← hmod, ← UInt16.toNat_inj, ← UInt32.toNat_inj, UInt32.toNat_toUInt16, aeabiIdivmod,
      if_neg hne, UInt32.toNat_mod, UInt16.toNat_toUInt32]
    have := Nat.mod_lt 4096 hpos
    change 4096 % s.toNat = 0 ↔ 4096 % s.toNat % 65536 = 0
    omega
  rw [segmentLen, hmod]
  simp only [hlast, ne_eq, hzero]

theorem segmentLen_pos {s : UInt16} (hs : s ≠ 0) (segmentId : UInt8) :
    0 < (segmentLen s segmentId).toNat := by
  have hpos : ∀ {n : UInt16}, n ≠ 0 → 0 < n.toNat := fun hn =>
    Nat.pos_of_ne_zero fun h0 => hn (UInt16.toNat_inj.mp h0)
  rw [segmentLen_eq hs]
  split
  · split
    · next h => exact hpos h
    · exact hpos hs
  · exact hpos hs

end

/-- The offset in flash a segment is programmed at. -/
def segmentStart (env : FotasEnv) (segmentId : UInt8) : UInt32 :=
  env.newImage.base - flashBaseAddr + env.currentSector.toUInt32 * 4096 +
    segmentId.toUInt32 * env.segmentDataMaxLength.toUInt32

/-- The loop over whole pages, and what is left after it. -/
def programPages (p : Packet) (startAddr : UInt32) (dataPtr : ℕ) (len : UInt16) : List FotaAct :=
  if len ≥ 256 then
    .pageProgram startAddr (p.bytes dataPtr 256) ::
      programPages p (startAddr + 256) (dataPtr + 256) (len - 256)
  else if len > 0 then [.pageProgram startAddr (p.bytes dataPtr len.toNat)] else []
termination_by len.toNat
decreasing_by
  rename_i h
  have h' : 256 ≤ len.toNat := h
  rw [UInt16.toNat_sub_of_le _ _ h']
  exact Nat.sub_lt (by omega) (by decide)

/-- The beginning of the page after the one of `startAddr`. -/
def pageAlignedAddr (startAddr : UInt32) : UInt32 := (startAddr + 256) &&& 0xFFFFFF00

/-- What fits in the page of `startAddr`. -/
def proLen (startAddr : UInt32) : UInt16 := (pageAlignedAddr startAddr - startAddr).toUInt16

/-- Program `len` bytes of the packet, which begin behind the segment number. -/
def programSegment (p : Packet) (startAddr : UInt32) (len : UInt16) : List FotaAct :=
  if startAddr + len.toUInt32 > pageAlignedAddr startAddr then
    .pageProgram startAddr (p.bytes 1 (proLen startAddr).toNat) ::
      programPages p (startAddr + (proLen startAddr).toUInt32) (1 + (proLen startAddr).toNat)
        (len - proLen startAddr)
  else [.pageProgram startAddr (p.bytes 1 len.toNat)]

/-- `ack[segment_id / 8] |= 1 << segment_id % 8`, as far as it goes into the array. -/
def setAck (ack : Fin 27 → UInt8) (segmentId : UInt8) : Fin 27 → UInt8 := fun i =>
  if i.val = segmentId.toNat / 8 then ack i ||| 1 <<< (segmentId % 8) else ack i

/-- Bit `i` of the bitmap, as the peer reads it. -/
def acked (ack : Fin 27 → UInt8) (i : ℕ) : Bool :=
  if h : i / 8 < 27 then (ack ⟨i / 8, h⟩).toNat.testBit (i % 8) else false

@[simp] theorem acked_zero (i : ℕ) : acked (fun _ => 0) i = false := by
  unfold acked
  split
  · exact Nat.zero_testBit _
  · rfl

theorem testBit_or_one_shiftLeft (x m : UInt8) (hm : m.toNat < 8) {j : ℕ} (hj : j < 8) :
    (x ||| 1 <<< m).toNat.testBit j = (x.toNat.testBit j || decide (j = m.toNat)) := by
  rw [UInt8.toNat_or, Nat.testBit_or, UInt8.toNat_shiftLeft, Nat.mod_eq_of_lt (a := m.toNat) hm,
    Nat.testBit_mod_two_pow, decide_eq_true hj, Bool.true_and, UInt8.toNat_one,
    Nat.one_shiftLeft, Nat.testBit_two_pow]
  simp [eq_comm]

/-- Acknowledging a segment sets its bit and no other. -/
theorem acked_setAck (ack : Fin 27 → UInt8) {segmentId : UInt8} (h : segmentId.toNat < 216)
    (i : ℕ) : acked (setAck ack segmentId) i = (acked ack i || decide (i = segmentId.toNat)) := by
  have hm : (segmentId % 8).toNat = segmentId.toNat % 8 := UInt8.toNat_mod ..
  unfold acked setAck
  by_cases hi : i / 8 < 27
  · rw [dif_pos hi, dif_pos hi]
    dsimp only
    by_cases hq : i / 8 = segmentId.toNat / 8
    · have hiff : i % 8 = (segmentId % 8).toNat ↔ i = segmentId.toNat := by omega
      rw [if_pos hq, testBit_or_one_shiftLeft _ _ (by omega) (Nat.mod_lt i (by decide)),
        decide_eq_decide.mpr hiff]
    · rw [if_neg hq, decide_eq_false (show ¬ i = segmentId.toNat from fun he => hq (he ▸ rfl)),
        Bool.or_false]
  · rw [dif_neg hi, dif_neg hi, Bool.false_or,
      decide_eq_false (show ¬ i = segmentId.toNat by omega)]

section
variable [Divider]

/-- What the handler of a data packet does, in order. -/
def segmentActs (env : FotasEnv) (p : Packet) : List FotaAct :=
  segmentDivisions env.segmentDataMaxLength (p.byte 0) ++
    programSegment p (segmentStart env (p.byte 0))
      (segmentLen env.segmentDataMaxLength (p.byte 0)) ++
    [.store .ack ((p.byte 0).toNat / 8) 1, .confirm 0]

/-- The `FOTAS_IDX_DATA_VAL` case of `ls_ota_server_write_req_ind`.  Behind the bitmap is `conidx`,
and then the end of the environment. -/
def dataWriteInd (env : FotasEnv) (p : Packet) : FotaOutcome :=
  ⟨{ env with
      ack := setAck env.ack (p.byte 0)
      conidx := if (p.byte 0).toNat / 8 = 27 then env.conidx ||| 1 <<< (p.byte 0 % 8)
        else env.conidx },
    segmentActs env p, none⟩

end

/-! ### The server -/

/-- A command to the flash. -/
def FotaAct.isFlash : FotaAct → Bool
  | sectorErase _ | pageProgram _ _ => true
  | _ => false

/-- What activates an image: the boot address, the copy record, the reset. -/
def FotaAct.isActivation : FotaAct → Bool
  | otaBootAddrSet _ | otaCopyInfoSet _ _ _ | platformReset => true
  | _ => false

/-- What an act does to the flash. -/
def FotaAct.onFlash (flash : ℕ → UInt8) : FotaAct → ℕ → UInt8
  | sectorErase offset => Nor.erase 4096 flash offset.toNat
  | pageProgram offset data => Nor.program 256 flash offset.toNat data
  | _ => flash

/-- The cells an act can change. -/
def FotaAct.Touches : FotaAct → ℕ → Prop
  | sectorErase offset, a => a / 4096 = offset.toNat / 4096
  | pageProgram offset data, a =>
      a / 256 = offset.toNat / 256 ∧ Nor.latched 256 offset.toNat data.length a < data.length
  | _, _ => False

theorem FotaAct.onFlash_untouched {act : FotaAct} {a : ℕ} (h : ¬ act.Touches a)
    (flash : ℕ → UInt8) : act.onFlash flash a = flash a := by
  cases act with
  | sectorErase offset => exact Nor.erase_outside h
  | pageProgram offset data =>
      by_cases hpage : a / 256 = offset.toNat / 256
      · exact Nor.program_untouched (Nat.le_of_not_lt fun hlt => h ⟨hpage, hlt⟩)
      · exact Nor.program_outside hpage
  | _ => rfl

/-- What happens to the flash is done by the flash commands. -/
theorem FotaAct.foldl_onFlash_filter (acts : List FotaAct) (flash : ℕ → UInt8) :
    (acts.filter isFlash).foldl onFlash flash = acts.foldl onFlash flash := by
  induction acts generalizing flash with
  | nil => rfl
  | cons act acts ih => cases act <;> exact ih _

theorem FotaAct.touches_filter {acts : List FotaAct} {a : ℕ} :
    (∃ act ∈ acts.filter isFlash, act.Touches a) ↔ ∃ act ∈ acts, act.Touches a := by
  constructor
  · rintro ⟨act, hact, ht⟩
    exact ⟨act, List.mem_of_mem_filter hact, ht⟩
  · rintro ⟨act, hact, ht⟩
    refine ⟨act, List.mem_filter.mpr ⟨hact, ?_⟩, ht⟩
    cases act <;> first | rfl | exact ht.elim

/-- The server and the flash. -/
structure Fota where
  env : FotasEnv
  flash : ℕ → UInt8
  stop : Option FotaStop

namespace Fota

/-- After a start of the program: the statics are zero, the flash is as it was. -/
def boot (flash : ℕ → UInt8) : Fota where
  env := {
    state := .idle
    signature := fun _ => 0
    digest := fun _ => 0
    newImage := ⟨0, 0⟩
    finishInd := none
    segmentDataMaxLength := 0
    currentSector := 0
    cccdConfig := 0
    ack := fun _ => 0
    conidx := 0 }
  flash := flash
  stop := none

variable [Divider]

/-- What the running server answers to an event. -/
def handle (s : Fota) : FotaEvent → FotaOutcome
  | .ctrlWrite conidx p => ctrlPktDispatch s.env s.flash conidx p
  | .cccdWrite p =>
      if p.value.length = 2 then ⟨{ s.env with cccdConfig := p.le16 0 }, [.confirm 0], none⟩
      else ⟨s.env, [], some .assertion⟩
  | .dataWrite p => dataWriteInd s.env p
  | .dataRead conidx => ⟨s.env, [.readReply conidx (List.ofFn s.env.ack)], none⟩
  | .cccdRead conidx =>
      ⟨s.env, [.readReply conidx [s.env.cccdConfig.toUInt8, (s.env.cccdConfig >>> 8).toUInt8]],
        none⟩
  | .connected => ⟨s.env, [], none⟩
  | .disconnected => ⟨{ s.env with state := .idle }, [], none⟩

def step (s : Fota) (e : FotaEvent) : Fota :=
  if s.stop = none then
    ⟨(s.handle e).env, (s.handle e).acts.foldl FotaAct.onFlash s.flash, (s.handle e).stop⟩
  else s

/-- What the server does at a step. -/
def issued (s : Fota) (e : FotaEvent) : List FotaAct :=
  if s.stop = none then (s.handle e).acts else []

end Fota

/-! ### What a step can do -/

namespace FotaEvent

/-- The image of a `START_REQ`. -/
def announced : FotaEvent → Option FotaImageInfo
  | ctrlWrite _ p => if p.ctrlType = .startReq then some p.image else none
  | _ => none

/-- `FINISH_CMD` and the end of the connection end a session. -/
def Ends : FotaEvent → Prop
  | ctrlWrite _ p => p.ctrlType = .finishCmd
  | disconnected => True
  | _ => False

/-- A `FINISH_CMD` that reboots. -/
def Reboots : FotaEvent → Prop
  | ctrlWrite _ p => p.ctrlType = .finishCmd ∧ p.Reboots
  | _ => False

instance : (e : FotaEvent) → Decidable e.Ends
  | ctrlWrite _ p => inferInstanceAs (Decidable (p.ctrlType = _))
  | disconnected => .isTrue trivial
  | cccdWrite _ | dataWrite _ | dataRead _ | cccdRead _ | connected => .isFalse id

instance : (e : FotaEvent) → Decidable e.Reboots
  | ctrlWrite _ _ => inferInstanceAs (Decidable (_ ∧ _))
  | cccdWrite _ | dataWrite _ | dataRead _ | cccdRead _ | connected | disconnected => .isFalse id

end FotaEvent

/-- Everything a handler can do, in nine cases. -/
inductive Handled [Divider] (env : FotasEnv) : FotaEvent → FotaOutcome → Prop
  | started {c : UInt8} {p : Packet} (hp : p.ctrlType = .startReq) (h : env.state = .idle) :
      Handled env (.ctrlWrite c p)
        ⟨{ env with
            state := .busy
            conidx := c
            newImage := p.image
            segmentDataMaxLength := p.le16 9 },
          fotasFlashCleanup (p.image.base - flashBaseAddr) p.image.size ++
            [.indication c 3 0, .confirm 0], none⟩
  | newSector {c : UInt8} {p : Packet} (hp : p.ctrlType = .newSectorCmd) :
      Handled env (.ctrlWrite c p)
        ⟨{ env with currentSector := p.le16 1, ack := fun _ => 0 },
          [.store .ack 0 27, .confirm 0], none⟩
  | fragment {c : UInt8} {p : Packet} {array : FotasArray}
      (hp : p.ctrlType = .signatureCmd ∧ array = .signature ∨
        p.ctrlType = .digestCmd ∧ array = .digest) :
      Handled env (.ctrlWrite c p) (fragmentCmd array env p)
  | checked {c : UInt8} {p : Packet} {f : FotasFinishInd} (hp : p.ctrlType = .integrityCheckReq)
      (h : env.finishInd = some f) (result : Bool) :
      Handled env (.ctrlWrite c p)
        ⟨{ env with finishInd := some ⟨result⟩ },
          [.indication c 6 (if result then 0 else 0x80), .confirm 0], none⟩
  | rebooted {c : UInt8} {p : Packet} (hp : p.ctrlType = .finishCmd) (h : p.Reboots) :
      Handled env (.ctrlWrite c p) (finishCmd env p)
  | finished {c : UInt8} {p : Packet} (hp : p.ctrlType = .finishCmd) (h : ¬ p.Reboots) :
      Handled env (.ctrlWrite c p) ⟨{ env with state := .idle }, [.confirm 0], none⟩
  | segment {p : Packet} : Handled env (.dataWrite p) (dataWriteInd env p)
  | disconnected : Handled env .disconnected ⟨{ env with state := .idle }, [], none⟩
  /-- Nothing that matters to a session. -/
  | quiet {e : FotaEvent} {o : FotaOutcome}
      (henv : o.env = { env with cccdConfig := o.env.cccdConfig })
      (hacts : ∀ act ∈ o.acts, act.isFlash = false ∧ act.isActivation = false)
      (hind : ∀ c t st, .indication c t st ∉ o.acts) (hend : ¬ e.Ends)
      (hstart : env.state = .idle → e.announced = none) : Handled env e o

section
variable [Divider]

/-- A control packet that is neither accepted as a start nor a finish and does nothing. -/
theorem Handled.ctrl {env : FotasEnv} {c : UInt8} {p : Packet} {acts : List FotaAct}
    {stop : Option FotaStop} (hacts : acts = [] ∨ ∃ st, acts = [.confirm st])
    (hp : p.ctrlType ≠ .finishCmd) (hstart : env.state = .idle → p.ctrlType ≠ .startReq) :
    Handled env (.ctrlWrite c p) ⟨env, acts, stop⟩ := by
  refine .quiet rfl ?_ ?_ hp fun h => if_neg (hstart h)
  · intro act hact
    rcases hacts with rfl | ⟨st, rfl⟩
    · cases hact
    · rw [List.mem_singleton.mp hact]
      exact ⟨rfl, rfl⟩
  · intro c t st hmem
    rcases hacts with rfl | ⟨st', rfl⟩ <;> simp at hmem

theorem handled_ctrl (env : FotasEnv) (flash : ℕ → UInt8) (c : UInt8) (p : Packet) :
    Handled env (.ctrlWrite c p) (ctrlPktDispatch env flash c p) := by
  unfold ctrlPktDispatch
  cases hp : p.ctrlType with
  | signatureCmd => exact .fragment (.inl ⟨hp, rfl⟩)
  | digestCmd => exact .fragment (.inr ⟨hp, rfl⟩)
  | startReq =>
      dsimp only [startReq]
      cases hs : env.state with
      | idle => exact .started hp hs
      | busy => exact .ctrl (.inr ⟨1, rfl⟩) (by simp [hp]) (by simp [hs])
  | newSectorCmd => exact .newSector hp
  | integrityCheckReq =>
      dsimp only [integrityCheckReq]
      cases hf : env.finishInd with
      | none => exact .ctrl (.inl rfl) (by simp [hp]) (by simp [hp])
      | some f => exact .checked hp hf _
  | finishCmd =>
      by_cases h : p.Reboots
      · exact .rebooted hp h
      · rw [finishCmd, if_neg h]
        exact .finished hp h
  | startRsp | integrityCheckRsp | other =>
      exact .ctrl (.inl rfl) (by simp [hp]) (by simp [hp])

/-- What the server answers is one of the cases. -/
theorem handled (s : Fota) (e : FotaEvent) : Handled s.env e (s.handle e) := by
  cases e with
  | ctrlWrite c p => exact handled_ctrl s.env s.flash c p
  | cccdWrite p =>
      dsimp only [Fota.handle]
      split
      · exact .quiet rfl (List.forall_mem_singleton.mpr ⟨rfl, rfl⟩) (by simp) nofun fun _ => rfl
      · exact .quiet rfl (by simp) (by simp) nofun fun _ => rfl
  | dataWrite p => exact .segment
  | dataRead c | cccdRead c =>
      exact .quiet rfl (List.forall_mem_singleton.mpr ⟨rfl, rfl⟩)
        (by simp [Fota.handle]) nofun fun _ => rfl
  | connected =>
      exact .quiet rfl (by simp [Fota.handle]) (by simp [Fota.handle]) nofun fun _ => rfl
  | disconnected => exact .disconnected

namespace Fota

theorem step_of_stop {s : Fota} (h : s.stop ≠ none) (e : FotaEvent) : s.step e = s := if_neg h

theorem issued_of_stop {s : Fota} (h : s.stop ≠ none) (e : FotaEvent) : s.issued e = [] := if_neg h

theorem env_step {s : Fota} (h : s.stop = none) (e : FotaEvent) :
    (s.step e).env = (s.handle e).env := by
  rw [step, if_pos h]

theorem stop_step {s : Fota} (h : s.stop = none) (e : FotaEvent) :
    (s.step e).stop = (s.handle e).stop := by
  rw [step, if_pos h]

theorem issued_eq {s : Fota} (h : s.stop = none) (e : FotaEvent) :
    s.issued e = (s.handle e).acts := if_pos h

/-- A step of the running server is one of the nine cases. -/
theorem step_handled {s : Fota} (h : s.stop = none) (e : FotaEvent) :
    ∃ o, Handled s.env e o ∧ (s.step e).env = o.env ∧ (s.step e).stop = o.stop ∧
      s.issued e = o.acts :=
  ⟨s.handle e, handled s e, env_step h e, stop_step h e, issued_eq h e⟩

/-- The flash changes by what the server issued. -/
theorem flash_step (s : Fota) (e : FotaEvent) :
    (s.step e).flash = (s.issued e).foldl FotaAct.onFlash s.flash := by
  unfold step issued
  split <;> rfl

end Fota

end

end ErgoDock
