import ErgoDock.FotaSessions

/-! # Transfer of an image

An accepted `START_REQ` and then the sectors of the image in any order, with their segments in
any order and as often as wanted.  The segments tile a sector for every segment length
(`segment_fits`, `segment_covers`), so that an acknowledgement stands for its cells and no
others.  Programming the same segment again changes nothing, since every cell is erased or has
its value already (`InTransfer`).  What is acknowledged is what was programmed in the sector,
and when every sector was seen with all segments acknowledged the flash holds the image
(`transfer_correct`), as long as no segment runs into the end of the 32-bit offsets. -/

namespace ErgoDock

open Machine Nor

/-! ### Segments of a sector -/

section tiling
variable {s : UInt16} {id : UInt8}

theorem toNat_pos (hs : s ≠ 0) : 0 < s.toNat :=
  Nat.pos_of_ne_zero fun h0 => hs (UInt16.toNat_inj.mp h0)

theorem ceiling_eq {n d : ℕ} (hd : 0 < d) :
    ceiling n d = if n % d = 0 then n / d else n / d + 1 := by
  have hn := Nat.div_add_mod n d
  have hr := Nat.mod_lt n hd
  have hsplit : n + (d - 1) = n % d + (d - 1) + d * (n / d) := by omega
  rw [ceiling, hsplit, Nat.add_mul_div_left _ _ hd]
  split
  · rw [Nat.div_eq_of_lt (by omega), Nat.zero_add]
  · have hone : (n % d + (d - 1)) / d = 1 := (Nat.div_eq_iff hd).mpr (by omega)
    rw [hone, Nat.add_comm]

variable [Divider]

theorem toNat_segmentLen (hs : s ≠ 0) (id : UInt8) :
    (segmentLen s id).toNat =
      if id.toNat = ceiling 4096 s.toNat - 1 ∧ 4096 % s.toNat ≠ 0 then 4096 % s.toNat
      else s.toNat := by
  have hmod : (4096 % s).toNat = 4096 % s.toNat := UInt16.toNat_mod ..
  have hzero : 4096 % s = 0 ↔ 4096 % s.toNat = 0 := by
    rw [← UInt16.toNat_inj, hmod]
    rfl
  rw [segmentLen_eq hs]
  by_cases hid : id.toNat = ceiling 4096 s.toNat - 1
  · by_cases hm : 4096 % s.toNat = 0
    · rw [if_pos hid, if_neg (not_not.mpr (hzero.mpr hm)), if_neg fun h => h.2 hm]
    · rw [if_pos hid, if_pos (mt hzero.mp hm), if_pos ⟨hid, hm⟩, hmod]
  · rw [if_neg hid, if_neg fun h => hid h.1]

/-- A segment ends in the sector. -/
theorem segment_fits (hs : s ≠ 0) (hid : id.toNat < ceiling 4096 s.toNat) :
    id.toNat * s.toNat + (segmentLen s id).toNat ≤ 4096 := by
  have hq := Nat.div_add_mod 4096 s.toNat
  rw [toNat_segmentLen hs]
  rw [ceiling_eq (toNat_pos hs)] at hid ⊢
  rw [Nat.mul_comm] at hq
  have hmul : ∀ {m}, m ≤ 4096 / s.toNat → m * s.toNat ≤ 4096 / s.toNat * s.toNat :=
    fun hm => Nat.mul_le_mul_right _ hm
  split at hid
  · next h0 =>
    rw [if_neg fun h => h.2 h0]
    have hle := hmul (Nat.succ_le_of_lt hid)
    rw [Nat.succ_mul] at hle
    omega
  · next h0 =>
    rw [if_neg h0]
    rcases Nat.lt_or_ge id.toNat (4096 / s.toNat) with hlt | hge
    · rw [if_neg (by omega)]
      have hle := hmul (Nat.succ_le_of_lt hlt)
      rw [Nat.succ_mul] at hle
      omega
    · have hlast : id.toNat = 4096 / s.toNat := by omega
      rw [if_pos ⟨by omega, h0⟩, hlast]
      omega

/-- A position in a sector is in the segment that its quotient by the segment length names. -/
theorem segment_covers (hs : s ≠ 0) {y : ℕ} (hy : y < 4096) (hid : id.toNat = y / s.toNat) :
    id.toNat < ceiling 4096 s.toNat ∧ y % s.toNat < (segmentLen s id).toNat := by
  have hpos := toNat_pos hs
  have hq := Nat.div_add_mod 4096 s.toNat
  have hyq := Nat.div_add_mod y s.toNat
  have hmod := Nat.mod_lt y hpos
  have hle : y / s.toNat ≤ 4096 / s.toNat := Nat.div_le_div_right (Nat.le_of_lt hy)
  rw [toNat_segmentLen hs, ceiling_eq hpos, hid]
  by_cases h0 : 4096 % s.toNat = 0
  · rw [if_pos h0, if_neg fun h => h.2 h0]
    refine ⟨?_, hmod⟩
    refine Nat.lt_of_le_of_ne hle fun heq => ?_
    rw [heq] at hyq
    omega
  · rw [if_neg h0]
    refine ⟨by omega, ?_⟩
    split
    · next hlast =>
      have heq : y / s.toNat = 4096 / s.toNat := by omega
      rw [heq] at hyq
      omega
    · exact hmod

theorem segmentLen_le (hs : s ≠ 0) (id : UInt8) : (segmentLen s id).toNat ≤ s.toNat := by
  rw [toNat_segmentLen hs]
  split
  · exact Nat.le_of_lt (Nat.mod_lt _ (toNat_pos hs))
  · exact Nat.le_refl _

end tiling

/-! ### Cells of an image -/

namespace FotaImageInfo
variable {image : FotaImageInfo}

/-- Where position `x` of the image is in the flash. -/
def cell (image : FotaImageInfo) (x : ℕ) : ℕ := (image.offset + UInt32.ofNat x).toNat

/-- What the flash is to hold at the cells of an image with this content. -/
def wanted (image : FotaImageInfo) (content : ℕ → UInt8) (a : ℕ) : UInt8 :=
  content (UInt32.ofNat a - image.offset).toNat

theorem position_cell {x : ℕ} (hx : x < 2 ^ 32) :
    (UInt32.ofNat (image.cell x) - image.offset).toNat = x := by
  rw [cell, UInt32.ofNat_toNat, UInt32.add_comm, UInt32.add_sub_cancel, UInt32.toNat_ofNat',
    Nat.mod_eq_of_lt hx]

theorem wanted_cell (content : ℕ → UInt8) {x : ℕ} (hx : x < 2 ^ 32) :
    image.wanted content (image.cell x) = content x := by
  rw [wanted, position_cell hx]

theorem cell_injective {x y : ℕ} (hx : x < 2 ^ 32) (hy : y < 2 ^ 32)
    (h : image.cell x = image.cell y) : x = y := by
  have hpos := congrArg (fun a => (UInt32.ofNat a - image.offset).toNat) h
  simpa only [position_cell hx, position_cell hy] using hpos

/-- The base is the beginning of a sector. -/
def SectorAligned (image : FotaImageInfo) : Prop := image.base.toNat % 4096 = 0

instance (image : FotaImageInfo) : Decidable image.SectorAligned :=
  inferInstanceAs (Decidable (_ = _))

theorem SectorAligned.offset (h : image.SectorAligned) : image.offset.toNat % 4096 = 0 := by
  have hbase : image.base.toNat % 4096 = 0 := h
  rw [FotaImageInfo.offset, UInt32.toNat_sub, show flashBaseAddr.toNat = 0x18000000 from rfl]
  omega

/-- The cells from a position to the end of its sector are in a row. -/
theorem SectorAligned.cell_add (h : image.SectorAligned) {k y j : ℕ} (hy : y + j < 4096) :
    image.cell (k * 4096 + y + j) = image.cell (k * 4096 + y) + j := by
  have ho := h.offset
  have hlt := (image.offset + UInt32.ofNat (k * 4096 + y)).toNat_lt
  have hmod : (image.offset + UInt32.ofNat (k * 4096 + y)).toNat % 4096 = y := by
    rw [UInt32.toNat_add, UInt32.toNat_ofNat']
    omega
  rw [cell, add_ofNat_add, toNat_add_ofNat (by omega), cell]

/-- A sector does not reach over the end of the offsets. -/
theorem SectorAligned.cell_add_le (h : image.SectorAligned) {k y n : ℕ} (hy : y < 4096)
    (hn : y + n ≤ 4096) : image.cell (k * 4096 + y) + n ≤ 2 ^ 32 := by
  have ho := h.offset
  have hlt := (image.offset + UInt32.ofNat (k * 4096 + y)).toNat_lt
  have hmod : (image.offset + UInt32.ofNat (k * 4096 + y)).toNat % 4096 = y := by
    rw [UInt32.toNat_add, UInt32.toNat_ofNat']
    omega
  unfold cell
  omega

end FotaImageInfo

/-- Where byte `j` of a segment of the current sector is in the flash. -/
theorem toNat_segmentStart_add (env : FotasEnv) (id : UInt8) (j : ℕ) :
    (segmentStart env id + UInt32.ofNat j).toNat = env.newImage.cell (segmentPos env id + j) := by
  rw [segmentStart_eq, ← add_ofNat_add]
  rfl

/-! ### Transfers -/

/-- All segments of the current sector are acknowledged. -/
def AllAcked (env : FotasEnv) : Prop :=
  ∀ i < ceiling 4096 env.segmentDataMaxLength.toNat, acked env.ack i = true

instance (env : FotasEnv) : Decidable (AllAcked env) := inferInstanceAs (Decidable (∀ i < _, _))

section
variable [Divider]

/-- The cells programmed since the last `NEW_SECTOR_CMD`, none before the first. -/
def sectorMarks (g : Option (Set ℕ)) (s : Fota) (e : FotaEvent) : Option (Set ℕ) :=
  match e with
  | .ctrlWrite _ p => if p.ctrlType = .newSectorCmd then some ∅ else g
  | _ => g.map fun m => (s.issued e).foldl FotaAct.marks m

/-- The server with the cells programmed in the sector. -/
def sectorStep : Fota × Option (Set ℕ) → FotaEvent → Fota × Option (Set ℕ) :=
  monitor Fota.step sectorMarks

/-- The packet carries the bytes of its segment. -/
def Carries (env : FotasEnv) (content : ℕ → UInt8) (p : Packet) : Prop :=
  ∀ j < (segmentLen env.segmentDataMaxLength (p.byte 0)).toNat,
    1 + j < p.value.length ∧ p.byte (1 + j) = content (segmentPos env (p.byte 0) + j)

/-- The packets of a transfer: sectors of the image, segments of the sector with their content,
and reads. -/
def Transfers (content : ℕ → UInt8) (w : Fota × Option (Set ℕ)) : FotaEvent → Prop
  | .ctrlWrite _ p =>
      p.ctrlType = .newSectorCmd ∧
        (p.le16 1).toNat < ceiling w.1.env.newImage.size.toNat 4096
  | .dataWrite p =>
      w.2.isSome ∧ (p.byte 0).toNat < ceiling 4096 w.1.env.segmentDataMaxLength.toNat ∧
        Carries w.1.env content p
  | .dataRead _ | .cccdRead _ => True
  | _ => False

/-- The segment of the packet does not run into the end of the offsets. -/
def SplitsPages (s : Fota) : FotaEvent → Prop
  | .dataWrite p =>
      PagesSplit (segmentStart s.env (p.byte 0)) (segmentLen s.env.segmentDataMaxLength (p.byte 0))
  | _ => True

instance (s : Fota) : (e : FotaEvent) → Decidable (SplitsPages s e)
  | .dataWrite _ => inferInstanceAs (Decidable (PagesSplit _ _))
  | .ctrlWrite _ _ | .cccdWrite _ | .dataRead _ | .cccdRead _ | .connected | .disconnected =>
      .isTrue trivial

/-- The cells of a segment. -/
def segmentCells (env : FotasEnv) (id : UInt8) : Set ℕ :=
  {a | ∃ j < (segmentLen env.segmentDataMaxLength id).toNat,
    a = env.newImage.cell (segmentPos env id + j)}

/-- Bit for bit, what is acknowledged is what was programmed in the sector. -/
def AckExact (w : Fota × Option (Set ℕ)) : Prop :=
  ∀ m, w.2 = some m → ∀ id : UInt8, acked w.1.env.ack id.toNat = true ↔
    id.toNat < ceiling 4096 w.1.env.segmentDataMaxLength.toNat ∧ segmentCells w.1.env id ⊆ m

/-- What is kept during a transfer. -/
structure InTransfer (image : FotaImageInfo) (s : UInt16) (content : ℕ → UInt8)
    (w : Fota × Option (Set ℕ)) : Prop where
  running : w.1.stop = none
  image_eq : w.1.env.newImage = image
  length_eq : w.1.env.segmentDataMaxLength = s
  toward : ∀ x < image.rounded, Toward w.1.flash (image.wanted content) (image.cell x)
  sector_lt : w.2.isSome → w.1.env.currentSector.toNat < ceiling image.size.toNat 4096
  acked_lt : w.2.isSome → ∀ id : UInt8, acked w.1.env.ack id.toNat = true →
    id.toNat < ceiling 4096 s.toNat
  written : w.2.isSome → ∀ id : UInt8, acked w.1.env.ack id.toNat = true →
    ∀ a ∈ segmentCells w.1.env id, w.1.flash a = image.wanted content a
  marked : ∀ m, w.2 = some m → ∀ a, a ∈ m ↔
    ∃ id : UInt8, acked w.1.env.ack id.toNat = true ∧ a ∈ segmentCells w.1.env id

end

section steps
variable [Divider] {image : FotaImageInfo} {s : UInt16} {content : ℕ → UInt8}
  {w : Fota × Option (Set ℕ)} {p : Packet} {id : UInt8}

/-- The position of a byte of a segment, counted from the beginning of its sector. -/
theorem InTransfer.pos_lt (h : InTransfer image s content w) (hs : s ≠ 0) (hw : w.2.isSome)
    (hid : id.toNat < ceiling 4096 s.toNat) :
    segmentPos w.1.env id + (segmentLen s id).toNat ≤ image.rounded := by
  have hsector := h.sector_lt hw
  have hfit := segment_fits hs hid
  unfold segmentPos FotaImageInfo.rounded
  rw [h.length_eq]
  omega

/-- The cells of a segment of the image are in a row, up to its end. -/
theorem InTransfer.segment_row (h : InTransfer image s content w) (hs : s ≠ 0)
    (hbase : image.SectorAligned) (hid : id.toNat < ceiling 4096 s.toNat) :
    (segmentStart w.1.env id).toNat = image.cell (segmentPos w.1.env id) ∧
      (segmentStart w.1.env id).toNat + (segmentLen s id).toNat ≤ 2 ^ 32 ∧
      ∀ j < (segmentLen s id).toNat,
        image.cell (segmentPos w.1.env id + j) = (segmentStart w.1.env id).toNat + j := by
  have hfit := segment_fits hs hid
  have hlen := segmentLen_pos hs id
  have hstart : (segmentStart w.1.env id).toNat = image.cell (segmentPos w.1.env id) := by
    rw [segmentStart_eq, h.image_eq]
    rfl
  rw [hstart]
  unfold segmentPos
  rw [h.length_eq]
  exact ⟨rfl, hbase.cell_add_le (by omega) hfit, fun j hj => hbase.cell_add (by omega)⟩

/-- What a data packet of the transfer does. -/
theorem InTransfer.dataWrite (h : InTransfer image s content w) (hs : s ≠ 0)
    (hlo : 19 ≤ s.toNat) (hbase : image.SectorAligned)
    (ht : Transfers content w (.dataWrite p)) (hsplit : SplitsPages w.1 (.dataWrite p)) :
    (p.byte 0).toNat < 216 ∧
      (w.1.step (.dataWrite p)).env = { w.1.env with ack := setAck w.1.env.ack (p.byte 0) } ∧
      (w.1.step (.dataWrite p)).stop = none ∧
      w.1.issued (.dataWrite p) = segmentActs w.1.env p ∧
      (w.1.step (.dataWrite p)).flash = burn w.1.flash (segmentStart w.1.env (p.byte 0)).toNat
        (p.bytes 1 (segmentLen s (p.byte 0)).toNat) ∧
      Holds (image.wanted content) (segmentStart w.1.env (p.byte 0)).toNat
        (p.bytes 1 (segmentLen s (p.byte 0)).toNat) := by
  obtain ⟨hw, hid, hcarries⟩ := ht
  rw [h.length_eq] at hid
  unfold SplitsPages at hsplit
  unfold Carries at hcarries
  rw [h.length_eq] at hsplit hcarries
  have hceil : ceiling 4096 s.toNat ≤ 216 := by
    unfold ceiling
    rw [Nat.div_le_iff_le_mul (by omega)]
    omega
  have hfit : (p.byte 0).toNat < 216 := Nat.lt_of_lt_of_le hid hceil
  have hconidx : ¬ (p.byte 0).toNat / 8 = 27 := by omega
  obtain ⟨hstart, hend, hrow⟩ := h.segment_row hs hbase hid
  refine ⟨hfit, ?_, Fota.stop_step h.running _, Fota.issued_eq h.running _, ?_, fun j hj => ?_⟩
  · rw [Fota.env_step h.running]
    simp only [Fota.handle, dataWriteInd, if_neg hconidx]
  · rw [Fota.flash_step, Fota.issued_eq h.running]
    change (segmentActs w.1.env p).foldl FotaAct.onFlash w.1.flash = _
    rw [onFlash_segmentActs, h.length_eq, flash_segment _ _ hsplit hend]
  · rw [Packet.length_bytes] at hj
    have hpos := h.pos_lt hs hw hid
    have hround := image.rounded_le
    rw [← hrow j hj, FotaImageInfo.wanted_cell _ (by omega)]
    simp [Packet.bytes, (hcarries j hj).2]

/-- The cells of a segment do not depend on the bitmap. -/
theorem segmentCells_ack (env : FotasEnv) (ack : Fin 27 → UInt8) (id : UInt8) :
    segmentCells { env with ack } id = segmentCells env id := rfl

theorem InTransfer.mem_cells (h : InTransfer image s content w) (hs : s ≠ 0)
    (hbase : image.SectorAligned) (hid : id.toNat < ceiling 4096 s.toNat) {a : ℕ} :
    a ∈ segmentCells w.1.env id ↔ (segmentStart w.1.env id).toNat ≤ a ∧
      a < (segmentStart w.1.env id).toNat + (segmentLen s id).toNat := by
  obtain ⟨-, -, hrow⟩ := h.segment_row hs hbase hid
  unfold segmentCells
  rw [h.length_eq, h.image_eq]
  constructor
  · rintro ⟨j, hj, rfl⟩
    rw [hrow j hj]
    omega
  · rintro ⟨hle, hlt⟩
    refine ⟨a - (segmentStart w.1.env id).toNat, by omega, ?_⟩
    rw [hrow _ (by omega)]
    omega

/-- Data of the transfer: the segment is acknowledged, marked and written. -/
theorem InTransfer.step_data (h : InTransfer image s content w) (hs : s ≠ 0)
    (hlo : 19 ≤ s.toNat) (hbase : image.SectorAligned)
    (ht : Transfers content w (.dataWrite p)) (hsplit : SplitsPages w.1 (.dataWrite p)) :
    InTransfer image s content (sectorStep w (.dataWrite p)) := by
  obtain ⟨hfit, henv, hstop, hissued, hflash, hholds⟩ := h.dataWrite hs hlo hbase ht hsplit
  obtain ⟨hw, hid, -⟩ := ht
  rw [h.length_eq] at hid
  obtain ⟨m, hm⟩ := Option.isSome_iff_exists.mp hw
  have hbit : ∀ id : UInt8, acked (setAck w.1.env.ack (p.byte 0)) id.toNat = true ↔
      acked w.1.env.ack id.toNat = true ∨ id = p.byte 0 := fun id => by
    rw [acked_setAck _ hfit, Bool.or_eq_true, decide_eq_true_iff, UInt8.toNat_inj]
  have hmarks : (sectorStep w (.dataWrite p)).2 =
      some ((w.1.issued (.dataWrite p)).foldl FotaAct.marks m) := by
    rw [sectorStep, monitor_snd, hm]
    rfl
  have hcells : ∀ a, (∃ act ∈ w.1.issued (.dataWrite p), act.Touches a) ↔
      a ∈ segmentCells w.1.env (p.byte 0) := fun a => by
    unfold SplitsPages at hsplit
    rw [h.length_eq] at hsplit
    rw [hissued, touches_segmentActs, h.length_eq, touches_segment hsplit, segmentCells,
      h.length_eq]
    simp only [toNat_segmentStart_add]
    rfl
  have hkeeps : ∀ act ∈ w.1.issued (.dataWrite p), act.KeepsMarks := fun act hact => by
    rw [hissued] at hact
    exact keepsMarks_segment hact
  have hnew : ∀ a ∈ segmentCells w.1.env (p.byte 0),
      (w.1.step (.dataWrite p)).flash a = image.wanted content a := fun a ha => by
    obtain ⟨hle, hlt⟩ := (h.mem_cells hs hbase hid).mp ha
    obtain ⟨j, hj, rfl⟩ := ha
    rw [h.length_eq] at hj
    have hpos := h.pos_lt hs hw hid
    rw [h.image_eq] at hle hlt ⊢
    rw [hflash]
    exact (h.toward _ (by omega)).burn_inside hholds hle (by rwa [Packet.length_bytes])
  constructor
  case running => exact hstop
  case image_eq =>
    change (w.1.step _).env.newImage = image
    rw [henv, h.image_eq]
  case length_eq =>
    change (w.1.step _).env.segmentDataMaxLength = s
    rw [henv, h.length_eq]
  case toward =>
    intro x hx
    change Toward (w.1.step _).flash _ _
    rw [hflash]
    exact (h.toward x hx).burn hholds
  case sector_lt =>
    intro _
    change (w.1.step _).env.currentSector.toNat < _
    rw [henv]
    exact h.sector_lt hw
  case acked_lt =>
    intro _ id hack'
    change acked (w.1.step _).env.ack id.toNat = true at hack'
    rw [henv, hbit] at hack'
    rcases hack' with hold | rfl
    · exact h.acked_lt hw id hold
    · exact hid
  case written =>
    intro _ id hack' a ha
    change acked (w.1.step _).env.ack id.toNat = true at hack'
    change a ∈ segmentCells (w.1.step _).env id at ha
    change (w.1.step _).flash a = _
    rw [henv, hbit] at hack'
    rw [henv, segmentCells_ack] at ha
    rcases hack' with hold | rfl
    · rw [hflash]
      exact burn_of_eq (h.written hw id hold a ha) hholds
    · exact hnew a ha
  case marked =>
    intro m' hm' a
    change a ∈ m' ↔ ∃ id : UInt8, acked (w.1.step _).env.ack id.toNat = true ∧
      a ∈ segmentCells (w.1.step _).env id
    rw [hmarks] at hm'
    rw [← Option.some.inj hm', mem_foldl_marks hkeeps, hcells, h.marked m hm, henv]
    simp only [hbit, segmentCells_ack]
    constructor
    · rintro (⟨id, hid', ha⟩ | ha)
      · exact ⟨id, .inl hid', ha⟩
      · exact ⟨p.byte 0, .inr rfl, ha⟩
    · rintro ⟨id, hid' | rfl, ha⟩
      · exact .inl ⟨id, hid', ha⟩
      · exact .inr ha

/-- A sector of the image: nothing is acknowledged or marked yet. -/
theorem InTransfer.step_sector (h : InTransfer image s content w) {c : UInt8}
    (hp : p.ctrlType = .newSectorCmd)
    (hk : (p.le16 1).toNat < ceiling w.1.env.newImage.size.toNat 4096) :
    (w.1.step (.ctrlWrite c p)).flash = w.1.flash ∧
      InTransfer image s content (sectorStep w (.ctrlWrite c p)) := by
  have hhandle : w.1.handle (.ctrlWrite c p) =
      ⟨{ w.1.env with currentSector := p.le16 1, ack := fun _ => 0 },
        [.store .ack 0 27, .confirm 0], none⟩ := by
    simp only [Fota.handle, ctrlPktDispatch, hp, newSectorCmd]
  have henv := (Fota.env_step h.running (.ctrlWrite c p)).trans (congrArg FotaOutcome.env hhandle)
  have hstop := (Fota.stop_step h.running (.ctrlWrite c p)).trans
    (congrArg FotaOutcome.stop hhandle)
  have hflash : (w.1.step (.ctrlWrite c p)).flash = w.1.flash := by
    rw [Fota.flash_step, Fota.issued_eq h.running, hhandle]
    rfl
  have hack : ∀ id : UInt8, acked (w.1.step (.ctrlWrite c p)).env.ack id.toNat = false :=
    fun id => by rw [henv, acked_zero]
  have hmarks : (sectorStep w (.ctrlWrite c p)).2 = some ∅ := if_pos hp
  rw [h.image_eq] at hk
  refine ⟨hflash, hstop, ?_, ?_, ?_, fun _ => ?_, fun _ id hid => ?_, fun _ id hid => ?_,
    fun m hm a => ?_⟩
  · change (w.1.step _).env.newImage = image
    rw [henv, h.image_eq]
  · change (w.1.step _).env.segmentDataMaxLength = s
    rw [henv, h.length_eq]
  · change ∀ x < image.rounded, Toward (w.1.step _).flash _ _
    rw [hflash]
    exact h.toward
  · change (w.1.step _).env.currentSector.toNat < _
    rwa [henv]
  · cases (hack id).symm.trans hid
  · cases (hack id).symm.trans hid
  · rw [hmarks] at hm
    rw [← Option.some.inj hm]
    constructor
    · exact fun ha => ha.elim
    · rintro ⟨id, hid, -⟩
      cases (hack id).symm.trans hid

/-- What only answers leaves everything as it is. -/
theorem InTransfer.step_read (h : InTransfer image s content w) {e : FotaEvent}
    {acts : List FotaAct} (hhandle : w.1.handle e = ⟨w.1.env, acts, none⟩)
    (hacts : ∀ g : Set ℕ, acts.foldl FotaAct.marks g = g)
    (hflash : acts.foldl FotaAct.onFlash w.1.flash = w.1.flash)
    (he : ∀ c p, e ≠ .ctrlWrite c p) : sectorStep w e = w := by
  have hstep : w.1.step e = w.1 := by
    rw [Fota.step, if_pos h.running, hhandle, hflash, ← h.running]
  have hmarks : sectorMarks w.2 w.1 e = w.2 := by
    have hmap : w.2.map (fun m => (w.1.issued e).foldl FotaAct.marks m) = w.2 := by
      rw [Fota.issued_eq h.running, hhandle]
      simp only [hacts, Option.map_id']
    cases e with
    | ctrlWrite c p => exact absurd rfl (he c p)
    | _ => exact hmap
  exact Prod.ext hstep hmarks

/-- A step of the transfer keeps the invariant, and every cell that has its value. -/
theorem InTransfer.step (h : InTransfer image s content w) (hs : s ≠ 0) (hlo : 19 ≤ s.toNat)
    (hbase : image.SectorAligned) {e : FotaEvent} (ht : Transfers content w e)
    (hsplit : SplitsPages w.1 e) :
    InTransfer image s content (sectorStep w e) ∧
      ∀ a, w.1.flash a = image.wanted content a →
        (sectorStep w e).1.flash a = image.wanted content a := by
  cases e with
  | ctrlWrite c p =>
      obtain ⟨hflash, hnext⟩ := h.step_sector (c := c) ht.1 ht.2
      refine ⟨hnext, fun a ha => ?_⟩
      change (w.1.step _).flash a = _
      rwa [hflash]
  | dataWrite p =>
      refine ⟨h.step_data hs hlo hbase ht hsplit, fun a ha => ?_⟩
      obtain ⟨-, -, -, -, hflash, hholds⟩ := h.dataWrite hs hlo hbase ht hsplit
      change (w.1.step _).flash a = _
      rw [hflash]
      exact burn_of_eq ha hholds
  | dataRead c =>
      rw [h.step_read (e := .dataRead c) rfl (fun _ => rfl) rfl nofun]
      exact ⟨h, fun _ ha => ha⟩
  | cccdRead c =>
      rw [h.step_read (e := .cccdRead c) rfl (fun _ => rfl) rfl nofun]
      exact ⟨h, fun _ ha => ha⟩
  | cccdWrite p => exact ht.elim
  | connected | disconnected => exact ht.elim

/-- What is acknowledged is exactly what was programmed: segments have no cell in common. -/
theorem InTransfer.ack_exact (h : InTransfer image s content w) (hs : s ≠ 0) : AckExact w := by
  intro m hm id
  have hw : w.2.isSome := by rw [hm]; rfl
  rw [h.length_eq]
  constructor
  · exact fun hid => ⟨h.acked_lt hw id hid, fun a ha => (h.marked m hm a).mpr ⟨id, hid, ha⟩⟩
  · rintro ⟨hid, hsub⟩
    have hlen := segmentLen_pos hs id
    have hfirst : w.1.env.newImage.cell (segmentPos w.1.env id + 0) ∈ m :=
      hsub ⟨0, by rwa [h.length_eq], rfl⟩
    obtain ⟨id', hid', j, hj, hcell⟩ := (h.marked m hm _).mp hfirst
    rw [h.length_eq] at hj
    have hround := image.rounded_le
    have hpos := h.pos_lt hs hw hid
    have hpos' := h.pos_lt hs hw (h.acked_lt hw id' hid')
    have heq := FotaImageInfo.cell_injective (by omega) (by omega) hcell
    have hle := segmentLen_le hs id'
    obtain rfl : id = id' := by
      unfold segmentPos at heq
      rw [h.length_eq] at heq
      have hdiv : id.toNat * s.toNat / s.toNat = (id'.toNat * s.toNat + j) / s.toNat := by
        rw [show id.toNat * s.toNat = id'.toNat * s.toNat + j by omega]
      have hspos := toNat_pos hs
      rw [Nat.mul_div_cancel _ hspos, Nat.mul_comm, Nat.mul_add_div hspos,
        Nat.div_eq_of_lt (by omega), Nat.add_zero] at hdiv
      exact UInt8.toNat_inj.mp hdiv
    exact hid'

/-- A sector all of whose segments are acknowledged has its content. -/
theorem InTransfer.sector_written (h : InTransfer image s content w) (hs : s ≠ 0)
    (hlo : 19 ≤ s.toNat) (hw : w.2.isSome) (hall : AllAcked w.1.env) {y : ℕ} (hy : y < 4096) :
    w.1.flash (image.cell (w.1.env.currentSector.toNat * 4096 + y)) =
      image.wanted content (image.cell (w.1.env.currentSector.toNat * 4096 + y)) := by
  have hq : y / s.toNat < 256 := by
    rw [Nat.div_lt_iff_lt_mul (toNat_pos hs)]
    omega
  have hid : (UInt8.ofNat (y / s.toNat)).toNat = y / s.toNat := by
    rw [UInt8.toNat_ofNat', Nat.mod_eq_of_lt hq]
  obtain ⟨hlt, hmod⟩ := segment_covers hs hy hid
  have hacked := hall (UInt8.ofNat (y / s.toNat)).toNat (by rwa [h.length_eq])
  refine h.written hw _ hacked _ ⟨y % s.toNat, by rwa [h.length_eq], ?_⟩
  have hdiv := Nat.div_add_mod y s.toNat
  rw [h.image_eq]
  unfold segmentPos
  rw [h.length_eq, hid, Nat.mul_comm (y / s.toNat), Nat.add_assoc, hdiv]

/-- After an accepted start the image is erased. -/
theorem in_transfer_start {s₀ : Fota} {c : UInt8} (hrun : s₀.stop = none)
    (hidle : s₀.env.state = .idle) (hp : p.ctrlType = .startReq) (hbase : p.image.SectorAligned)
    (content : ℕ → UInt8) :
    InTransfer p.image (p.le16 9) content (s₀.step (.ctrlWrite c p), none) := by
  have hhandle : s₀.handle (.ctrlWrite c p) =
      ⟨{ s₀.env with
          state := .busy
          conidx := c
          newImage := p.image
          segmentDataMaxLength := p.le16 9 },
        fotasFlashCleanup p.image.offset p.image.size ++ [.indication c 3 0, .confirm 0],
        none⟩ := by
    simp only [Fota.handle, ctrlPktDispatch, hp, startReq, hidle]
    rfl
  have henv := (Fota.env_step hrun (.ctrlWrite c p)).trans (congrArg FotaOutcome.env hhandle)
  refine ⟨(Fota.stop_step hrun _).trans (congrArg FotaOutcome.stop hhandle), by rw [henv],
    by rw [henv], fun x hx => .inl ?_, fun h => absurd h Bool.false_ne_true,
    fun h => absurd h Bool.false_ne_true, fun h => absurd h Bool.false_ne_true, fun m hm => ?_⟩
  case refine_2 => cases hm
  rw [Fota.flash_step, Fota.issued_eq hrun, hhandle, List.foldl_append]
  exact flash_erased (fun act hact => eq_of_mem_cleanup hact)
    (.inr ((touches_cleanup hbase.offset).mpr ⟨x, hx, rfl⟩))

/-- A run of the transfer keeps the invariant, and every cell that has its value. -/
theorem InTransfer.run (h : InTransfer image s content w) (hs : s ≠ 0) (hlo : 19 ≤ s.toNat)
    (hbase : image.SectorAligned) {es : List FotaEvent}
    (ha : Along sectorStep (fun w e => Transfers content w e ∧ SplitsPages w.1 e) w es) :
    InTransfer image s content (exec sectorStep w es) ∧
      ∀ a, w.1.flash a = image.wanted content a →
        (exec sectorStep w es).1.flash a = image.wanted content a := by
  have hkeep : ∀ v e, InTransfer image s content v ∧
      (∀ a, w.1.flash a = image.wanted content a → v.1.flash a = image.wanted content a) →
      Transfers content v e ∧ SplitsPages v.1 e →
      InTransfer image s content (sectorStep v e) ∧
        ∀ a, w.1.flash a = image.wanted content a →
          (sectorStep v e).1.flash a = image.wanted content a := by
    rintro v e ⟨hv, hcells⟩ ⟨ht, hsplit⟩
    obtain ⟨hnext, hstays⟩ := hv.step hs hlo hbase ht hsplit
    exact ⟨hnext, fun a hw => hstays a (hcells a hw)⟩
  exact exec_invariant hkeep ⟨h, fun _ hw => hw⟩ ha

end steps

/-! ### The image in the flash -/

section
variable [Divider]

/-- At some point of the run sector `k` was current, with all its segments acknowledged. -/
def SectorSeen (w : Fota × Option (Set ℕ)) (es : List FotaEvent) (k : ℕ) : Prop :=
  ∃ pre, pre <+: es ∧ (exec sectorStep w pre).2.isSome ∧
    (exec sectorStep w pre).1.env.currentSector.toNat = k ∧ AllAcked (exec sectorStep w pre).1.env

/-- What a transfer promises: exact acknowledgements, and the image in the flash when they are
complete. -/
structure TransferCorrect (image : FotaImageInfo) (content : ℕ → UInt8)
    (w : Fota × Option (Set ℕ)) (es : List FotaEvent) : Prop where
  acks : AckExact (exec sectorStep w es)
  written : (∀ k < ceiling image.size.toNat 4096, SectorSeen w es k) →
    ∀ x < image.size.toNat, (exec sectorStep w es).1.flash (image.cell x) = content x

/-- A sector that was seen complete is in the flash at the end of the run. -/
theorem InTransfer.seen_written {image : FotaImageInfo} {s : UInt16} {content : ℕ → UInt8}
    {w : Fota × Option (Set ℕ)} (h : InTransfer image s content w) (hs : s ≠ 0)
    (hlo : 19 ≤ s.toNat) (hbase : image.SectorAligned) {es : List FotaEvent}
    (ha : Along sectorStep (fun w e => Transfers content w e ∧ SplitsPages w.1 e) w es) {k y : ℕ}
    (hseen : SectorSeen w es k) (hy : y < 4096) :
    (exec sectorStep w es).1.flash (image.cell (k * 4096 + y)) =
      image.wanted content (image.cell (k * 4096 + y)) := by
  obtain ⟨pre, ⟨rest, rfl⟩, hw, rfl, hall⟩ := hseen
  obtain ⟨hpre, hrest⟩ := (along_append w pre rest).mp ha
  obtain ⟨hin, -⟩ := h.run hs hlo hbase hpre
  rw [exec_append]
  exact (hin.run hs hlo hbase hrest).2 _ (hin.sector_written hs hlo hw hall hy)

/-- As long as no segment runs into the end of the offsets, the transfer of an image with a
sector-aligned base is correct, in whatever order and however often its packets come. -/
theorem transfer_correct {s₀ : Fota} {c : UInt8} {p : Packet} (hrun : s₀.stop = none)
    (hidle : s₀.env.state = .idle) (hp : p.ctrlType = .startReq) (hbase : p.image.SectorAligned)
    (hlo : 19 ≤ (p.le16 9).toNat) (content : ℕ → UInt8) (es : List FotaEvent)
    (ht : Along sectorStep (Transfers content) (s₀.step (.ctrlWrite c p), none) es)
    (hsplit : Along sectorStep (fun w e => SplitsPages w.1 e) (s₀.step (.ctrlWrite c p), none) es) :
    TransferCorrect p.image content (s₀.step (.ctrlWrite c p), none) es := by
  have hs : p.le16 9 ≠ 0 := fun h0 => by
    rw [h0] at hlo
    exact absurd hlo (by decide)
  have hstart := in_transfer_start (c := c) hrun hidle hp hbase content
  have ha := ht.and hsplit
  refine ⟨(hstart.run hs hlo hbase ha).1.ack_exact hs, fun hseen x hx => ?_⟩
  have hsector : x / 4096 < ceiling p.image.size.toNat 4096 := by
    unfold ceiling
    omega
  have hcell := hstart.seen_written hs hlo hbase ha (hseen _ hsector)
    (Nat.mod_lt x (by decide : 0 < 4096))
  have hx32 := Nat.lt_trans hx p.image.size.toNat_lt
  rw [Nat.mul_comm, Nat.div_add_mod] at hcell
  rwa [FotaImageInfo.wanted_cell _ hx32] at hcell

end

/-- A `START_REQ` for one sector in segments of 512 bytes, with the upper bytes of its base. -/
def startSector (b₁ b₂ b₃ : UInt8) : Packet :=
  ⟨[2, 0, b₁, b₂, b₃, 0, 16, 0, 0, 0, 2], (by decide : 11 < 65536), fun _ => 0⟩

/-- A segment of `n` zeros. -/
def zeroSegment (n : ℕ) (hn : n < 65535) (id : UInt8) : Packet :=
  ⟨id :: List.replicate n 0, by rw [List.length_cons, List.length_replicate]; omega, fun _ => 0⟩

theorem zeroSegment_byte {n : ℕ} (hn : n < 65535) (id : UInt8) {j : ℕ} (hj : j < n) :
    1 + j < (zeroSegment n hn id).value.length ∧ (zeroSegment n hn id).byte (1 + j) = 0 := by
  have hlen : (zeroSegment n hn id).value.length = n + 1 := by
    rw [zeroSegment, List.length_cons, List.length_replicate]
  refine ⟨by omega, ?_⟩
  rw [Packet.byte, dif_pos (by omega)]
  simp [zeroSegment, Nat.add_comm 1 j]

/-- The first sector, all of it zeros. -/
def zeroSector : List FotaEvent :=
  .ctrlWrite 0 firstSector ::
    ([0, 1, 2, 3, 4, 5, 6, 7] : List UInt8).map fun id =>
      .dataWrite (zeroSegment 512 (by decide) id)

section
variable [Divider]

theorem Fota.segmentDataMaxLength_dataWrite (s : Fota) (p : Packet) :
    (s.step (.dataWrite p)).env.segmentDataMaxLength = s.env.segmentDataMaxLength := by
  by_cases hs : s.stop = none
  · obtain ⟨o, ho, henv, -, -⟩ := Fota.step_handled hs (.dataWrite p)
    rw [henv]
    cases ho with
    | segment => rfl
    | quiet hquiet => rw [hquiet]
  · rw [Fota.step_of_stop hs]

/-- Segments of zeros belong to a transfer of zeros. -/
theorem zeros_transfer {w : Fota × Option (Set ℕ)} (hsector : w.2.isSome) {n : ℕ}
    (hn : n < 65535) (hpos : 0 < n) (hlen : w.1.env.segmentDataMaxLength.toNat = n)
    {ids : List UInt8} (hids : ∀ id ∈ ids, id.toNat < ceiling 4096 n) :
    Along sectorStep (Transfers fun _ => 0) w
      (ids.map fun id => .dataWrite (zeroSegment n hn id)) := by
  induction ids generalizing w with
  | nil => trivial
  | cons id ids ih =>
      have hs : w.1.env.segmentDataMaxLength ≠ 0 := fun h0 => by
        rw [h0, UInt16.toNat_zero] at hlen
        omega
      refine ⟨⟨hsector, ?_, fun j hj => ?_⟩,
        ih ?_ ?_ fun i hi => hids i (List.mem_cons_of_mem _ hi)⟩
      · rw [hlen]
        exact hids id (List.mem_cons_self ..)
      · have hle := segmentLen_le hs ((zeroSegment n hn id).byte 0)
        exact zeroSegment_byte hn id (by omega)
      · change (w.2.map _).isSome = true
        rwa [Option.isSome_map]
      · change (w.1.step _).env.segmentDataMaxLength.toNat = n
        rw [Fota.segmentDataMaxLength_dataWrite, hlen]

theorem zero_sector_transfers {w : Fota × Option (Set ℕ)} (hrun : w.1.stop = none)
    (hlen : w.1.env.segmentDataMaxLength = 512)
    (hsize : 0 < ceiling w.1.env.newImage.size.toNat 4096) :
    Along sectorStep (Transfers fun _ => 0) w zeroSector := by
  refine ⟨⟨by decide, hsize⟩, zeros_transfer rfl _ (by decide) ?_ (by decide +kernel)⟩
  change (w.1.step _).env.segmentDataMaxLength.toNat = 512
  rw [Fota.env_step hrun]
  exact congrArg UInt16.toNat hlen

end

section
open scoped ShiftDivider

theorem zero_sector_correct :
    TransferCorrect (startSector 0 2 0x18).image (fun _ => 0)
      ((Fota.boot fun _ => 0xFF).step (.ctrlWrite 0 (startSector 0 2 0x18)), none) zeroSector :=
  transfer_correct rfl rfl (by decide) (by decide) (by decide) (fun _ => 0) zeroSector
    (zero_sector_transfers rfl rfl (by decide)) (by decide +kernel)

/-- The last segment of the last sector is acknowledged but only half of it is programmed. -/
theorem last_sector_incomplete : ¬ ∀ (s₀ : Fota) (c : UInt8) (p : Packet), s₀.stop = none →
    s₀.env.state = .idle → p.ctrlType = .startReq → p.image.SectorAligned →
    19 ≤ (p.le16 9).toNat → (p.le16 9).toNat ≤ 4096 → ∀ (content : ℕ → UInt8) (es : List FotaEvent),
    Along sectorStep (Transfers content) (s₀.step (.ctrlWrite c p), none) es →
    TransferCorrect p.image content (s₀.step (.ctrlWrite c p), none) es := by
  intro h
  have hcorrect := h (.boot fun _ => 0xFF) 0 (startSector 0xF0 0xFF 0x17) rfl rfl (by decide)
    (by decide) (by decide) (by decide) (fun _ => 0) zeroSector
    (zero_sector_transfers rfl rfl (by decide))
  have hseen : ∀ k < ceiling (startSector 0xF0 0xFF 0x17).image.size.toNat 4096,
      SectorSeen ((Fota.boot fun _ => 0xFF).step
        (.ctrlWrite 0 (startSector 0xF0 0xFF 0x17)), none) zeroSector k := fun k hk => by
    have h0 : k = 0 := Nat.lt_one_iff.mp hk
    exact ⟨zeroSector, List.prefix_refl _, by decide +kernel, by rw [h0]; decide +kernel,
      by decide +kernel⟩
  have hcell := hcorrect.written hseen 3840 (by decide)
  revert hcell
  decide +kernel

end

end ErgoDock
