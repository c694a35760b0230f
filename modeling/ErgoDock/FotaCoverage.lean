import ErgoDock.FotaTransfer

/-! # What the update service covers

Three loops of the service run over a range of the flash, and each has its own arithmetic.  The
page split of a segment programs the segment from one end to the other, a call to a page
(`segment_split`).  The cleanup counts whole sectors down from the size, wherever the base lies in
its sector: it erases the sectors of the image exactly if they are not one more than the size takes
(`start_erases_iff`).  The check of the digest reads the image and nothing else, in the chunks of
its buffer (`digest_check_covers`). -/

namespace ErgoDock

open Nor

/-! ### The page split -/

/-- The calls program the packet's data into the cells from `a` to `b`, where a segment that
begins at `start` has its data behind the segment number: each call begins where the one before
it ended, has data, and stays in its page. -/
inductive ProgramsRange (p : Packet) (start : ℕ) : ℕ → ℕ → List FotaAct → Prop
  | nil (a : ℕ) : ProgramsRange p start a a []
  | cons {a b : ℕ} {offset : UInt32} {data : List UInt8} {acts : List FotaAct}
      (hoffset : offset.toNat = a) (hpos : 0 < data.length) (hpage : a % 256 + data.length ≤ 256)
      (hdata : data = p.bytes (1 + (a - start)) data.length)
      (hrest : ProgramsRange p start (a + data.length) b acts) :
      ProgramsRange p start a b (.pageProgram offset data :: acts)

theorem data_programPages (p : Packet) (start : UInt32) (ptr : ℕ) (len : UInt16) :
    ∀ act ∈ programPages p start ptr len, act.data ≠ [] := by
  induction start, ptr, len using programPages.induct with
  | case1 start ptr len hlen ih =>
      rw [programPages, if_pos hlen]
      intro act hact
      rcases List.mem_cons.mp hact with rfl | hact
      · exact List.ne_nil_of_length_pos (by simp [FotaAct.data])
      · exact ih act hact
  | case2 start ptr len hlen hpos =>
      rw [programPages, if_neg hlen, if_pos hpos]
      intro act hact
      rw [List.mem_singleton.mp hact]
      have hpos' : 0 < len.toNat := hpos
      exact List.ne_nil_of_length_pos (by simpa [FotaAct.data] using hpos')
  | case3 start ptr len hlen hpos =>
      rw [programPages, if_neg hlen, if_neg hpos]
      intro act hact
      cases hact

theorem proLen_pos (start : UInt32) : 0 < (proLen start).toNat := by
  have hlt := start.toNat_lt
  rw [proLen, UInt32.toNat_toUInt16, UInt32.toNat_sub, pageAlignedAddr, toNat_and_page,
    UInt32.toNat_add, show (256 : UInt32).toNat = 256 from rfl]
  omega

/-- No call for a segment is without data. -/
theorem data_programSegment (p : Packet) {start : UInt32} {len : UInt16} (hlen : 0 < len.toNat) :
    ∀ act ∈ programSegment p start len, act.data ≠ [] := by
  unfold programSegment
  split
  · intro act hact
    rcases List.mem_cons.mp hact with rfl | hact
    · exact List.ne_nil_of_length_pos (by simpa [FotaAct.data] using proLen_pos start)
    · exact data_programPages _ _ _ _ act hact
  · intro act hact
    rw [List.mem_singleton.mp hact]
    exact List.ne_nil_of_length_pos (by simpa [FotaAct.data] using hlen)

/-- The pieces of a segment, one behind the other. -/
theorem programsRange_of_tiles (p : Packet) {start : UInt32} {lo hi : ℕ} {ps : List (ℕ × ℕ)}
    (h : Tiles lo hi ps) (hend : start.toNat + hi < 2 ^ 32)
    (hps : ∀ q ∈ ps, (piece p start q).data ≠ [] ∧ InPage start q) :
    ProgramsRange p start.toNat (start.toNat + lo) (start.toNat + hi) (ps.map (piece p start)) := by
  induction h with
  | nil a => exact .nil _
  | @cons a n b ps ht ih =>
      have hb := ht.le
      obtain ⟨hne, hpage⟩ := hps (a, n) (List.mem_cons_self ..)
      have hoffset : (start + UInt32.ofNat a).toNat = start.toNat + a :=
        toNat_add_ofNat (by omega)
      have hpos := List.length_pos_iff.mpr hne
      rw [piece, FotaAct.data, Packet.length_bytes] at hpos
      rw [InPage, hoffset] at hpage
      refine .cons hoffset ?_ ?_ ?_ ?_
      · rwa [Packet.length_bytes]
      · rwa [Packet.length_bytes]
      · rw [Packet.length_bytes, Nat.add_sub_cancel_left]
      · rw [Packet.length_bytes, Nat.add_assoc]
        exact ih hend fun q hq => hps q (List.mem_cons_of_mem _ hq)

/-- The calls for a segment program its data from its first cell to its last, in order, each in one
page, and they are the calls that a `DATA` packet with this segment leads to. -/
theorem segment_split [Divider] (start : UInt32) (len : UInt16) (hlen : 0 < len.toNat)
    (hend : start.toNat + len.toNat + 256 < 2 ^ 32) (p : Packet) :
    ProgramsRange p start.toNat start.toNat (start.toNat + len.toNat) (programSegment p start len) ∧
    ∀ s : Fota, s.stop = none →
      segmentStart s.env (p.byte 0) = start →
      segmentLen s.env.segmentDataMaxLength (p.byte 0) = len →
      (s.issued (.dataWrite p)).filter FotaAct.isFlash = programSegment p start len := by
  have hsplit : PagesSplit start len := by
    unfold PagesSplit
    omega
  constructor
  · obtain ⟨ps, heq, ht, hin⟩ := programSegment_tiles start len
    have hdata : ∀ act ∈ programSegment p start len, act.data ≠ [] :=
      data_programSegment p hlen
    rw [takenLength_of_pagesSplit hsplit] at ht
    rw [heq] at hdata ⊢
    refine programsRange_of_tiles p ht (by omega) fun q hq => ⟨?_, hin hsplit q hq⟩
    exact hdata _ (List.mem_map_of_mem hq)
  · rintro s hrun rfl rfl
    rw [Fota.issued_eq hrun]
    exact filter_segmentActs s.env p

open scoped ShiftDivider in
theorem segment_split_unaligned :
    ProgramsRange firstSegment 0x80 0x80 0x180 (programSegment firstSegment 0x80 256) :=
  (segment_split 0x80 256 (by decide) (by decide) firstSegment).1

/-! ### The cleanup -/

/-- The sectors that are erased, in order. -/
def erasedSectors (acts : List FotaAct) : List ℕ := acts.filterMap fun
  | .sectorErase offset => some (offset.toNat / 4096)
  | _ => none

namespace FotaImageInfo
variable (image : FotaImageInfo)

/-- What is erased are the sectors that the image lies in, each once. -/
structure ErasedBy (acts : List FotaAct) : Prop where
  covers : ∀ x < image.size.toNat, image.cell x / 4096 ∈ erasedSectors acts
  inside : ∀ k ∈ erasedSectors acts, ∃ x < image.size.toNat, image.cell x / 4096 = k
  once : (erasedSectors acts).Nodup

/-- The image lies in no more sectors than its size takes: its last byte is not pushed into one
more by where the base lies in its sector. -/
def SectorsSuffice : Prop :=
  image.size = 0 ∨ image.base.toNat % 4096 + (image.size.toNat - 1) % 4096 < 4096

instance : Decidable image.SectorsSuffice := inferInstanceAs (Decidable (_ ∨ _))

variable {image}

theorem offset_mod : image.offset.toNat % 4096 = image.base.toNat % 4096 := by
  have hlt := image.base.toNat_lt
  rw [offset, UInt32.toNat_sub, show flashBaseAddr.toNat = 0x18000000 from rfl]
  omega

theorem toNat_cell (x : ℕ) : image.cell x = (image.offset.toNat + x) % 2 ^ 32 := by
  rw [cell, UInt32.toNat_add, UInt32.toNat_ofNat', Nat.add_mod_mod]

end FotaImageInfo

section cleanup
variable {image : FotaImageInfo}

theorem erasedSectors_cleanup (image : FotaImageInfo) :
    erasedSectors (fotasFlashCleanup image.offset image.size) =
      (List.range (ceiling image.size.toNat 4096)).map fun k => image.cell (4096 * k) / 4096 := by
  rw [fotasFlashCleanup_eq, erasedSectors, List.filterMap_map, ← List.filterMap_eq_map]
  rfl

/-- A sector that is erased begins inside the image. -/
theorem inside_cleanup (image : FotaImageInfo) {k : ℕ}
    (hk : k ∈ erasedSectors (fotasFlashCleanup image.offset image.size)) :
    ∃ x < image.size.toNat, image.cell x / 4096 = k := by
  rw [erasedSectors_cleanup] at hk
  obtain ⟨j, hj, rfl⟩ := List.mem_map.mp hk
  refine ⟨4096 * j, ?_, rfl⟩
  have hlt := List.mem_range.mp hj
  unfold ceiling at hlt
  omega

theorem nodup_cleanup (image : FotaImageInfo) :
    (erasedSectors (fotasFlashCleanup image.offset image.size)).Nodup := by
  rw [erasedSectors_cleanup]
  refine List.Nodup.map_on (fun j hj k hk h => ?_) List.nodup_range
  have hsize := image.size.toNat_lt
  have hj' := List.mem_range.mp hj
  have hk' := List.mem_range.mp hk
  unfold ceiling at hj' hk'
  rw [FotaImageInfo.toNat_cell, FotaImageInfo.toNat_cell] at h
  omega

/-- The cleanup reaches every sector of the image exactly if the sectors suffice. -/
theorem covers_cleanup_iff (hwrap : image.base.toNat % 4096 + image.size.toNat ≤ 2 ^ 32) :
    (∀ x < image.size.toNat,
      image.cell x / 4096 ∈ erasedSectors (fotasFlashCleanup image.offset image.size)) ↔
      image.SectorsSuffice := by
  have hmod := image.offset_mod
  have hmem : ∀ x, image.cell x / 4096 ∈
      erasedSectors (fotasFlashCleanup image.offset image.size) ↔
      ∃ k < ceiling image.size.toNat 4096, image.cell (4096 * k) / 4096 = image.cell x / 4096 := by
    intro x
    rw [erasedSectors_cleanup, List.mem_map]
    simp only [List.mem_range]
  constructor
  · intro h
    by_cases hzero : image.size.toNat = 0
    · exact .inl (UInt32.toNat_inj.mp hzero)
    · -- the last byte of the image
      obtain ⟨k, hk, heq⟩ := (hmem _).mp (h (image.size.toNat - 1) (by omega))
      rw [FotaImageInfo.toNat_cell, FotaImageInfo.toNat_cell] at heq
      unfold ceiling at hk
      refine .inr ?_
      omega
  · rintro h x hx
    rcases h with hzero | hfit
    · rw [hzero] at hx
      cases hx
    · refine (hmem x).mpr ⟨(image.base.toNat % 4096 + x) / 4096, ?_, ?_⟩
      · unfold ceiling
        omega
      · rw [FotaImageInfo.toNat_cell, FotaImageInfo.toNat_cell]
        omega

end cleanup

/-- What an accepted `START_REQ` erases.  The image must not come round to its first sector again,
which it does not when its addresses do not wrap. -/
theorem start_erases_iff [Divider] {s : Fota} {c : UInt8} {p : Packet} (hrun : s.stop = none)
    (hp : p.ctrlType = .startReq) (hidle : s.env.state = .idle)
    (hwrap : p.image.base.toNat % 4096 + p.image.size.toNat ≤ 2 ^ 32) :
    p.image.ErasedBy (s.issued (.ctrlWrite c p)) ↔ p.image.SectorsSuffice := by
  have hacts : erasedSectors (s.issued (.ctrlWrite c p)) =
      erasedSectors (fotasFlashCleanup p.image.offset p.image.size) := by
    rw [Fota.issued_eq hrun, Fota.handle, ctrlPktDispatch, hp]
    simp only [startReq, hidle]
    rw [if_pos (show fwSignatureCheck s.env.digest s.env.signature = true from rfl), erasedSectors,
      List.filterMap_append]
    exact List.append_nil _
  rw [← covers_cleanup_iff hwrap, ← hacts]
  constructor
  · exact fun h => h.covers
  · intro h
    refine ⟨h, fun k hk => ?_, ?_⟩
    · rw [hacts] at hk
      exact inside_cleanup _ hk
    · rw [hacts]
      exact nodup_cleanup _

section
open scoped ShiftDivider

theorem one_sector_erased :
    oneSector.image.ErasedBy ((Fota.boot fun _ => 0xFF).issued (.ctrlWrite 0 oneSector)) :=
  (start_erases_iff rfl rfl rfl (by decide)).mpr (by decide)

/-- One sector in size, at `0x18000100`. -/
def straddling : Packet := ⟨[2, 0, 1, 0, 0x18, 0, 16, 0, 0, 0, 1], by decide, fun _ => 0⟩

/-- The cleanup erases one sector of the two that the image lies in. -/
theorem straddling_not_erased : ¬ ∀ (s : Fota) (c : UInt8) (p : Packet), s.stop = none →
    p.ctrlType = .startReq → s.env.state = .idle →
    p.image.base.toNat + p.image.size.toNat ≤ 2 ^ 32 →
    p.image.ErasedBy (s.issued (.ctrlWrite c p)) := by
  intro h
  have hrun := h (.boot fun _ => 0xFF) 0 straddling rfl rfl rfl (by decide)
  have hcover := hrun.covers 4095 (by decide)
  have hacts : (Fota.boot fun _ => 0xFF).issued (.ctrlWrite 0 straddling) =
      [.sectorErase 0x100, .indication 0 3 0, .confirm 0] := by decide +kernel
  rw [hacts] at hcover
  revert hcover
  decide

end

/-! ### The check of the digest -/

/-- The offsets a read goes through. -/
def readCells (q : UInt32 × UInt16) : List ℕ :=
  (List.range q.2.toNat).map fun i => (q.1 + UInt32.ofNat i).toNat

/-- The reads go through the image in order, each byte once, in chunks that fit the buffer. -/
structure ReadsImage (image : FotaImageInfo) (reads : List (UInt32 × UInt16)) : Prop where
  cells : reads.flatMap readCells = (List.range image.size.toNat).map image.cell
  once : (reads.flatMap readCells).Nodup
  ascending : image.offset.toNat + image.size.toNat ≤ 2 ^ 32 →
    reads.flatMap readCells = List.range' image.offset.toNat image.size.toNat
  fits : ∀ q ∈ reads, 0 < q.2.toNat ∧ q.2.toNat ≤ 64

theorem flashRead_eq_map (flash : ℕ → UInt8) (q : UInt32 × UInt16) :
    flashRead flash q.1 q.2.toNat = (readCells q).map flash := by
  unfold flashRead readCells
  rw [List.map_map]
  rfl

theorem cells_digestReads (offset size : UInt32) :
    (digestReads offset size).flatMap readCells =
      (List.range size.toNat).map fun x => (offset + UInt32.ofNat x).toNat := by
  induction offset, size using digestReads.induct with
  | case1 offset =>
      rw [digestReads, if_pos rfl]
      rfl
  | case2 offset size h hgt ih =>
      rw [digestReads, if_neg h, if_pos hgt, List.flatMap_cons, ih, toNat_chunk hgt,
        List.range_add, List.map_append, List.map_map]
      refine congrArg _ (List.map_congr_left fun x _ => ?_)
      rw [Function.comp_apply, add_ofNat_add]
      rfl
  | case3 offset size h hgt =>
      rw [digestReads, if_neg h, if_neg hgt, List.flatMap_cons, List.flatMap_nil, List.append_nil,
        readCells, toNat_last hgt]

theorem fits_digestReads (offset size : UInt32) :
    ∀ q ∈ digestReads offset size, 0 < q.2.toNat ∧ q.2.toNat ≤ 64 := by
  induction offset, size using digestReads.induct with
  | case1 offset =>
      rw [digestReads, if_pos rfl]
      intro q hq
      cases hq
  | case2 offset size h hgt ih =>
      rw [digestReads, if_neg h, if_pos hgt]
      intro q hq
      rcases List.mem_cons.mp hq with rfl | hq
      · exact ⟨Nat.succ_pos 63, Nat.le_refl 64⟩
      · exact ih q hq
  | case3 offset size h hgt =>
      rw [digestReads, if_neg h, if_neg hgt]
      intro q hq
      rw [List.mem_singleton.mp hq, toNat_last hgt]
      exact ⟨Nat.pos_of_ne_zero fun h0 => h (UInt32.toNat_inj.mp h0), Nat.le_of_not_lt hgt⟩

theorem readsImage_digestReads (image : FotaImageInfo) :
    ReadsImage image (digestReads image.offset image.size) := by
  have hcells := cells_digestReads image.offset image.size
  have hsize := image.size.toNat_lt
  refine ⟨hcells, ?_, fun hwrap => ?_, fits_digestReads _ _⟩
  · rw [hcells]
    refine List.Nodup.map_on (fun x hx y hy h => ?_) List.nodup_range
    rw [List.mem_range] at hx hy
    have hcell : image.cell x = image.cell y := h
    exact FotaImageInfo.cell_injective (by omega) (by omega) hcell
  · rw [hcells, List.range'_eq_map_range]
    refine List.map_congr_left fun x hx => ?_
    rw [List.mem_range] at hx
    exact toNat_add_ofNat (by omega)

/-- The check reads the image once, in order and in chunks of its buffer, hashes what it reads, and
succeeds exactly if the hash of the image is the stored digest. -/
theorem digest_check_covers (env : FotasEnv) (flash : ℕ → UInt8) :
    ReadsImage env.newImage (digestReads env.newImage.offset env.newImage.size) ∧
    fwDigestLoop flash tcSha256Init env.newImage.offset env.newImage.size =
      (digestReads env.newImage.offset env.newImage.size).foldl
        (fun sha q => tcSha256Update sha ((readCells q).map flash)) tcSha256Init ∧
    (fwDigestCheck env flash = true ↔
      sha256 ((List.range env.newImage.size.toNat).map fun x => flash (env.newImage.cell x)) =
        List.ofFn env.digest) := by
  refine ⟨readsImage_digestReads _, ?_, fwDigestCheck_iff env flash⟩
  exact List.foldl_ext _ _ _ fun sha q _ => by rw [flashRead_eq_map]

end ErgoDock
