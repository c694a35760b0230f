import ErgoDock.Fota

/-! # What the update service does to the flash

The two loops over the flash in closed form.  `fotas_flash_cleanup` erases the sectors of the
image one after the other (`fotasFlashCleanup_eq`).  A segment is programmed in pieces that tile
it (`programSegment_tiles`); as long as its addresses do not run into the end of the 32-bit
offsets (`PagesSplit`), the pieces are exactly the segment and none of them leaves its page. -/

namespace ErgoDock

open Nor

/-! ### Erasing -/

theorem ceiling_zero {d : ℕ} (hd : 0 < d) : ceiling 0 d = 0 := Nat.div_eq_of_lt (by omega)

theorem ceiling_le {n d : ℕ} (h : 0 < n) (hn : n ≤ d) : ceiling n d = 1 :=
  (Nat.div_eq_iff (by omega)).mpr (by omega)

theorem ceiling_sub {n d : ℕ} (hd : 0 < d) (hn : d ≤ n) :
    ceiling n d = ceiling (n - d) d + 1 := by
  unfold ceiling
  rw [← Nat.add_div_right _ hd]
  congr 1
  omega

/-- The cleanup erases as many sectors as the image takes, from its base on. -/
theorem fotasFlashCleanup_eq (offset size : UInt32) :
    fotasFlashCleanup offset size = (List.range (ceiling size.toNat 4096)).map fun k =>
      .sectorErase (offset + UInt32.ofNat (4096 * k)) := by
  induction offset, size using fotasFlashCleanup.induct with
  | case1 offset =>
      rw [fotasFlashCleanup, if_pos rfl, UInt32.toNat_zero, ceiling_zero (by decide)]
      rfl
  | case2 offset size h ih =>
      have hpos : 0 < size.toNat := Nat.pos_of_ne_zero fun h0 => h (UInt32.toNat_inj.mp h0)
      rw [fotasFlashCleanup, if_neg h]
      split
      · next hgt =>
        have hle : 4096 ≤ size.toNat := Nat.le_of_lt hgt
        rw [ih hgt, UInt32.toNat_sub_of_le _ _ hle, ceiling_sub (n := size.toNat) (by decide) hle,
          List.range_succ_eq_map, List.map_cons, List.map_map]
        refine congrArg₂ _ (by rw [Nat.mul_zero]; simp) (List.map_congr_left fun k _ => ?_)
        rw [Function.comp_apply, Nat.mul_succ, UInt32.ofNat_add, UInt32.add_assoc,
          UInt32.add_comm (UInt32.ofNat (4096 * k))]
        rfl
      · next hngt =>
        have hle : size.toNat ≤ 4096 := Nat.le_of_not_lt hngt
        rw [ceiling_le hpos hle]
        simp

theorem eq_of_mem_cleanup {offset size : UInt32} {act : FotaAct}
    (h : act ∈ fotasFlashCleanup offset size) : ∃ off, act = .sectorErase off := by
  rw [fotasFlashCleanup_eq] at h
  obtain ⟨k, -, rfl⟩ := List.mem_map.mp h
  exact ⟨_, rfl⟩

/-! ### Programming a segment -/

/-- The last byte of an offset cut off: the beginning of its page. -/
theorem toNat_and_page (x : UInt32) : (x &&& 0xFFFFFF00).toNat = x.toNat / 256 * 256 := by
  rw [UInt32.toNat_and]
  have hmask : (0xFFFFFF00 : UInt32).toNat = (2 ^ 24 - 1) <<< 8 := by decide
  have hpage : x.toNat / 256 * 256 = x.toNat >>> 8 <<< 8 := by
    rw [Nat.shiftRight_eq_div_pow, Nat.shiftLeft_eq]
  rw [hmask, hpage]
  refine Nat.eq_of_testBit_eq fun i => ?_
  rw [Nat.testBit_and, Nat.testBit_shiftLeft, Nat.testBit_shiftLeft, Nat.testBit_two_pow_sub_one,
    Nat.testBit_shiftRight]
  rcases Nat.lt_or_ge i 8 with hi | hi
  · rw [decide_eq_false (Nat.not_le_of_lt hi)]
    simp
  · rcases Nat.lt_or_ge i 32 with hi' | hi'
    · rw [decide_eq_true hi, decide_eq_true (show i - 8 < 24 by omega), Nat.add_sub_cancel' hi]
      simp
    · have hx : x.toNat.testBit i = false :=
        Nat.testBit_lt_two_pow
          (Nat.lt_of_lt_of_le x.toNat_lt (Nat.pow_le_pow_right (by decide) hi'))
      rw [Nat.add_sub_cancel' hi, hx]
      simp

/-- A piece of a segment that starts at `start`: its position in the segment and its length. -/
def piece (p : Packet) (start : UInt32) (q : ℕ × ℕ) : FotaAct :=
  .pageProgram (start + UInt32.ofNat q.1) (p.bytes (1 + q.1) q.2)

theorem piece_zero (p : Packet) (start : UInt32) (n : ℕ) :
    piece p start (0, n) = .pageProgram start (p.bytes 1 n) := by
  simp [piece]

/-- The piece does not leave its page. -/
def InPage (start : UInt32) (q : ℕ × ℕ) : Prop := (start + UInt32.ofNat q.1).toNat % 256 + q.2 ≤ 256

/-- The end of a segment in the last page of the 32-bit offsets is the end of the offsets: the
page boundary behind it, which is offset 0 there, is then compared rightly. -/
def PagesSplit (start : UInt32) (len : UInt16) : Prop :=
  2 ^ 32 - 256 ≤ start.toNat ↔ 2 ^ 32 ≤ start.toNat + len.toNat

instance (start : UInt32) (len : UInt16) : Decidable (PagesSplit start len) :=
  inferInstanceAs (Decidable (_ ↔ _))

theorem programPages_tiles (start : UInt32) (len : UInt16) {j : ℕ} {addr : UInt32} {ptr : ℕ}
    (ha : addr = start + UInt32.ofNat j) (hptr : ptr = 1 + j) (hpage : addr.toNat % 256 = 0) :
    ∃ ps : List (ℕ × ℕ), (∀ p, programPages p addr ptr len = ps.map (piece p start)) ∧
      Tiles j (j + len.toNat) ps ∧ ∀ q ∈ ps, InPage start q := by
  induction addr, ptr, len using programPages.induct generalizing j with
  | case1 addr ptr len hlen ih =>
      have hle : 256 ≤ len.toNat := hlen
      have hnext : addr + 256 = start + UInt32.ofNat (j + 256) := by
        rw [ha, UInt32.ofNat_add, UInt32.add_assoc]
        rfl
      obtain ⟨ps, heq, ht, hin⟩ := ih hnext (by omega) (by
        rw [UInt32.toNat_add]
        change (addr.toNat + 256) % 2 ^ 32 % 256 = 0
        omega)
      refine ⟨(j, 256) :: ps, fun p => ?_, .cons ?_, ?_⟩
      · rw [programPages, if_pos hlen, heq, List.map_cons, piece, ha, hptr]
      · rw [UInt16.toNat_sub_of_le _ _ hle] at ht
        rwa [show j + len.toNat = j + 256 + (len.toNat - (256 : UInt16).toNat) by
          change j + len.toNat = j + 256 + (len.toNat - 256)
          omega]
      · intro q hq
        rcases List.mem_cons.mp hq with rfl | hq
        · rw [InPage, ← ha, hpage]
          exact Nat.le_refl 256
        · exact hin q hq
  | case2 addr ptr len hlen hpos =>
      have hlt : len.toNat < 256 := Nat.lt_of_not_ge hlen
      refine ⟨[(j, len.toNat)], fun p => ?_, .single _ _, ?_⟩
      · rw [programPages, if_neg hlen, if_pos hpos, List.map_singleton, piece, ha, hptr]
      · intro q hq
        rw [List.mem_singleton.mp hq, InPage, ← ha, hpage]
        omega
  | case3 addr ptr len hlen hpos =>
      have hzero : len.toNat = 0 := Nat.eq_zero_of_not_pos hpos
      refine ⟨[], fun p => ?_, ?_, nofun⟩
      · rw [programPages, if_neg hlen, if_neg hpos, List.map_nil]
      · rw [hzero]
        exact .nil j

/-- The segment ends inside the last page of the offsets: the subtraction of what fits in the page
from its length wraps. -/
def RunsOver (start : UInt32) (len : UInt16) : Prop :=
  2 ^ 32 - 256 ≤ start.toNat ∧ start.toNat + len.toNat < 2 ^ 32

instance (start : UInt32) (len : UInt16) : Decidable (RunsOver start len) :=
  inferInstanceAs (Decidable (_ ∧ _))

theorem PagesSplit.not_runsOver {start : UInt32} {len : UInt16} (h : PagesSplit start len) :
    ¬ RunsOver start len := fun ⟨hlast, hend⟩ => Nat.not_le_of_lt hend (h.mp hlast)

/-- How many bytes of the packet are programmed for a segment. -/
def takenLength (start : UInt32) (len : UInt16) : ℕ :=
  if RunsOver start len then 65536 + len.toNat else len.toNat

theorem takenLength_of_pagesSplit {start : UInt32} {len : UInt16} (h : PagesSplit start len) :
    takenLength start len = len.toNat := if_neg h.not_runsOver

theorem takenLength_le_iff {start : UInt32} {len : UInt16} {n : ℕ} (hn : n < 65536) :
    takenLength start len ≤ n ↔ len.toNat ≤ n ∧ ¬ RunsOver start len := by
  unfold takenLength
  split
  · next hr => exact ⟨fun h => by omega, fun h => absurd hr h.2⟩
  · next hr => exact ⟨fun h => ⟨h, hr⟩, fun h => h.1⟩

/-- The pieces of a segment tile it, and stay in their pages. -/
theorem programSegment_tiles (start : UInt32) (len : UInt16) :
    ∃ ps : List (ℕ × ℕ), (∀ p, programSegment p start len = ps.map (piece p start)) ∧
      Tiles 0 (takenLength start len) ps ∧
        (PagesSplit start len → ∀ q ∈ ps, InPage start q) := by
  have hS := start.toNat_lt
  have hL := len.toNat_lt
  have hE : (start + len.toUInt32).toNat = (start.toNat + len.toNat) % 2 ^ 32 := by
    rw [UInt32.toNat_add, UInt16.toNat_toUInt32]
  have hA : (pageAlignedAddr start).toNat = (start.toNat + 256) % 2 ^ 32 / 256 * 256 := by
    rw [pageAlignedAddr, toNat_and_page, UInt32.toNat_add]
    rfl
  have hr : (proLen start).toNat = 256 - start.toNat % 256 := by
    rw [proLen, UInt32.toNat_toUInt16, UInt32.toNat_sub, hA]
    omega
  have hstart : start + UInt32.ofNat 0 = start := by simp
  by_cases hgt : start + len.toUInt32 > pageAlignedAddr start
  · have hgt' := UInt32.lt_iff_toNat_lt.mp hgt
    rw [hE, hA] at hgt'
    have hnext : start + (proLen start).toUInt32 = start + UInt32.ofNat (proLen start).toNat := by
      rw [UInt32.ofNat_uInt16ToNat]
    obtain ⟨ps, heq, ht, hin⟩ := programPages_tiles start (len - proLen start) hnext rfl (by
      rw [UInt32.toNat_add, UInt16.toNat_toUInt32, hr]
      omega)
    have hsum : (proLen start).toNat + (len - proLen start).toNat = takenLength start len := by
      rw [UInt16.toNat_sub, hr, takenLength]
      split
      · next hover =>
        obtain ⟨hlast, hend⟩ := hover
        omega
      · next hover =>
        unfold RunsOver at hover
        omega
    -- the first piece reaches to the end of the page
    refine ⟨(0, (proLen start).toNat) :: ps, fun p => ?_, .cons ?_, fun _ q hq => ?_⟩
    · rw [programSegment, if_pos hgt, List.map_cons, piece_zero, heq]
    · rwa [Nat.zero_add, ← hsum]
    · rcases List.mem_cons.mp hq with rfl | hq
      · rw [InPage, hstart, hr]
        omega
      · exact hin q hq
  · have hngt := mt UInt32.lt_iff_toNat_lt.mpr hgt
    rw [hE, hA] at hngt
    have htaken : takenLength start len = len.toNat := by
      rw [takenLength, if_neg (by unfold RunsOver; omega)]
    refine ⟨[(0, len.toNat)], fun p => ?_, ?_, fun hsplit q hq => ?_⟩
    · rw [programSegment, if_neg hgt, List.map_singleton, piece_zero]
    · rw [htaken]
      simpa using Tiles.single 0 len.toNat
    · rw [List.mem_singleton.mp hq, InPage, hstart]
      unfold PagesSplit at hsplit
      omega

theorem eq_of_mem_segment {p : Packet} {start : UInt32} {len : UInt16} {act : FotaAct}
    (h : act ∈ programSegment p start len) : ∃ off data, act = .pageProgram off data := by
  obtain ⟨ps, heq, -, -⟩ := programSegment_tiles start len
  rw [heq p] at h
  obtain ⟨q, -, rfl⟩ := List.mem_map.mp h
  exact ⟨_, _, rfl⟩

/-! ### What a data packet does -/

section
variable [Divider] {env : FotasEnv} {p : Packet} {act : FotaAct}

theorem mem_segmentDivisions {s : UInt16} {id : UInt8} (h : act ∈ segmentDivisions s id) :
    ∃ a, act = .divide a s.toUInt32 := by
  unfold segmentDivisions at h
  rcases List.mem_cons.mp h with rfl | h
  · exact ⟨_, rfl⟩
  · split at h
    · rcases List.mem_cons.mp h with rfl | h
      · exact ⟨_, rfl⟩
      · split at h
        · exact ⟨_, List.mem_singleton.mp h⟩
        · cases h
    · cases h

/-- It divides, programs the segment, acknowledges it and is confirmed. -/
theorem mem_segmentActs (h : act ∈ segmentActs env p) :
    (∃ a, act = .divide a env.segmentDataMaxLength.toUInt32) ∨
      (∃ off data, act = .pageProgram off data) ∨ (∃ n, act = .store .ack n 1) ∨
        act = .confirm 0 := by
  rcases List.mem_append.mp h with h | h
  · rcases List.mem_append.mp h with h | h
    · exact .inl (mem_segmentDivisions h)
    · exact .inr (.inl (eq_of_mem_segment h))
  · rcases List.mem_pair.mp h with rfl | rfl
    · exact .inr (.inr (.inl ⟨_, rfl⟩))
    · exact .inr (.inr (.inr rfl))

/-- Its flash commands are those of the segment. -/
theorem filter_segmentActs (env : FotasEnv) (p : Packet) :
    (segmentActs env p).filter FotaAct.isFlash =
      programSegment p (segmentStart env (p.byte 0))
        (segmentLen env.segmentDataMaxLength (p.byte 0)) := by
  have hdivisions : (segmentDivisions env.segmentDataMaxLength (p.byte 0)).filter
      FotaAct.isFlash = [] := by
    refine List.filter_eq_nil_iff.mpr fun act hact => ?_
    obtain ⟨a, rfl⟩ := mem_segmentDivisions hact
    exact Bool.false_ne_true
  have hprograms : (programSegment p (segmentStart env (p.byte 0))
      (segmentLen env.segmentDataMaxLength (p.byte 0))).filter FotaAct.isFlash =
        programSegment p (segmentStart env (p.byte 0))
          (segmentLen env.segmentDataMaxLength (p.byte 0)) := by
    refine List.filter_eq_self.mpr fun act hact => ?_
    obtain ⟨off, data, rfl⟩ := eq_of_mem_segment hact
    rfl
  rw [segmentActs, List.filter_append, List.filter_append, hdivisions, hprograms, List.nil_append]
  exact List.append_nil _

theorem touches_segmentActs {a : ℕ} : (∃ act ∈ segmentActs env p, act.Touches a) ↔
    ∃ act ∈ programSegment p (segmentStart env (p.byte 0))
      (segmentLen env.segmentDataMaxLength (p.byte 0)), act.Touches a := by
  rw [← filter_segmentActs, FotaAct.touches_filter]

theorem onFlash_segmentActs (flash : ℕ → UInt8) : (segmentActs env p).foldl FotaAct.onFlash flash =
    (programSegment p (segmentStart env (p.byte 0))
      (segmentLen env.segmentDataMaxLength (p.byte 0))).foldl FotaAct.onFlash flash := by
  rw [← filter_segmentActs, FotaAct.foldl_onFlash_filter]

end

/-! ### The cells they touch -/

theorem add_ofNat_add (start : UInt32) (i j : ℕ) :
    start + UInt32.ofNat (i + j) = start + UInt32.ofNat i + UInt32.ofNat j := by
  rw [UInt32.ofNat_add, UInt32.add_assoc]

theorem toNat_add_ofNat {start : UInt32} {j : ℕ} (h : start.toNat + j < 2 ^ 32) :
    (start + UInt32.ofNat j).toNat = start.toNat + j := by
  rw [UInt32.toNat_add, UInt32.toNat_ofNat', Nat.mod_eq_of_lt (a := j) (by omega),
    Nat.mod_eq_of_lt h]

@[simp] theorem Packet.length_bytes (p : Packet) (i n : ℕ) : (p.bytes i n).length = n :=
  length_slice p.byte i n

theorem touches_piece {p : Packet} {start : UInt32} {q : ℕ × ℕ} {a : ℕ} (hin : InPage start q) :
    (piece p start q).Touches a ↔
      ∃ j, q.1 ≤ j ∧ j < q.1 + q.2 ∧ a = (start + UInt32.ofNat j).toNat := by
  have ho := (start + UInt32.ofNat q.1).toNat_lt
  have hj : ∀ i < q.2, (start + UInt32.ofNat (q.1 + i)).toNat =
      (start + UInt32.ofNat q.1).toNat + i := fun i hi => by
    unfold InPage at hin
    rw [add_ofNat_add, toNat_add_ofNat (by omega)]
  refine Iff.trans (b := (start + UInt32.ofNat q.1).toNat ≤ a ∧
    a < (start + UInt32.ofNat q.1).toNat + q.2) ?_ ⟨fun ⟨hle, hlt⟩ => ?_, ?_⟩
  · have htouch := latched_lt_iff (a := a) (by decide) hin
    rwa [← p.length_bytes (1 + q.1) q.2] at htouch ⊢
  · refine ⟨q.1 + (a - (start + UInt32.ofNat q.1).toNat), by omega, by omega, ?_⟩
    rw [hj _ (by omega)]
    omega
  · rintro ⟨j, hle, hlt, rfl⟩
    obtain ⟨i, rfl⟩ := Nat.exists_eq_add_of_le hle
    rw [hj i (by omega)]
    omega

/-- A segment touches its own cells and no others. -/
theorem touches_segment {p : Packet} {start : UInt32} {len : UInt16} {a : ℕ}
    (hs : PagesSplit start len) :
    (∃ act ∈ programSegment p start len, act.Touches a) ↔
      ∃ j < len.toNat, a = (start + UInt32.ofNat j).toNat := by
  obtain ⟨ps, heq, ht, hin⟩ := programSegment_tiles start len
  rw [takenLength_of_pagesSplit hs] at ht
  rw [heq p]
  constructor
  · rintro ⟨act, hact, htouch⟩
    obtain ⟨q, hq, rfl⟩ := List.mem_map.mp hact
    obtain ⟨j, -, hlt, rfl⟩ := (touches_piece (hin hs q hq)).mp htouch
    exact ⟨j, Nat.lt_of_lt_of_le hlt (ht.mem_bounds hq).2, rfl⟩
  · rintro ⟨j, hj, rfl⟩
    obtain ⟨q, hq, hle, hlt⟩ := ht.exists_piece (Nat.zero_le j) hj
    exact ⟨piece p start q, List.mem_map_of_mem hq,
      (touches_piece (hin hs q hq)).mpr ⟨j, hle, hlt, rfl⟩⟩

/-- The cleanup touches the sectors of the image and no others, when the base is aligned. -/
theorem touches_cleanup {offset size : UInt32} {a : ℕ} (ho : offset.toNat % 4096 = 0) :
    (∃ act ∈ fotasFlashCleanup offset size, act.Touches a) ↔
      ∃ j < 4096 * ceiling size.toNat 4096, a = (offset + UInt32.ofNat j).toNat := by
  have hk : ∀ k, (offset + UInt32.ofNat (4096 * k)).toNat % 4096 = 0 := fun k => by
    rw [UInt32.toNat_add, UInt32.toNat_ofNat']
    omega
  have hj : ∀ k, ∀ i < 4096, (offset + UInt32.ofNat (4096 * k + i)).toNat =
      (offset + UInt32.ofNat (4096 * k)).toNat + i := fun k i hi => by
    have hlt := (offset + UInt32.ofNat (4096 * k)).toNat_lt
    have hmod := hk k
    rw [add_ofNat_add, toNat_add_ofNat (by omega)]
  rw [fotasFlashCleanup_eq]
  constructor
  · rintro ⟨act, hact, htouch⟩
    obtain ⟨k, hkn, rfl⟩ := List.mem_map.mp hact
    rw [List.mem_range] at hkn
    have hmod := hk k
    change a / 4096 = (offset + UInt32.ofNat (4096 * k)).toNat / 4096 at htouch
    refine ⟨4096 * k + a % 4096, by omega, ?_⟩
    rw [hj k _ (Nat.mod_lt a (by decide))]
    omega
  · rintro ⟨j, hlt, rfl⟩
    refine ⟨.sectorErase (offset + UInt32.ofNat (4096 * (j / 4096))),
      List.mem_map.mpr ⟨j / 4096, List.mem_range.mpr (by omega), rfl⟩, ?_⟩
    have hmod := hk (j / 4096)
    have hsplit := hj (j / 4096) (j % 4096) (Nat.mod_lt j (by decide))
    rw [Nat.div_add_mod] at hsplit
    unfold FotaAct.Touches
    rw [hsplit]
    omega

/-! ### What they leave in the flash -/

/-- A segment is burnt. -/
theorem flash_segment (flash : ℕ → UInt8) (p : Packet) {start : UInt32} {len : UInt16}
    (hs : PagesSplit start len) (hend : start.toNat + len.toNat ≤ 2 ^ 32) :
    (programSegment p start len).foldl FotaAct.onFlash flash =
      burn flash start.toNat (p.bytes 1 len.toNat) := by
  obtain ⟨ps, heq, ht, hin⟩ := programSegment_tiles start len
  rw [takenLength_of_pagesSplit hs] at ht
  have hbytes : ∀ j n, p.bytes (1 + j) n = slice (fun i => p.byte (1 + i)) j n := fun j n =>
    List.map_congr_left fun i _ => by rw [Nat.add_assoc]
  have hone : ∀ q ∈ ps, ∀ f, (piece p start q).onFlash f =
      burn f (start.toNat + q.1) (slice (fun i => p.byte (1 + i)) q.1 q.2) := fun q hq f => by
    have hb := (ht.mem_bounds hq).2
    have hpage := hin hs q hq
    unfold InPage at hpage
    rw [piece, FotaAct.onFlash, program_eq_burn (by decide) (by rwa [Packet.length_bytes]), hbytes]
    rcases Nat.eq_zero_or_pos q.2 with h0 | hpos
    · rw [h0, slice, List.range_zero, List.map_nil, burn_nil, burn_nil]
    · rw [toNat_add_ofNat (by omega)]
  rw [heq p, List.foldl_map]
  refine (List.foldl_ext _ _ flash fun f q hq => hone q hq f).trans ?_
  rw [burn_tiles _ ht, Nat.sub_zero, Nat.add_zero, ← hbytes 0]

/-- A cell that is erased, or touched by one of several erasures, is erased after them. -/
theorem flash_erased {acts : List FotaAct} (h : ∀ act ∈ acts, ∃ off, act = .sectorErase off)
    {flash : ℕ → UInt8} {a : ℕ} (ha : flash a = 0xFF ∨ ∃ act ∈ acts, act.Touches a) :
    acts.foldl FotaAct.onFlash flash a = 0xFF := by
  induction acts generalizing flash with
  | nil =>
      rcases ha with ha | ⟨act, hact, -⟩
      · exact ha
      · cases hact
  | cons act acts ih =>
      obtain ⟨off, rfl⟩ := h act (List.mem_cons_self ..)
      refine ih (fun x hx => h x (List.mem_cons_of_mem _ hx)) ?_
      by_cases htouch : (FotaAct.sectorErase off).Touches a
      · exact .inl (erase_inside htouch)
      · rcases ha with ha | ⟨x, hx, hxa⟩
        · exact .inl ((FotaAct.onFlash_untouched htouch flash).trans ha)
        · rcases List.mem_cons.mp hx with rfl | hx
          · exact absurd hxa htouch
          · exact .inr ⟨x, hx, hxa⟩

end ErgoDock
