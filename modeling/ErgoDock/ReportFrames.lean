import ErgoDock.SleepReport

/-! # Reading the frames of the sleep report

A reader of a frame checks its first byte, the length byte, the codes and the CRC, low byte first,
and takes the time, two bytes and the content from it (`openFrame`).  It gets back what was put in
(`openFrame_reportFrame`).  A frame of records has their number in the two bytes and the records
packed in the content (`decodeRecords`). -/

namespace ErgoDock

open Packed

/-- What a reader takes from a frame with this code: the time the night began, two bytes and the
content. -/
def openFrame (code : UInt8) (frame : List UInt8) : Option (ℕ × UInt8 × UInt8 × List UInt8) :=
  let data := frame.take (frame.length - 2)
  if 14 ≤ data.length ∧ data.getD 0 0 = 0x5a ∧ (data.getD 1 0).toNat + 4 = frame.length ∧
      data.getD 2 0 = 2 ∧ data.getD 3 0 = code ∧ frame.drop (frame.length - 2) =
        [(modbusCrcCompute data).toUInt8, (modbusCrcCompute data >>> 8).toUInt8] then
    some (leNat ((data.drop 4).take 8), data.getD 12 0, data.getD 13 0, data.drop 14)
  else none

theorem leNat_le64 (x : UInt64) : leNat (le64 x) = x.toNat := by
  have hx := x.toNat_lt
  simp only [le64, leNat, UInt64.toNat_toUInt8, UInt64.toNat_shiftRight, UInt64.reduceToNat,
    Nat.shiftRight_eq_div_pow, Nat.reduceMod, Nat.reducePow]
  omega

/-- A frame is its data with the CRC behind it. -/
theorem openFrame_append (code : UInt8) (data : List UInt8) :
    openFrame code
        (data ++ [(modbusCrcCompute data).toUInt8, (modbusCrcCompute data >>> 8).toUInt8]) =
      if 14 ≤ data.length ∧ data.getD 0 0 = 0x5a ∧ (data.getD 1 0).toNat + 2 = data.length ∧
          data.getD 2 0 = 2 ∧ data.getD 3 0 = code then
        some (leNat ((data.drop 4).take 8), data.getD 12 0, data.getD 13 0, data.drop 14)
      else none := by
  have hlen : ∀ c d : UInt8, (data ++ [c, d]).length - 2 = data.length := fun c d => by simp
  unfold openFrame
  rw [hlen, List.take_left, List.drop_left, List.length_append]
  simp

theorem openFrame_reportFrame (code : UInt8) (come : UInt64) (a b : UInt8) {body : List UInt8}
    (h : body.length < 244) :
    openFrame code (reportFrame code come a b body) = some (come.toNat, a, b, body) := by
  have hlen : ([0x5a, 0, 2, code] ++ le64 come ++ [a, b] ++ body).length = body.length + 14 := by
    simp [le64]
  rw [reportFrame, sealFrame, openFrame_append, if_pos]
  · exact congrArg (fun n => some (n, a, b, body)) (leNat_le64 come)
  · rw [List.length_set, hlen]
    refine ⟨Nat.le_add_left .., rfl, ?_, rfl, rfl⟩
    change (UInt8.ofNat (body.length + 12)).toNat + 2 = body.length + 14
    rw [UInt8.toNat_ofNat_of_lt' (by change _ < 256; omega)]

/-- The records of a frame, packed `w` bits wide. -/
def decodeRecords (code : UInt8) (w : ℕ) (frame : List UInt8) : Option (ℕ × List ℕ) :=
  match openFrame code frame with
  | some (come, a, b, body) =>
      let nub := leNat [a, b]
      if body.length = (w * nub + 7) / 8 then some (come, fields w body nub) else none
  | none => none

theorem leNat_uint16 (n : UInt16) : leNat [n.toUInt8, (n >>> 8).toUInt8] = n.toNat := by
  have hn := n.toNat_lt
  simp only [leNat, UInt16.toNat_toUInt8, UInt16.toNat_shiftRight, UInt16.reduceToNat,
    Nat.shiftRight_eq_div_pow, Nat.reduceMod, Nat.reducePow]
  omega

/-! ### The record arrays -/

namespace SleepReport

variable {r : SleepReport}

/-- Over the UART and over the air, the report is a frame in which a reader finds these records,
`w` bits wide. -/
def Reports (r : SleepReport) (report : UInt8 → Option ReportTx) (code : UInt8) (w : ℕ)
    (records : List ℕ) : Prop :=
  ∃ frame, (∀ type, report type = some (reportTx type frame)) ∧
    decodeRecords code w frame = some (r.sleeptimerCome.toNat, records)

/-- A report that goes on as far as its records were copied. -/
theorem reports_getRecord {w : ℕ} (hw : w ∣ 8) (code : UInt8) {nub : UInt16}
    (record : Vector UInt8 180) {n : ℕ} (hn : n = (w * nub.toNat + 7) / 8) (hle : n ≤ 180) :
    r.Reports (fun type => r.getRecord type code nub record n n) code w
      (fields w record.toList nub.toNat) := by
  have hlen : (record.toList.take n).length = n := by simpa using hle
  have hbody : (record.toList.take n ++ List.replicate (186 - n) 0).take n =
      record.toList.take n := by
    rw [List.take_append_of_le_length (by omega), List.take_of_length_le (by omega)]
  refine ⟨reportFrame code r.sleeptimerCome nub.toUInt8 (nub >>> 8).toUInt8
    (record.toList.take n), fun type => ?_, ?_⟩
  · change r.getRecord type code nub record n n = _
    unfold getRecord
    rw [if_pos (by omega), hbody]
  · rw [decodeRecords, openFrame_reportFrame _ _ _ _ (by omega)]
    simp only [leNat_uint16]
    rw [if_pos (hlen.trans hn)]
    refine congrArg (fun l => some (r.sleeptimerCome.toNat, l)) (fields_congr hw fun k hk => ?_)
    exact bit_take (by omega)

theorem recordBytes_eq (per w : ℕ) (hper : per * w = 8) (hpos : 0 < per) (nub : ℕ) :
    recordBytes per nub = (w * nub + 7) / 8 := by
  have hdiv := Nat.div_add_mod nub per
  have hlt := Nat.mod_lt nub hpos
  have hmul : w * nub = 8 * (nub / per) + w * (nub % per) := by
    rw [← hper]
    conv_lhs => rw [← hdiv]
    ring
  unfold recordBytes
  split
  · next h0 =>
    rw [hmul, h0]
    omega
  · next h0 =>
    have hlow : w * 1 ≤ w * (nub % per) := Nat.mul_le_mul_left w (by omega)
    have hhigh : w * (nub % per + 1) ≤ 8 := by
      rw [← hper, Nat.mul_comm per]
      exact Nat.mul_le_mul_left w hlt
    have hw : 0 < w := Nat.pos_of_ne_zero fun h => by simp [h] at hper
    rw [Nat.mul_succ] at hhigh
    omega

theorem reports_tidongRecord (h : r.tidongRecordNub.toNat ≤ 720) :
    r.Reports r.getTidongRecord 4 2 (fields 2 r.tidongRecord.toList r.tidongRecordNub.toNat) := by
  have hn := recordBytes_eq 4 2 rfl (by decide) r.tidongRecordNub.toNat
  exact reports_getRecord (by decide) 4 r.tidongRecord hn (by omega)

theorem reports_adjRecord (h : r.adjRecordNub.toNat ≤ 1440) :
    r.Reports r.getAdjRecord 2 1 (fields 1 r.adjRecord.toList r.adjRecordNub.toNat) := by
  have hn := recordBytes_eq 8 1 rfl (by decide) r.adjRecordNub.toNat
  exact reports_getRecord (by decide) 2 r.adjRecord hn (by omega)

/-- The interventions are read rightly when the last byte is full, or as many interventions are
counted as recorded, up to the bytes they take. -/
theorem reports_snoringinterveneRecord (h : r.snoringinterveneNub.toNat ≤ 1440)
    (hnub : r.snoringinterveneNub.toNat % 8 = 0 ∨
      r.interventionsNub.toNat / 8 = r.snoringinterveneNub.toNat / 8) :
    r.Reports r.getSnoringinterveneRecord 5 1
      (fields 1 r.snoringinterveneRecord.toList r.snoringinterveneNub.toNat) := by
  have hn := recordBytes_eq 8 1 rfl (by decide) r.snoringinterveneNub.toNat
  have hadvanced : (if r.snoringinterveneNub.toNat % 8 = 0 then r.snoringinterveneNub.toNat / 8
      else r.interventionsNub.toNat / 8 + 1) = recordBytes 8 r.snoringinterveneNub.toNat := by
    unfold recordBytes
    split
    · rfl
    · omega
  unfold getSnoringinterveneRecord
  rw [hadvanced]
  exact reports_getRecord (by decide) 5 r.snoringinterveneRecord hn (by omega)

end SleepReport

end ErgoDock
