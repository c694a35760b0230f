import ErgoDock.Crc
import ErgoDock.Lib.Packed
import ErgoDock.Lib.Run

/-! # The sleep report (`x_sleep_report.c`)

The night's records: what happened is counted (`analyse`), once a minute the changes of the
counters are recorded in packed arrays (`recordOncePerMinute`), and the arrays are reported in
frames.  The snore volumes, a byte a minute, go out in fragments, over the UART in one loop
(`getSnoringVolume`) and over the air by a state machine (`updataRun`).

A function answers `none` where the C code reads or writes outside an array. -/

namespace ErgoDock

/-! ### State -/

/-- The counters of `g_sysparam_st` that `x_report_analyse` watches. -/
structure SleepCounters where
  bigMove : UInt16
  smallMove : UInt16
  snoreNub : UInt16
  snoreIntervenNub : UInt16
  aiAdjNub : UInt8

/-- `report_t`. -/
structure SleepReport where
  sleeptimerCome : UInt64 := 0
  snoringNub : UInt16 := 0
  interventionsNub : UInt16 := 0
  tidongNub : UInt16 := 0
  adjNubl : UInt16 := 0
  tidongSmallNub : UInt16 := 0
  tidongBigNub : UInt16 := 0
  snoringVolumeNub : UInt16 := 0
  snoringVolumebuff : Vector UInt8 720 := .replicate 720 0
  tidongRecordNub : UInt16 := 0
  tidongRecord : Vector UInt8 180 := .replicate 180 0
  adjRecordNub : UInt16 := 0
  adjRecord : Vector UInt8 180 := .replicate 180 0
  snoringinterveneNub : UInt16 := 0
  snoringinterveneRecord : Vector UInt8 180 := .replicate 180 0

/-- The statics of `x_report_record_once_per_minute`: when the minute began, and the counters
then. -/
structure MinuteStart where
  oldutc : UInt64
  oldbigMove : UInt64
  oldsmallMove : UInt64
  oldinterventionsNub : UInt64
  oldadjNubl : UInt64

/-- The report with the statics of the functions that fill it. -/
structure SleepLog where
  report : SleepReport
  old : SleepCounters
  minute : MinuteStart

/-- What a call of `x_report_record_once_per_minute` reads: the clock, once to begin a minute and
once to end it, and the volume. -/
structure MinuteInput where
  utcBegin : UInt32
  utcEnd : UInt32
  snoreState : UInt8
  snorevolume : UInt16

/-! ### Recording -/

namespace SleepLog
variable (s : SleepLog)

/-- `x_report_start`. -/
def start (counters : SleepCounters) (utc : UInt32) : SleepLog :=
  { s with report := { sleeptimerCome := utc.toUInt64 }, old := counters }

/-- `x_report_analyse`. -/
def analyse (counters : SleepCounters) : SleepLog :=
  let bump (moved : Bool) (n : UInt16) : UInt16 := if moved then n + 1 else n
  let small := bump (s.old.smallMove ≠ counters.smallMove) s.report.tidongSmallNub
  let snoring := bump (s.old.snoreNub ≠ counters.snoreNub) s.report.snoringNub
  { s with
    report := { s.report with
      tidongBigNub := bump (counters.bigMove ≠ s.old.bigMove) s.report.tidongBigNub
      tidongSmallNub := small
      snoringNub := snoring
      tidongNub := small + snoring
      interventionsNub := bump (s.old.snoreIntervenNub ≠ counters.snoreIntervenNub)
        s.report.interventionsNub
      adjNubl := bump (s.old.aiAdjNub ≠ counters.aiAdjNub) s.report.adjNubl }
    old := counters }

end SleepLog

/-- `(b & ~(0x3 << shift)) | (v << shift)`. -/
def patchBits (b : UInt8) (shift : UInt8) (v : UInt8) : UInt8 :=
  (b &&& ~~~(3 <<< shift)) ||| (v <<< shift)

/-- Two bits of a record array. -/
def writeBits (record : Vector UInt8 180) (index shift : UInt16) (v : UInt8) :
    Option (Vector UInt8 180) :=
  if h : index.toNat < 180 then
    some (record.set index.toNat (patchBits record[index.toNat] shift.toUInt8 v) h)
  else none

namespace SleepReport
variable (r : SleepReport)

def recordVolume (i : MinuteInput) : Option SleepReport :=
  if h : r.snoringVolumeNub.toNat < 720 then
    some { r with
      snoringVolumebuff := r.snoringVolumebuff.set r.snoringVolumeNub.toNat
        (i.snoreState <<< 7 ||| (i.snorevolume / 10).toUInt8) h
      snoringVolumeNub := r.snoringVolumeNub + 1 }
  else none

/-- The minute had a large body movement. -/
def MovedBig (m : MinuteStart) : Prop := r.tidongBigNub.toUInt64 ≠ m.oldbigMove

/-- The minute had a small body movement. -/
def MovedSmall (m : MinuteStart) : Prop := r.tidongSmallNub.toUInt64 ≠ m.oldsmallMove

/-- The minute had an intervention. -/
def Intervened (m : MinuteStart) : Prop := r.interventionsNub.toUInt64 ≠ m.oldinterventionsNub

/-- The minute had an adjustment. -/
def Adjusted (m : MinuteStart) : Prop := r.adjNubl.toUInt64 ≠ m.oldadjNubl

variable (m : MinuteStart)

instance : Decidable (r.MovedBig m) := inferInstanceAs (Decidable (_ ≠ _))
instance : Decidable (r.MovedSmall m) := inferInstanceAs (Decidable (_ ≠ _))
instance : Decidable (r.Intervened m) := inferInstanceAs (Decidable (_ ≠ _))
instance : Decidable (r.Adjusted m) := inferInstanceAs (Decidable (_ ≠ _))

def recordMovement : Option SleepReport :=
  if r.MovedBig m ∨ r.MovedSmall m then do
    let record ← writeBits r.tidongRecord (r.tidongBigNub / 4) (r.tidongBigNub % 4)
      (if r.MovedBig m then 2 else 1)
    some { r with tidongRecord := record, tidongRecordNub := r.tidongRecordNub + 1 }
  else some r

def recordIntervention : Option SleepReport :=
  if r.Intervened m then do
    let record ← writeBits r.snoringinterveneRecord (r.snoringinterveneNub / 4)
      (r.snoringinterveneNub % 4) 2
    some { r with
      snoringinterveneRecord := record
      snoringinterveneNub := r.snoringinterveneNub + 1 }
  else some r

def recordAdjustment : Option SleepReport :=
  if r.Adjusted m then do
    let record ← writeBits r.adjRecord (r.adjRecordNub / 8) (r.adjRecordNub % 8) 2
    some { r with adjRecord := record, adjRecordNub := r.adjRecordNub + 1 }
  else some r

end SleepReport

namespace SleepLog
variable (s : SleepLog) (i : MinuteInput)

/-- The minute that a call is in: it begins with the call if there is none. -/
def opened : MinuteStart :=
  if s.minute.oldutc = 0 then {
    oldutc := i.utcBegin.toUInt64
    oldbigMove := s.report.tidongBigNub.toUInt64
    oldsmallMove := s.report.tidongSmallNub.toUInt64
    oldinterventionsNub := s.report.interventionsNub.toUInt64
    oldadjNubl := s.report.adjNubl.toUInt64 }
  else s.minute

/-- The call ends its minute. -/
def Ends : Prop := i.utcEnd.toUInt64 - (s.opened i).oldutc ≥ 60

instance : Decidable (s.Ends i) := inferInstanceAs (Decidable (_ ≤ _))

/-- `x_report_record_once_per_minute`. -/
def recordOncePerMinute : Option SleepLog :=
  if s.Ends i then do
    let r₁ ← s.report.recordVolume i
    let r₂ ← r₁.recordMovement (s.opened i)
    let r₃ ← r₂.recordIntervention (s.opened i)
    let r₄ ← r₃.recordAdjustment (s.opened i)
    some { s with report := r₄, minute := { s.opened i with oldutc := 0 } }
  else some { s with minute := s.opened i }

end SleepLog

/-! ### Frames -/

/-- The bytes of a 64-bit value, low byte first. -/
def le64 (x : UInt64) : List UInt8 :=
  [x.toUInt8, (x >>> 8).toUInt8, (x >>> 16).toUInt8, (x >>> 24).toUInt8, (x >>> 32).toUInt8,
    (x >>> 40).toUInt8, (x >>> 48).toUInt8, (x >>> 56).toUInt8]

/-- The length byte and the CRC of what is in `txbuff`. -/
def sealFrame (txbuff : List UInt8) : List UInt8 :=
  let data := txbuff.set 1 (UInt8.ofNat (txbuff.length - 2))
  data ++ [(modbusCrcCompute data).toUInt8, (modbusCrcCompute data >>> 8).toUInt8]

/-- The frame of a report: the time the night began, two bytes and the content. -/
def reportFrame (code : UInt8) (come : UInt64) (a b : UInt8) (body : List UInt8) : List UInt8 :=
  sealFrame ([0x5a, 0, 2, code] ++ le64 come ++ [a, b] ++ body)

/-- Where a report goes: `HAL_UART_Transmit` or `ls_bleup_server_send_notification`. -/
inductive ReportTx where
  | uart (frame : List UInt8)
  | notify (frame : List UInt8)
deriving DecidableEq

/-- `type`, as `UART_UPDATA` and `BLE_UPDATA`. -/
def reportTx (type : UInt8) (frame : List UInt8) : ReportTx :=
  if type = 0 then .uart frame else .notify frame

namespace SleepReport
variable (r : SleepReport)

/-- The report of a record array.  `copied` bytes of it are put into `txbuff`, of 200 bytes, and
the frame goes on `advanced` bytes behind its head. -/
def getRecord (type code : UInt8) (nub : UInt16) (record : Vector UInt8 180)
    (copied advanced : ℕ) : Option ReportTx :=
  if copied ≤ 180 ∧ 14 + advanced + 2 ≤ 200 then
    some (reportTx type (reportFrame code r.sleeptimerCome nub.toUInt8 (nub >>> 8).toUInt8
      ((record.toList.take copied ++ List.replicate (186 - copied) 0).take advanced)))
  else none

/-- The bytes of `nub` records, `per` to a byte. -/
def recordBytes (per nub : ℕ) : ℕ := if nub % per = 0 then nub / per else nub / per + 1

/-- `x_report_get_tidongRecord`. -/
def getTidongRecord (type : UInt8) : Option ReportTx :=
  r.getRecord type 4 r.tidongRecordNub r.tidongRecord (recordBytes 4 r.tidongRecordNub.toNat)
    (recordBytes 4 r.tidongRecordNub.toNat)

/-- `x_report_get_adjRecord`. -/
def getAdjRecord (type : UInt8) : Option ReportTx :=
  r.getRecord type 2 r.adjRecordNub r.adjRecord (recordBytes 8 r.adjRecordNub.toNat)
    (recordBytes 8 r.adjRecordNub.toNat)

/-- `x_report_get_snoringinterveneRecord`: behind a last byte that is not full, the frame goes on
by the number of interventions. -/
def getSnoringinterveneRecord (type : UInt8) : Option ReportTx :=
  r.getRecord type 5 r.snoringinterveneNub r.snoringinterveneRecord
    (recordBytes 8 r.snoringinterveneNub.toNat)
    (if r.snoringinterveneNub.toNat % 8 = 0 then r.snoringinterveneNub.toNat / 8
      else r.interventionsNub.toNat / 8 + 1)

/-! ### Snore volumes -/

/-- `SUBCONTRACT_SIZE`. -/
def subcontractSize : ℕ := 150

/-- `fbNub`: the number of fragments. -/
def fbNub : UInt8 := UInt8.ofNat (recordBytes subcontractSize r.snoringVolumeNub.toNat)

/-- The packet of fragment `l`. -/
def volumePacket (l : UInt32) : Option (List UInt8) :=
  let n : UInt32 := if l + 1 = r.fbNub.toUInt32 then r.snoringVolumeNub.toUInt32 - l * 150 else 150
  if (l * 150).toNat + n.toNat ≤ 720 ∧ 14 + n.toNat + 2 ≤ 200 then
    some (reportFrame 3 r.sleeptimerCome r.fbNub (l + 1).toUInt8
      ((r.snoringVolumebuff.toList.drop (l * 150).toNat).take n.toNat))
  else none

end SleepReport

/-- `snoringVolumeupdataFlag`, and the statics of `x_report_snoringVolumeupdataRun`. -/
structure Updata where
  snoringVolumeupdataFlag : UInt8 := 0
  timerT : UInt32 := 0
  l : UInt32 := 0

namespace Updata
variable (u : Updata) (r : SleepReport)

/-- `x_report_get_snoringVolume`. -/
def getSnoringVolume (type : UInt8) : Option (Updata × List ReportTx) := do
  let packets ← (List.range r.fbNub.toNat).mapM fun l => r.volumePacket (.ofNat l)
  if type = 0 then some (u, packets.map .uart)
  else if r.fbNub = 0 then some (u, [])
  else some ({ u with snoringVolumeupdataFlag := 1 }, [])

/-- The time the wait began, which is never forgotten. -/
def waitStart (timer : UInt32) : UInt32 := if u.timerT = 0 then timer else u.timerT

/-- `x_report_snoringVolumeupdataRun`, with the packet it offers, if it does. -/
def updataRun (timer : UInt32) : Option (Updata × Option (List UInt8)) :=
  if u.snoringVolumeupdataFlag = 1 then
    if u.waitStart timer ≠ 0 ∧ timer - u.waitStart timer > 20 then do
      let packet ← r.volumePacket u.l
      if u.l + 1 ≥ r.fbNub.toUInt32 then
        some (⟨0, u.waitStart timer, 0⟩, some packet)
      else some ({ u with timerT := u.waitStart timer, l := u.l + 1 }, some packet)
    else some ({ u with timerT := u.waitStart timer }, none)
  else some ({ u with l := 0 }, none)

end Updata

end ErgoDock
