import ErgoDock.ReportFrames

/-! # The records of a night

A night is any run of calls that count (`x_report_analyse`) and record
(`x_report_record_once_per_minute`), from `x_report_start` on.  What is to be read back are the
movements of the minutes that had one, and as many interventions and adjustments as there were
minutes with one (`Recorded`).

The writer puts two bits for every record, where one bit is reported for an intervention and an
adjustment, and places a movement by the number of large movements, unscaled, instead of its own
number.  So nothing but a few movements comes back (`night_round_trips_iff`). -/

namespace ErgoDock

open Machine Packed

/-! ### Writing two bits -/

theorem testBit_shiftLeft_uint8 (x : UInt8) {shift : UInt8} (hshift : shift.toNat < 8) {j : ℕ}
    (hj : j < 8) : (x <<< shift).toNat.testBit j =
      (decide (shift.toNat ≤ j) && x.toNat.testBit (j - shift.toNat)) := by
  rw [UInt8.toNat_shiftLeft, Nat.mod_eq_of_lt (a := shift.toNat) hshift, Nat.testBit_mod_two_pow,
    decide_eq_true hj, Bool.true_and, Nat.testBit_shiftLeft]

theorem testBit_patchBits (b v : UInt8) {shift : UInt8} (hshift : shift.toNat < 8)
    (hv : v.toNat < 4) {j : ℕ} (hj : j < 8) :
    (patchBits b shift v).toNat.testBit j =
      if shift.toNat ≤ j ∧ j < shift.toNat + 2 then v.toNat.testBit (j - shift.toNat)
      else b.toNat.testBit j := by
  have hnot : ∀ x : UInt8, (~~~x).toNat.testBit j = !x.toNat.testBit j := fun x => by
    change (~~~x).toBitVec.getLsbD j = !x.toBitVec.getLsbD j
    rw [UInt8.toBitVec_not, BitVec.getLsbD_not, decide_eq_true hj, Bool.true_and]
  have hmask : (3 : UInt8).toNat.testBit (j - shift.toNat) = decide (j - shift.toNat < 2) :=
    Nat.testBit_two_pow_sub_one 2 _
  unfold patchBits
  rw [UInt8.toNat_or, UInt8.toNat_and, Nat.testBit_or, Nat.testBit_and, hnot,
    testBit_shiftLeft_uint8 _ hshift hj, testBit_shiftLeft_uint8 _ hshift hj, hmask]
  by_cases hle : shift.toNat ≤ j
  · by_cases hlt : j < shift.toNat + 2
    · rw [if_pos ⟨hle, hlt⟩, decide_eq_true hle, decide_eq_true (show j - shift.toNat < 2 by omega)]
      simp
    · have hpow : v.toNat < 2 ^ (j - shift.toNat) :=
        Nat.lt_of_lt_of_le hv (show 2 ^ 2 ≤ 2 ^ (j - shift.toNat) from
          Nat.pow_le_pow_right (by decide) (by omega))
      rw [if_neg fun h => hlt h.2, Nat.testBit_lt_two_pow hpow,
        decide_eq_false (show ¬ j - shift.toNat < 2 by omega)]
      simp
  · rw [if_neg fun h => hle h.1, decide_eq_false hle]
    simp

theorem bit_writeBits {record record' : Vector UInt8 180} {index shift : UInt16} {v : UInt8}
    (h : writeBits record index shift v = some record') (hshift : shift.toNat < 8)
    (hv : v.toNat < 4) (k : ℕ) :
    bit record'.toList k =
      if k / 8 = index.toNat ∧ 8 * index.toNat + shift.toNat ≤ k ∧
        k < 8 * index.toNat + shift.toNat + 2 then
        v.toNat.testBit (k - (8 * index.toNat + shift.toNat))
      else bit record.toList k := by
  unfold writeBits at h
  split at h
  · next hindex =>
    have hlen : index.toNat < record.toList.length := by simpa using hindex
    have hs : shift.toUInt8.toNat = shift.toNat := by
      rw [UInt16.toNat_toUInt8]
      omega
    rw [← Option.some.inj h, Vector.toList_set, bit_set hlen,
      testBit_patchBits _ _ (by omega) hv (Nat.mod_lt k (by decide)), hs]
    by_cases hk : k / 8 = index.toNat
    · have hbit : bit record.toList k = record[index.toNat].toNat.testBit (k % 8) := by
        rw [bit, hk, List.getD_eq_getElem _ _ hlen, Vector.getElem_toList]
      rw [if_pos hk, hbit]
      have hk' : k % 8 - shift.toNat = k - (8 * index.toNat + shift.toNat) := by omega
      rw [hk']
      refine if_congr ?_ rfl rfl
      omega
    · rw [if_neg hk, if_neg fun hc => hk hc.1]
  · cases h

/-! ### Nights -/

inductive NightEvent where
  /-- `x_report_analyse`, with the counters it finds. -/
  | analysed (counters : SleepCounters)
  /-- `x_report_record_once_per_minute`. -/
  | called (i : MinuteInput)

/-- A step of the night; nothing more happens after an access outside an array. -/
def nightStep (s : Option SleepLog) : NightEvent → Option SleepLog
  | .analysed counters => s.map fun log => log.analyse counters
  | .called i => s.bind fun log => log.recordOncePerMinute i

inductive Movement where
  | small
  | large
deriving DecidableEq

/-- How a movement is recorded. -/
def Movement.code : Movement → UInt8
  | small => 1
  | large => 2

/-- The movement of a minute. -/
def SleepReport.movement (r : SleepReport) (m : MinuteStart) : Option Movement :=
  if r.MovedBig m then some .large else if r.MovedSmall m then some .small else none

/-- What was recorded: the movements in order, and how often an intervention and an adjustment. -/
structure Recorded where
  movements : List Movement := []
  interventions : ℕ := 0
  adjustments : ℕ := 0

/-- A call that ends a minute records what the minute had. -/
def Recorded.minute (h : Recorded) (r : SleepReport) (m : MinuteStart) : Recorded where
  movements := h.movements ++ (r.movement m).toList
  interventions := h.interventions + if r.Intervened m then 1 else 0
  adjustments := h.adjustments + if r.Adjusted m then 1 else 0

def watchRecords (h : Recorded) (s : Option SleepLog) : NightEvent → Recorded
  | .analysed _ => h
  | .called i => s.elim h fun log =>
      if log.Ends i then h.minute log.report (log.opened i) else h

/-- The night with what was recorded in it. -/
def recordStep : Option SleepLog × Recorded → NightEvent → Option SleepLog × Recorded :=
  monitor nightStep watchRecords

/-- The reports read back what was recorded. -/
structure Recorded.ReadBack (h : Recorded) (r : SleepReport) : Prop where
  movements : r.Reports r.getTidongRecord 4 2 (h.movements.map fun m => m.code.toNat)
  interventions : r.Reports r.getSnoringinterveneRecord 5 1 (List.replicate h.interventions 1)
  adjustments : r.Reports r.getAdjRecord 2 1 (List.replicate h.adjustments 1)

/-- Between `n` records and `n'`, `w` bits wide, the only bits that change are those of the records
in between. -/
def OnlyRecords (w : ℕ) (record record' : Vector UInt8 180) (n n' : ℕ) : Prop :=
  ∀ k, bit record'.toList k ≠ bit record.toList k → w * n ≤ k ∧ k < w * n'

/-- A step writes to the bits of what it records, and to no others. -/
structure Recorded.OwnBits (h h' : Recorded) (r r' : SleepReport) : Prop where
  movements : OnlyRecords 2 r.tidongRecord r'.tidongRecord h.movements.length h'.movements.length
  interventions : OnlyRecords 1 r.snoringinterveneRecord r'.snoringinterveneRecord
    h.interventions h'.interventions
  adjustments : OnlyRecords 1 r.adjRecord r'.adjRecord h.adjustments h'.adjustments

/-- The step stays inside the arrays and changes its own bits only, and all that was recorded can
be read back after it. -/
def RecordsRight (p : Option SleepLog × Recorded) (e : NightEvent) : Prop :=
  ∀ log, p.1 = some log → ∃ log', nightStep p.1 e = some log' ∧
    p.2.OwnBits (watchRecords p.2 p.1 e) log.report log'.report ∧
      (watchRecords p.2 p.1 e).ReadBack log'.report

/-- Throughout the night, what is recorded can be read back. -/
def RoundTrips (log : SleepLog) (es : List NightEvent) : Prop :=
  Recorded.ReadBack {} log.report ∧ Along recordStep RecordsRight (some log, {}) es

/-- The call ends no minute, or one that is among the first 720, had neither an intervention nor
an adjustment, and if it had a movement, the number of large movements places it where its own
number does. -/
def SleepLog.Fits (log : SleepLog) (i : MinuteInput) : Prop :=
  log.Ends i → log.report.snoringVolumeNub.toNat < 720 ∧
    ¬ log.report.Intervened (log.opened i) ∧ ¬ log.report.Adjusted (log.opened i) ∧
    (log.report.movement (log.opened i) ≠ none →
      8 * (log.report.tidongBigNub.toNat / 4) + log.report.tidongBigNub.toNat % 4 =
        2 * log.report.tidongRecordNub.toNat)

def MinuteFits (s : Option SleepLog) : NightEvent → Prop
  | .analysed _ => True
  | .called i => ∀ log, s = some log → log.Fits i

/-! ### A minute -/

/-- One of the arrays in a minute: a value, if there is one, is written and counted. -/
def putRecord (value : Option UInt8) (record : Vector UInt8 180) (nub index shift : UInt16) :
    Option (Vector UInt8 180 × UInt16) :=
  match value with
  | some v => (writeBits record index shift v).map fun record' => (record', nub + 1)
  | none => some (record, nub)

theorem putRecord_some {v : UInt8} {record : Vector UInt8 180} {nub index shift : UInt16}
    {p : Vector UInt8 180 × UInt16} (h : putRecord (some v) record nub index shift = some p) :
    writeBits record index shift v = some p.1 ∧ p.2 = nub + 1 := by
  obtain ⟨record', hw, rfl⟩ := Option.map_eq_some_iff.mp h
  exact ⟨hw, rfl⟩

namespace SleepReport
variable (r : SleepReport) (m : MinuteStart)

theorem recordMovement_eq : r.recordMovement m =
    (putRecord ((r.movement m).map Movement.code) r.tidongRecord r.tidongRecordNub
      (r.tidongBigNub / 4) (r.tidongBigNub % 4)).map fun p =>
        { r with tidongRecord := p.1, tidongRecordNub := p.2 } := by
  unfold recordMovement movement
  by_cases hbig : r.MovedBig m
  · simp only [hbig, true_or, if_true, Option.map_some, Movement.code, putRecord]
    cases writeBits r.tidongRecord (r.tidongBigNub / 4) (r.tidongBigNub % 4) 2 with
    | none => rfl
    | some record => rfl
  · by_cases hsmall : r.MovedSmall m
    · simp only [hbig, hsmall, false_or, if_true, if_false, Option.map_some, Movement.code,
        putRecord]
      cases writeBits r.tidongRecord (r.tidongBigNub / 4) (r.tidongBigNub % 4) 1 with
      | none => rfl
      | some record => rfl
    · simp only [hbig, hsmall, false_or, if_false]
      rfl

theorem recordIntervention_eq : r.recordIntervention m =
    (putRecord (if r.Intervened m then some 2 else none) r.snoringinterveneRecord
      r.snoringinterveneNub (r.snoringinterveneNub / 4) (r.snoringinterveneNub % 4)).map fun p =>
        { r with snoringinterveneRecord := p.1, snoringinterveneNub := p.2 } := by
  unfold recordIntervention
  by_cases h : r.Intervened m
  · simp only [h, if_true, putRecord]
    cases writeBits r.snoringinterveneRecord (r.snoringinterveneNub / 4)
        (r.snoringinterveneNub % 4) 2 with
    | none => rfl
    | some record => rfl
  · simp only [h, if_false]
    rfl

theorem recordAdjustment_eq : r.recordAdjustment m =
    (putRecord (if r.Adjusted m then some 2 else none) r.adjRecord r.adjRecordNub
      (r.adjRecordNub / 8) (r.adjRecordNub % 8)).map fun p =>
        { r with adjRecord := p.1, adjRecordNub := p.2 } := by
  unfold recordAdjustment
  by_cases h : r.Adjusted m
  · simp only [h, if_true, putRecord]
    cases writeBits r.adjRecord (r.adjRecordNub / 8) (r.adjRecordNub % 8) 2 with
    | none => rfl
    | some record => rfl
  · simp only [h, if_false]
    rfl

end SleepReport

namespace SleepLog
variable {s s' : SleepLog} {i : MinuteInput}

theorem recordVolume_eq_some {r r' : SleepReport} : r.recordVolume i = some r' ↔
    ∃ h : r.snoringVolumeNub.toNat < 720, r' = { r with
      snoringVolumebuff := r.snoringVolumebuff.set r.snoringVolumeNub.toNat
        (i.snoreState <<< 7 ||| (i.snorevolume / 10).toUInt8) h
      snoringVolumeNub := r.snoringVolumeNub + 1 } := by
  unfold SleepReport.recordVolume
  split
  · next h => exact ⟨fun he => ⟨h, (Option.some.inj he).symm⟩, fun ⟨_, he⟩ => he ▸ rfl⟩
  · next h => exact ⟨fun he => absurd he.symm (Option.some_ne_none _), fun ⟨h', _⟩ => absurd h' h⟩

/-- What a call that ends a minute does, one array after the other. -/
theorem recordOncePerMinute_ends (h : s.Ends i) : s.recordOncePerMinute i = some s' ↔
    ∃ hvol : s.report.snoringVolumeNub.toNat < 720,
    ∃ tidong, putRecord ((s.report.movement (s.opened i)).map Movement.code)
      s.report.tidongRecord s.report.tidongRecordNub (s.report.tidongBigNub / 4)
      (s.report.tidongBigNub % 4) = some tidong ∧
    ∃ intervene, putRecord (if s.report.Intervened (s.opened i) then some 2 else none)
      s.report.snoringinterveneRecord s.report.snoringinterveneNub
      (s.report.snoringinterveneNub / 4) (s.report.snoringinterveneNub % 4) = some intervene ∧
    ∃ adj, putRecord (if s.report.Adjusted (s.opened i) then some 2 else none)
      s.report.adjRecord s.report.adjRecordNub (s.report.adjRecordNub / 8)
      (s.report.adjRecordNub % 8) = some adj ∧
    { s with
      report := { s.report with
        snoringVolumebuff := s.report.snoringVolumebuff.set s.report.snoringVolumeNub.toNat
          (i.snoreState <<< 7 ||| (i.snorevolume / 10).toUInt8) hvol
        snoringVolumeNub := s.report.snoringVolumeNub + 1
        tidongRecord := tidong.1
        tidongRecordNub := tidong.2
        snoringinterveneRecord := intervene.1
        snoringinterveneNub := intervene.2
        adjRecord := adj.1
        adjRecordNub := adj.2 }
      minute := { s.opened i with oldutc := 0 } } = s' := by
  unfold recordOncePerMinute
  rw [if_pos h]
  simp only [Option.bind_eq_bind, Option.bind_eq_some_iff, SleepReport.recordMovement_eq,
    SleepReport.recordIntervention_eq, SleepReport.recordAdjustment_eq, Option.map_eq_some_iff,
    exists_exists_and_eq_and, Option.some.injEq]
  constructor
  · rintro ⟨r, hr, tidong, htidong, intervene, hintervene, adj, hadj, rfl⟩
    obtain ⟨hvol, rfl⟩ := recordVolume_eq_some.mp hr
    exact ⟨hvol, tidong, htidong, intervene, hintervene, adj, hadj, rfl⟩
  · rintro ⟨hvol, tidong, htidong, intervene, hintervene, adj, hadj, rfl⟩
    exact ⟨_, recordVolume_eq_some.mpr ⟨hvol, rfl⟩, tidong, htidong, intervene, hintervene, adj,
      hadj, rfl⟩

end SleepLog

/-! ### What the arrays hold -/

theorem code_lt (m : Movement) : m.code.toNat < 2 ^ 2 := by cases m <;> decide

/-- The movements are packed in the array, and nothing is behind them. -/
structure Packs (record : Vector UInt8 180) (nub : UInt16) (movements : List Movement) : Prop where
  nub : nub.toNat = movements.length
  packed : fields 2 record.toList movements.length = movements.map fun m => m.code.toNat
  rest : ∀ k, 2 * movements.length ≤ k → bit record.toList k = false

namespace Packs
variable {record record' : Vector UInt8 180} {nub index shift : UInt16}
  {movements : List Movement} {m : Movement}

/-- A record in its own place. -/
theorem write (h : Packs record nub movements)
    (hw : writeBits record index shift m.code = some record') (hshift : shift.toNat < 4)
    (hplace : 8 * index.toNat + shift.toNat = 2 * movements.length)
    (hlt : movements.length < 720) :
    Packs record' (nub + 1) (movements ++ [m]) ∧
      OnlyRecords 2 record record' movements.length (movements.length + 1) := by
  have hbit := bit_writeBits hw (by omega) (code_lt m)
  have hsame : ∀ k, k < 2 * movements.length ∨ 2 * movements.length + 2 ≤ k →
      bit record'.toList k = bit record.toList k := fun k hk => by
    rw [hbit, if_neg (by omega)]
  refine ⟨⟨?_, ?_, fun k hk => ?_⟩, fun k hk => ?_⟩
  · rw [UInt16.toNat_add, h.nub, List.length_append]
    exact Nat.mod_eq_of_lt (by change _ + 1 < 65536; omega)
  · have hnew : field 2 record'.toList movements.length = m.code.toNat := by
      rw [field_eq_iff (by decide) (code_lt m)]
      intro j hj
      rw [hbit, if_pos (by omega), hplace, Nat.add_sub_cancel_left]
    have hold : fields 2 record'.toList movements.length =
        movements.map fun m => m.code.toNat := by
      rw [← h.packed]
      exact fields_congr (by decide) fun k hk => hsame k (.inl hk)
    rw [List.length_append, List.length_singleton, fields_succ, hold, hnew, List.map_append,
      List.map_singleton]
  · rw [List.length_append, List.length_singleton] at hk
    rw [hsame k (by omega)]
    exact h.rest k (by omega)
  · by_contra hout
    exact hk (hsame k (by omega))

/-- A record that is read back was written in its own place. -/
theorem place (h : Packs record nub movements)
    (hw : writeBits record index shift m.code = some record') (hshift : shift.toNat < 4)
    (hread : fields 2 record'.toList (movements.length + 1) =
      (movements ++ [m]).map fun m => m.code.toNat) :
    8 * index.toNat + shift.toNat = 2 * movements.length := by
  have hnew : field 2 record'.toList movements.length = m.code.toNat := by
    rw [fields_succ, List.map_append, List.map_singleton] at hread
    exact List.singleton_inj.mp (List.append_inj_right' hread rfl)
  -- the bit of the code that is set stands in the new record, where there was none
  obtain ⟨p, hp, hset, honly⟩ : ∃ p < 2, m.code.toNat.testBit p = true ∧
      ∀ q, m.code.toNat.testBit q = true → q = p := by
    cases m with
    | small =>
        refine ⟨0, by decide, by decide, fun q hq => ?_⟩
        have hdec : decide (0 = q) = true := Nat.testBit_two_pow.symm.trans hq
        exact (of_decide_eq_true hdec).symm
    | large =>
        refine ⟨1, by decide, by decide, fun q hq => ?_⟩
        have hdec : decide (1 = q) = true := Nat.testBit_two_pow.symm.trans hq
        exact (of_decide_eq_true hdec).symm
  have hat := (field_eq_iff (by decide) (code_lt m)).mp hnew p hp
  rw [hset, bit_writeBits hw (by omega) (code_lt m)] at hat
  split at hat
  · next hin =>
    have hq := honly _ hat
    omega
  · rw [h.rest _ (by omega)] at hat
    cases hat

end Packs

/-- An intervention or an adjustment sets the bit behind its own. -/
theorem not_onlyRecords_first {record record' : Vector UInt8 180}
    (hzero : record = .replicate 180 0) (hw : writeBits record 0 0 2 = some record') :
    ¬ OnlyRecords 1 record record' 0 1 := by
  intro hown
  subst hzero
  have hset : bit record'.toList 1 = true := by
    rw [bit_writeBits hw (by decide) (by decide)]
    rfl
  have hclear : bit (Vector.replicate 180 (0 : UInt8)).toList 1 = false := by
    rw [Vector.toList_replicate]
    exact bit_replicate 180 1
  have hlt := (hown 1 (by rw [hset, hclear]; decide)).2
  omega

namespace SleepReport

/-- A report has only one content. -/
theorem Reports.unique {r : SleepReport} {report : UInt8 → Option ReportTx} {code : UInt8}
    {w : ℕ} {records records' : List ℕ} (h : r.Reports report code w records)
    (h' : r.Reports report code w records') : records = records' := by
  obtain ⟨frame, hsent, hread⟩ := h
  obtain ⟨frame', hsent', hread'⟩ := h'
  have hframe : frame = frame' :=
    ReportTx.uart.inj (Option.some.inj ((hsent 0).symm.trans (hsent' 0)))
  rw [hframe, hread'] at hread
  exact (congrArg Prod.snd (Option.some.inj hread)).symm

end SleepReport

/-- What holds in a night as long as the minutes fit: the movements are packed, and nothing else
was recorded. -/
structure Recorded.Kept (h : Recorded) (r : SleepReport) : Prop where
  tidong : Packs r.tidongRecord r.tidongRecordNub h.movements
  le : h.movements.length ≤ r.snoringVolumeNub.toNat
  volume : r.snoringVolumeNub.toNat ≤ 720
  intervene : r.snoringinterveneNub = 0 ∧ r.snoringinterveneRecord = .replicate 180 0
  interventions : h.interventions = 0
  adj : r.adjRecordNub = 0 ∧ r.adjRecord = .replicate 180 0
  adjustments : h.adjustments = 0

namespace Recorded.Kept
variable {h : Recorded} {log log' : SleepLog} {i : MinuteInput}

theorem readBack {r : SleepReport} (hk : h.Kept r) : h.ReadBack r := by
  have hle := Nat.le_trans hk.le hk.volume
  refine ⟨?_, ?_, ?_⟩
  · rw [← hk.tidong.packed, ← hk.tidong.nub]
    exact SleepReport.reports_tidongRecord (hk.tidong.nub.trans_le hle)
  · have hread := SleepReport.reports_snoringinterveneRecord (r := r)
      (by rw [hk.intervene.1]; decide) (.inl (by rw [hk.intervene.1]; decide))
    rw [hk.interventions]
    rwa [hk.intervene.1] at hread
  · have hread := SleepReport.reports_adjRecord (r := r) (by rw [hk.adj.1]; decide)
    rw [hk.adjustments]
    rwa [hk.adj.1] at hread

theorem toNat_place (n : UInt16) : (n / 4).toNat = n.toNat / 4 ∧ (n % 4).toNat = n.toNat % 4 :=
  ⟨UInt16.toNat_div n 4, UInt16.toNat_mod n 4⟩

/-- What becomes of the movements in a minute that fits. -/
theorem advance_movements (hk : h.Kept log.report) (hend : log.Ends i) (hfit : log.Fits i) :
    ∃ tidong, putRecord ((log.report.movement (log.opened i)).map Movement.code)
        log.report.tidongRecord log.report.tidongRecordNub (log.report.tidongBigNub / 4)
        (log.report.tidongBigNub % 4) = some tidong ∧
      Packs tidong.1 tidong.2 (h.minute log.report (log.opened i)).movements ∧
      OnlyRecords 2 log.report.tidongRecord tidong.1 h.movements.length
        (h.minute log.report (log.opened i)).movements.length := by
  obtain ⟨hvol, -, -, hplace⟩ := hfit hend
  have hlt := Nat.lt_of_le_of_lt hk.le hvol
  unfold Recorded.minute
  cases hm : log.report.movement (log.opened i) with
  | none =>
      refine ⟨(log.report.tidongRecord, log.report.tidongRecordNub), rfl, ?_,
        fun k hk => absurd rfl hk⟩
      rw [Option.toList_none, List.append_nil]
      exact hk.tidong
  | some m =>
      have hat := hplace (by rw [hm]; exact Option.some_ne_none m)
      obtain ⟨hdiv, hmod⟩ := toNat_place log.report.tidongBigNub
      rw [← hdiv, ← hmod, hk.tidong.nub] at hat
      have hshift := Nat.mod_lt log.report.tidongBigNub.toNat (show 0 < 4 by decide)
      have hindex : (log.report.tidongBigNub / 4).toNat < 180 := by omega
      have hw : writeBits log.report.tidongRecord (log.report.tidongBigNub / 4)
          (log.report.tidongBigNub % 4) m.code = some _ := dif_pos hindex
      refine ⟨_, congrArg (Option.map _) hw, ?_⟩
      rw [Option.toList_some, List.length_append, List.length_singleton]
      exact hk.tidong.write hw (by omega) hat hlt

/-- A minute that fits. -/
theorem advance (hk : h.Kept log.report) (hend : log.Ends i) (hfit : log.Fits i) :
    ∃ log', log.recordOncePerMinute i = some log' ∧
      h.OwnBits (h.minute log.report (log.opened i)) log.report log'.report ∧
      (h.minute log.report (log.opened i)).Kept log'.report := by
  obtain ⟨tidong, htidong, hpacks, hown⟩ := hk.advance_movements hend hfit
  obtain ⟨hvol, hint, hadj, -⟩ := hfit hend
  have hnub : (log.report.snoringVolumeNub + 1).toNat = log.report.snoringVolumeNub.toNat + 1 := by
    rw [UInt16.toNat_add]
    exact Nat.mod_eq_of_lt (by change _ + 1 < 65536; omega)
  have hinterventions : (h.minute log.report (log.opened i)).interventions = 0 := by
    rw [Recorded.minute, if_neg hint, hk.interventions]
  have hadjustments : (h.minute log.report (log.opened i)).adjustments = 0 := by
    rw [Recorded.minute, if_neg hadj, hk.adjustments]
  refine ⟨_, (SleepLog.recordOncePerMinute_ends hend).mpr ⟨hvol, tidong, htidong,
    (log.report.snoringinterveneRecord, log.report.snoringinterveneNub),
    congrArg (fun c => putRecord c _ _ _ _) (if_neg hint),
    (log.report.adjRecord, log.report.adjRecordNub),
    congrArg (fun c => putRecord c _ _ _ _) (if_neg hadj), rfl⟩, ⟨hown, ?_, ?_⟩,
    hpacks, ?_, ?_, hk.intervene, hinterventions, hk.adj, hadjustments⟩
  · exact fun k hk => absurd rfl hk
  · exact fun k hk => absurd rfl hk
  · have hone : (log.report.movement (log.opened i)).toList.length ≤ 1 :=
      Option.length_toList_le
    have hle := hk.le
    rw [hnub, Recorded.minute, List.length_append]
    omega
  · rw [hnub]
    exact hvol

/-- A minute that is recorded rightly fits. -/
theorem fits (hk : h.Kept log.report) (hend : log.Ends i)
    (hs : log.recordOncePerMinute i = some log')
    (hown : h.OwnBits (h.minute log.report (log.opened i)) log.report log'.report)
    (hread : (h.minute log.report (log.opened i)).ReadBack log'.report) : log.Fits i := by
  intro _
  obtain ⟨hvol, tidong, htidong, intervene, hintervene, adj, hadj, rfl⟩ :=
    (SleepLog.recordOncePerMinute_ends hend).mp hs
  refine ⟨hvol, fun hin => ?_, fun hin => ?_, fun hm => ?_⟩
  · rw [if_pos hin, hk.intervene.1] at hintervene
    have hbits := hown.interventions
    simp only [Recorded.minute, if_pos hin, hk.interventions] at hbits
    exact not_onlyRecords_first hk.intervene.2 (putRecord_some hintervene).1 hbits
  · rw [if_pos hin, hk.adj.1] at hadj
    have hbits := hown.adjustments
    simp only [Recorded.minute, if_pos hin, hk.adjustments] at hbits
    exact not_onlyRecords_first hk.adj.2 (putRecord_some hadj).1 hbits
  · obtain ⟨m, hm⟩ := Option.ne_none_iff_exists'.mp hm
    rw [hm, Option.map_some] at htidong
    obtain ⟨hw, hnub⟩ := putRecord_some htidong
    have hlen := Nat.lt_of_le_of_lt hk.le hvol
    have htoNat : tidong.2.toNat = h.movements.length + 1 := by
      rw [hnub, UInt16.toNat_add, hk.tidong.nub]
      exact Nat.mod_eq_of_lt (by change _ + 1 < 65536; omega)
    have hle : tidong.2.toNat ≤ 720 := by omega
    have hfields := hread.movements.unique (SleepReport.reports_tidongRecord hle)
    change _ = fields 2 tidong.1.toList tidong.2.toNat at hfields
    rw [htoNat, Recorded.minute, hm, Option.toList_some] at hfields
    obtain ⟨hdiv, hmod⟩ := toNat_place log.report.tidongBigNub
    have hplace := hk.tidong.place hw (by omega) hfields.symm
    rwa [hdiv, hmod, ← hk.tidong.nub] at hplace

end Recorded.Kept

/-! ### The whole night -/

/-- The invariant of a night that is recorded rightly. -/
def KeptNight (p : Option SleepLog × Recorded) : Prop := ∃ log, p.1 = some log ∧ p.2.Kept log.report

theorem kept_start (s : SleepLog) (counters : SleepCounters) (utc : UInt32) :
    Recorded.Kept {} (s.start counters utc).report where
  tidong := ⟨rfl, rfl, fun k _ => by
    change bit (Vector.replicate 180 (0 : UInt8)).toList k = false
    rw [Vector.toList_replicate]
    exact bit_replicate 180 k⟩
  le := Nat.zero_le _
  volume := Nat.zero_le _
  intervene := ⟨rfl, rfl⟩
  interventions := rfl
  adj := ⟨rfl, rfl⟩
  adjustments := rfl

section step
variable {log log' : SleepLog} {h : Recorded} {e : NightEvent} {i : MinuteInput}

theorem recordsRight_some : RecordsRight (some log, h) e ↔
    ∃ log', nightStep (some log) e = some log' ∧
      h.OwnBits (watchRecords h (some log) e) log.report log'.report ∧
        (watchRecords h (some log) e).ReadBack log'.report :=
  ⟨fun hr => hr log rfl, fun hr _ he => Option.some.inj he ▸ hr⟩

theorem minuteFits_some : MinuteFits (some log) (.called i) ↔ log.Fits i :=
  ⟨fun hf => hf log rfl, fun hf _ he => Option.some.inj he ▸ hf⟩

/-- A step that leaves the arrays alone and records nothing. -/
theorem recordsRight_idle (hk : h.Kept log'.report) (hstep : nightStep (some log) e = some log')
    (hwatch : watchRecords h (some log) e = h)
    (hsame : log'.report.tidongRecord = log.report.tidongRecord ∧
      log'.report.snoringinterveneRecord = log.report.snoringinterveneRecord ∧
      log'.report.adjRecord = log.report.adjRecord) : RecordsRight (some log, h) e := by
  refine recordsRight_some.mpr ⟨log', hstep, ?_, ?_⟩
  · rw [hwatch]
    refine ⟨fun k hne => absurd ?_ hne, fun k hne => absurd ?_ hne, fun k hne => absurd ?_ hne⟩
    · rw [hsame.1]
    · rw [hsame.2.1]
    · rw [hsame.2.2]
  · rw [hwatch]
    exact hk.readBack

theorem Recorded.Kept.analyse {h : Recorded} {log : SleepLog} (hk : h.Kept log.report)
    (counters : SleepCounters) : h.Kept (log.analyse counters).report :=
  ⟨hk.tidong, hk.le, hk.volume, hk.intervene, hk.interventions, hk.adj, hk.adjustments⟩

/-- A step of a night that has been recorded rightly so far is recorded rightly exactly if the
minute fits, and leaves the night so. -/
theorem recordsRight_iff (hk : h.Kept log.report) (e : NightEvent) :
    (RecordsRight (some log, h) e ↔ MinuteFits (some log) e) ∧
      (MinuteFits (some log) e → KeptNight (recordStep (some log, h) e)) := by
  cases e with
  | analysed counters =>
      have hk' := hk.analyse counters
      exact ⟨⟨fun _ => trivial, fun _ => recordsRight_idle hk' rfl rfl ⟨rfl, rfl, rfl⟩⟩,
        fun _ => ⟨_, rfl, hk'⟩⟩
  | called i =>
      rw [minuteFits_some]
      by_cases hend : log.Ends i
      · have hwatch : watchRecords h (some log) (.called i) =
            h.minute log.report (log.opened i) := if_pos hend
        rw [recordsRight_some, hwatch]
        refine ⟨⟨fun hr => ?_, fun hfit => ?_⟩, fun hfit => ?_⟩
        · obtain ⟨log', hs, hown, hread⟩ := hr
          exact hk.fits hend hs hown hread
        · obtain ⟨log', hs, hown, hk'⟩ := hk.advance hend hfit
          exact ⟨log', hs, hown, hk'.readBack⟩
        · obtain ⟨log', hs, -, hk'⟩ := hk.advance hend hfit
          rw [← hwatch] at hk'
          exact ⟨log', hs, hk'⟩
      · have hs : nightStep (some log) (.called i) = some { log with minute := log.opened i } :=
          if_neg hend
        have hwatch : watchRecords h (some log) (.called i) = h := if_neg hend
        have hk' : h.Kept { log with minute := log.opened i }.report := hk
        refine ⟨⟨fun _ he => absurd he hend, fun _ =>
          recordsRight_idle hk' hs hwatch ⟨rfl, rfl, rfl⟩⟩, fun _ => ⟨_, hs, ?_⟩⟩
        rw [← hwatch] at hk'
        exact hk'

end step

/-- A night, from any statics, is read back after every step, and every step stays in its own bits,
if and only if every minute fits. -/
theorem night_round_trips_iff (s : SleepLog) (counters : SleepCounters) (utc : UInt32)
    (es : List NightEvent) : RoundTrips (s.start counters utc) es ↔
      Along nightStep MinuteFits (some (s.start counters utc)) es := by
  have hstart := kept_start s counters utc
  unfold RoundTrips
  rw [and_iff_right hstart.readBack, ← along_monitor_iff watchRecords {}]
  refine along_iff_of_invariant (I := KeptNight) ?_ ?_ ⟨_, rfl, hstart⟩ es
  · rintro ⟨-, h⟩ e ⟨log, rfl, hk⟩ hr
    exact (recordsRight_iff hk e).2 ((recordsRight_iff hk e).1.mp hr)
  · rintro ⟨-, h⟩ e ⟨log, rfl, hk⟩
    exact (recordsRight_iff hk e).1

/-- Nothing has moved. -/
def still : SleepCounters := ⟨0, 0, 0, 0, 0⟩

def unused : SleepLog := ⟨{}, still, ⟨0, 0, 0, 0, 0⟩⟩

/-- A minute with one large movement, at the beginning of a night. -/
def oneLargeMovement : List NightEvent :=
  [.called ⟨1000, 1000, 0, 0⟩, .analysed { still with bigMove := 1 }, .called ⟨1060, 1060, 0, 0⟩]

/-- The first record, of a large movement, is written one bit behind its place. -/
theorem large_movement_misplaced : ¬ ∀ (s : SleepLog) (counters : SleepCounters) (utc : UInt32)
    (es : List NightEvent), RoundTrips (s.start counters utc) es := by
  intro h
  obtain ⟨log', hs, hown, -⟩ := (h unused still 1000 oneLargeMovement).2.2.2.1 _ rfl
  have hset : (exec nightStep (some (unused.start still 1000)) oneLargeMovement).map
      (fun log => bit log.report.tidongRecord.toList 2) = some true := by decide +kernel
  have hbit : bit log'.report.tidongRecord.toList 2 = true :=
    Option.some.inj ((congrArg (Option.map _) hs).symm.trans hset)
  have hout := hown.movements 2 (by rw [hbit]; decide +kernel)
  revert hout
  decide +kernel

end ErgoDock
