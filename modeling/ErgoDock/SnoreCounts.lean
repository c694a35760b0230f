import ErgoDock.Counters

/-! # Snore counts

The reports carry three snore counts: the number of edges since the start, and the counts of a
window of one minute and of one of five.  The two windows are reopened independently, each at the
first call of the periodic function that finds it open for its whole length.  `Meter` is the
machine of the clock, the edge counter and the two windows; `CountLog` is its unbounded history. -/

namespace ErgoDock

open Machine

/-! ### The machine -/

structure Meter where
  timer : UInt32 := 0
  snoreNub : UInt16 := 0
  dbg : SnoreDbg := {}
deriving DecidableEq

/-- A window of the given length is reopened at time `t`. -/
def Reopens (t t0 window : UInt32) : Prop := t0 = 0 ∨ t - t0 ≥ window

instance (t t0 window : UInt32) : Decidable (Reopens t t0 window) := by
  unfold Reopens; infer_instance

namespace Meter

def Reopens1min (m : Meter) : Prop := Reopens m.timer m.dbg.t0Of1min 6000

def Reopens5min (m : Meter) : Prop := Reopens m.timer m.dbg.t0Of5min 30000

instance (m : Meter) : Decidable m.Reopens1min := inferInstanceAs (Decidable (Reopens ..))

instance (m : Meter) : Decidable m.Reopens5min := inferInstanceAs (Decidable (Reopens ..))

/-- `snore_debug_window_tick`. -/
def windowTick (m : Meter) : Meter :=
  let w₁ := Dock.snoreDbgWindow m.timer m.dbg.t0Of1min m.snoreNub m.dbg.baseOf1min 6000
  let w₅ := Dock.snoreDbgWindow m.timer m.dbg.t0Of5min m.snoreNub m.dbg.baseOf5min 30000
  { m with dbg := ⟨w₁.1, w₁.2.1, w₁.2.2, w₅.1, w₅.2.1, w₅.2.2⟩ }

def step (m : Meter) : Event → Meter
  | .tick => { m with timer := m.timer + 1 }
  | .snoreEdge => { m with snoreNub := m.snoreNub + 1 }
  | .snoreRun => m.windowTick
  | _ => m

end Meter

/-! ### The firmware simulates it -/

def Dock.meter (d : Dock) : Meter := ⟨d.anti.timer, d.anti.sf.snoreNub, d.dbg⟩

theorem dbg_snoreRun (d : Dock) : d.snoringInterventionRun.dbg = d.snoreDebugWindowTick.dbg := by
  rcases d.tally_run with h | h
  · exact (Prod.mk.inj h).1
  · exact (Prod.mk.inj h).1

theorem meter_step (d : Dock) (e : Event) : (step d e).meter = d.meter.step e := by
  have ht := timer_step d e
  have hn := snoreNub_step d e
  have hd : e ≠ .snoreRun → (step d e).dbg = d.dbg := by
    intro hr
    by_cases hv : ∃ cmd data, e = .voiceFrame cmd data
    · obtain ⟨cmd, data, rfl⟩ := hv
      exact d.dbg_offlineVoiceHandle cmd data
    · exact (Prod.mk.inj (tally_step d hr fun cmd data he => hv ⟨cmd, data, he⟩)).1
  unfold Dock.meter
  rw [ht, hn]
  cases e with
  | snoreRun =>
      have hrun : (step d .snoreRun).dbg = _ := dbg_snoreRun d
      rw [hrun]
      rfl
  | _ =>
      rw [hd (by simp)]
      rfl

theorem snoreNub_boot (b : Boot) : (boot b).anti.sf.snoreNub = 0 := by
  have hload : ∀ d : Dock, d.flashLoad.anti.sf.snoreNub = d.anti.sf.snoreNub := by
    intro d
    unfold Dock.flashLoad
    dsimp only
    split <;> rfl
  have hinit : ∀ a : AntiSnore,
      a.initFields.stateClear.snoringInterventFlatTimerClear.sf.snoreNub = a.sf.snoreNub := by
    intro a
    exact ((a.initFields.sameInputs_stateClear).snoreNub).trans
      ((AntiSnore.sameInputs_snoreRefreshTrigTimer _).snoreNub)
  rw [boot, Dock.xUartInit, (Dock.background_ci1302Sync _ _).anti,
    Dock.anti_checkOfflineVoiceKeys, anti_snoringInterventionInit, hinit, hload]
  rfl

theorem meter_boot (b : Boot) : (boot b).meter = {} := by
  have hd : (boot b).dbg = {} := congrArg Prod.fst (tally_boot b)
  unfold Dock.meter
  rw [(initial_boot b).timer, snoreNub_boot, hd]

theorem meter_runFrom (b : Boot) (es : List Event) :
    (runFrom b es).meter = exec Meter.step {} es := by
  refine exec_related (R := fun (d : Dock) m => d.meter = m) ?_ (meter_boot b)
  rintro d m e - rfl
  exact meter_step d e

theorem dbg_runFrom (b : Boot) (es : List Event) :
    (runFrom b es).dbg = (exec Meter.step {} es).dbg :=
  congrArg Meter.dbg (meter_runFrom b es)

/-! ### The history -/

/-- Snore edges since the start, and since each of the two windows was opened. -/
structure CountLog where
  total : ℕ := 0
  in1min : ℕ := 0
  in5min : ℕ := 0

def watchCounts (w : CountLog) (d : Dock) : Event → CountLog
  | .snoreEdge => ⟨w.total + 1, w.in1min + 1, w.in5min + 1⟩
  | .snoreRun =>
      ⟨w.total, if d.meter.Reopens1min then 0 else w.in1min,
        if d.meter.Reopens5min then 0 else w.in5min⟩
  | _ => w

/-- A window's base and count, against the `n` edges since it was opened. -/
structure WindowCounts (nub base cnt : UInt16) (n total : ℕ) : Prop where
  nub : nub = base + UInt16.ofNat n
  cnt : cnt.toNat ≤ n
  total : n ≤ total

namespace WindowCounts

variable {nub base cnt : UInt16} {n total : ℕ}

theorem edge (h : WindowCounts nub base cnt n total) :
    WindowCounts (nub + 1) base cnt (n + 1) (total + 1) := by
  refine ⟨?_, Nat.le_succ_of_le h.cnt, Nat.succ_le_succ h.total⟩
  rw [h.nub, UInt16.ofNat_add, UInt16.add_assoc]
  rfl

/-- The count of an open window is the number of its edges, modulo `2 ^ 16`. -/
theorem toNat_sub (h : WindowCounts nub base cnt n total) : (nub - base).toNat = n % 2 ^ 16 := by
  rw [h.nub, UInt16.add_comm, UInt16.add_sub_cancel, UInt16.toNat_ofNat']

/-- What a call of `snore_debug_window_tick` does to one window. -/
theorem windowTick (h : WindowCounts nub base cnt n total) (t t0 window : UInt32) :
    WindowCounts nub (Dock.snoreDbgWindow t t0 nub base window).2.1
      (Dock.snoreDbgWindow t t0 nub base window).2.2 (if Reopens t t0 window then 0 else n) total ∧
    (Dock.snoreDbgWindow t t0 nub base window).2.2.toNat =
      (if Reopens t t0 window then 0 else n) % 2 ^ 16 := by
  have hdef : Dock.snoreDbgWindow t t0 nub base window =
      if Reopens t t0 window then (t, nub, nub - nub) else (t0, base, nub - base) := rfl
  rw [hdef]
  by_cases hr : Reopens t t0 window
  · rw [if_pos hr, if_pos hr]
    have hzero : (nub - nub).toNat = 0 := by rw [UInt16.sub_self]; rfl
    exact ⟨⟨by simp, hzero.le, Nat.zero_le _⟩, hzero⟩
  · rw [if_neg hr, if_neg hr]
    exact ⟨⟨h.nub, h.toNat_sub ▸ Nat.mod_le _ _, h.total⟩, h.toNat_sub⟩

end WindowCounts

structure CountInv (m : Meter) (w : CountLog) : Prop where
  one : WindowCounts m.snoreNub m.dbg.baseOf1min m.dbg.cnt1min w.in1min w.total
  five : WindowCounts m.snoreNub m.dbg.baseOf5min m.dbg.cnt5min w.in5min w.total

theorem CountInv.step {d : Dock} {w : CountLog} (h : CountInv d.meter w) (e : Event) :
    CountInv (step d e).meter (watchCounts w d e) := by
  rw [meter_step]
  cases e with
  | snoreEdge => exact ⟨h.one.edge, h.five.edge⟩
  | snoreRun =>
      exact ⟨(h.one.windowTick d.meter.timer d.meter.dbg.t0Of1min 6000).1,
        (h.five.windowTick d.meter.timer d.meter.dbg.t0Of5min 30000).1⟩
  | _ => exact ⟨h.one, h.five⟩

theorem countInv_boot (b : Boot) : CountInv (boot b).meter {} := by
  rw [meter_boot]
  exact ⟨⟨rfl, Nat.le_refl 0, Nat.le_refl 0⟩, ⟨rfl, Nat.le_refl 0, Nat.le_refl 0⟩⟩

theorem total_watchCounts (d : Dock) (w : CountLog) (es : List Event) :
    (exec (monitor step watchCounts) (d, w) es).2.total = w.total + es.count .snoreEdge := by
  induction es generalizing d w with
  | nil => rfl
  | cons e es ih =>
      refine (ih (step d e) (watchCounts w d e)).trans ?_
      rw [List.count_cons, Nat.add_comm (es.count _), ← Nat.add_assoc]
      cases e with
      | snoreEdge => rfl
      | _ => rfl

/-! ### The reported counts -/

theorem satByte_toNat (n : UInt16) : (satByte n).toNat = min 255 n.toNat := by
  unfold satByte
  split
  · next h =>
    rw [gt_iff_lt, UInt16.lt_iff_toNat_lt] at h
    simp only [UInt16.reduceToNat, UInt8.reduceToNat] at *
    omega
  · next h =>
    rw [gt_iff_lt, UInt16.not_lt, UInt16.le_iff_toNat_le] at h
    simp only [UInt16.reduceToNat, UInt16.toNat_toUInt8] at *
    omega

theorem satByte_mono {n k : UInt16} (h : n ≤ k) : satByte n ≤ satByte k := by
  rw [UInt16.le_iff_toNat_le] at h
  rw [UInt8.le_iff_toNat_le, satByte_toNat, satByte_toNat]
  omega

/-- The counts `snore_debug_counts_get` hands out for the two windows, and the bytes of the
response, are in order. -/
def CountsOrdered (d : Dock) : Prop :=
  d.dbg.cnt1min ≤ d.dbg.cnt5min ∧ byteAt d.snoreData 11 ≤ byteAt d.snoreData 12

instance (d : Dock) : Decidable (CountsOrdered d) := by unfold CountsOrdered; infer_instance

/-- None of these exceeds `n`. -/
def CountsBelow (d : Dock) (n : ℕ) : Prop :=
  d.dbg.cnt1min.toNat ≤ n ∧ d.dbg.cnt5min.toNat ≤ n ∧
    (byteAt d.snoreData 11).toNat ≤ n ∧ (byteAt d.snoreData 12).toNat ≤ n

theorem countsOrdered_iff (d : Dock) : CountsOrdered d ↔ d.dbg.cnt1min ≤ d.dbg.cnt5min :=
  ⟨fun h => h.1, fun h => ⟨h, satByte_mono h⟩⟩

theorem countsBelow_of_inv {d : Dock} {w : CountLog} (h : CountInv d.meter w) :
    CountsBelow d w.total := by
  have h₁ : d.dbg.cnt1min.toNat ≤ w.total := h.one.cnt.trans h.one.total
  have h₅ : d.dbg.cnt5min.toNat ≤ w.total := h.five.cnt.trans h.five.total
  have hb₁ : (byteAt d.snoreData 11).toNat = min 255 d.dbg.cnt1min.toNat := satByte_toNat _
  have hb₅ : (byteAt d.snoreData 12).toNat = min 255 d.dbg.cnt5min.toNat := satByte_toNat _
  exact ⟨h₁, h₅, by omega, by omega⟩

/-- A call of the periodic function finds fewer than `2 ^ 16` edges in the window of five
minutes. -/
def FewEdges (p : Dock × CountLog) (e : Event) : Prop := e = .snoreRun → p.2.in5min < 2 ^ 16

/-- A call that reopens the window of five minutes also reopens the window of one minute, or finds
it empty. -/
def KeepsPhase (p : Dock × CountLog) (e : Event) : Prop :=
  e = .snoreRun → p.1.meter.Reopens5min → p.1.meter.Reopens1min ∨ p.2.in1min = 0

/-- The invariant while the counts are in order. -/
structure PhaseInv (p : Dock × CountLog) : Prop where
  counts : CountInv p.1.meter p.2
  phase : p.2.in1min ≤ p.2.in5min

/-- The counts after a call of the periodic function. -/
theorem counts_snoreRun {d : Dock} {w : CountLog} (h : CountInv d.meter w) :
    (step d .snoreRun).dbg.cnt1min.toNat = (watchCounts w d .snoreRun).in1min % 2 ^ 16 ∧
      (step d .snoreRun).dbg.cnt5min.toNat = (watchCounts w d .snoreRun).in5min % 2 ^ 16 := by
  have hm := congrArg Meter.dbg (meter_step d .snoreRun)
  change (step d .snoreRun).dbg = d.meter.windowTick.dbg at hm
  rw [hm]
  exact ⟨(h.one.windowTick d.meter.timer d.meter.dbg.t0Of1min 6000).2,
    (h.five.windowTick d.meter.timer d.meter.dbg.t0Of5min 30000).2⟩

/-- With few edges, a step leaves the counts in order if and only if it keeps the phase. -/
theorem ordered_step_iff {p : Dock × CountLog} (h : PhaseInv p) (ho : CountsOrdered p.1) {e : Event}
    (hfew : FewEdges p e) : CountsOrdered (step p.1 e) ↔ KeepsPhase p e := by
  obtain ⟨d, w⟩ := p
  rw [countsOrdered_iff] at ho ⊢
  by_cases he : e = .snoreRun
  · subst he
    obtain ⟨h₁, h₅⟩ := counts_snoreRun h.counts
    have hlt : w.in5min < 2 ^ 16 := hfew rfl
    have hle : w.in1min ≤ w.in5min := h.phase
    rw [UInt16.le_iff_toNat_le, h₁, h₅]
    simp only [KeepsPhase, watchCounts, forall_const]
    by_cases hr₁ : d.meter.Reopens1min
    · simp [hr₁]
    · by_cases hr₅ : d.meter.Reopens5min
      · simp only [hr₁, hr₅, if_true, if_false, false_or, forall_const]
        omega
      · simp only [hr₁, hr₅, if_false, false_or, false_implies, iff_true]
        omega
  · have hk : KeepsPhase (d, w) e := fun hc => absurd hc he
    have hsame : (step d e).dbg = d.dbg := by
      have hm := congrArg Meter.dbg (meter_step d e)
      refine hm.trans ?_
      cases e with
      | snoreRun => exact absurd rfl he
      | _ => rfl
    rw [hsame]
    exact ⟨fun _ => hk, fun _ => ho⟩

theorem phaseInv_step {p : Dock × CountLog} (h : PhaseInv p) {e : Event} (hk : KeepsPhase p e) :
    PhaseInv (monitor step watchCounts p e) := by
  obtain ⟨d, w⟩ := p
  refine ⟨h.counts.step e, ?_⟩
  have hle : w.in1min ≤ w.in5min := h.phase
  cases e with
  | snoreEdge => exact Nat.succ_le_succ hle
  | snoreRun =>
      have hk' := hk rfl
      simp only [monitor_snd, watchCounts]
      by_cases hr₁ : d.meter.Reopens1min
      · rw [if_pos hr₁]
        exact Nat.zero_le _
      · rw [if_neg hr₁]
        split
        · next hr₅ => exact ((hk' hr₅).resolve_left hr₁).le
        · exact hle
  | _ => exact hle

/-- In every state of every run neither count exceeds the number of snore edges since the start.
In a run whose calls of the periodic function find fewer than `2 ^ 16` edges in the window of five
minutes, the count of one minute is at most that of five in every state if and only if no call
reopens the longer window alone while there are edges in the shorter one. -/
theorem snoreCounts_ordered_iff (b : Boot) (es : List Event) :
    (∀ pre, pre <+: es → CountsBelow (runFrom b pre) (pre.count .snoreEdge)) ∧
      (Along (monitor step watchCounts) FewEdges (boot b, {}) es →
        ((∀ pre, pre <+: es → CountsOrdered (runFrom b pre)) ↔
          Along (monitor step watchCounts) KeepsPhase (boot b, {}) es)) := by
  constructor
  · intro pre _
    have hinv : CountInv (runFrom b pre).meter
        (exec (monitor step watchCounts) (boot b, {}) pre).2 :=
      monitor_invariant (I := fun (d : Dock) w => CountInv d.meter w) (fun _ _ e h => h.step e)
        (countInv_boot b) pre
    have h := countsBelow_of_inv hinv
    rw [total_watchCounts] at h
    exact (Nat.zero_add (pre.count .snoreEdge)) ▸ h
  · intro hfew
    have h0 : CountsOrdered (boot b) := by
      have hd : (boot b).dbg = {} := congrArg Prod.fst (tally_boot b)
      rw [countsOrdered_iff, hd]
      decide
    have hinit : PhaseInv (boot b, {}) ∧ CountsOrdered (boot b) :=
      ⟨⟨countInv_boot b, Nat.le_refl 0⟩, h0⟩
    unfold runFrom
    rw [forall_prefix_iff, and_iff_right h0, ← along_monitor_iff watchCounts {}]
    -- the invariant is kept by the steps that keep the counts in order
    have hiff : Along (monitor step watchCounts)
        (fun p e => FewEdges p e ∧ CountsOrdered (step p.1 e)) (boot b, {}) es ↔
          Along (monitor step watchCounts) (fun p e => FewEdges p e ∧ KeepsPhase p e)
            (boot b, {}) es :=
      along_iff_of_invariant (I := fun p => PhaseInv p ∧ CountsOrdered p.1)
        (fun p e hp ho => ⟨phaseInv_step hp.1 ((ordered_step_iff hp.1 hp.2 ho.1).mp ho.2), ho.2⟩)
        (fun p e hp => and_congr_right fun hf => ordered_step_iff hp.1 hp.2 hf) hinit es
    constructor
    · intro ha
      exact (hiff.mp (hfew.and ha)).mono fun _ _ h => h.2
    · intro ha
      exact (hiff.mpr (hfew.and ha)).mono fun _ _ h => h.2

/-- The window of one minute is reopened in the fifth minute; the one of five is then reopened
first, after an edge. -/
def driftingWindows : List Event :=
  [.tick, .snoreRun] ++ wait 24001 ++ [.snoreRun, .snoreEdge] ++ wait 5999 ++ [.snoreRun]

theorem meter_wait (m : Meter) (n : ℕ) :
    exec Meter.step m (wait n) = { m with timer := m.timer + UInt32.ofNat n } := by
  have h := exec_replicate Meter.step .tick
    (fun i => { m with timer := m.timer + UInt32.ofNat i }) n ?_
  · rw [wait, ← h]
    congr 1
    simp
  · intro i _
    simp only [Meter.step, UInt32.ofNat_add, UInt32.add_assoc]
    rfl

/-- An edge is in the last minute and not in the last five. -/
theorem minute_exceeds_five :
    (runFrom (bootAt 3) driftingWindows).dbg.cnt1min = 1 ∧
      (runFrom (bootAt 3) driftingWindows).dbg.cnt5min = 0 ∧
      ¬ CountsOrdered (runFrom (bootAt 3) driftingWindows) := by
  have hdbg : (runFrom (bootAt 3) driftingWindows).dbg = ⟨24002, 0, 1, 30001, 1, 0⟩ := by
    rw [dbg_runFrom]
    simp only [driftingWindows, exec_append, meter_wait]
    decide
  rw [countsOrdered_iff, hdbg]
  decide

/-! ### The reported total -/

/-- The byte of the total in a 3.4.3 or a 3.5 response. -/
def totalByte (frame : List UInt8) : Option UInt8 :=
  if byteAt frame 1 = bleDataPort then
    if byteAt frame 2 = 0x11 then some (byteAt frame 12)
    else if byteAt frame 2 = 0x12 then some (byteAt frame 9) else none
  else none

/-- Some write is answered in this state by a response with the total `t`. -/
def ReportsTotal (d : Dock) (t : UInt8) : Prop :=
  ∃ value frame, (d.bleApply value).answer value = some frame ∧ totalByte frame = some t

theorem totalByte_answer {d : Dock} {value frame : List UInt8} {t : UInt8}
    (h : d.answer value = some frame) (ht : totalByte frame = some t) :
    t = satByte d.anti.sf.snoreNub := by
  rcases Dock.answer_cases h with ⟨-, rfl⟩ | ⟨data, rfl, -, hdata⟩
  · cases ht
  · rcases hdata with ⟨-, rfl⟩ | ⟨-, rfl⟩ | ⟨-, rfl⟩ | ⟨-, rfl⟩
    · cases ht
    · exact (Option.some.inj ht).symm
    · exact (Option.some.inj ht).symm
    · cases ht

/-- A write changes nothing of the total, and a query is always answered. -/
theorem reportsTotal_iff (d : Dock) (t : UInt8) :
    ReportsTotal d t ↔ t = satByte d.anti.sf.snoreNub := by
  constructor
  · rintro ⟨value, frame, h, ht⟩
    have hstep := snoreNub_step d (.bleWrite value)
    rw [step, d.uartServerWriteReq_eq, (Dock.background_deliver _ _).anti,
      if_neg (by simp)] at hstep
    rw [totalByte_answer h ht, hstep]
  · rintro rfl
    exact ⟨[2, 6, 0x11, 0xB6], _, rfl, rfl⟩

theorem snoreNub_runFrom (b : Boot) (es : List Event) :
    (runFrom b es).anti.sf.snoreNub.toNat = es.count .snoreEdge % 2 ^ 16 := by
  have hwrap : _ = (_ + hits step (fun _ e => e = .snoreEdge) (boot b) es) % 2 ^ 16 :=
    exec_wraps (f := fun d : Dock => d.anti.sf.snoreNub.toNat) ?_ ?_ es
  · rw [runFrom, hwrap, snoreNub_boot, hits_eq_countP (p := (· == .snoreEdge)) (by simp)]
    exact congrArg (· % 2 ^ 16) (Nat.zero_add _)
  · intro d e
    rw [snoreNub_step]
    split
    · exact UInt16.toNat_add _ _
    · exact (Nat.mod_eq_of_lt (UInt16.toNat_lt _)).symm
  · exact (Nat.mod_eq_of_lt (UInt16.toNat_lt _)).symm

theorem reportsTotal_runFrom (b : Boot) (es : List Event) (t : UInt8) :
    ReportsTotal (runFrom b es) t ↔ t.toNat = min 255 (es.count .snoreEdge % 2 ^ 16) := by
  rw [reportsTotal_iff, ← UInt8.toNat_inj, satByte_toNat, snoreNub_runFrom]

/-- A run passes through every count up to its last. -/
theorem exists_prefix_count {α : Type} [BEq α] [LawfulBEq α] (a : α) {l : List α} {k : ℕ}
    (h : k ≤ l.count a) : ∃ pre, pre <+: l ∧ pre.count a = k := by
  induction l generalizing k with
  | nil => exact ⟨[], List.nil_prefix, (Nat.le_zero.mp h).symm⟩
  | cons c l ih =>
      cases k with
      | zero => exact ⟨[], List.nil_prefix, rfl⟩
      | succ k =>
          by_cases hc : c = a
          · subst hc
            rw [List.count_cons_self] at h
            obtain ⟨pre, hp, hn⟩ := ih (Nat.le_of_succ_le_succ h)
            exact ⟨c :: pre, List.cons_prefix_cons.mpr ⟨rfl, hp⟩, by rw [List.count_cons_self, hn]⟩
          · rw [List.count_cons_of_ne hc] at h
            obtain ⟨pre, hp, hn⟩ := ih h
            exact ⟨c :: pre, List.cons_prefix_cons.mpr ⟨rfl, hp⟩,
              by rw [List.count_cons_of_ne hc, hn]⟩

/-- The total of every 3.4.3 and 3.5 response of a run is the number of snore edges since the start,
saturated at 255, if and only if the run has fewer than `2 ^ 16` edges; the same condition decides
whether the total never decreases.  In any run two responses with no edge in between agree. -/
theorem snoreTotal_saturates_iff (b : Boot) (es : List Event) :
    ((∀ pre t, pre <+: es → ReportsTotal (runFrom b pre) t →
        t.toNat = min 255 (pre.count .snoreEdge)) ↔ es.count .snoreEdge < 2 ^ 16) ∧
    ((∀ pre mid t t', pre ++ mid <+: es → ReportsTotal (runFrom b pre) t →
        ReportsTotal (runFrom b (pre ++ mid)) t' → t ≤ t') ↔ es.count .snoreEdge < 2 ^ 16) ∧
    ∀ pre mid t t', pre ++ mid <+: es → mid.count .snoreEdge = 0 →
      ReportsTotal (runFrom b pre) t → ReportsTotal (runFrom b (pre ++ mid)) t' → t' = t := by
  simp only [reportsTotal_runFrom]
  refine ⟨⟨fun h => ?_, fun h pre t hp ht => ?_⟩, ⟨fun h => ?_, fun h pre mid t t' hp ht ht' => ?_⟩,
    fun pre mid t t' _ h0 ht ht' => ?_⟩
  · -- after exactly `2 ^ 16` edges the total is 0
    by_contra hge
    obtain ⟨pre, hp, hn⟩ := exists_prefix_count Event.snoreEdge (Nat.not_lt.mp hge)
    have h0 := h pre 0 hp (by rw [hn]; rfl)
    rw [hn] at h0
    exact absurd h0 (by decide)
  · have hle := hp.sublist.count_le Event.snoreEdge
    rw [ht, Nat.mod_eq_of_lt (Nat.lt_of_le_of_lt hle h)]
  · by_contra hge
    obtain ⟨full, hfull, hn⟩ := exists_prefix_count Event.snoreEdge (Nat.not_lt.mp hge)
    obtain ⟨pre, ⟨mid, rfl⟩, hm⟩ :=
      exists_prefix_count (k := 65535) Event.snoreEdge (l := full) (by rw [hn]; decide)
    have hle := h pre mid 255 0 hfull (by rw [hm]; rfl) (by rw [hn]; rfl)
    exact absurd hle (by decide)
  · have hle := hp.sublist.count_le Event.snoreEdge
    have hmono : pre.count Event.snoreEdge ≤ (pre ++ mid).count Event.snoreEdge := by
      rw [List.count_append]
      exact Nat.le_add_right _ _
    rw [Nat.mod_eq_of_lt (by omega)] at ht ht'
    rw [UInt8.le_iff_toNat_le, ht, ht']
    omega
  · rw [List.count_append, h0, Nat.add_zero] at ht'
    exact UInt8.toNat_inj.mp (ht'.trans ht.symm)

/-- After `2 ^ 16` snores the total is 0, not 255. -/
theorem snoreTotal_wraps :
    ReportsTotal (runFrom (bootAt 3) (List.replicate 65536 .snoreEdge)) 0 ∧
      min 255 ((List.replicate 65536 Event.snoreEdge).count .snoreEdge) = 255 := by
  rw [reportsTotal_runFrom, List.count_replicate_self]
  decide

end ErgoDock
