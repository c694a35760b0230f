import ErgoDock.SleepReport

/-! # The sessions of the sleep report (`x_report_run`)

A caller begins a night by assigning 1 to `ctrl_report.trig` and ends it by assigning 0;
`x_report_run` compares the value with the one of its last call and starts, records or analyses.
Its last statement, `ctrl_report.trig = oldReportTrig`, goes the wrong way: the memory is never
written and the caller's value is.  So the function tells a caller's 0 from a caller's 1 and
nothing else: the sessions are right in exactly the runs in which no call finds a 1
(`sessions_right_iff`), and no night is ever recorded (`exec_night_blank`). -/

namespace ErgoDock

open Machine

/-! ### The function -/

/-- The functions `x_report_run` calls. -/
inductive ReportCall where
  | start
  | analyse
  | record
  | updataRun
deriving DecidableEq

/-- `ctrl_report.trig` and the static of `x_report_run`. -/
structure ReportCtrl where
  trig : UInt8 := 0
  oldReportTrig : UInt8 := 0
deriving DecidableEq

/-- What the functions called in a run of `x_report_run` read. -/
structure ReportInput where
  counters : SleepCounters
  utc : UInt32
  minute : MinuteInput
  timer : UInt32

namespace ReportCtrl
variable (c : ReportCtrl)

/-- The calls of `x_report_run`. -/
def calls : List ReportCall :=
  (if c.oldReportTrig ≠ c.trig ∧ c.trig = 1 then [.start] else []) ++
    (if c.oldReportTrig ≠ c.trig ∧ c.trig = 0 then [.analyse] else []) ++
      (if c.oldReportTrig = c.trig ∧ c.trig = 1 then [.record] else []) ++ [.updataRun]

/-- `x_report_run` without its calls, which touch neither of the two. -/
def reportRun : ReportCtrl := { c with trig := c.oldReportTrig }

end ReportCtrl

/-- The report and its transfer after a call; `none` after an access outside an array. -/
def ReportCall.perform (i : ReportInput) (s : SleepLog × Updata) :
    ReportCall → Option (SleepLog × Updata)
  | start => some (s.1.start i.counters i.utc, s.2)
  | analyse => some (s.1.analyse i.counters, s.2)
  | record => (s.1.recordOncePerMinute i.minute).map fun log => (log, s.2)
  | updataRun => (s.2.updataRun s.1.report i.timer).map fun u => (s.1, u.1)

/-! ### Runs -/

/-- What happens to the sessions: a caller assigns to `ctrl_report.trig`, or `x_report_run` is
called. -/
inductive ReportEvent where
  | assign (trig : Bool)
  | run (i : ReportInput)

def reportStep (c : ReportCtrl) : ReportEvent → ReportCtrl
  | .assign trig => { c with trig := trig.toUInt8 }
  | .run _ => c.reportRun

/-- The calls of a step. -/
def reportCalls (c : ReportCtrl) : ReportEvent → List ReportCall
  | .assign _ => []
  | .run _ => c.calls

/-- The report in a run of the sessions. -/
def nightRun (p : ReportCtrl × Option (SleepLog × Updata)) (e : ReportEvent) :
    ReportCtrl × Option (SleepLog × Updata) :=
  (reportStep p.1 e, match e with
    | .assign _ => p.2
    | .run i => p.2.bind fun s => p.1.calls.foldlM (ReportCall.perform i) s)

/-- What the callers assigned last, and what they had assigned at the last call. -/
structure Assigned where
  seen : Bool := false
  trig : Bool := false

def watchAssigned (a : Assigned) : ReportEvent → Assigned
  | .assign trig => { a with trig }
  | .run _ => { a with seen := a.trig }

/-- The calls of an edge detector: a start at the beginning of a session, an analysis at its end,
a record in between. -/
def Assigned.calls (a : Assigned) : List ReportCall :=
  match a.seen, a.trig with
  | false, true => [.start]
  | true, false => [.analyse]
  | true, true => [.record]
  | false, false => []

/-- A call does what an edge detector does, and leaves the caller's value as it is. -/
def SessionRight (p : ReportCtrl × Assigned) : ReportEvent → Prop
  | .assign _ => True
  | .run _ => p.1.calls = p.2.calls ++ [.updataRun] ∧ p.1.reportRun.trig = p.2.trig.toUInt8

/-- Throughout the run. -/
def SessionsRight (es : List ReportEvent) : Prop :=
  Along (monitor reportStep fun a _ => watchAssigned a) SessionRight ({}, {}) es

/-- A call that finds a 0. -/
def FindsZero (a : Assigned) : ReportEvent → Prop
  | .assign _ => True
  | .run _ => a.trig = false

/-- No call finds a 1. -/
def NoSession (es : List ReportEvent) : Prop := Along watchAssigned FindsZero {} es

/-! ### The memory is never written -/

theorem reportStep_oldReportTrig (c : ReportCtrl) (e : ReportEvent) :
    (reportStep c e).oldReportTrig = c.oldReportTrig := by
  cases e with
  | assign trig => rfl
  | run i => rfl

/-- As long as the memory is 0, a call starts a night or does nothing. -/
theorem calls_of_oldReportTrig {c : ReportCtrl} (h : c.oldReportTrig = 0) :
    c.calls = if c.trig = 1 then [.start, .updataRun] else [.updataRun] := by
  unfold ReportCtrl.calls
  rw [h]
  by_cases h₁ : c.trig = 1
  · rw [h₁]
    rfl
  · rw [if_neg h₁, if_neg fun h => h₁ h.2, if_neg fun h => h.1 h.2.symm, if_neg fun h => h₁ h.2]
    rfl

/-- A start leaves nothing but its time in the report. -/
def Blank (s : SleepLog × Updata) : Prop := ∃ t, s.1.report = { sleeptimerCome := t }

theorem blank_perform {i : ReportInput} {s s' : SleepLog × Updata} {call : ReportCall}
    (hcall : call = .start ∨ call = .updataRun) (hs : Blank s)
    (h : call.perform i s = some s') : Blank s' := by
  rcases hcall with rfl | rfl
  · cases h
    exact ⟨_, rfl⟩
  · obtain ⟨u, -, rfl⟩ := Option.map_eq_some_iff.mp h
    exact hs

theorem blank_foldlM {i : ReportInput} {calls : List ReportCall}
    (hcalls : ∀ call ∈ calls, call = .start ∨ call = .updataRun) {s s' : SleepLog × Updata}
    (hs : Blank s) (h : calls.foldlM (ReportCall.perform i) s = some s') : Blank s' := by
  induction calls generalizing s with
  | nil =>
      cases h
      exact hs
  | cons call calls ih =>
      rw [List.foldlM_cons] at h
      obtain ⟨s₁, h₁, h⟩ := Option.bind_eq_some_iff.mp h
      exact ih (fun c hc => hcalls c (List.mem_cons_of_mem _ hc))
        (blank_perform (hcalls call (List.mem_cons_self ..)) hs h₁) h

/-- The state of a firmware in which no night was ever recorded. -/
def NightBlank (p : ReportCtrl × Option (SleepLog × Updata)) : Prop :=
  p.1.oldReportTrig = 0 ∧ ∀ s, p.2 = some s → Blank s

theorem nightBlank_step (p : ReportCtrl × Option (SleepLog × Updata)) (e : ReportEvent)
    (h : NightBlank p) : NightBlank (nightRun p e) := by
  obtain ⟨hold, hblank⟩ := h
  refine ⟨(reportStep_oldReportTrig p.1 e).trans hold, fun s' hs' => ?_⟩
  cases e with
  | assign trig => exact hblank s' hs'
  | run i =>
      obtain ⟨s, hs, hrun⟩ := Option.bind_eq_some_iff.mp hs'
      refine blank_foldlM (fun call hc => ?_) (hblank s hs) hrun
      rw [calls_of_oldReportTrig hold] at hc
      split at hc
      · simpa using hc
      · exact .inr (List.mem_singleton.mp hc)

/-- Whatever the callers assign, the report never holds a record. -/
theorem exec_night_blank {s s' : SleepLog × Updata} (hs : Blank s) {es : List ReportEvent}
    (h : (exec nightRun ({}, some s) es).2 = some s') : Blank s' := by
  have hstart : NightBlank ({}, some s) := ⟨rfl, fun _ he => Option.some.inj he ▸ hs⟩
  exact (exec_invariant_all nightBlank_step hstart es).2 s' h

/-! ### The sessions -/

/-- No session has begun, and the code has the caller's value. -/
def SessionIdle (p : ReportCtrl × Assigned) : Prop :=
  p.1.oldReportTrig = 0 ∧ p.2.seen = false ∧ p.1.trig = p.2.trig.toUInt8

theorem sessionRight_iff {p : ReportCtrl × Assigned} {e : ReportEvent} (h : SessionIdle p) :
    SessionRight p e ↔ FindsZero p.2 e := by
  obtain ⟨hold, hseen, htrig⟩ := h
  cases e with
  | assign trig => exact Iff.rfl
  | run i =>
      change _ ∧ p.1.oldReportTrig = _ ↔ p.2.trig = false
      rw [calls_of_oldReportTrig hold, hold, htrig]
      unfold Assigned.calls
      rw [hseen]
      cases p.2.trig with
      | false => exact iff_of_true ⟨rfl, rfl⟩ rfl
      | true => exact iff_of_false (fun h => absurd h.2 (by decide)) (by decide)

theorem sessionIdle_step {p : ReportCtrl × Assigned} {e : ReportEvent} (h : SessionIdle p)
    (he : FindsZero p.2 e) : SessionIdle (monitor reportStep (fun a _ => watchAssigned a) p e) := by
  obtain ⟨hold, hseen, -⟩ := h
  cases e with
  | assign trig => exact ⟨hold, hseen, rfl⟩
  | run i =>
      have htrig : p.2.trig = false := he
      refine ⟨hold, htrig, ?_⟩
      change p.1.oldReportTrig = p.2.trig.toUInt8
      rw [hold, htrig]
      rfl

/-- Whatever callers assign, the sessions are right throughout a run if and only if no call of the
run finds a 1. -/
theorem sessions_right_iff (es : List ReportEvent) : SessionsRight es ↔ NoSession es := by
  have hstep : ∀ (p : ReportCtrl × Assigned) (e : ReportEvent), SessionIdle p →
      SessionRight p e → SessionIdle (monitor reportStep (fun a _ => watchAssigned a) p e) :=
    fun p e h hr => sessionIdle_step h ((sessionRight_iff h).mp hr)
  have hstart : SessionIdle ({}, {}) := ⟨rfl, rfl, rfl⟩
  unfold SessionsRight NoSession
  rw [along_iff_of_invariant hstep (fun p e h => sessionRight_iff h) hstart es]
  exact along_history_iff

/-- What the calls of an example read. -/
def zeroInput : ReportInput where
  counters := ⟨0, 0, 0, 0, 0⟩
  utc := 0
  minute := ⟨0, 0, 0, 0⟩
  timer := 0

/-- A night of two calls is started twice, and neither recorded nor analysed. -/
theorem night_started_twice :
    let es : List ReportEvent := [.assign true, .run zeroInput, .assign true, .run zeroInput,
      .assign false, .run zeroInput]
    outputs reportStep reportCalls {} es =
      [.start, .updataRun, .start, .updataRun, .updataRun] ∧ ¬ SessionsRight es := by
  refine ⟨by decide, fun h => ?_⟩
  have hfirst : ReportCtrl.trig ⟨0, 0⟩ = Bool.toUInt8 true := h.2.1.2
  exact absurd hfirst (by decide)

end ErgoDock
