import ErgoDock.FotaSessions

/-! # Start requests under a signature check (`START_REQ` with `FW_ECC_VERIFY`)

The shipped configuration accepts every signature.  Here `fw_signature_check` is an arbitrary
predicate `check` of the digest and the signature, as it is with `FW_ECC_VERIFY`, and the
server with the shipped predicate is the one of the other files (`stepWith_shipped`).

A request that is answered `BUSY` changes nothing.  A request that is answered `REJECTED` has
already taken the session: `START_REQ` sets the state and the four fields before it asks for
the verdict, and the other branch does not take them back.  Until a `FINISH_CMD` or the end of
the connection the server stays `BUSY` (`busy_until_end`). -/

namespace ErgoDock

open Machine

/-- The type of `fw_signature_check`. -/
abbrev SignatureCheck := (Fin 32 → UInt8) → (Fin 64 → UInt8) → Bool

/-- `START_REQ`, whatever the check of the signature is. -/
def startReqWith (check : SignatureCheck) (env : FotasEnv) (conidx : UInt8) (p : Packet) :
    FotaOutcome :=
  match env.state with
  | .idle =>
      let started := { env with
        state := .busy
        conidx
        newImage := p.image
        segmentDataMaxLength := p.le16 9 }
      if check env.digest env.signature then
        ⟨started, fotasFlashCleanup (p.image.base - flashBaseAddr) p.image.size ++
          [.indication conidx 3 0, .confirm 0], none⟩
      else ⟨started, [.indication conidx 3 1, .confirm 0], none⟩
  | .busy => ⟨env, [.confirm 1], none⟩

namespace Fota

section
variable [Divider]

/-- The answer of a server that checks signatures with `check`. -/
def handleWith (check : SignatureCheck) (s : Fota) : FotaEvent → FotaOutcome
  | .ctrlWrite conidx p =>
      if p.ctrlType = .startReq then startReqWith check s.env conidx p
      else ctrlPktDispatch s.env s.flash conidx p
  | .cccdWrite p => s.handle (.cccdWrite p)
  | .dataWrite p => s.handle (.dataWrite p)
  | .dataRead conidx => s.handle (.dataRead conidx)
  | .cccdRead conidx => s.handle (.cccdRead conidx)
  | .connected => s.handle .connected
  | .disconnected => s.handle .disconnected

def stepWith (check : SignatureCheck) (s : Fota) (e : FotaEvent) : Fota :=
  if s.stop = none then
    ⟨(s.handleWith check e).env, (s.handleWith check e).acts.foldl FotaAct.onFlash s.flash,
      (s.handleWith check e).stop⟩
  else s

def issuedWith (check : SignatureCheck) (s : Fota) (e : FotaEvent) : List FotaAct :=
  if s.stop = none then (s.handleWith check e).acts else []

/-- The shipped server is the one whose check accepts everything. -/
theorem stepWith_shipped (s : Fota) (e : FotaEvent) :
    s.stepWith fwSignatureCheck e = s.step e ∧ s.issuedWith fwSignatureCheck e = s.issued e := by
  have hhandle : s.handleWith fwSignatureCheck e = s.handle e := by
    cases e with
    | ctrlWrite c p =>
        simp only [handleWith, handle]
        split
        · next hp =>
          rw [ctrlPktDispatch, hp]
          rfl
        · rfl
    | _ => rfl
  unfold stepWith step issuedWith issued
  rw [hhandle]
  exact ⟨rfl, rfl⟩

end

/-! ### One request -/

/-- What a `START_REQ` is not to change unless it is accepted. -/
structure SameSession (s t : Fota) : Prop where
  state : t.env.state = s.env.state
  newImage : t.env.newImage = s.env.newImage
  segmentDataMaxLength : t.env.segmentDataMaxLength = s.env.segmentDataMaxLength
  conidx : t.env.conidx = s.env.conidx
  flash : t.flash = s.flash

/-- The answer is `REJECTED` (an indication) or `BUSY` (the status of the write). -/
def Refused (acts : List FotaAct) : Prop :=
  (∃ conidx, .indication conidx 3 1 ∈ acts) ∨ .confirm 1 ∈ acts

/-- Packets that bring a new digest or a new signature. -/
def BringsSignature : FotaEvent → Prop
  | .ctrlWrite _ p => p.ctrlType = .signatureCmd ∨ p.ctrlType = .digestCmd
  | _ => False

section
variable [Divider]

/-- A refused request changes nothing of the session, and after a rejection on an idle server
a request whose signature passes is accepted on the same connection. -/
def RefusalLeavesNoTrace (check : SignatureCheck) (s : Fota) (conidx : UInt8) (p : Packet) :
    Prop :=
  Refused (s.issuedWith check (.ctrlWrite conidx p)) →
    SameSession s (s.stepWith check (.ctrlWrite conidx p)) ∧
      (s.env.state = .idle → ∀ es : List FotaEvent, (∀ e ∈ es, BringsSignature e) →
        ∀ t, t = exec (stepWith check) (s.stepWith check (.ctrlWrite conidx p)) es →
          t.stop = none → check t.env.digest t.env.signature = true →
            ∀ q : Packet, q.ctrlType = .startReq →
              .indication conidx 3 0 ∈ t.issuedWith check (.ctrlWrite conidx q))

end

/-- An accepted request is not refused. -/
theorem not_refused_of_accepted (c : UInt8) (offset size : UInt32) :
    ¬ Refused (fotasFlashCleanup offset size ++ [.indication c 3 0, .confirm 0]) := by
  have hmem : ∀ act ∈ fotasFlashCleanup offset size ++ [.indication c 3 0, .confirm 0],
      act ≠ .confirm 1 ∧ ∀ c', act ≠ .indication c' 3 1 := by
    intro act hact
    rcases List.mem_append.mp hact with hact | hact
    · obtain ⟨off, rfl⟩ := eq_of_mem_cleanup hact
      simp
    · rcases List.mem_pair.mp hact with rfl | rfl <;> simp
  rintro (⟨c', hr⟩ | hr)
  · exact (hmem _ hr).2 c' rfl
  · exact (hmem _ hr).1 rfl

section start
variable [Divider] (check : SignatureCheck) {s : Fota} (h : s.stop = none) (c : UInt8) {p : Packet}
include h

theorem handle_start (hp : p.ctrlType = .startReq) :
    s.issuedWith check (.ctrlWrite c p) = (startReqWith check s.env c p).acts ∧
      s.stepWith check (.ctrlWrite c p) =
        ⟨(startReqWith check s.env c p).env,
          (startReqWith check s.env c p).acts.foldl FotaAct.onFlash s.flash,
          (startReqWith check s.env c p).stop⟩ := by
  have hhandle : s.handleWith check (.ctrlWrite c p) = startReqWith check s.env c p := if_pos hp
  rw [issuedWith, stepWith, if_pos h, if_pos h, hhandle]
  exact ⟨rfl, rfl⟩

/-- On a busy server the request is answered `BUSY`, and nothing happens. -/
theorem start_busy (hp : p.ctrlType = .startReq) (hs : s.env.state = .busy) :
    s.issuedWith check (.ctrlWrite c p) = [.confirm 1] ∧
      s.stepWith check (.ctrlWrite c p) = s := by
  obtain ⟨hi, ht⟩ := handle_start check h c hp
  have hreq : startReqWith check s.env c p = ⟨s.env, [.confirm 1], none⟩ := by
    rw [startReqWith, hs]
  rw [hi, ht, hreq]
  refine ⟨rfl, ?_⟩
  rw [show (none : Option FotaStop) = s.stop from h.symm]
  rfl

/-- On an idle server the check of the signature decides between erasing and a rejection; the
session is taken in both cases. -/
theorem start_idle (hp : p.ctrlType = .startReq) (hs : s.env.state = .idle) :
    (s.stepWith check (.ctrlWrite c p)).env.state = .busy ∧
      s.issuedWith check (.ctrlWrite c p) =
        if check s.env.digest s.env.signature = true then
          fotasFlashCleanup (p.image.base - flashBaseAddr) p.image.size ++
            [.indication c 3 0, .confirm 0]
        else [.indication c 3 1, .confirm 0] := by
  obtain ⟨hi, ht⟩ := handle_start check h c hp
  rw [hi, ht, startReqWith, hs]
  dsimp only
  split
  · exact ⟨rfl, rfl⟩
  · exact ⟨rfl, rfl⟩

/-- A request is refused on a busy server and on a failed check. -/
theorem refused_iff (hp : p.ctrlType = .startReq) :
    Refused (s.issuedWith check (.ctrlWrite c p)) ↔
      s.env.state = .busy ∨ check s.env.digest s.env.signature = false := by
  cases hs : s.env.state with
  | busy =>
      rw [(start_busy check h c hp hs).1]
      exact ⟨fun _ => .inl rfl, fun _ => .inr (List.mem_singleton_self _)⟩
  | idle =>
      rw [(start_idle check h c hp hs).2]
      cases hc : check s.env.digest s.env.signature with
      | true =>
          rw [if_pos rfl]
          refine ⟨fun hr => absurd hr (not_refused_of_accepted c _ _), fun hr => ?_⟩
          rcases hr with hr | hr <;> cases hr
      | false =>
          rw [if_neg Bool.false_ne_true]
          exact ⟨fun _ => .inr rfl, fun _ => .inl ⟨c, List.mem_cons_self ..⟩⟩

end start

/-! ### After a rejection -/

section run
variable [Divider] {check : SignatureCheck}

/-- Only a `FINISH_CMD` and the end of the connection end a session. -/
theorem busy_stepWith {s : Fota} {e : FotaEvent} (hs : s.env.state = .busy) (he : ¬ e.Ends) :
    (s.stepWith check e).env.state = .busy := by
  unfold stepWith
  split
  · have hother : ∀ o, Handled s.env e o → o.env.state = .busy := by
      intro o ho
      cases ho with
      | started hp hidle => rfl
      | rebooted hp hr => exact absurd hp he
      | finished hp hr => exact absurd hp he
      | disconnected => exact absurd trivial he
      | quiet henv =>
          rw [henv]
          exact hs
      | _ => exact hs
    cases e with
    | ctrlWrite c p =>
        dsimp only [handleWith]
        split
        · rw [startReqWith, hs]
          exact hs
        · exact hother _ (handled_ctrl s.env s.flash c p)
    | _ => exact hother _ (handled s _)
  · exact hs

/-- A session goes on until a `FINISH_CMD` or the end of the connection. -/
theorem busy_until_end {s : Fota} {es : List FotaEvent} (hs : s.env.state = .busy)
    (hes : ∀ e ∈ es, ¬ e.Ends) : (exec (stepWith check) s es).env.state = .busy := by
  have hrun : Along (stepWith check) (fun _ e => ¬ e.Ends) s es :=
    along_of_forall fun e he _ => hes e he
  exact exec_invariant (I := fun t : Fota => t.env.state = .busy)
    (fun _ _ hs he => busy_stepWith hs he) hs hrun

/-- After a rejection on an idle server every further request of the connection is answered
`BUSY`, with whatever signature. -/
theorem rejected_blocks {s : Fota} (h : s.stop = none) (c : UInt8) {p : Packet}
    (hp : p.ctrlType = .startReq) (hs : s.env.state = .idle) {es : List FotaEvent}
    (hes : ∀ e ∈ es, ¬ e.Ends) {t : Fota}
    (ht : t = exec (stepWith check) (s.stepWith check (.ctrlWrite c p)) es) (hrun : t.stop = none)
    (c' : UInt8) {q : Packet} (hq : q.ctrlType = .startReq) :
    t.issuedWith check (.ctrlWrite c' q) = [.confirm 1] := by
  have hbusy : t.env.state = .busy := ht ▸ busy_until_end (start_idle check h c hp hs).1 hes
  exact (start_busy check hrun c' hq hbusy).1

end run

/-! ### When a refusal leaves no trace -/

/-- For every state of the running server and every check: a refused request leaves no trace
exactly when there is no rejection on an idle server. -/
theorem refusal_leaves_no_trace_iff [Divider] (check : SignatureCheck) (s : Fota)
    (h : s.stop = none) (c : UInt8) (p : Packet) (hp : p.ctrlType = .startReq) :
    s.RefusalLeavesNoTrace check c p ↔
      s.env.state = .busy ∨ check s.env.digest s.env.signature = true := by
  constructor
  · intro H
    cases hs : s.env.state with
    | busy => exact .inl rfl
    | idle =>
        cases hc : check s.env.digest s.env.signature with
        | true => exact .inr rfl
        | false =>
            obtain ⟨hsame, -⟩ := H ((refused_iff check h c hp).mpr (.inr hc))
            have hbusy := (start_idle check h c hp hs).1
            rw [hsame.state, hs] at hbusy
            cases hbusy
  · intro hcond hr
    have hbusy : s.env.state = .busy := by
      rcases hcond with hs | hc
      · exact hs
      · rcases (refused_iff check h c hp).mp hr with hs | hc'
        · exact hs
        · rw [hc] at hc'
          cases hc'
    rw [(start_busy check h c hp hbusy).2]
    refine ⟨⟨rfl, rfl, rfl, rfl, rfl⟩, fun hidle => ?_⟩
    rw [hbusy] at hidle
    cases hidle

/-- A signature passes when its first byte is 1. -/
def checkFirstByte : SignatureCheck := fun _ signature => signature 0 == 1

section
open scoped ShiftDivider

theorem refusal_leaves_no_trace_shipped :
    (boot fun _ => 0xFF).RefusalLeavesNoTrace fwSignatureCheck 0 oneSector :=
  (refusal_leaves_no_trace_iff fwSignatureCheck (boot fun _ => 0xFF) rfl 0 oneSector rfl).mpr
    (.inr rfl)

/-- The first request after start-up, with no signature yet, is rejected and keeps the server. -/
theorem rejection_takes_session : ¬ ∀ (check : SignatureCheck) (flash : ℕ → UInt8)
    (es : List FotaEvent) (c : UInt8) (p : Packet), p.ctrlType = .startReq →
      (exec (stepWith check) (boot flash) es).stop = none →
        (exec (stepWith check) (boot flash) es).RefusalLeavesNoTrace check c p := by
  intro H
  have hrefused : Refused ((boot fun _ => 0xFF).issuedWith checkFirstByte
      (.ctrlWrite 0 oneSector)) := .inl ⟨0, List.mem_cons_self ..⟩
  obtain ⟨hsame, -⟩ := H checkFirstByte (fun _ => 0xFF) [] 0 oneSector rfl rfl hrefused
  exact absurd hsame.state (by decide)

end

end Fota
end ErgoDock
