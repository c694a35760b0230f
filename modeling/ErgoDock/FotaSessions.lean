import ErgoDock.FotaPackets

/-! # Update sessions

Whole runs of the update service, over any number of sessions.  Three history variables watch the
server: the image of the session (`sessionImage`), whether the image is verified since the flash
was last written (`verifies`), and which cells were programmed in the session (`marks`).

As long as the sectors and segments of the packets are inside a sector-aligned image and arrive
in a session, the flash commands stay inside the image (`writes_contained`).  The image is never
verified, so an activation is as it should be in no run but those without one
(`activation_iff`).  The acknowledged segments are programmed as long as every session begins
with an empty bitmap (`acks_sound`). -/

namespace ErgoDock

open Machine

/-! ### The image of the session -/

namespace FotaImageInfo
variable (image : FotaImageInfo)

/-- Where the image begins in the flash. -/
def offset : UInt32 := image.base - flashBaseAddr

/-- The size rounded up to whole sectors. -/
def rounded : ℕ := 4096 * ceiling image.size.toNat 4096

/-- The offset `a` lies inside the image, counted from its base modulo 2³². -/
def Contains (a : ℕ) : Prop := (a + (2 ^ 32 - image.offset.toNat)) % 2 ^ 32 < image.rounded

theorem rounded_le : image.rounded ≤ 2 ^ 32 := by
  have h := image.size.toNat_lt
  unfold rounded ceiling
  omega

variable {image}

theorem contains_add {j : ℕ} (h : j < image.rounded) :
    image.Contains (image.offset + UInt32.ofNat j).toNat := by
  have hlt := Nat.lt_of_lt_of_le h image.rounded_le
  have ho := image.offset.toNat_lt
  unfold Contains
  rw [UInt32.toNat_add, UInt32.toNat_ofNat', Nat.mod_eq_of_lt (a := j) hlt]
  omega

end FotaImageInfo

/-- A session begins with a `START_REQ` when there is none, and ends with a `FINISH_CMD` or the
connection. -/
def sessionImage (g : Option FotaImageInfo) (e : FotaEvent) : Option FotaImageInfo :=
  if e.Ends then none else g.or e.announced

/-- The session the environment says the server is in. -/
def FotasEnv.session (env : FotasEnv) : Option FotaImageInfo :=
  match env.state with
  | .idle => none
  | .busy => some env.newImage

section
variable [Divider]

/-- The server with the image of the session. -/
def sessionStep : Fota × Option FotaImageInfo → FotaEvent → Fota × Option FotaImageInfo :=
  monitor Fota.step fun g _ e => sessionImage g e

/-- As long as the server runs, it knows what session it is in. -/
def InSession (w : Fota × Option FotaImageInfo) : Prop := w.1.stop = none → w.2 = w.1.env.session

theorem in_session_step {w : Fota × Option FotaImageInfo} (h : InSession w) {e : FotaEvent}
    (hfit : e.IndexFits) : InSession (sessionStep w e) := by
  obtain ⟨s, g⟩ := w
  intro hstop
  by_cases hs : s.stop = none
  · have hg : g = s.env.session := h hs
    obtain ⟨o, ho, henv, hstop', -⟩ := Fota.step_handled hs e
    change sessionImage g e = (s.step e).env.session
    rw [henv, hg]
    unfold sessionImage FotasEnv.session
    cases ho with
    | started hp hidle =>
        rw [hidle, if_neg (by simp [FotaEvent.Ends, hp])]
        simp [FotaEvent.announced, hp]
    | newSector hp | checked hp =>
        rw [if_neg (by simp [FotaEvent.Ends, hp])]
        simp [FotaEvent.announced, hp]
    | rebooted hp hr =>
        change (s.step _).stop = none at hstop
        rw [hstop', finishCmd, if_pos hr] at hstop
        cases hstop
    | finished hp => exact if_pos hp
    | @fragment c p array hp =>
        have hother : ¬ (FotaEvent.ctrlWrite c p).Ends ∧
            (FotaEvent.ctrlWrite c p).announced = none := by
          rcases hp with ⟨hp, -⟩ | ⟨hp, -⟩ <;> simp [FotaEvent.Ends, FotaEvent.announced, hp]
        rw [if_neg hother.1, hother.2, Option.or_none, fragmentCmd_env hp hfit]
    | segment => simp [FotaEvent.announced, FotaEvent.Ends, dataWriteInd]
    | disconnected => exact if_pos trivial
    | quiet hquiet _ _ hend hstart =>
        rw [if_neg hend, hquiet]
        cases hidle : s.env.state with
        | idle => simp [hstart hidle]
        | busy => rfl
  · change (s.step e).stop = none at hstop
    rw [Fota.step_of_stop hs] at hstop
    exact absurd hstop hs

end

/-! ### Where acts come from -/

theorem eq_of_mem_ite {c : Prop} [Decidable c] {act x : FotaAct}
    (h : act ∈ if c then [x] else []) : act = x := by
  split at h
  · exact List.mem_singleton.mp h
  · cases h

theorem finishCmd_acts {env : FotasEnv} {p : Packet} {act : FotaAct}
    (h : act ∈ (finishCmd env p).acts) :
    act.isFlash = false ∧ ∀ c t st, act ≠ .indication c t st := by
  unfold finishCmd at h
  split at h
  · simp only [List.mem_append] at h
    rcases h with ((h | h) | h) | h
    · rw [eq_of_mem_ite h]
      exact ⟨rfl, nofun⟩
    · rw [eq_of_mem_ite h]
      exact ⟨rfl, nofun⟩
    · rw [eq_of_mem_ite h]
      exact ⟨rfl, nofun⟩
    · rw [List.mem_singleton.mp h]
      exact ⟨rfl, nofun⟩
  · rw [List.mem_singleton.mp h]
    exact ⟨rfl, nofun⟩

namespace Handled
variable [Divider] {env : FotasEnv} {e : FotaEvent} {o : FotaOutcome} {act : FotaAct}

/-- The flash is erased for an accepted start and programmed for data, and for nothing else. -/
theorem flash_cases (ho : Handled env e o) (hact : act ∈ o.acts) (hf : act.isFlash = true) :
    (∃ c p, e = .ctrlWrite c p ∧ p.ctrlType = .startReq ∧ env.state = .idle ∧
      o.env.state = .busy ∧ act ∈ fotasFlashCleanup p.image.offset p.image.size) ∨
    ∃ p, e = .dataWrite p ∧ o.env.state = env.state ∧
      act ∈ programSegment p (segmentStart env (p.byte 0))
        (segmentLen env.segmentDataMaxLength (p.byte 0)) := by
  cases ho with
  | @started c p hp hidle =>
      refine .inl ⟨c, p, rfl, hp, hidle, rfl, (List.mem_append.mp hact).resolve_right fun h => ?_⟩
      simp only [List.mem_cons, List.not_mem_nil, or_false] at h
      rcases h with rfl | rfl <;> cases hf
  | @segment p =>
      refine .inr ⟨p, rfl, rfl, ?_⟩
      rw [← filter_segmentActs]
      exact List.mem_filter.mpr ⟨hact, hf⟩
  | rebooted =>
      rw [(finishCmd_acts hact).1] at hf
      cases hf
  | finished =>
      rw [List.mem_singleton.mp hact] at hf
      cases hf
  | newSector | fragment | checked =>
      rcases List.mem_pair.mp hact with rfl | rfl <;> cases hf
  | disconnected => cases hact
  | quiet _ hquiet =>
      rw [(hquiet act hact).1] at hf
      cases hf

/-- An image is activated by a `FINISH_CMD` that reboots, and by nothing else. -/
theorem reboots_of_activation (ho : Handled env e o) (hact : act ∈ o.acts)
    (ha : act.isActivation = true) : e.Reboots := by
  cases ho with
  | started =>
      rcases List.mem_append.mp hact with h | h
      · obtain ⟨off, rfl⟩ := eq_of_mem_cleanup h
        cases ha
      · rcases List.mem_pair.mp h with rfl | rfl <;> cases ha
  | segment =>
      rcases mem_segmentActs hact with ⟨a, rfl⟩ | ⟨off, data, rfl⟩ | ⟨n, rfl⟩ | rfl <;> cases ha
  | rebooted hp hr => exact ⟨hp, hr⟩
  | finished =>
      rw [List.mem_singleton.mp hact] at ha
      cases ha
  | newSector | fragment | checked =>
      rcases List.mem_pair.mp hact with rfl | rfl <;> cases ha
  | disconnected => cases hact
  | quiet _ hquiet =>
      rw [(hquiet act hact).2] at ha
      cases ha

/-- Without a `finish_ind` no result of a check is indicated. -/
theorem no_result (ho : Handled env e o) (hfin : env.finishInd = none) (c st : UInt8) :
    .indication c 6 st ∉ o.acts := by
  intro hact
  cases ho with
  | started =>
      rcases List.mem_append.mp hact with h | h
      · obtain ⟨off, hoff⟩ := eq_of_mem_cleanup h
        cases hoff
      · simp at h
  | segment =>
      rcases mem_segmentActs hact with ⟨a, heq⟩ | ⟨off, data, heq⟩ | ⟨n, heq⟩ | heq <;> cases heq
  | rebooted => exact (finishCmd_acts hact).2 c 6 st rfl
  | newSector | finished => simp at hact
  | fragment => simp [fragmentCmd] at hact
  | checked hp hf =>
      rw [hfin] at hf
      cases hf
  | disconnected => cases hact
  | quiet _ _ hind => exact hind c 6 st hact

end Handled

/-! ### Containment -/

/-- The image begins with a sector, or its sectors are none or all there are. -/
def FotaImageInfo.Aligned (image : FotaImageInfo) : Prop :=
  image.size = 0 ∨ image.base.toNat % 4096 = 0 ∨ 2 ^ 32 ≤ image.rounded

instance (image : FotaImageInfo) : Decidable image.Aligned := inferInstanceAs (Decidable (_ ∨ _))

/-- Where a segment begins in the image. -/
def segmentPos (env : FotasEnv) (segmentId : UInt8) : ℕ :=
  env.currentSector.toNat * 4096 + segmentId.toNat * env.segmentDataMaxLength.toNat

theorem segmentStart_eq (env : FotasEnv) (segmentId : UInt8) :
    segmentStart env segmentId =
      env.newImage.offset + UInt32.ofNat (segmentPos env segmentId) := by
  unfold segmentStart segmentPos FotaImageInfo.offset
  rw [UInt32.ofNat_add, UInt32.ofNat_mul, UInt32.ofNat_mul, UInt32.ofNat_uInt16ToNat,
    UInt32.ofNat_uInt16ToNat, UInt32.ofNat_uInt8ToNat, UInt32.add_assoc]
  rfl

/-- The sectors of an aligned image are inside it. -/
theorem cleanup_contained {image : FotaImageInfo} (h : image.Aligned) {act : FotaAct}
    (hact : act ∈ fotasFlashCleanup image.offset image.size) {a : ℕ} (ha : act.Touches a) :
    image.Contains a := by
  rcases h with h0 | hbase | hall
  · rw [h0, fotasFlashCleanup, if_pos rfl] at hact
    cases hact
  · have ho : image.offset.toNat % 4096 = 0 := by
      rw [FotaImageInfo.offset, UInt32.toNat_sub, show flashBaseAddr.toNat = 0x18000000 from rfl]
      omega
    obtain ⟨j, hj, rfl⟩ := (touches_cleanup ho).mp ⟨act, hact, ha⟩
    exact FotaImageInfo.contains_add hj
  · exact Nat.lt_of_lt_of_le (Nat.mod_lt _ (by decide)) hall

/-- A segment that ends in the image is inside it. -/
theorem segment_contained {env : FotasEnv} {p : Packet} {id : UInt8} {len : UInt16}
    (hpos : segmentPos env id + len.toNat ≤ env.newImage.rounded)
    (hsplit : PagesSplit (segmentStart env id) len) {act : FotaAct}
    (hact : act ∈ programSegment p (segmentStart env id) len) {a : ℕ} (ha : act.Touches a) :
    env.newImage.Contains a := by
  obtain ⟨j, hj, rfl⟩ := (touches_segment hsplit).mp ⟨act, hact, ha⟩
  rw [segmentStart_eq, ← add_ofNat_add]
  exact FotaImageInfo.contains_add (by omega)

section
variable [Divider]

/-- Every flash command of the step happens in a session and stays inside its image. -/
def Contained (w : Fota × Option FotaImageInfo) (e : FotaEvent) : Prop :=
  ∀ act ∈ w.1.issued e, act.isFlash = true →
    (w.1.step e).env.state = .busy ∧
      ∃ image, sessionImage w.2 e = some image ∧ ∀ a, act.Touches a → image.Contains a

/-- The packet asks for sectors and segments of the image, and for segments in a session only, and
its index is one of the array it is for. -/
def InBounds (s : Fota) (e : FotaEvent) : Prop :=
  e.IndexFits ∧ (s.stop = none →
    match e with
    | .ctrlWrite _ p => p.ctrlType = .startReq → s.env.state = .idle → p.image.Aligned
    | .dataWrite p =>
        s.env.state = .busy ∧
        segmentPos s.env (p.byte 0) + (segmentLen s.env.segmentDataMaxLength (p.byte 0)).toNat ≤
          s.env.newImage.rounded ∧
        PagesSplit (segmentStart s.env (p.byte 0))
          (segmentLen s.env.segmentDataMaxLength (p.byte 0))
    | _ => True)

instance (s : Fota) : (e : FotaEvent) → Decidable (InBounds s e)
  | .ctrlWrite _ p => inferInstanceAs (Decidable
      (_ ∧ (s.stop = none → p.ctrlType = .startReq → s.env.state = .idle → p.image.Aligned)))
  | .dataWrite _ => inferInstanceAs (Decidable (_ ∧ (s.stop = none → _ ∧ _ ∧ _)))
  | .cccdWrite _ | .dataRead _ | .cccdRead _ | .connected | .disconnected =>
      .isTrue ⟨trivial, fun _ => trivial⟩

theorem contained_of_in_bounds {w : Fota × Option FotaImageInfo} {e : FotaEvent}
    (hw : InSession w) (hb : InBounds w.1 e) : Contained w e := by
  intro act hact hflash
  by_cases hs : w.1.stop = none
  · obtain ⟨o, ho, henv, -, hacts⟩ := Fota.step_handled hs e
    rw [hacts] at hact
    rw [henv]
    unfold sessionImage
    rcases ho.flash_cases hact hflash with ⟨c, p, rfl, hp, hidle, hbusy, hmem⟩ |
      ⟨p, rfl, hstate, hmem⟩
    · have hstart : ¬ FotaEvent.Ends (.ctrlWrite c p) := by simp [FotaEvent.Ends, hp]
      refine ⟨hbusy, p.image, ?_, fun a ha => cleanup_contained (hb.2 hs hp hidle) hmem ha⟩
      rw [if_neg hstart, hw hs, FotasEnv.session, hidle]
      exact if_pos hp
    · obtain ⟨hbusy, hpos, hsplit⟩ := hb.2 hs
      refine ⟨hstate.trans hbusy, w.1.env.newImage, ?_,
        fun a ha => segment_contained hpos hsplit hmem ha⟩
      rw [hw hs, FotasEnv.session, hbusy]
      rfl
  · rw [Fota.issued_of_stop hs] at hact
    cases hact

/-- In every run whose packets stay in bounds, every flash command stays in the image of the
session. -/
theorem writes_contained (flash : ℕ → UInt8) (es : List FotaEvent)
    (h : Along Fota.step InBounds (.boot flash) es) :
    Along sessionStep Contained (.boot flash, none) es :=
  (along_monitor _ none h).of_invariant (I := InSession)
    (fun _ _ hw hb => in_session_step hw hb.1) (fun _ _ hw hb => contained_of_in_bounds hw hb)
    fun _ => rfl

end

/-- An image of one sector at `0x18020000`, in segments of 256 bytes. -/
def oneSector : Packet := ⟨[2, 0, 0, 2, 0x18, 0, 16, 0, 0, 0, 1], by decide, fun _ => 0⟩

def firstSector : Packet := ⟨[4, 0, 0], by decide, fun _ => 0⟩

def firstSegment : Packet :=
  ⟨0 :: List.replicate 256 0, by rw [List.length_cons, List.length_replicate]; omega, fun _ => 0⟩

section
open scoped ShiftDivider

theorem first_segment_contained :
    Along sessionStep Contained (.boot fun _ => 0xFF, none)
      [.ctrlWrite 0 oneSector, .ctrlWrite 0 firstSector, .dataWrite firstSegment] :=
  writes_contained (fun _ => 0xFF)
    [.ctrlWrite 0 oneSector, .ctrlWrite 0 firstSector, .dataWrite firstSegment] (by decide +kernel)

/-- Data after the end of the connection is programmed. -/
theorem segment_escapes : ¬ ∀ (flash : ℕ → UInt8) (es : List FotaEvent),
    Along sessionStep Contained (.boot flash, none) es := by
  intro h
  have hrun := h (fun _ => 0xFF) [.ctrlWrite 0 oneSector, .disconnected, .dataWrite firstSegment]
  have hany : ((exec Fota.step (.boot fun _ => 0xFF)
      [.ctrlWrite 0 oneSector, .disconnected]).issued (.dataWrite firstSegment)).any
        FotaAct.isFlash = true := by decide +kernel
  obtain ⟨act, hact, hflash⟩ := List.any_eq_true.mp hany
  have hbusy := (hrun.2.2.1 act hact hflash).1
  revert hbusy
  decide +kernel

end

/-! ### Activation -/

/-- Whether the image is verified: a positive result says so, a flash command or a new session
takes it back. -/
def FotaAct.verifies (verified : Bool) : FotaAct → Bool
  | sectorErase _ | pageProgram _ _ => false
  | indication _ 3 _ => false
  | indication _ 6 status => status = 0
  | _ => verified

theorem foldl_verifies {acts : List FotaAct} (h : ∀ c st, .indication c 6 st ∉ acts) :
    acts.foldl FotaAct.verifies false = false := by
  induction acts with
  | nil => rfl
  | cons act acts ih =>
      have hact : act.verifies false = false := by
        unfold FotaAct.verifies
        split
        · rfl
        · rfl
        · rfl
        · next c st => exact absurd (List.mem_cons_self ..) (h c st)
        · rfl
      rw [List.foldl_cons, hact]
      exact ih fun c st hmem => h c st (List.mem_cons_of_mem _ hmem)

/-- What a copy record copies lies inside the image. -/
def FotaAct.CopiesInside (image : FotaImageInfo) : FotaAct → Prop
  | otaCopyInfoSet src _ size =>
      image.base.toNat ≤ src.toNat ∧
        src.toNat + size.toNat ≤ image.base.toNat + image.size.toNat
  | _ => True

section
variable [Divider]

/-- The server with whether the image is verified. -/
def verifyStep : Fota × Bool → FotaEvent → Fota × Bool :=
  monitor Fota.step fun v s e => (s.issued e).foldl FotaAct.verifies v

/-- The step activates nothing, or a verified image in its session. -/
def ActivatesVerified (w : Fota × Bool) (e : FotaEvent) : Prop :=
  ∀ act ∈ w.1.issued e, act.isActivation = true →
    w.1.env.state = .busy ∧ w.2 = true ∧ act.CopiesInside w.1.env.newImage

/-- Nothing is ever verified. -/
theorem unverified_step {w : Fota × Bool} (h : w.1.env.finishInd = none ∧ w.2 = false)
    (e : FotaEvent) : (verifyStep w e).1.env.finishInd = none ∧ (verifyStep w e).2 = false := by
  obtain ⟨s, v⟩ := w
  obtain ⟨hfin, rfl⟩ : s.env.finishInd = none ∧ v = false := h
  refine ⟨finishInd_step hfin e, foldl_verifies fun c st hmem => ?_⟩
  by_cases hs : s.stop = none
  · obtain ⟨o, ho, -, -, hacts⟩ := Fota.step_handled hs e
    rw [hacts] at hmem
    exact ho.no_result hfin c st hmem
  · rw [Fota.issued_of_stop hs] at hmem
    cases hmem

/-- The packet asks for no reboot, or the server does not run. -/
def NoReboot (s : Fota) (e : FotaEvent) : Prop := s.stop = none → ¬ e.Reboots

theorem activates_verified_iff {w : Fota × Bool} (h : w.2 = false) (e : FotaEvent) :
    ActivatesVerified w e ↔ NoReboot w.1 e := by
  constructor
  · intro hv hs hr
    cases e with
    | ctrlWrite c p =>
        obtain ⟨hp, hreboot⟩ := hr
        have hreset : .platformReset ∈ w.1.issued (.ctrlWrite c p) := by
          rw [Fota.issued_eq hs]
          simp only [Fota.handle, ctrlPktDispatch, hp, finishCmd, if_pos hreboot]
          exact List.mem_append_right _ (List.mem_singleton.mpr rfl)
        have htrue := (hv _ hreset rfl).2.1
        rw [h] at htrue
        cases htrue
    | _ => exact hr
  · intro hno act hact ha
    by_cases hs : w.1.stop = none
    · obtain ⟨o, ho, -, -, hacts⟩ := Fota.step_handled hs e
      rw [hacts] at hact
      exact absurd (ho.reboots_of_activation hact ha) (hno hs)
    · rw [Fota.issued_of_stop hs] at hact
      cases hact

end

/-- A `FINISH_CMD` that reboots and changes the boot address. -/
def finishReboot : Packet :=
  ⟨[7, 3, 0, 0, 0, 0, 0, 0, 0, 0, 0, 0, 0, 0, 0, 2, 0x18], by decide, fun _ => 0⟩

/-- The cells programmed since they were last erased, in the session that the last answer to a
`START_REQ` began. -/
def FotaAct.marks (g : Set ℕ) : FotaAct → Set ℕ
  | sectorErase offset => {a | a ∈ g ∧ ¬ (sectorErase offset).Touches a}
  | pageProgram offset data => {a | a ∈ g ∨ (pageProgram offset data).Touches a}
  | indication _ 3 _ => ∅
  | _ => g

/-- The act neither erases nor begins a session. -/
def FotaAct.KeepsMarks (act : FotaAct) : Prop :=
  (∀ off, act ≠ .sectorErase off) ∧ ∀ c st, act ≠ .indication c 3 st

/-- As long as nothing is erased and no session begins, the marks are what was programmed. -/
theorem mem_foldl_marks {acts : List FotaAct} (h : ∀ act ∈ acts, act.KeepsMarks) {g : Set ℕ}
    {a : ℕ} :
    a ∈ acts.foldl FotaAct.marks g ↔ a ∈ g ∨ ∃ act ∈ acts, act.Touches a := by
  induction acts generalizing g with
  | nil => simp
  | cons act acts ih =>
      obtain ⟨herase, hstart⟩ := h act (List.mem_cons_self ..)
      have hmarks : a ∈ act.marks g ↔ a ∈ g ∨ act.Touches a := by
        unfold FotaAct.marks
        split
        · exact absurd rfl (herase _)
        · rfl
        · exact absurd rfl (hstart _ _)
        · next hprogram hind =>
          cases act with
          | sectorErase off => exact absurd rfl (herase off)
          | pageProgram off data => exact absurd rfl (hprogram off data)
          | _ => exact (or_iff_left id).symm
      rw [List.foldl_cons, ih fun x hx => h x (List.mem_cons_of_mem _ hx), hmarks, or_assoc]
      simp only [List.mem_cons, exists_eq_or_imp]

section
variable [Divider]

/-- The server with the cells programmed in the session. -/
def markStep : Fota × Set ℕ → FotaEvent → Fota × Set ℕ :=
  monitor Fota.step fun g s e => (s.issued e).foldl FotaAct.marks g

/-- In a session, the cells of an acknowledged segment are programmed. -/
structure AckSound (w : Fota × Set ℕ) : Prop where
  programmed : w.1.env.state = .busy → ∀ id : UInt8, acked w.1.env.ack id.toNat = true →
    ∀ j < (segmentLen w.1.env.segmentDataMaxLength id).toNat,
      (segmentStart w.1.env id + UInt32.ofNat j).toNat ∈ w.2

/-- A session begins with an empty bitmap, its segments do not run into the end of the offsets, and
the index in the packet is one of the array it is for. -/
def StartsClean (s : Fota) (e : FotaEvent) : Prop :=
  e.IndexFits ∧ (s.stop = none →
    match e with
    | .ctrlWrite _ p =>
        p.ctrlType = .startReq → s.env.state = .idle → s.env.ack = fun _ => 0
    | .dataWrite p =>
        s.env.state = .busy →
          PagesSplit (segmentStart s.env (p.byte 0))
            (segmentLen s.env.segmentDataMaxLength (p.byte 0))
    | _ => True)

instance (s : Fota) : (e : FotaEvent) → Decidable (StartsClean s e)
  | .ctrlWrite _ p => inferInstanceAs (Decidable
      (_ ∧ (s.stop = none → p.ctrlType = .startReq → s.env.state = .idle →
        s.env.ack = fun _ => 0)))
  | .dataWrite _ => inferInstanceAs (Decidable
      (_ ∧ (s.stop = none → s.env.state = .busy → PagesSplit _ _)))
  | .cccdWrite _ | .dataRead _ | .cccdRead _ | .connected | .disconnected =>
      .isTrue ⟨trivial, fun _ => trivial⟩

theorem keepsMarks_segment {env : FotasEnv} {p : Packet} {act : FotaAct}
    (h : act ∈ segmentActs env p) : act.KeepsMarks := by
  rcases mem_segmentActs h with ⟨a, rfl⟩ | ⟨off, data, rfl⟩ | ⟨n, rfl⟩ | rfl <;>
    simp [FotaAct.KeepsMarks]

/-- An acknowledged segment is the one just programmed or was acknowledged before. -/
theorem ack_sound_segment {s : Fota} {g : Set ℕ} {p : Packet} (h : AckSound (s, g))
    (hbusy : s.env.state = .busy) (hfit : (p.byte 0).toNat ≤ 215)
    (hsplit : PagesSplit (segmentStart s.env (p.byte 0))
      (segmentLen s.env.segmentDataMaxLength (p.byte 0))) {id : UInt8}
    (hid : acked (setAck s.env.ack (p.byte 0)) id.toNat = true) {j : ℕ}
    (hj : j < (segmentLen s.env.segmentDataMaxLength id).toNat) :
    (segmentStart s.env id + UInt32.ofNat j).toNat ∈ g ∨
      ∃ act ∈ segmentActs s.env p,
        act.Touches (segmentStart s.env id + UInt32.ofNat j).toNat := by
  rw [acked_setAck _ (Nat.lt_succ_of_le hfit), Bool.or_eq_true, decide_eq_true_iff] at hid
  rcases hid with hold | hnew
  · exact .inl (h.programmed hbusy id hold j hj)
  · obtain rfl : id = p.byte 0 := UInt8.toNat_inj.mp hnew
    exact .inr (touches_segmentActs.mpr ((touches_segment hsplit).mpr ⟨j, hj, rfl⟩))

/-- Neither the digests nor the result of a check matter to the acknowledgements. -/
theorem AckSound.mono {s s' : Fota} {g g' : Set ℕ} (h : AckSound (s, g))
    (henv : s'.env = { s.env with
      signature := s'.env.signature
      digest := s'.env.digest
      cccdConfig := s'.env.cccdConfig
      finishInd := s'.env.finishInd }) (hg : g ⊆ g') : AckSound (s', g') := by
  constructor
  rw [henv]
  exact fun hbusy id hid j hj => hg (h.programmed hbusy id hid j hj)

theorem ack_sound_step {w : Fota × Set ℕ} {e : FotaEvent} (h : AckSound w)
    (hclean : StartsClean w.1 e) : AckSound (markStep w e) := by
  obtain ⟨s, g⟩ := w
  obtain ⟨hfit, hclean⟩ := hclean
  by_cases hs : s.stop = none
  · obtain ⟨o, ho, henv, -, hacts⟩ := Fota.step_handled hs e
    -- the marks that a step without a start leaves
    have hmarks : (∀ act ∈ o.acts, act.KeepsMarks) →
        ∀ a, (a ∈ g ∨ ∃ act ∈ o.acts, act.Touches a) → a ∈ (markStep (s, g) e).2 :=
        fun hno a ha => by
      change a ∈ (s.issued e).foldl FotaAct.marks g
      rw [hacts]
      exact (mem_foldl_marks hno).mpr ha
    change (s.step e).env = o.env at henv
    change AckSound (s.step e, (markStep (s, g) e).2)
    cases ho with
    | started hp hidle =>
        refine ⟨fun _ id hid => ?_⟩
        rw [henv, hclean hs hp hidle, acked_zero] at hid
        cases hid
    | newSector =>
        refine ⟨fun _ id hid => ?_⟩
        rw [henv, acked_zero] at hid
        cases hid
    | finished | disconnected =>
        refine ⟨fun hbusy => ?_⟩
        rw [henv] at hbusy
        cases hbusy
    | fragment hp =>
        refine h.mono (by rw [henv, fragmentCmd_env hp hfit]) fun a ha => hmarks ?_ a (.inl ha)
        simp [fragmentCmd, FotaAct.KeepsMarks]
    | checked =>
        refine h.mono (by rw [henv]) fun a ha => hmarks ?_ a (.inl ha)
        simp [FotaAct.KeepsMarks]
    | rebooted hp hr =>
        refine h.mono (by rw [henv, finishCmd, if_pos hr])
          fun a ha => hmarks (fun act hact => ?_) a (.inl ha)
        obtain ⟨hflash, hind⟩ := finishCmd_acts hact
        refine ⟨fun off heq => ?_, fun c st => hind c 3 st⟩
        rw [heq] at hflash
        cases hflash
    | quiet hquiet hflash hind =>
        refine h.mono (by rw [henv, hquiet])
          fun a ha => hmarks (fun act hact => ?_) a (.inl ha)
        refine ⟨fun off heq => ?_, fun c st heq => hind c 3 st (heq ▸ hact)⟩
        have hno := (hflash act hact).1
        rw [heq] at hno
        cases hno
    | segment =>
        refine ⟨fun hbusy id hid j hj => ?_⟩
        rw [henv] at hbusy hid hj ⊢
        exact hmarks (fun _ hact => keepsMarks_segment hact) _
          (ack_sound_segment h hbusy hfit (hclean hs hbusy) hid hj)
  · rw [markStep, monitor, Fota.step_of_stop hs, Fota.issued_of_stop hs]
    exact h

theorem not_sound_of_stale {w : Fota × Set ℕ} {id : UInt8} (hbusy : w.1.env.state = .busy)
    (hack : acked w.1.env.ack id.toNat = true)
    (hlen : 0 < (segmentLen w.1.env.segmentDataMaxLength id).toNat) (hmarks : w.2 = ∅) :
    ¬ AckSound w := fun h => by
  have hmem := h.programmed hbusy id hack 0 hlen
  rw [hmarks] at hmem
  exact hmem

/-- In every run whose sessions begin with an empty bitmap and whose indexes are those of the
arrays, the acknowledgements that can be read are sound. -/
theorem acks_sound (flash : ℕ → UInt8) (es : List FotaEvent)
    (h : Along Fota.step StartsClean (.boot flash) es) :
    AckSound (exec markStep (.boot flash, ∅) es) := by
  have hboot : AckSound (Fota.boot flash, ∅) := ⟨nofun⟩
  exact exec_invariant (fun _ e hw hclean => ack_sound_step hw hclean) hboot
    (along_monitor (fun g s e => (s.issued e).foldl FotaAct.marks g) ∅ h)

end

section
open scoped ShiftDivider

theorem first_segment_acked :
    AckSound (exec markStep (.boot fun _ => 0xFF, ∅)
      [.ctrlWrite 0 oneSector, .ctrlWrite 0 firstSector, .dataWrite firstSegment]) :=
  acks_sound (fun _ => 0xFF)
    [.ctrlWrite 0 oneSector, .ctrlWrite 0 firstSector, .dataWrite firstSegment]
    (by decide +kernel)

/-- A session that programs its first segment and is cut off. -/
def cutSession : List FotaEvent :=
  [.ctrlWrite 0 oneSector, .ctrlWrite 0 firstSector, .dataWrite firstSegment, .disconnected]

/-- The next session erases the segment and still shows it as acknowledged. -/
theorem stale_acknowledgement : ¬ ∀ (flash : ℕ → UInt8) (es : List FotaEvent),
    AckSound (exec markStep (.boot flash, ∅) es) := by
  intro h
  have hsound := h (fun _ => 0xFF) (cutSession ++ [.ctrlWrite 0 oneSector])
  rw [exec_append, exec_cons, exec_nil] at hsound
  have hacts : (exec markStep (.boot fun _ => 0xFF, ∅) cutSession).1.issued
      (.ctrlWrite 0 oneSector) = [.sectorErase 0x20000, .indication 0 3 0, .confirm 0] := by
    decide +kernel
  have hmarks : (markStep (exec markStep (.boot fun _ => 0xFF, ∅) cutSession)
      (.ctrlWrite 0 oneSector)).2 = ∅ := by
    rw [markStep, monitor_snd, ← markStep, hacts]
    rfl
  exact @not_sound_of_stale _ _ 0 (by decide +kernel) (by decide +kernel) (by decide +kernel) hmarks
    hsound

end

end ErgoDock
