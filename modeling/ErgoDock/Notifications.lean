import ErgoDock.BleFrames
import ErgoDock.Receiver
import ErgoDock.Runs

/-! # The notification channel (`ls_bleup_server_send_notification`)

Every answer goes through one gate: it is handed to the BLE stack when a connection is there and
`uart_server_ntf_done` is set, and dropped otherwise.  A notification that is handed over closes
the gate, `SERVER_NOTIFICATION_DONE` opens it, and nothing else moves it, so that the gate is
closed exactly while a notification is outstanding, over all connections (`gate_run`).

With that go the three results on answers: a request is answered once if nothing is outstanding
and not at all otherwise (`answered_when_free`); the first answer of a connection is handed over
if and only if nothing is outstanding from before (`first_answer_iff`); and the answers fit the MTU
if and only if no longer one is asked for, since the send function looks at no length
(`fits_mtu_iff`). -/

namespace ErgoDock

open Machine

/-! ### What a step hands to the stack -/

/-- The notifications of a step, at most one. -/
def response (d : Dock) : Event → List Output
  | .bleWrite value =>
      match (d.bleApply value).answer value with
      | some frame => if d.link.Open then [.notify d.link.connectId frame] else []
      | none => []
  | .tick | .switchSample _ _ | .control _ | .led | .charge _ | .snoreEdge | .snoreRun
  | .flashRun | .voiceFrame _ _ | .mfpFrame _ | .statusFrame _ | .connected _ | .disconnected
  | .notificationDone | .mtuChanged _ => []

theorem response_write {d : Dock} {value frame : List UInt8}
    (h : (d.bleApply value).answer value = some frame) :
    response d (.bleWrite value) =
      if d.link.Open then [.notify d.link.connectId frame] else [] := by
  simp only [response, h]

theorem response_none {d : Dock} {value : List UInt8}
    (h : (d.bleApply value).answer value = none) : response d (.bleWrite value) = [] := by
  simp only [response, h]

theorem notified_response (d : Dock) (e : Event) :
    (step d e).air.notified = response d e ++ d.air.notified := by
  rw [air_step]
  cases e with
  | bleWrite value =>
      dsimp only
      cases ha : (d.bleApply value).answer value with
      | none =>
          rw [response_none ha]
          rfl
      | some frame =>
          rw [response_write ha, Air.deliver]
          change (if d.link.Open then _ else _ : Air).notified = _
          split <;> rfl
  | _ => rfl

/-- What a run hands to the stack is what its steps do, the latest first. -/
theorem notified_exec (d : Dock) (es : List Event) :
    (exec step d es).air.notified = (outputs step response d es).reverse ++ d.air.notified := by
  induction es generalizing d with
  | nil => rfl
  | cons e es ih =>
      have hone : (response d e).reverse = response d e := by
        cases e with
        | bleWrite value =>
            cases ha : (d.bleApply value).answer value with
            | none => rw [response_none ha, List.reverse_nil]
            | some frame =>
                rw [response_write ha]
                split <;> rfl
        | _ => rfl
      rw [exec_cons, ih, notified_response, outputs_cons, List.reverse_append, hone,
        List.append_assoc]

/-! ### The gate -/

/-- What a step does to the link: a notification closes the gate, and every other event does what
it says. -/
theorem link_step (d : Dock) (e : Event) :
    (step d e).link =
      if response d e = [] then d.link.next e else { d.link with uartServerNtfDone := false } := by
  have hlink : (step d e).link = (step d e).air.link := rfl
  rw [hlink, air_step]
  cases e with
  | bleWrite value =>
      dsimp only
      cases ha : (d.bleApply value).answer value with
      | none =>
          rw [if_pos (response_none ha)]
          rfl
      | some frame =>
          rw [response_write ha, Air.deliver]
          by_cases ho : d.link.Open
          · rw [if_pos ho, if_neg (List.cons_ne_nil _ _), if_pos (show d.air.link.Open from ho)]
            rfl
          · rw [if_neg ho, if_pos rfl, if_neg (show ¬ d.air.link.Open from ho)]
            rfl
  | _ => rfl

/-- The gate after a step: closed by a notification, opened by `SERVER_NOTIFICATION_DONE`. -/
theorem gate_step (d : Dock) (e : Event) :
    (step d e).link.uartServerNtfDone =
      if e = .notificationDone then true
      else if response d e = [] then d.link.uartServerNtfDone else false := by
  rw [link_step]
  split
  · cases e <;> rfl
  · next hr =>
    have he : e ≠ .notificationDone := fun he => hr (he ▸ rfl)
    rw [if_neg he]

/-- History: a notification was handed to the stack and its `DONE` has not come. -/
def Outstanding.next (w : Bool) (d : Dock) (e : Event) : Bool :=
  if e = .notificationDone then false else if response d e = [] then w else true

/-- The history of a run. -/
def outstanding (b : Boot) (es : List Event) : Bool :=
  (exec (monitor step Outstanding.next) (boot b, false) es).2

/-- The gate is closed exactly while a notification is outstanding. -/
theorem gate_run (b : Boot) (es : List Event) :
    (runFrom b es).link.uartServerNtfDone = !outstanding b es := by
  refine monitor_invariant (I := fun (d : Dock) w => d.link.uartServerNtfDone = !w) ?_ ?_ es
  · intro d w e h
    rw [gate_step, Outstanding.next]
    split
    · rfl
    · split
      · exact h
      · rfl
  · change (boot b).air.link.uartServerNtfDone = _
    rw [air_boot]
    rfl

/-! ### Every request has an answer -/

theorem words_step (d : Dock) (e : Event) : (step d e).air.words = d.air.words := by
  rw [air_step]
  cases e with
  | bleWrite value => exact Air.words_deliver _ _
  | _ => rfl

/-- Segment `0x12` always reports 24 counters. -/
theorem words_run (b : Boot) (es : List Event) : (runFrom b es).air.words = 24 := by
  refine exec_invariant_all (I := fun d : Dock => d.air.words = 24) ?_ ?_ es
  · intro d e h
    rw [words_step, h]
  · exact congrArg Air.words (air_boot b)

/-- A frame on the data port that is answered: a query, an accepted setting, or a bed type or run
mode even if there is no such type or mode. -/
def AsksData (p : List UInt8) (n : UInt8) : Prop :=
  Queries p n ∨ EchoesCounters p n ∨ SetsSnore p n ∨
    n ≥ 3 ∧ (byteAt p 0 = 0x10 ∨ byteAt p 0 = 0x13) ∧ byteAt p 1 = 0xB7

instance (p : List UInt8) (n : UInt8) : Decidable (AsksData p n) := by
  unfold AsksData; infer_instance

/-- A write that is answered; any complete frame on the key port is. -/
def Asks (value : List UInt8) : Prop :=
  Dock.Accepted value ∧
    (byteAt value 1 = bleAppPortInner ∨
      byteAt value 1 = bleDataPort ∧ AsksData (value.drop 2) (byteAt value 0))

instance (value : List UInt8) : Decidable (Asks value) := by unfold Asks; infer_instance

theorem asks_of_isCommand {value : List UInt8} (h : IsCommand value) : Asks value := by
  obtain ⟨ha, ⟨hp, -⟩ | ⟨hp, hd⟩⟩ := h
  · exact ⟨ha, .inl hp⟩
  · refine ⟨ha, .inr ⟨hp, ?_⟩⟩
    rcases hd with hq | he | hb | hs | hm
    · exact .inl hq
    · exact .inr (.inl he)
    · exact .inr (.inr (.inr ⟨hb.1, .inl hb.2.1, hb.2.2.1⟩))
    · exact .inr (.inr (.inl hs))
    · exact .inr (.inr (.inr ⟨hm.1, .inr hm.2.1, hm.2.2.1⟩))

namespace Dock
variable {d : Dock}

theorem dataPortAnswer_iff (h : d.air.words = 24) (p : List UInt8) (n : UInt8) :
    (∃ frame, d.dataPortAnswer p n = some frame) ↔ AsksData p n := by
  have hwords : d.testinfoData.length = 33 := by
    rw [length_testinfoData]
    exact congrArg (9 + ·) h
  -- the answer of one segment fits its frame, so that only the request counts
  have hseg : ∀ {c : Prop} [Decidable c] {data : List UInt8}, data.length ≤ 160 →
      ((∃ frame, (if c then linkFrame bleDataPort data else none) = some frame) ↔ c) := by
    intro c _ data hl
    by_cases hc : c
    · rw [if_pos hc, linkFrame_of_le hl]
      simp [hc]
    · rw [if_neg hc]
      simp [hc]
  rw [dataPortAnswer]
  split
  · next hn =>
    have h2 : ¬ n ≥ 2 := UInt8.not_le.mpr hn
    have h3 : ¬ n ≥ 3 := fun hc => h2 (UInt8.le_trans (by decide) hc)
    have h7 : n ≠ 7 := by
      rintro rfl
      exact absurd hn (by decide)
    simp [AsksData, Queries, EchoesCounters, SetsSnore, h2, h3, h7]
  next hn =>
  have h2 : n ≥ 2 := UInt8.not_lt.mp hn
  split
  · next h0 =>
    rw [hseg (by rw [length_voiceData]; decide)]
    simp [AsksData, Queries, EchoesCounters, SetsSnore, h0, h2, and_comm]
  split
  · next h1 =>
    rw [hseg (by rw [length_snoreData]; decide)]
    simp [AsksData, Queries, EchoesCounters, h1, h2]
  split
  · next h2' =>
    rw [hseg (by rw [hwords]; decide)]
    simp [AsksData, Queries, EchoesCounters, SetsSnore, h2', h2]
  split
  · next h3 =>
    rw [hseg (by rw [length_dbgmodeData]; decide)]
    simp [AsksData, Queries, EchoesCounters, SetsSnore, h3, h2, and_comm]
  · next h0 h1 h2' h3 =>
    simp [AsksData, Queries, EchoesCounters, SetsSnore, h0, h1, h2', h3]

theorem answer_iff (h : d.air.words = 24) (value : List UInt8) :
    (∃ frame, d.answer value = some frame) ↔ Asks value := by
  rw [answer, Asks]
  split
  · next ha =>
    split
    · next hp => simp [ha, hp]
    · next hp =>
      split
      · next hq =>
        rw [dataPortAnswer_iff h]
        simp [ha, hq, bleDataPort_ne]
      · next hq => simp [hp, hq]
  · next ha => simp [ha]

end Dock

/-- A write is answered if and only if it asks for it, whatever it changes before. -/
theorem answered_iff {d : Dock} (h : d.air.words = 24) (value : List UInt8) :
    (∃ frame, (d.bleApply value).answer value = some frame) ↔ Asks value :=
  Dock.answer_iff ((congrArg Air.words (d.air_bleApply value)).trans h) value

/-! ### One response for a request -/

/-- The events that leave the connection as it is. -/
def Event.KeepsConnection : Event → Prop
  | .connected _ | .disconnected => False
  | .tick | .switchSample _ _ | .control _ | .led | .charge _ | .snoreEdge | .snoreRun
  | .flashRun | .voiceFrame _ _ | .mfpFrame _ | .statusFrame _ | .bleWrite _
  | .notificationDone | .mtuChanged _ => True

instance : (e : Event) → Decidable e.KeepsConnection
  | .connected _ | .disconnected => .isFalse id
  | .tick | .switchSample _ _ | .control _ | .led | .charge _ | .snoreEdge | .snoreRun
  | .flashRun | .voiceFrame _ _ | .mfpFrame _ | .statusFrame _ | .bleWrite _
  | .notificationDone | .mtuChanged _ => .isTrue trivial

theorem connectId_step (d : Dock) {e : Event} (he : e.KeepsConnection) :
    (step d e).link.connectId = d.link.connectId := by
  rw [link_step]
  split
  · cases e with
    | connected idx => exact he.elim
    | disconnected => exact he.elim
    | _ => rfl
  · rfl

theorem connectId_exec (d : Dock) {es : List Event}
    (hes : Along step (fun _ e => e.KeepsConnection) d es) :
    (exec step d es).link.connectId = d.link.connectId :=
  exec_constant (I := fun _ : Dock => True) (f := fun c : Dock => c.link.connectId)
    (fun _ _ _ _ => trivial) (fun c _ _ he => connectId_step c he) trivial hes

/-- On any connection, in any order of requests, `DONE` events and other work: what is handed to the
stack are the responses of the single steps, and the response to a request is its answer, at once
and with the state it leaves, if nothing is outstanding, and nothing otherwise. -/
theorem answered_when_free (b : Boot) (es : List Event) (idx : UInt8) (hidx : idx ≠ 0xFF)
    (conv : List Event) (hconv : ∀ e ∈ conv, e.KeepsConnection) :
    let d := runFrom b (es ++ [.connected idx])
    (exec step d conv).air.notified = (outputs step response d conv).reverse ++ d.air.notified ∧
    ∀ pre value post, conv = pre ++ .bleWrite value :: post → IsCommand value →
      ∃ frame, ((exec step d pre).bleApply value).answer value = some frame ∧
        response (exec step d pre) (.bleWrite value) =
          if outstanding b (es ++ .connected idx :: pre) then [] else [.notify idx frame] := by
  dsimp only
  refine ⟨notified_exec _ _, fun pre value post hsplit hcommand => ?_⟩
  have hrun : exec step (runFrom b (es ++ [Event.connected idx])) pre =
      runFrom b (es ++ Event.connected idx :: pre) := by
    rw [← runFrom_append, List.append_assoc, List.singleton_append]
  have hid : (exec step (runFrom b (es ++ [Event.connected idx])) pre).link.connectId = idx := by
    rw [connectId_exec _ (along_of_forall fun e he _ => hconv e (by simp [hsplit, he])),
      runFrom_concat]
    exact congrArg BleLink.connectId (link_step _ (.connected idx))
  rw [hrun] at hid ⊢
  have hgate := gate_run b (es ++ Event.connected idx :: pre)
  have hwords := words_run b (es ++ Event.connected idx :: pre)
  generalize runFrom b (es ++ Event.connected idx :: pre) = c at *
  obtain ⟨frame, hframe⟩ := (answered_iff hwords value).mpr (asks_of_isCommand hcommand)
  refine ⟨frame, hframe, ?_⟩
  have hopen : c.link.Open ↔ outstanding b (es ++ Event.connected idx :: pre) = false := by
    unfold BleLink.Open
    rw [hid, hgate]
    simp [hidx]
  rw [response_write hframe, hid]
  simp only [hopen]
  cases outstanding b (es ++ Event.connected idx :: pre) <;> rfl

/-- The query of the voice settings. -/
def voiceQuery : List UInt8 := [2, 6, 0x10, 0xB6]

theorem first_query_answered :
    ∃ frame, ((runFrom (bootAt 3) [.connected 0]).bleApply voiceQuery).answer voiceQuery =
        some frame ∧
      response (runFrom (bootAt 3) [.connected 0]) (.bleWrite voiceQuery) = [.notify 0 frame] := by
  have hfree : outstanding (bootAt 3) [.connected 0] = false := by decide
  obtain ⟨frame, hframe, hresponse⟩ := (answered_when_free (bootAt 3) [] 0 (by decide)
    [.bleWrite voiceQuery] (by decide)).2 [] voiceQuery [] rfl (by decide)
  refine ⟨frame, hframe, hresponse.trans ?_⟩
  exact if_neg (Bool.eq_false_iff.mp hfree)

/-- The writes of a run. -/
def writes (es : List Event) : List (List UInt8) :=
  es.filterMap fun | .bleWrite value => some value | _ => none

/-- Two queries, one after the other: the second one is never answered, although the stack
reports its one notification as done. -/
theorem second_query_unanswered : ¬ ∀ (b : Boot) (es : List Event) (idx : UInt8)
    (conv : List Event), idx ≠ 0xFF → (∀ e ∈ conv, e.KeepsConnection) →
      (∀ value ∈ writes conv, IsCommand value) →
      conv.count .notificationDone =
        (outputs step response (runFrom b (es ++ [.connected idx])) conv).length →
      (outputs step response (runFrom b (es ++ [.connected idx])) conv).length =
        (writes conv).length := by
  intro H
  have htwo := H (bootAt 3) [] 0
    [.bleWrite voiceQuery, .bleWrite voiceQuery, .notificationDone] (by decide) (by decide)
    (by decide) (by decide)
  exact absurd htwo (by decide)

/-! ### The first answer of a connection -/

/-- The connection stays, and no answer is due. -/
def NoAnswerDue (d : Dock) (e : Event) : Prop :=
  e.KeepsConnection ∧ ∀ value, e = .bleWrite value → (d.bleApply value).answer value = none

/-- The first answer of a connection that begins in `d` is handed to the stack, whatever else
happens before it. -/
def FirstAnswerHanded (d : Dock) (idx : UInt8) : Prop :=
  ∀ quiet, Along step NoAnswerDue (step d (.connected idx)) quiet →
    let c := exec step (step d (.connected idx)) quiet
    ∀ value frame, (c.bleApply value).answer value = some frame →
      response c (.bleWrite value) = [.notify idx frame]

theorem response_noAnswerDue {d : Dock} {e : Event} (h : NoAnswerDue d e) : response d e = [] := by
  cases e with
  | bleWrite value => exact response_none (h.2 value rfl)
  | _ => rfl

/-- An open gate stays open until something is answered. -/
theorem gate_noAnswerDue (d : Dock) (e : Event) (hd : d.link.uartServerNtfDone = true)
    (h : NoAnswerDue d e) : (step d e).link.uartServerNtfDone = true := by
  rw [gate_step, if_pos (response_noAnswerDue h)]
  split
  · rfl
  · exact hd

theorem firstAnswerHanded_iff {d : Dock} {idx : UInt8} (hidx : idx ≠ 0xFF) :
    FirstAnswerHanded d idx ↔ d.link.uartServerNtfDone = true := by
  have hstart : (step d (.connected idx)).link = { d.link with connectId := idx } :=
    link_step d (.connected idx)
  constructor
  · intro H
    have hframe : ((step d (.connected idx)).bleApply voiceQuery).answer voiceQuery =
      some (5 :: bleDataPort :: ((step d (.connected idx)).bleApply voiceQuery).voiceData) := rfl
    have hfirst := H [] trivial voiceQuery _ hframe
    by_contra hd
    have hshut : ¬ (step d (.connected idx)).link.Open := by
      rw [hstart]
      exact fun ho => hd ho.2
    rw [exec_nil, response_write hframe, if_neg hshut] at hfirst
    cases hfirst
  · intro hd quiet hquiet
    dsimp only
    intro value frame hframe
    have hgate := exec_invariant (I := fun c : Dock => c.link.uartServerNtfDone = true)
      gate_noAnswerDue (by rw [hstart]; exact hd) hquiet
    have hid := connectId_exec _ (hquiet.mono fun _ _ h => h.1)
    rw [hstart] at hid
    rw [response_write hframe, hid]
    refine if_pos ⟨?_, hgate⟩
    rw [hid]
    exact hidx

/-- In every run: the first answer of every connection is handed to the stack if and only if at
no `CONNECTED` event a notification is outstanding. -/
theorem first_answer_iff (b : Boot) (es : List Event) :
    (∀ pre idx post, es = pre ++ .connected idx :: post → idx ≠ 0xFF →
      FirstAnswerHanded (runFrom b pre) idx) ↔
    ∀ pre idx post, es = pre ++ .connected idx :: post → idx ≠ 0xFF →
      outstanding b pre = false := by
  have hone : ∀ pre idx, idx ≠ 0xFF →
      (FirstAnswerHanded (runFrom b pre) idx ↔ outstanding b pre = false) := by
    intro pre idx hidx
    rw [firstAnswerHanded_iff hidx, gate_run]
    simp
  constructor
  · exact fun H pre idx post hes hidx => (hone pre idx hidx).mp (H pre idx post hes hidx)
  · exact fun H pre idx post hes hidx => (hone pre idx hidx).mpr (H pre idx post hes hidx)

/-- The link drops while the answer to a query is outstanding, and its `DONE` never comes: the
next connection hears nothing. -/
theorem reconnect_stays_mute : ¬ ∀ (b : Boot) (es : List Event),
    ∀ pre idx post, es = pre ++ .connected idx :: post → idx ≠ 0xFF →
      FirstAnswerHanded (runFrom b pre) idx := by
  intro H
  have hsecond := H (bootAt 3)
    [.connected 0, .bleWrite voiceQuery, .disconnected, .connected 0]
    [.connected 0, .bleWrite voiceQuery, .disconnected] 0 [] rfl (by decide)
  exact absurd ((firstAnswerHanded_iff (by decide)).mp hsecond) (by decide)

/-- While a notification is outstanding and no `DONE` comes, nothing more is ever handed to the
stack, over any number of connections. -/
theorem mute_until_done {b : Boot} {es fs : List Event} (h : outstanding b es = true)
    (hfs : .notificationDone ∉ fs) :
    (runFrom b (es ++ fs)).air.notified = (runFrom b es).air.notified := by
  have hgate : (runFrom b es).link.uartServerNtfDone = false := by
    rw [gate_run, h]
    rfl
  have hshut : ∀ (d : Dock) (e : Event), d.link.uartServerNtfDone = false →
      response d e = [] := by
    intro d e hd
    cases e with
    | bleWrite value =>
        cases ha : (d.bleApply value).answer value with
        | none => exact response_none ha
        | some frame =>
            rw [response_write ha]
            exact if_neg fun ho => Bool.false_ne_true (hd.symm.trans ho.2)
    | _ => rfl
  have hquiet : Along step (fun _ e => e ≠ .notificationDone) (runFrom b es) fs :=
    along_of_forall fun e he _ hdone => hfs (hdone ▸ he)
  rw [runFrom_append]
  refine exec_constant (I := fun d : Dock => d.link.uartServerNtfDone = false)
    (f := fun d : Dock => d.air.notified) (fun d e hd he => ?_) (fun d e hd _ => ?_) hgate hquiet
  · rw [gate_step, if_neg he, if_pos (hshut d e hd)]
    exact hd
  · rw [notified_response, hshut d e hd]
    rfl

/-! ### Lengths -/

/-- The length of the answer to a write. -/
def replyLength (d : Dock) (value : List UInt8) : ℕ :=
  if byteAt value 1 = bleAppPortInner then 35 + min 127 d.uart1LastMfpRaw.length
  else if byteAt (value.drop 2) 0 = 0x10 then 7
  else if byteAt (value.drop 2) 0 = 0x11 then 16
  else if byteAt (value.drop 2) 0 = 0x12 then 35 else 5

theorem raw_bleApply (d : Dock) (value : List UInt8) :
    (d.bleApply value).uart1LastMfpRaw = d.uart1LastMfpRaw := by
  have hstep := Line.raw_step d (e := .bleWrite value) nofun
  rw [step, Dock.uartServerWriteReq_eq] at hstep
  exact (congrArg Desk.uart1LastMfpRaw (Dock.answerBlind_desk.deliver _ _)).symm.trans hstep

theorem length_answer {d : Dock} (h : d.air.words = 24) {value frame : List UInt8}
    (hframe : (d.bleApply value).answer value = some frame) :
    frame.length = replyLength d value := by
  have hwords : (d.bleApply value).sys.bleTestinfo.voiceDetail.length = 24 :=
    (congrArg Air.words (d.air_bleApply value)).trans h
  have hraw := (d.bleApply value).length_bleFillAppKeyDataDomain
  rw [raw_bleApply] at hraw
  rw [replyLength]
  rcases Dock.answer_cases hframe with ⟨hp, rfl⟩ | ⟨data, rfl, hp, hdata⟩
  · rw [if_pos hp, Dock.statusFrame, List.length_cons, List.length_cons, hraw]
    omega
  · rw [if_neg (hp ▸ bleDataPort_ne), List.length_cons, List.length_cons]
    rcases hdata with ⟨hs, rfl⟩ | ⟨hs, rfl⟩ | ⟨hs, rfl⟩ | ⟨hs, rfl⟩ <;> rw [hs]
    · rfl
    · rfl
    · rw [Dock.length_testinfoData, hwords]
      rfl
    · rfl

/-- Every notification of the step fits a packet of the connection. -/
def FitsMtu (d : Dock) (e : Event) : Prop :=
  ∀ idx frame, .notify idx frame ∈ response d e →
    frame.length + 3 ≤ d.link.uartServerMtu.toNat

/-- No write asks for an answer, over an open channel, that does not fit. -/
def AskedFits (d : Dock) (e : Event) : Prop :=
  ∀ value, e = .bleWrite value → Asks value → d.link.Open →
    replyLength d value + 3 ≤ d.link.uartServerMtu.toNat

theorem fitsMtu_step {d : Dock} (h : d.air.words = 24) (e : Event) :
    FitsMtu d e ↔ AskedFits d e := by
  constructor
  · rintro H value rfl hasks hopen
    obtain ⟨frame, hframe⟩ := (answered_iff h value).mpr hasks
    have hfits := H d.link.connectId frame
    rw [response_write hframe, if_pos hopen, length_answer h hframe] at hfits
    exact hfits (List.mem_singleton_self _)
  · intro H idx frame hmem
    cases e with
    | bleWrite value =>
        cases hframe : (d.bleApply value).answer value with
        | none =>
            rw [response_none hframe] at hmem
            cases hmem
        | some f =>
            rw [response_write hframe] at hmem
            split at hmem
            · next hopen =>
              have heq := List.mem_singleton.mp hmem
              rw [(Output.notify.inj heq).2, length_answer h hframe]
              exact H value rfl ((answered_iff h value).mp ⟨f, hframe⟩) hopen
            · cases hmem
    | _ => cases hmem

/-- In every run: all notifications fit the MTU of their connection if and only if no write asks,
over an open channel, for an answer that does not fit. -/
theorem fits_mtu_iff (b : Boot) (es : List Event) :
    Along step FitsMtu (boot b) es ↔ Along step AskedFits (boot b) es := by
  have hwords : ∀ (d : Dock) (e : Event), d.air.words = 24 → (step d e).air.words = 24 :=
    fun d e h => (words_step d e).trans h
  have hboot := words_run b []
  constructor
  · exact Along.of_invariant (fun d e h _ => hwords d e h)
      (fun d e h hfits => (fitsMtu_step h e).mp hfits) hboot
  · exact Along.of_invariant (fun d e h _ => hwords d e h)
      (fun d e h hasked => (fitsMtu_step h e).mpr hasked) hboot

/-- The smallest MTU, and the status of a box that was never heard: 35 bytes for 20. -/
theorem status_exceeds_mtu : ¬ ∀ (b : Boot) (es : List Event),
    (∀ mtu, .mtuChanged mtu ∈ es → 23 ≤ mtu) → Along step FitsMtu (boot b) es := by
  intro H
  have hrun := H (bootAt 3) [.connected 0, .mtuChanged 23, .bleWrite [5, 1, 0, 0, 0, 0, 0]]
    (by simp)
  have hwords := words_run (bootAt 3) [.connected 0, .mtuChanged 23]
  have hasked := (fitsMtu_step hwords _).mp hrun.2.2.1 _ rfl (by decide) (by decide)
  exact absurd hasked (by decide)

end ErgoDock
