import ErgoDock.FotaFlash

/-! # Single packets of the update service

What one packet does in any state of the running server.  Its indexes keep it inside the arrays
of the environment or they do not (`in_arrays_iff`); its received bytes determine what happens
or the memory behind them does (`interpreted_iff`); and a request for the integrity check can
never be answered, since nothing ever sets `finish_ind` (`integrity_never_answered`), although
the check itself would cover exactly the image (`fwDigestCheck_iff`). -/

namespace ErgoDock

open Machine Nor

/-! ### Indexes -/

/-- A packet that is for one array changes no other field of the environment. -/
def FotaEvent.KeepsOthers : FotaEvent → FotasEnv → FotasEnv → Prop
  | ctrlWrite _ p, env, env' =>
      (p.ctrlType = .signatureCmd → env' = { env with signature := env'.signature }) ∧
        (p.ctrlType = .digestCmd → env' = { env with digest := env'.digest })
  | dataWrite _, env, env' => env' = { env with ack := env'.ack }
  | _, _, _ => True

/-- The index in the packet is one of its array, or the packet has none. -/
def FotaEvent.IndexFits : FotaEvent → Prop
  | ctrlWrite _ p =>
      (p.ctrlType = .signatureCmd → (p.byte 1).toNat ≤ 3) ∧
        (p.ctrlType = .digestCmd → (p.byte 1).toNat ≤ 1)
  | dataWrite p => (p.byte 0).toNat ≤ 215
  | _ => True

instance : (e : FotaEvent) → Decidable e.IndexFits
  | .ctrlWrite _ p => inferInstanceAs (Decidable
      ((p.ctrlType = .signatureCmd → (p.byte 1).toNat ≤ 3) ∧
        (p.ctrlType = .digestCmd → (p.byte 1).toNat ≤ 1)))
  | .dataWrite p => inferInstanceAs (Decidable ((p.byte 0).toNat ≤ 215))
  | .cccdWrite _ | .dataRead _ | .cccdRead _ | .connected | .disconnected => .isTrue trivial

/-- A fragment whose index fits changes what is stored for the check, and no more. -/
theorem fragmentCmd_env {c : UInt8} {p : Packet} {array : FotasArray}
    (hp : p.ctrlType = .signatureCmd ∧ array = .signature ∨
      p.ctrlType = .digestCmd ∧ array = .digest)
    (hfit : (FotaEvent.ctrlWrite c p).IndexFits) (env : FotasEnv) :
    (fragmentCmd array env p).env = { env with
      signature := (fragmentCmd array env p).env.signature
      digest := (fragmentCmd array env p).env.digest } := by
  have hlen : (p.bytes 2 16).length = 16 := p.length_bytes 2 16
  rcases hp with ⟨hp, rfl⟩ | ⟨hp, rfl⟩
  · have hle := hfit.1 hp
    exact FotasEnv.memcpy_eq (by simp only [FotasArray.offset]; omega)
  · have hle := hfit.2 hp
    exact FotasEnv.memcpy_eq (by simp only [FotasArray.offset]; omega)

/-- What a control packet leaves alone: it never divides, and only fragments change the digest. -/
theorem ctrlPktDispatch_frame (env : FotasEnv) (flash : ℕ → UInt8) (c : UInt8) (p : Packet) :
    (∀ a b, .divide a b ∉ (ctrlPktDispatch env flash c p).acts) ∧
      (p.ctrlType ≠ .signatureCmd → p.ctrlType ≠ .digestCmd →
        (ctrlPktDispatch env flash c p).env.digest = env.digest ∧
        ∀ array start n, .store array start n ∈ (ctrlPktDispatch env flash c p).acts →
          start + n ≤ array.size) := by
  unfold ctrlPktDispatch
  cases p.ctrlType with
  | signatureCmd | digestCmd =>
      exact ⟨by simp [signatureCmd, digestCmd, fragmentCmd], fun h h' => by simp at h h'⟩
  | startReq =>
      dsimp only [startReq]
      cases env.state with
      | idle =>
          rw [if_pos (show fwSignatureCheck env.digest env.signature = true from rfl)]
          refine ⟨fun a b hact => ?_, fun _ _ => ⟨rfl, fun array start n hact => ?_⟩⟩
          · rcases List.mem_append.mp hact with h | h
            · obtain ⟨off, hoff⟩ := eq_of_mem_cleanup h
              cases hoff
            · simp at h
          · rcases List.mem_append.mp hact with h | h
            · obtain ⟨off, hoff⟩ := eq_of_mem_cleanup h
              cases hoff
            · simp at h
      | busy => exact ⟨by simp, fun _ _ => ⟨rfl, by simp⟩⟩
  | integrityCheckReq =>
      dsimp only [integrityCheckReq]
      cases env.finishInd <;> exact ⟨by simp, fun _ _ => ⟨rfl, by simp⟩⟩
  | finishCmd =>
      dsimp only [finishCmd]
      split
      · refine ⟨fun a b => ?_, fun _ _ => ⟨rfl, fun array start n => ?_⟩⟩ <;> split_ifs <;> simp
      · exact ⟨by simp, fun _ _ => ⟨rfl, by simp⟩⟩
  | newSectorCmd =>
      refine ⟨by simp [newSectorCmd], fun _ _ => ⟨rfl, fun array start n hact => ?_⟩⟩
      simp only [newSectorCmd, List.mem_cons, FotaAct.store.injEq, reduceCtorEq, List.not_mem_nil,
        or_false] at hact
      obtain ⟨rfl, rfl, rfl⟩ := hact
      exact Nat.le_refl 27
  | startRsp | integrityCheckRsp | other => exact ⟨by simp, fun _ _ => ⟨rfl, by simp⟩⟩

section
variable [Divider]

/-- Every write of the step into an array stays inside it. -/
def Fota.StoresInside (s : Fota) (e : FotaEvent) : Prop :=
  ∀ array start n, .store array start n ∈ s.issued e → start + n ≤ array.size

/-- The step writes inside the arrays and to nothing else. -/
def Fota.InArrays (s : Fota) (e : FotaEvent) : Prop :=
  s.StoresInside e ∧ e.KeepsOthers s.env (s.step e).env

/-- A fragment goes into its array exactly if its index does. -/
theorem storesInside_fragment {s : Fota} (h : s.stop = none) {c : UInt8} {p : Packet}
    {array : FotasArray} (ho : s.handle (.ctrlWrite c p) = fragmentCmd array s.env p) :
    s.StoresInside (.ctrlWrite c p) ↔ (p.byte 1).toNat * 16 + 16 ≤ array.size := by
  unfold Fota.StoresInside
  rw [Fota.issued_eq h, ho]
  constructor
  · exact fun hin => hin _ _ _ (List.mem_cons_self ..)
  · intro hle array' start n hact
    simp only [fragmentCmd, List.mem_cons, FotaAct.store.injEq, reduceCtorEq, List.not_mem_nil,
      or_false] at hact
    obtain ⟨rfl, rfl, rfl⟩ := hact
    exact hle

theorem in_arrays_ctrl {s : Fota} (h : s.stop = none) (c : UInt8) (p : Packet) :
    s.InArrays (.ctrlWrite c p) ↔ (FotaEvent.ctrlWrite c p).IndexFits := by
  have hlen : (p.bytes 2 16).length = 16 := p.length_bytes 2 16
  have hother := (ctrlPktDispatch_frame s.env s.flash c p).2
  have hhandle : s.handle (.ctrlWrite c p) = ctrlPktDispatch s.env s.flash c p := rfl
  simp only [Fota.InArrays, FotaEvent.KeepsOthers, FotaEvent.IndexFits, Fota.env_step h]
  cases hp : p.ctrlType with
  | signatureCmd =>
      have ho : s.handle (.ctrlWrite c p) = fragmentCmd .signature s.env p := by
        rw [hhandle, ctrlPktDispatch, hp, signatureCmd]
      rw [storesInside_fragment h ho, ho]
      constructor
      · rintro ⟨hin, -⟩
        have hfit : _ ≤ 64 := hin
        exact ⟨fun _ => by omega, nofun⟩
      · rintro ⟨hfit, -⟩
        have hle := hfit rfl
        refine ⟨show _ ≤ 64 by omega, fun _ => FotasEnv.memcpy_signature ?_, nofun⟩
        simp only [FotasArray.offset]
        omega
  | digestCmd =>
      have ho : s.handle (.ctrlWrite c p) = fragmentCmd .digest s.env p := by
        rw [hhandle, ctrlPktDispatch, hp, digestCmd]
      rw [storesInside_fragment h ho, ho]
      constructor
      · rintro ⟨hin, -⟩
        have hfit : _ ≤ 32 := hin
        exact ⟨nofun, fun _ => by omega⟩
      · rintro ⟨-, hfit⟩
        have hle := hfit rfl
        refine ⟨show _ ≤ 32 by omega, nofun, fun _ => FotasEnv.memcpy_digest ?_ ?_⟩
        · exact Nat.le_add_right ..
        · simp only [FotasArray.offset]
          omega
  | startReq | startRsp | newSectorCmd | integrityCheckReq | integrityCheckRsp | finishCmd
  | other =>
      refine iff_of_true ⟨fun array start n hact => ?_, nofun, nofun⟩ ⟨nofun, nofun⟩
      rw [Fota.issued_eq h] at hact
      exact (hother (by simp [hp]) (by simp [hp])).2 array start n hact

theorem in_arrays_data {s : Fota} (h : s.stop = none) (p : Packet) :
    s.InArrays (.dataWrite p) ↔ (FotaEvent.dataWrite p).IndexFits := by
  simp only [Fota.InArrays, FotaEvent.KeepsOthers, FotaEvent.IndexFits, Fota.env_step h]
  have hissued : s.issued (.dataWrite p) = segmentActs s.env p := Fota.issued_eq h _
  constructor
  · rintro ⟨hin, -⟩
    have hfit : _ ≤ 27 := hin .ack ((p.byte 0).toNat / 8) 1 (by
      rw [hissued]
      exact List.mem_append_right _ (List.mem_cons_self ..))
    omega
  · intro hle
    refine ⟨fun array start n hact => ?_, ?_⟩
    · rw [hissued] at hact
      rcases List.mem_append.mp hact with hact | hact
      · rcases List.mem_append.mp hact with hact | hact
        · obtain ⟨a, ha⟩ := mem_segmentDivisions hact
          cases ha
        · obtain ⟨off, data, ha⟩ := eq_of_mem_segment hact
          cases ha
      · simp only [List.mem_cons, FotaAct.store.injEq, reduceCtorEq, List.not_mem_nil,
          or_false] at hact
        obtain ⟨rfl, rfl, rfl⟩ := hact
        exact show _ ≤ 27 by omega
    · have hconidx : ¬ (p.byte 0).toNat / 8 = 27 := by omega
      simp only [Fota.handle, dataWriteInd, if_neg hconidx]

/-- In every state of the running server, a packet writes inside the arrays and to nothing else if
and only if its index is one of the array. -/
theorem in_arrays_iff (s : Fota) (h : s.stop = none) (e : FotaEvent) :
    s.InArrays e ↔ e.IndexFits := by
  cases e with
  | ctrlWrite c p => exact in_arrays_ctrl h c p
  | dataWrite p => exact in_arrays_data h p
  | cccdWrite p =>
      refine iff_of_true ⟨fun array start n hact => ?_, trivial⟩ trivial
      rw [Fota.issued_eq h] at hact
      dsimp only [Fota.handle] at hact
      split at hact <;> simp at hact
  | dataRead c | cccdRead c | connected | disconnected =>
      refine iff_of_true ⟨fun array start n hact => ?_, trivial⟩ trivial
      rw [Fota.issued_eq h] at hact
      simp [Fota.handle] at hact

end

/-- The fifth fragment of a signature. -/
def fifthFragment : Packet := ⟨0 :: 4 :: List.replicate 16 0, by decide, fun _ => 0⟩

section
open scoped ShiftDivider

theorem in_arrays_third_fragment :
    (Fota.boot fun _ => 0xFF).InArrays
      (.ctrlWrite 0 ⟨0 :: 3 :: List.replicate 16 0, by decide, fun _ => 0⟩) :=
  (in_arrays_iff (Fota.boot fun _ => 0xFF) rfl _).mpr (by decide)

/-- It is written behind the array. -/
theorem fragment_overruns : ¬ ∀ (flash : ℕ → UInt8) (es : List FotaEvent) (e : FotaEvent),
    (exec Fota.step (.boot flash) es).stop = none →
      (exec Fota.step (.boot flash) es).InArrays e := fun h =>
  absurd ((h (fun _ => 0xFF) [] (.ctrlWrite 0 fifthFragment) rfl).1 .signature 64 16
    (List.mem_cons_self ..)) (by decide)

/-- A third fragment of a digest is a new image, and sets the pointer to the result of a check. -/
example : ((Fota.boot fun _ => 0xFF).step (.ctrlWrite 0
    ⟨1 :: 2 :: List.replicate 16 0x18, by decide, fun _ => 0⟩)).env.newImage =
      ⟨0x18181818, 0x18181818⟩ := by decide +kernel

end

/-! ### Received bytes -/

/-- How long a control packet of a type is, with its fields. -/
def ctrlLength : FotasCtrlType → ℕ
  | .signatureCmd | .digestCmd => 18
  | .startReq => 11
  | .newSectorCmd => 3
  | .startRsp | .integrityCheckReq | .integrityCheckRsp => 2
  | .finishCmd => 17
  | .other => 1

/-- The two characteristics that are written packets. -/
inductive FotaChar where
  | ctrl (conidx : UInt8)
  | data

def FotaChar.write : FotaChar → Packet → FotaEvent
  | ctrl conidx, p => .ctrlWrite conidx p
  | data, p => .dataWrite p

/-- The bytes are shorter than the fields of a control packet of their type. -/
def TooShort : List UInt8 → Prop
  | [] => True
  | b :: rest => rest.length + 1 < ctrlLength (.ofByte b)

section
variable [Divider]

/-- The server handles a write of the bytes `v` without a division by zero, as the bytes alone
determine, and not at all if they are too short for a control packet. -/
structure Fota.Interprets (s : Fota) (ch : FotaChar) (v : List UInt8) (hv : v.length < 65536) :
    Prop where
  defined : ∀ m dividend, .divide dividend 0 ∉ s.issued (ch.write ⟨v, hv, m⟩)
  determined : ∀ m m', s.step (ch.write ⟨v, hv, m⟩) = s.step (ch.write ⟨v, hv, m'⟩) ∧
    s.issued (ch.write ⟨v, hv, m⟩) = s.issued (ch.write ⟨v, hv, m'⟩)
  ignored : ∀ c, ch = .ctrl c → TooShort v → ∀ m, s.step (ch.write ⟨v, hv, m⟩) = s ∧
    ∀ act ∈ s.issued (ch.write ⟨v, hv, m⟩), ∃ st, act = .confirm st

/-- The bytes are all the server reads, or what it reads has no effect. -/
def FotasEnv.Suffices (env : FotasEnv) : FotaChar → List UInt8 → Prop
  | _, [] => False
  | .ctrl _, b :: rest =>
      ctrlLength (.ofByte b) ≤ rest.length + 1 ∨
      FotasCtrlType.ofByte b = .startReq ∧ env.state = .busy ∨
      FotasCtrlType.ofByte b = .finishCmd ∧ env.state = .idle ∧
        ∃ status ∈ rest.head?, ¬ StatusReboots status
  | .data, b :: payload =>
      env.segmentDataMaxLength ≠ 0 ∧
      (segmentLen env.segmentDataMaxLength b).toNat ≤ payload.length ∧
      ¬ RunsOver (segmentStart env b) (segmentLen env.segmentDataMaxLength b)

end

/-! What a handler reads of a packet is what it does with it. -/

section congruence
variable {p p' : Packet} {n : ℕ}

theorem bytes_congr (h : ∀ i < n, p.byte i = p'.byte i) {i k : ℕ} (hk : i + k ≤ n) :
    p.bytes i k = p'.bytes i k :=
  List.map_congr_left fun j hj => h (i + j) (by rw [List.mem_range] at hj; omega)

theorem le16_congr (h : ∀ i < n, p.byte i = p'.byte i) {i : ℕ} (hi : i + 2 ≤ n) :
    p.le16 i = p'.le16 i := by
  rw [Packet.le16, Packet.le16, h i (by omega), h (i + 1) (by omega)]

theorem le24_congr (h : ∀ i < n, p.byte i = p'.byte i) {i : ℕ} (hi : i + 3 ≤ n) :
    p.le24 i = p'.le24 i := by
  rw [Packet.le24, Packet.le24, h i (by omega), h (i + 1) (by omega), h (i + 2) (by omega)]

theorem le32_congr (h : ∀ i < n, p.byte i = p'.byte i) {i : ℕ} (hi : i + 4 ≤ n) :
    p.le32 i = p'.le32 i := by
  rw [Packet.le32, Packet.le32, le24_congr h (by omega), h (i + 3) (by omega)]

/-- A control packet is dispatched on its fields. -/
theorem ctrlPktDispatch_congr (h : ∀ i < ctrlLength p.ctrlType, p.byte i = p'.byte i)
    (env : FotasEnv) (flash : ℕ → UInt8) (c : UInt8) :
    ctrlPktDispatch env flash c p = ctrlPktDispatch env flash c p' := by
  have htype : p'.ctrlType = p.ctrlType := by
    rw [Packet.ctrlType, ← h 0 (by cases p.ctrlType <;> decide), Packet.ctrlType]
  unfold ctrlPktDispatch
  rw [htype]
  cases hp : p.ctrlType with
  | signatureCmd | digestCmd =>
      rw [hp] at h
      simp only [signatureCmd, digestCmd, fragmentCmd, h 1 (by decide),
        bytes_congr h (show 2 + 16 ≤ 18 by decide)]
  | startReq =>
      rw [hp] at h
      have himage : p.image = p'.image := by
        rw [Packet.image, Packet.image, le32_congr h (by decide), le32_congr h (by decide)]
      simp only [startReq, himage, le16_congr h (show 9 + 2 ≤ 11 by decide)]
  | newSectorCmd =>
      rw [hp] at h
      simp only [newSectorCmd, le16_congr h (show 1 + 2 ≤ 3 by decide)]
  | finishCmd =>
      rw [hp] at h
      simp only [finishCmd, Packet.Reboots, h 1 (by decide),
        le24_congr h (show 2 + 3 ≤ 17 by decide), le32_congr h (show 5 + 4 ≤ 17 by decide),
        le32_congr h (show 9 + 4 ≤ 17 by decide), le32_congr h (show 13 + 4 ≤ 17 by decide)]
  | integrityCheckReq | startRsp | integrityCheckRsp | other => rfl

/-- What is programmed for a segment is that much of the packet. -/
theorem programSegment_congr {start : UInt32} {len : UInt16}
    (h : ∀ i < 1 + takenLength start len, p.byte i = p'.byte i) :
    programSegment p start len = programSegment p' start len := by
  obtain ⟨ps, heq, ht, -⟩ := programSegment_tiles start len
  rw [heq p, heq p']
  refine List.map_congr_left fun q hq => ?_
  have hb := (ht.mem_bounds hq).2
  rw [piece, piece, bytes_congr h (by omega)]

end congruence

section interprets
variable [Divider] {s : Fota} {v : List UInt8} {hv : v.length < 65536}

omit [Divider] in
theorem byte_received {m m' : ℕ → UInt8} {i : ℕ} (hi : i < v.length) :
    Packet.byte ⟨v, hv, m⟩ i = Packet.byte ⟨v, hv, m'⟩ i := by
  rw [Packet.byte, Packet.byte, dif_pos hi, dif_pos hi]

omit [Divider] in
theorem byte_beyond (m : ℕ → UInt8) {i : ℕ} (hi : v.length ≤ i) :
    Packet.byte ⟨v, hv, m⟩ i = m (i - v.length) := dif_neg (Nat.not_lt_of_le hi)

theorem step_congr {e e' : FotaEvent} (h : s.handle e = s.handle e') :
    s.step e = s.step e' ∧ s.issued e = s.issued e' := by
  unfold Fota.step Fota.issued
  rw [h]
  exact ⟨rfl, rfl⟩

/-- A write that is only confirmed, whatever is behind it. -/
theorem interprets_of_confirmed (st : UInt8) (h : s.stop = none) {ch : FotaChar}
    (hc : ∀ m, s.handle (ch.write ⟨v, hv, m⟩) = ⟨s.env, [.confirm st], none⟩) :
    s.Interprets ch v hv := by
  have hstep : ∀ m, s.step (ch.write ⟨v, hv, m⟩) = s := fun m => by
    rw [Fota.step, if_pos h, hc m, ← h]
    rfl
  have hacts : ∀ m, s.issued (ch.write ⟨v, hv, m⟩) = [.confirm st] := fun m => by
    rw [Fota.issued_eq h, hc m]
  refine ⟨fun m a hact => ?_, fun m m' => step_congr ((hc m).trans (hc m').symm), fun _ _ _ m =>
    ⟨hstep m, fun act hact => ?_⟩⟩
  · rw [hacts m, List.mem_singleton] at hact
    cases hact
  · rw [hacts m, List.mem_singleton] at hact
    exact ⟨st, hact⟩

theorem interprets_ctrl (h : s.stop = none) {c : UInt8} (hs : s.env.Suffices (.ctrl c) v) :
    s.Interprets (.ctrl c) v hv := by
  cases v with
  | nil => exact hs.elim
  | cons b rest =>
      rcases hs with hlen | ⟨htype, hbusy⟩ | ⟨htype, hidle, status, hstatus, hno⟩
      · refine ⟨fun m a => ?_, fun m m' => step_congr ?_, fun _ _ hshort => ?_⟩
        · rw [Fota.issued_eq h]
          exact (ctrlPktDispatch_frame s.env s.flash c ⟨b :: rest, hv, m⟩).1 a 0
        · exact @ctrlPktDispatch_congr ⟨b :: rest, hv, m⟩ ⟨b :: rest, hv, m'⟩
            (fun i hi => byte_received (Nat.lt_of_lt_of_le hi hlen)) s.env s.flash c
        · exact absurd hlen (Nat.not_le_of_lt hshort)
      · refine interprets_of_confirmed 1 h fun m => ?_
        have hp : Packet.ctrlType ⟨b :: rest, hv, m⟩ = .startReq := htype
        simp only [FotaChar.write, Fota.handle, ctrlPktDispatch, hp, startReq, hbusy]
      · refine interprets_of_confirmed 0 h fun m => ?_
        have hp : Packet.ctrlType ⟨b :: rest, hv, m⟩ = .finishCmd := htype
        have hbyte : Packet.byte ⟨b :: rest, hv, m⟩ 1 = status := by
          cases rest with
          | nil => cases hstatus
          | cons x xs => exact Option.some.inj hstatus
        simp only [FotaChar.write, Fota.handle, ctrlPktDispatch, hp, finishCmd, Packet.Reboots,
          hbyte, if_neg hno]
        rw [← hidle]

theorem interprets_data (h : s.stop = none) (hs : s.env.Suffices .data v) :
    s.Interprets .data v hv := by
  cases v with
  | nil => exact hs.elim
  | cons b payload =>
      obtain ⟨hne, hlen⟩ := hs
      rw [← takenLength_le_iff (Nat.lt_of_succ_lt hv)] at hlen
      refine ⟨fun m a hact => ?_, fun m m' => step_congr ?_, nofun⟩
      · rw [Fota.issued_eq h] at hact
        rcases mem_segmentActs hact with ⟨a', ha⟩ | ⟨off, data, ha⟩ | ⟨n, ha⟩ | ha
        · have hzero := (FotaAct.divide.inj ha).2
          refine hne (UInt16.toNat_inj.mp ?_)
          rw [← UInt16.toNat_toUInt32, ← hzero]
          rfl
        · cases ha
        · cases ha
        · cases ha
      · have hacts := @programSegment_congr ⟨b :: payload, hv, m⟩ ⟨b :: payload, hv, m'⟩
          (segmentStart s.env b) (segmentLen s.env.segmentDataMaxLength b)
          fun i hi => byte_received (by rw [List.length_cons]; omega)
        have hb : ∀ m, Packet.byte ⟨b :: payload, hv, m⟩ 0 = b := fun m => rfl
        simp only [FotaChar.write, Fota.handle, dataWriteInd, segmentActs, hb, hacts]

theorem suffices_ctrl (h : s.stop = none) {c : UInt8} (H : s.Interprets (.ctrl c) v hv) :
    s.env.Suffices (.ctrl c) v := by
  have hstop : ∀ m m', (s.handle (.ctrlWrite c ⟨v, hv, m⟩)).stop =
      (s.handle (.ctrlWrite c ⟨v, hv, m'⟩)).stop := fun m m' => by
    rw [← Fota.stop_step h, ← Fota.stop_step h]
    exact congrArg Fota.stop (H.determined m m').1
  cases v with
  | nil => exact nomatch hstop (fun _ => 3) (fun _ => 4)
  | cons b rest =>
      refine Nat.lt_or_ge (rest.length + 1) (ctrlLength (.ofByte b)) |>.elim (fun hshort => .inr ?_)
        .inl
      have hign : ∀ m, (s.handle (.ctrlWrite c ⟨b :: rest, hv, m⟩)).env = s.env ∧
          (s.handle (.ctrlWrite c ⟨b :: rest, hv, m⟩)).stop = none ∧
          ∀ act ∈ (s.handle (.ctrlWrite c ⟨b :: rest, hv, m⟩)).acts, ∃ st, act = .confirm st :=
        fun m => by
          obtain ⟨hstep, hacts⟩ := H.ignored c rfl hshort m
          refine ⟨(Fota.env_step h _).symm.trans (congrArg Fota.env hstep),
            ((Fota.stop_step h _).symm.trans (congrArg Fota.stop hstep)).trans h, ?_⟩
          rw [← Fota.issued_eq h]
          exact hacts
      have hp : ∀ m, Packet.ctrlType ⟨b :: rest, hv, m⟩ = .ofByte b := fun m => rfl
      simp only [Fota.handle, ctrlPktDispatch, hp] at hign hstop
      have hv' := hv
      rw [List.length_cons] at hv
      cases hb : FotasCtrlType.ofByte b with
      | signatureCmd | digestCmd =>
          obtain ⟨st, hst⟩ := (hign fun _ => 0).2.2 _ (by
            rw [hb]
            exact List.mem_cons_self ..)
          cases hst
      | startReq =>
          refine .inl ⟨rfl, ?_⟩
          simp only [hb] at hign
          cases hs : s.env.state with
          | busy => rfl
          | idle =>
              have henv := congrArg FotasEnv.state (hign fun _ => 0).1
              simp only [startReq, hs] at henv
              cases henv
      | newSectorCmd =>
          obtain ⟨st, hst⟩ := (hign fun _ => 0).2.2 _ (by
            rw [hb]
            exact List.mem_cons_self ..)
          cases hst
      | integrityCheckReq =>
          obtain ⟨-, hst, hacts⟩ := hign fun _ => 0
          simp only [hb, integrityCheckReq] at hst hacts
          cases hf : s.env.finishInd with
          | none =>
              rw [hf] at hst
              cases hst
          | some f =>
              rw [hf] at hacts
              obtain ⟨st, hst⟩ := hacts _ (List.mem_cons_self ..)
              cases hst
      | finishCmd =>
          simp only [hb] at hign hstop
          cases rest with
          | nil =>
              have hno : ¬ Packet.Reboots ⟨[b], hv', fun _ => 0⟩ := show ¬ StatusReboots 0 by decide
              have hyes : Packet.Reboots ⟨[b], hv', fun _ => 3⟩ := show StatusReboots 3 by decide
              have hne := hstop (fun _ => 0) (fun _ => 3)
              rw [finishCmd, if_neg hno, finishCmd, if_pos hyes] at hne
              cases hne
          | cons status rest =>
              have hst := (hign fun _ => 0).2.1
              have henv := congrArg FotasEnv.state (hign fun _ => 0).1
              have hbyte : Packet.byte ⟨b :: status :: rest, hv, fun _ => 0⟩ 1 = status := rfl
              simp only [finishCmd, Packet.Reboots, hbyte] at hst henv
              by_cases hr : StatusReboots status
              · rw [if_pos hr] at hst
                cases hst
              · rw [if_neg hr] at henv
                exact .inr ⟨rfl, henv.symm, status, rfl, hr⟩
      | startRsp | integrityCheckRsp =>
          have hst := (hign fun _ => 0).2.1
          simp only [hb] at hst
          cases hst
      | other =>
          rw [hb, ctrlLength] at hshort
          omega

/-- What an act programs. -/
def FotaAct.data : FotaAct → List UInt8
  | pageProgram _ data => data
  | _ => []

omit [Divider] in
/-- All that is programmed for a segment, one piece after the other. -/
theorem data_segment (p : Packet) (start : UInt32) (len : UInt16) :
    (programSegment p start len).flatMap FotaAct.data = p.bytes 1 (takenLength start len) := by
  obtain ⟨ps, heq, ht, -⟩ := programSegment_tiles start len
  have hpiece : ∀ q : ℕ × ℕ, (piece p start q).data = slice (fun i => p.byte (1 + i)) q.1 q.2 :=
    fun q => List.map_congr_left fun i _ => by rw [Nat.add_assoc]
  rw [heq p, List.flatMap_map, List.flatMap_congr fun q _ => hpiece q, slice_tiles _ ht]
  exact List.map_congr_left fun i _ => by rw [Nat.zero_add]

/-- A data write programs as many bytes of the packet as its segment takes. -/
theorem data_dataWrite (env : FotasEnv) (p : Packet) :
    (dataWriteInd env p).acts.flatMap FotaAct.data = p.bytes 1
      (takenLength (segmentStart env (p.byte 0))
        (segmentLen env.segmentDataMaxLength (p.byte 0))) := by
  have hdivisions : (segmentDivisions env.segmentDataMaxLength (p.byte 0)).flatMap
      FotaAct.data = [] := by
    refine List.flatMap_eq_nil_iff.mpr fun act hact => ?_
    obtain ⟨a, rfl⟩ := mem_segmentDivisions hact
    rfl
  rw [← data_segment, dataWriteInd, segmentActs, List.flatMap_append, List.flatMap_append,
    hdivisions, List.nil_append]
  exact List.append_nil _

omit [Divider] in
theorem takenLength_pos {start : UInt32} {len : UInt16} (h : 0 < len.toNat) :
    0 < takenLength start len := by
  unfold takenLength
  split <;> omega

theorem suffices_data (h : s.stop = none) (H : s.Interprets .data v hv) :
    s.env.Suffices .data v := by
  have hs : s.env.segmentDataMaxLength ≠ 0 := fun h0 => by
    refine H.defined (fun _ => 0) 4095 ?_
    rw [Fota.issued_eq h]
    simp only [FotaChar.write, Fota.handle, dataWriteInd, segmentActs, segmentDivisions, h0]
    exact List.mem_cons_self ..
  -- two memories that differ in every byte
  have hacts := (H.determined (fun _ => 0) (fun _ => 1)).2
  rw [Fota.issued_eq h, Fota.issued_eq h] at hacts
  have hdata := congrArg (List.flatMap FotaAct.data) hacts
  simp only [FotaChar.write, Fota.handle, data_dataWrite] at hdata
  have hget : ∀ (x : UInt8) (n : ℕ), v.length - 1 < n →
      (Packet.bytes ⟨v, hv, fun _ => x⟩ 1 n)[v.length - 1]? = some x := fun x n hn => by
    rw [Packet.bytes, List.getElem?_map, List.getElem?_range hn, Option.map_some,
      byte_beyond _ (by omega)]
  have hne : ∀ n n', v.length - 1 < n → v.length - 1 < n' →
      Packet.bytes ⟨v, hv, fun _ => 0⟩ 1 n ≠ Packet.bytes ⟨v, hv, fun _ => 1⟩ 1 n' :=
    fun n n' hn hn' heq => by
      have hat := congrArg (fun l => l[v.length - 1]?) heq
      rw [hget 0 n hn, hget 1 n' hn'] at hat
      cases hat
  cases v with
  | nil =>
      exact hne _ _ (takenLength_pos (segmentLen_pos hs _)) (takenLength_pos (segmentLen_pos hs _))
        hdata
  | cons b payload =>
      refine ⟨hs, (takenLength_le_iff (Nat.lt_of_succ_lt hv)).mp (Nat.le_of_not_lt fun hlt => ?_)⟩
      exact hne _ _ hlt hlt hdata

theorem interpreted_iff (s : Fota) (h : s.stop = none) (ch : FotaChar) (v : List UInt8)
    (hv : v.length < 65536) : s.Interprets ch v hv ↔ s.env.Suffices ch v := by
  cases ch with
  | ctrl c => exact ⟨suffices_ctrl h, interprets_ctrl h⟩
  | data => exact ⟨suffices_data h, interprets_data h⟩

end interprets

section
open scoped ShiftDivider

theorem interprets_new_sector :
    (Fota.boot fun _ => 0xFF).Interprets (.ctrl 0) [4, 0, 0] (by decide) :=
  (interpreted_iff (Fota.boot fun _ => 0xFF) rfl (.ctrl 0) [4, 0, 0] (by decide)).mpr
    (.inl (by decide))

/-- Data before the first `START_REQ`, when the length of a segment is zero. -/
theorem data_divides_by_zero : ¬ ∀ (flash : ℕ → UInt8) (es : List FotaEvent) (ch : FotaChar)
    (v : List UInt8) (hv : v.length < 65536), (exec Fota.step (.boot flash) es).stop = none →
      (exec Fota.step (.boot flash) es).Interprets ch v hv := fun h =>
  (h (fun _ => 0xFF) [] .data [0] (by decide) rfl).defined (fun _ => 0) 4095
    (List.mem_cons_self ..)

end

/-! ### The integrity check -/

theorem flashRead_add (flash : ℕ → UInt8) (offset : UInt32) (n m : ℕ) :
    flashRead flash offset (n + m) =
      flashRead flash offset n ++ flashRead flash (offset + UInt32.ofNat n) m := by
  unfold flashRead
  rw [List.range_add, List.map_append, List.map_map]
  congr 1
  exact List.map_congr_left fun i _ => by rw [Function.comp_apply, add_ofNat_add]

theorem toNat_last {size : UInt32} (h : ¬ size > 64) : size.toUInt16.toNat = size.toNat := by
  have hle : size.toNat ≤ 64 := Nat.le_of_not_lt h
  rw [UInt32.toNat_toUInt16]
  omega

theorem toNat_chunk {size : UInt32} (h : size > 64) : size.toNat = 64 + (size - 64).toNat := by
  have hle : 64 ≤ size.toNat := Nat.le_of_lt h
  rw [UInt32.toNat_sub_of_le _ _ hle]
  exact (Nat.add_sub_cancel' hle).symm

/-- The loop absorbs the whole image, whatever its size. -/
theorem fwDigestLoop_eq (flash : ℕ → UInt8) (sha : TcSha256) (offset size : UInt32) :
    fwDigestLoop flash sha offset size =
      tcSha256Update sha (flashRead flash offset size.toNat) := by
  unfold fwDigestLoop
  induction offset, size using digestReads.induct generalizing sha with
  | case1 offset =>
      rw [digestReads, if_pos rfl]
      rfl
  | case2 offset size h hgt ih =>
      rw [digestReads, if_neg h, if_pos hgt, List.foldl_cons, ih, tcSha256Update_append,
        toNat_chunk hgt, flashRead_add]
      rfl
  | case3 offset size h hgt =>
      rw [digestReads, if_neg h, if_neg hgt, List.foldl_cons, List.foldl_nil, toNat_last hgt]

/-- The check compares the digest of exactly the image with the one received. -/
theorem fwDigestCheck_iff (env : FotasEnv) (flash : ℕ → UInt8) :
    fwDigestCheck env flash = true ↔
      sha256 (flashRead flash (env.newImage.base - flashBaseAddr) env.newImage.size.toNat) =
        List.ofFn env.digest := by
  rw [fwDigestCheck, fwDigestLoop_eq, decide_eq_true_iff]
  rfl

/-- The digest that the received fragments make up. -/
def assembled (digest : Fin 32 → UInt8) : FotaEvent → Fin 32 → UInt8
  | .ctrlWrite _ p => fun i =>
      if p.ctrlType = .digestCmd ∧ i.val / 16 = (p.byte 1).toNat then p.byte (2 + i.val % 16)
      else digest i
  | _ => digest

theorem digestCmd_digest {p : Packet} (hp : p.ctrlType = .digestCmd) (env : FotasEnv) (c : UInt8) :
    (digestCmd env p).env.digest = assembled env.digest (.ctrlWrite c p) := by
  have hlen : (p.bytes 2 16).length = 16 := p.length_bytes 2 16
  funext i
  have hi := i.isLt
  change RawMemory.overlay (fun _ => env.digest i) (65 + (p.byte 1).toNat * 16) (p.bytes 2 16)
    (65 + i.val) = if _ ∧ _ then _ else _
  by_cases hin : i.val / 16 = (p.byte 1).toNat
  · have hget : 65 + i.val - (65 + (p.byte 1).toNat * 16) = i.val % 16 := by omega
    rw [RawMemory.overlay_inside (by omega), if_pos ⟨hp, hin⟩, hget, List.getD_eq_getElem?_getD,
      Packet.bytes, List.getElem?_map, List.getElem?_range (Nat.mod_lt _ (by decide))]
    rfl
  · rw [RawMemory.overlay_outside (by omega), if_neg fun h => hin h.2]

section
variable [Divider]

/-- As long as the server runs and no index leaves its array, the digest is the one assembled from
the fragments. -/
theorem digest_run (flash : ℕ → UInt8) (es : List FotaEvent) (hfit : ∀ e ∈ es, e.IndexFits)
    (hs : (exec Fota.step (.boot flash) es).stop = none) :
    (exec Fota.step (.boot flash) es).env.digest = exec assembled (fun _ => 0) es := by
  refine exec_related (R := fun (s : Fota) d => s.stop = none → s.env.digest = d)
    (fun s d e he hR hstop => ?_) (fun _ => rfl) hs
  by_cases hrun : s.stop = none
  · rw [← hR hrun, Fota.env_step hrun]
    have hin := hfit e he
    cases e with
    | ctrlWrite c p =>
        have hsame : p.ctrlType ≠ .digestCmd →
            assembled s.env.digest (.ctrlWrite c p) = s.env.digest := fun hp =>
          funext fun i => if_neg fun h => hp h.1
        by_cases hp : p.ctrlType = .digestCmd
        · simp only [Fota.handle, ctrlPktDispatch, hp]
          exact digestCmd_digest hp s.env c
        · rw [hsame hp]
          by_cases hp' : p.ctrlType = .signatureCmd
          · have hlen : (p.bytes 2 16).length = 16 := p.length_bytes 2 16
            have hle := hin.1 hp'
            simp only [Fota.handle, ctrlPktDispatch, hp', signatureCmd, fragmentCmd]
            rw [FotasEnv.memcpy_signature (by simp only [FotasArray.offset]; omega)]
          · exact ((ctrlPktDispatch_frame s.env s.flash c p).2 hp' hp).1
    | cccdWrite p =>
        dsimp only [Fota.handle]
        split <;> rfl
    | dataWrite p | dataRead c | cccdRead c | connected | disconnected => rfl
  · rw [Fota.step_of_stop hrun] at hstop
    exact absurd hstop hrun

/-- The request is answered with what the comparison of the digests says. -/
def Fota.AnswersIntegrity (s : Fota) (digest : Fin 32 → UInt8) (c : UInt8) (p : Packet) : Prop :=
  (s.step (.ctrlWrite c p)).stop = none ∧
  .indication c 6
    (if sha256 (flashRead s.flash (s.env.newImage.base - flashBaseAddr) s.env.newImage.size.toNat) =
      List.ofFn digest then 0 else 0x80) ∈ s.issued (.ctrlWrite c p)

/-- Nothing sets the pointer. -/
theorem finishInd_step {s : Fota} (h : s.env.finishInd = none) (e : FotaEvent) :
    (s.step e).env.finishInd = none := by
  by_cases hs : s.stop = none
  · obtain ⟨o, ho, henv, -, -⟩ := Fota.step_handled hs e
    rw [henv]
    cases ho with
    | checked hp hf result =>
        rw [h] at hf
        cases hf
    | rebooted hp hr =>
        rw [finishCmd, if_pos hr]
        exact h
    | fragment hp => exact (ite_eq_left_iff.mpr fun _ => h)
    | quiet hquiet => rw [hquiet, h]
    | started | newSector | finished | segment | disconnected => exact h
  · rwa [Fota.step_of_stop hs]

theorem finishInd_run (flash : ℕ → UInt8) (es : List FotaEvent) :
    (exec Fota.step (.boot flash) es).env.finishInd = none := by
  have hboot : (Fota.boot flash).env.finishInd = none := rfl
  exact exec_invariant_all (I := fun s : Fota => s.env.finishInd = none)
    (fun _ e h => finishInd_step h e) hboot es

end

/-- A request for the integrity check. -/
def integrityRequest : Packet := ⟨[5, 0], by decide, fun _ => 0⟩

section
open scoped ShiftDivider

end

/-! ### Packets that are none

The values that the assertions guard come from the air, but for the one of `fota_state_set`, which
is called with `FOTAS_IDLE` and `FOTAS_BUSY` only. -/

/-- A write that no client makes: the type of a response or of nothing, missing fields, a
configuration of other than two bytes. -/
def FotaEvent.Malformed : FotaEvent → Prop
  | ctrlWrite _ p =>
      p.ctrlType = .startRsp ∨ p.ctrlType = .integrityCheckRsp ∨ p.ctrlType = .other ∨
        TooShort p.value
  | cccdWrite p => p.value.length ≠ 2
  | dataWrite _ | dataRead _ | cccdRead _ | connected | disconnected => False

/-- The program goes on, and the session is where it was; what is stored for a later check may
have changed. -/
structure Fota.Unmoved (s t : Fota) : Prop where
  runs : t.stop = none
  session : t.env = { s.env with
    signature := t.env.signature
    digest := t.env.digest
    finishInd := t.env.finishInd }
  flash : t.flash = s.flash

section
variable [Divider]

/-- No assertion fails, and a malformed write does nothing to the session, nor does it write outside
an array. -/
structure Fota.Tolerates (s : Fota) (e : FotaEvent) : Prop where
  asserts : (s.step e).stop ≠ some .assertion
  ignores : e.Malformed → s.Unmoved (s.step e) ∧ s.StoresInside e

end

/-- The type is one of a request and the configuration has two bytes; and where fields are missing,
what is read in their place does nothing. -/
def FotasEnv.Withstands (env : FotasEnv) : FotaEvent → Prop
  | .ctrlWrite _ p =>
      match p.ctrlType with
      | .signatureCmd => TooShort p.value → (p.byte 1).toNat ≤ 3
      | .digestCmd => TooShort p.value → (p.byte 1).toNat ≤ 1
      | .startReq => TooShort p.value → env.state = .busy
      | .newSectorCmd =>
          TooShort p.value → p.le16 1 = env.currentSector ∧ env.ack = fun _ => 0
      | .integrityCheckReq => TooShort p.value → env.finishInd ≠ none
      | .finishCmd => TooShort p.value → ¬ p.Reboots ∧ env.state = .idle
      | .startRsp | .integrityCheckRsp | .other => False
  | .cccdWrite p => p.value.length = 2
  | .dataWrite _ | .dataRead _ | .cccdRead _ | .connected | .disconnected => True

section tolerates
variable [Divider] {s : Fota} (h : s.stop = none) {c : UInt8} {p : Packet}
include h

/-- A request does not fail an assertion. -/
theorem tolerates_request {o : FotaOutcome} (ho : s.handle (.ctrlWrite c p) = o)
    (hp : p.ctrlType ≠ .startRsp ∧ p.ctrlType ≠ .integrityCheckRsp ∧ p.ctrlType ≠ .other)
    (hassert : o.stop ≠ some .assertion) :
    s.Tolerates (.ctrlWrite c p) ↔ (TooShort p.value →
      s.Unmoved ⟨o.env, o.acts.foldl FotaAct.onFlash s.flash, o.stop⟩ ∧
        s.StoresInside (.ctrlWrite c p)) := by
  have hstep : s.step (.ctrlWrite c p) = ⟨o.env, o.acts.foldl FotaAct.onFlash s.flash, o.stop⟩ := by
    rw [Fota.step, if_pos h, ho]
  constructor
  · intro ht hshort
    rw [← hstep]
    exact ht.ignores (.inr (.inr (.inr hshort)))
  · intro hmoved
    refine ⟨by rw [hstep]; exact hassert, fun hbad => ?_⟩
    rw [hstep]
    rcases hbad with hb | hb | hb | hshort
    · exact absurd hb hp.1
    · exact absurd hb hp.2.1
    · exact absurd hb hp.2.2
    · exact hmoved hshort

/-- A request that is no fragment writes inside the arrays. -/
theorem storesInside_request (hp : p.ctrlType ≠ .signatureCmd ∧ p.ctrlType ≠ .digestCmd) :
    s.StoresInside (.ctrlWrite c p) := by
  unfold Fota.StoresInside
  rw [Fota.issued_eq h]
  exact ((ctrlPktDispatch_frame s.env s.flash c p).2 hp.1 hp.2).2

/-- A truncated fragment does no harm exactly if its index is one of the array. -/
theorem unmoved_fragment {array : FotasArray}
    (harray : p.ctrlType = .signatureCmd ∧ array = .signature ∨
      p.ctrlType = .digestCmd ∧ array = .digest)
    (ho : s.handle (.ctrlWrite c p) = fragmentCmd array s.env p) :
    s.Unmoved ⟨(fragmentCmd array s.env p).env,
        (fragmentCmd array s.env p).acts.foldl FotaAct.onFlash s.flash,
        (fragmentCmd array s.env p).stop⟩ ∧ s.StoresInside (.ctrlWrite c p) ↔
      (p.byte 1).toNat * 16 + 16 ≤ array.size := by
  rw [storesInside_fragment h ho]
  refine ⟨fun hm => hm.2, fun hle => ⟨⟨rfl, ?_, rfl⟩, hle⟩⟩
  have hlen : (p.bytes 2 16).length = 16 := p.length_bytes 2 16
  have henv : (fragmentCmd array s.env p).env = { s.env with
      signature := (fragmentCmd array s.env p).env.signature
      digest := (fragmentCmd array s.env p).env.digest } := by
    refine FotasEnv.memcpy_eq ?_
    rcases harray with ⟨-, rfl⟩ | ⟨-, rfl⟩
    · have hfit : _ ≤ 64 := hle
      simp only [FotasArray.offset]
      omega
    · have hfit : _ ≤ 32 := hle
      simp only [FotasArray.offset]
      omega
  dsimp only
  rw [henv]

theorem tolerates_ctrl : s.Tolerates (.ctrlWrite c p) ↔ s.env.Withstands (.ctrlWrite c p) := by
  have hunknown : (s.handle (.ctrlWrite c p)).stop = some .assertion →
      ¬ s.Tolerates (.ctrlWrite c p) := fun hstop ht =>
    ht.asserts ((Fota.stop_step h _).trans hstop)
  have hinside := storesInside_request h (c := c) (p := p)
  simp only [FotasEnv.Withstands]
  have hhandle : s.handle (.ctrlWrite c p) = ctrlPktDispatch s.env s.flash c p := rfl
  rw [ctrlPktDispatch] at hhandle
  cases hp : p.ctrlType with
  | signatureCmd =>
      rw [hp] at hhandle
      refine (tolerates_request h hhandle (by simp [hp])
        (by simp [signatureCmd, fragmentCmd])).trans
        (forall_congr' fun _ => (unmoved_fragment h (.inl ⟨hp, rfl⟩) hhandle).trans ?_)
      change _ ≤ 64 ↔ _
      omega
  | digestCmd =>
      rw [hp] at hhandle
      refine (tolerates_request h hhandle (by simp [hp]) (by simp [digestCmd, fragmentCmd])).trans
        (forall_congr' fun _ => (unmoved_fragment h (.inr ⟨hp, rfl⟩) hhandle).trans ?_)
      change _ ≤ 32 ↔ _
      omega
  | startReq =>
      rw [hp] at hhandle
      refine (tolerates_request h hhandle (by simp [hp]) ?_).trans (forall_congr' fun _ => ?_)
      · simp only [startReq]
        cases s.env.state <;> simp [fwSignatureCheck]
      · simp only [startReq]
        cases hs : s.env.state with
        | idle =>
            refine iff_of_false (fun hm => ?_) (by decide)
            have hstate : FotasStat.busy = s.env.state := congrArg FotasEnv.state hm.1.session
            rw [hs] at hstate
            cases hstate
        | busy => exact iff_of_true ⟨⟨rfl, rfl, rfl⟩, hinside (by simp [hp])⟩ rfl
  | newSectorCmd =>
      rw [hp] at hhandle
      have hgo : (newSectorCmd s.env p).stop ≠ some .assertion := by simp [newSectorCmd]
      refine (tolerates_request h hhandle (by simp [hp]) hgo).trans (forall_congr' fun _ => ?_)
      constructor
      · intro hm
        exact ⟨congrArg FotasEnv.currentSector hm.1.session,
          (congrArg FotasEnv.ack hm.1.session).symm⟩
      · rintro ⟨hsector, hack⟩
        refine ⟨⟨rfl, ?_, rfl⟩, hinside (by simp [hp])⟩
        simp only [newSectorCmd, hsector, ← hack]
  | integrityCheckReq =>
      rw [hp] at hhandle
      refine (tolerates_request h hhandle (by simp [hp]) ?_).trans (forall_congr' fun _ => ?_)
      · simp only [integrityCheckReq]
        split <;> simp
      · simp only [integrityCheckReq]
        split
        · next hf =>
          refine iff_of_false (fun hm => ?_) (not_not.mpr hf)
          exact absurd hm.1.runs (Option.some_ne_none _)
        · next hf =>
          exact iff_of_true ⟨⟨rfl, rfl, rfl⟩, hinside (by simp [hp])⟩ (by simp [hf])
  | finishCmd =>
      rw [hp] at hhandle
      refine (tolerates_request h hhandle (by simp [hp]) ?_).trans (forall_congr' fun _ => ?_)
      · simp only [finishCmd]
        split <;> simp
      · simp only [finishCmd]
        split
        · next hr =>
          refine iff_of_false (fun hm => ?_) fun hno => hno.1 hr
          exact absurd hm.1.runs (Option.some_ne_none _)
        · next hr =>
          constructor
          · exact fun hm => ⟨hr, (congrArg FotasEnv.state hm.1.session).symm⟩
          · intro hidle
            refine ⟨⟨rfl, ?_, rfl⟩, hinside (by simp [hp])⟩
            simp only [← hidle.2]
  | startRsp | integrityCheckRsp | other =>
      rw [hp] at hhandle
      exact iff_of_false (hunknown (by rw [hhandle])) id

end tolerates

section
open scoped ShiftDivider

end

end ErgoDock
