import ErgoDock.Air
import ErgoDock.ReportFrames

/-! # The snore volumes over the UART and over the air

Over the UART the packets of the volumes are sent in one loop.  Over the air the main loop offers
one packet a call to the notification layer and counts it, whatever the answer: what is refused is
not offered again.  So the APP gets what the UART sends exactly if the layer takes each packet at
once (`ble_transfer_iff`). -/

namespace ErgoDock

open Machine

/-! ### Fragments -/

theorem flatten_fragments {α : Type} (xs : List α) (m n : ℕ) :
    ((List.range n).map fun l => (xs.drop (m * l)).take m).flatten = xs.take (m * n) := by
  induction n with
  | zero => simp
  | succ n ih =>
      rw [List.range_succ, List.map_append, List.flatten_append, ih, Nat.mul_succ, List.take_add]
      simp

namespace SleepReport
variable (r : SleepReport)

/-- The number of packets. -/
def packetCount : ℕ := (r.snoringVolumeNub.toNat + 149) / 150

/-- The recorded volumes. -/
def volumes : List UInt8 := r.snoringVolumebuff.toList.take r.snoringVolumeNub.toNat

/-- What packet `l` has of the volumes. -/
def fragment (l : ℕ) : List UInt8 := (r.volumes.drop (150 * l)).take 150

/-- Packet `l`, as it has to be. -/
def packet (l : ℕ) : List UInt8 :=
  reportFrame 3 r.sleeptimerCome (UInt8.ofNat r.packetCount) (UInt8.ofNat (l + 1)) (r.fragment l)

def packets : List (List UInt8) := (List.range r.packetCount).map r.packet

variable {r}

@[simp] theorem length_packets : r.packets.length = r.packetCount := by
  rw [packets, List.length_map, List.length_range]

theorem packetCount_le (hhi : r.snoringVolumeNub.toNat ≤ 720) : r.packetCount ≤ 5 := by
  unfold packetCount
  omega

theorem toNat_fbNub (hhi : r.snoringVolumeNub.toNat ≤ 720) : r.fbNub.toNat = r.packetCount := by
  have hbytes : recordBytes subcontractSize r.snoringVolumeNub.toNat = r.packetCount := by
    unfold recordBytes subcontractSize packetCount
    split <;> omega
  have hle := packetCount_le hhi
  rw [fbNub, hbytes]
  exact UInt8.toNat_ofNat_of_lt' (by change _ < 256; omega)

theorem volumePacket_eq (hhi : r.snoringVolumeNub.toNat ≤ 720) {l : UInt32}
    (hl : l.toNat < r.packetCount) : r.volumePacket l = some (r.packet l.toNat) := by
  have hle := packetCount_le hhi
  have hfb := toNat_fbNub hhi
  have hcount : r.packetCount = (r.snoringVolumeNub.toNat + 149) / 150 := rfl
  have hsucc : (l + 1).toNat = l.toNat + 1 := by
    rw [UInt32.toNat_add]
    exact Nat.mod_eq_of_lt (by change _ + 1 < 2 ^ 32; omega)
  have hmul : (l * 150).toNat = 150 * l.toNat := by
    rw [UInt32.toNat_mul, Nat.mul_comm]
    exact Nat.mod_eq_of_lt (by change 150 * _ < 2 ^ 32; omega)
  have hlast : l + 1 = r.fbNub.toUInt32 ↔ l.toNat + 1 = r.packetCount := by
    rw [← UInt32.toNat_inj, hsucc, UInt8.toNat_toUInt32, hfb]
  have hn : (if l + 1 = r.fbNub.toUInt32 then r.snoringVolumeNub.toUInt32 - l * 150
      else 150).toNat = min 150 (r.snoringVolumeNub.toNat - 150 * l.toNat) := by
    split
    · next h =>
      have hl' := hlast.mp h
      rw [UInt32.toNat_sub_of_le, hmul, UInt16.toNat_toUInt32]
      · omega
      · rw [UInt32.le_iff_toNat_le, hmul, UInt16.toNat_toUInt32]
        omega
    · next h =>
      have hl' := mt hlast.mpr h
      change 150 = _
      omega
  have hbody : (r.snoringVolumebuff.toList.drop (150 * l.toNat)).take
      (min 150 (r.snoringVolumeNub.toNat - 150 * l.toNat)) = r.fragment l.toNat := by
    rw [fragment, volumes, List.drop_take, List.take_take]
  have hnumber : (l + 1).toUInt8 = UInt8.ofNat (l.toNat + 1) := by
    rw [← UInt8.toNat_inj, UInt32.toNat_toUInt8, hsucc, UInt8.toNat_ofNat']
  have hfbNub : r.fbNub = UInt8.ofNat r.packetCount := by
    rw [← hfb, UInt8.ofNat_toNat]
  unfold volumePacket
  simp only [hn, hmul]
  rw [if_pos (by omega), hbody, hnumber, hfbNub]
  rfl

/-- A reader finds the number of packets, its own number and its volumes in each packet. -/
theorem openFrame_packet (l : ℕ) : openFrame 3 (r.packet l) =
    some (r.sleeptimerCome.toNat, UInt8.ofNat r.packetCount, UInt8.ofNat (l + 1),
      r.fragment l) := by
  have hlen : (r.fragment l).length ≤ 150 := List.length_take_le ..
  exact openFrame_reportFrame _ _ _ _ (by omega)

theorem packet_ne_nil (l : ℕ) : r.packet l ≠ [] := List.cons_ne_nil _ _

theorem flatten_fragment (r : SleepReport) :
    ((List.range r.packetCount).map r.fragment).flatten = r.volumes := by
  have hlen : r.volumes.length ≤ 150 * r.packetCount := by
    have hle : r.volumes.length ≤ r.snoringVolumeNub.toNat := List.length_take_le ..
    unfold packetCount
    omega
  exact (flatten_fragments r.volumes 150 r.packetCount).trans (List.take_of_length_le hlen)

theorem mapM_some {α β : Type} {f : α → Option β} {g : α → β} {xs : List α}
    (h : ∀ x ∈ xs, f x = some (g x)) : xs.mapM f = some (xs.map g) := by
  induction xs with
  | nil => rfl
  | cons x xs ih =>
      rw [List.mapM_cons, h x (List.mem_cons_self ..),
        ih fun y hy => h y (List.mem_cons_of_mem _ hy)]
      rfl

theorem mapM_volumePacket (hhi : r.snoringVolumeNub.toNat ≤ 720) :
    (List.range r.fbNub.toNat).mapM (fun l => r.volumePacket (.ofNat l)) = some r.packets := by
  have hle := packetCount_le hhi
  rw [toNat_fbNub hhi]
  refine mapM_some fun l hl => ?_
  have hl' := List.mem_range.mp hl
  have htoNat : (UInt32.ofNat l).toNat = l :=
    UInt32.toNat_ofNat_of_lt' (by change l < 2 ^ 32; omega)
  rw [volumePacket_eq hhi (by omega), htoNat]

/-- Over the UART the packets are sent one after the other. -/
theorem getSnoringVolume_uart (hhi : r.snoringVolumeNub.toNat ≤ 720) (u : Updata) :
    u.getSnoringVolume r 0 = some (u, r.packets.map .uart) := by
  unfold Updata.getSnoringVolume
  rw [mapM_volumePacket hhi]
  rfl

/-- Over the air they are asked for only. -/
theorem getSnoringVolume_ble (hlo : 0 < r.snoringVolumeNub.toNat)
    (hhi : r.snoringVolumeNub.toNat ≤ 720) (u : Updata) :
    u.getSnoringVolume r 1 = some ({ u with snoringVolumeupdataFlag := 1 }, []) := by
  have hne : r.fbNub ≠ 0 := fun h0 => by
    have hfb := toNat_fbNub hhi
    rw [h0] at hfb
    change 0 = (_ + 149) / 150 at hfb
    omega
  unfold Updata.getSnoringVolume
  rw [mapM_volumePacket hhi]
  rw [Option.bind_eq_bind, Option.bind_some, if_neg (show ¬ (1 : UInt8) = 0 by decide), if_neg hne]

end SleepReport

/-! ### The transfer -/

/-- A call of the main loop, with the report unchanged; nothing more happens after an access outside
an array. -/
def callRun (r : SleepReport) (s : Option Updata) (timer : UInt32) : Option Updata :=
  s.bind fun u => (u.updataRun r timer).map Prod.fst

/-- What the call offers to the notification layer. -/
def offered (r : SleepReport) (s : Option Updata) (timer : UInt32) : List (List UInt8) :=
  ((s.bind fun u => u.updataRun r timer).bind Prod.snd).toList

/-- All that is offered in the calls. -/
def offers (r : SleepReport) (u : Updata) (timers : List UInt32) : List (List UInt8) :=
  outputs (callRun r) (offered r) (some u) timers

/-- A transfer is at a packet, or over. -/
def Sending (r : SleepReport) : Option Updata → Prop
  | some u => u.snoringVolumeupdataFlag = 1 ∧ u.l.toNat < r.packetCount ∨
      u.snoringVolumeupdataFlag = 0 ∧ u.l = 0
  | none => False

/-- The packets that are still to be offered. -/
def remaining (r : SleepReport) : Option Updata → List (List UInt8)
  | some u => if u.snoringVolumeupdataFlag = 1 then r.packets.drop u.l.toNat else []
  | none => []

section transfer
variable {r : SleepReport} {u v : Updata}

/-- A call that is due offers the next packet. -/
theorem updataRun_due (hhi : r.snoringVolumeNub.toNat ≤ 720) {timer : UInt32}
    (hflag : u.snoringVolumeupdataFlag = 1) (hl : u.l.toNat < r.packetCount)
    (hdue : u.waitStart timer ≠ 0 ∧ timer - u.waitStart timer > 20) :
    ∃ v, u.updataRun r timer = some (v, some (r.packet u.l.toNat)) ∧ Sending r (some v) ∧
      r.packet u.l.toNat :: remaining r (some v) = remaining r (some u) := by
  have hle := SleepReport.packetCount_le hhi
  have hsucc : (u.l + 1).toNat = u.l.toNat + 1 := by
    rw [UInt32.toNat_add]
    exact Nat.mod_eq_of_lt (by change _ + 1 < 2 ^ 32; omega)
  have hlast : u.l + 1 ≥ r.fbNub.toUInt32 ↔ r.packetCount ≤ u.l.toNat + 1 := by
    rw [ge_iff_le, UInt32.le_iff_toNat_le, UInt8.toNat_toUInt32, SleepReport.toNat_fbNub hhi, hsucc]
  have hlen : r.packets.length = r.packetCount := SleepReport.length_packets
  have hnext : remaining r (some u) =
      r.packet u.l.toNat :: r.packets.drop (u.l.toNat + 1) := by
    rw [remaining, if_pos hflag, List.drop_eq_getElem_cons (by omega)]
    simp [SleepReport.packets]
  unfold Updata.updataRun
  rw [if_pos hflag, if_pos hdue, SleepReport.volumePacket_eq hhi hl, Option.bind_eq_bind,
    Option.bind_some, hnext]
  by_cases hend : r.packetCount ≤ u.l.toNat + 1
  · rw [if_pos (hlast.mpr hend), List.drop_eq_nil_of_le (by omega)]
    exact ⟨_, rfl, .inr ⟨rfl, rfl⟩, rfl⟩
  · rw [if_neg (mt hlast.mp hend)]
    refine ⟨_, rfl, .inl ⟨hflag, ?_⟩, ?_⟩
    · rw [hsucc]
      omega
    · rw [remaining, if_pos hflag, hsucc]

/-- A call offers the next packet, or nothing. -/
theorem sending_step (hhi : r.snoringVolumeNub.toNat ≤ 720) {s : Option Updata}
    (timer : UInt32) (hs : Sending r s) : Sending r (callRun r s timer) ∧
      offered r s timer ++ remaining r (callRun r s timer) = remaining r s := by
  cases s with
  | none => exact hs.elim
  | some u =>
      unfold callRun offered
      rw [Option.bind_some, Option.bind_some]
      rcases hs with ⟨hflag, hl⟩ | ⟨hflag, hl⟩
      · by_cases hdue : u.waitStart timer ≠ 0 ∧ timer - u.waitStart timer > 20
        · obtain ⟨v, hrun, hv, hnext⟩ := updataRun_due hhi hflag hl hdue
          rw [hrun]
          exact ⟨hv, hnext⟩
        · unfold Updata.updataRun
          rw [if_pos hflag, if_neg hdue]
          exact ⟨.inl ⟨hflag, hl⟩, rfl⟩
      · have hne : ¬ u.snoringVolumeupdataFlag = 1 := by
          rw [hflag]
          decide
        unfold Updata.updataRun
        rw [if_neg hne]
        refine ⟨.inr ⟨hflag, rfl⟩, ?_⟩
        rw [remaining, if_neg hne]
        exact if_neg hne

/-- When the transfer is over, all that remained was offered, in order. -/
theorem offers_of_over (hhi : r.snoringVolumeNub.toNat ≤ 720) (hu : Sending r (some u))
    {timers : List UInt32} (hrun : exec (callRun r) (some u) timers = some v)
    (hover : v.snoringVolumeupdataFlag = 0) : offers r u timers = remaining r (some u) := by
  have hdrain : offers r u timers ++ remaining r (exec (callRun r) (some u) timers) =
      remaining r (some u) :=
    outputs_drain (I := Sending r) (fun s timer hs => sending_step hhi timer hs) hu timers
  have hnone : remaining r (some v) = [] := by
    rw [remaining, if_neg]
    rw [hover]
    decide
  rwa [hrun, hnone, List.append_nil] at hdrain

/-- The wait of a transfer, once begun, goes on from the same time. -/
def Waiting (r : SleepReport) (t : UInt32) (s : Option Updata) : Prop :=
  Sending r s ∧ ∃ u, s = some u ∧ u.timerT = t

theorem waiting_step (hhi : r.snoringVolumeNub.toNat ≤ 720) {t : UInt32} (ht : t ≠ 0)
    {s : Option Updata} (timer : UInt32) (hs : Waiting r t s) :
    Waiting r t (callRun r s timer) := by
  obtain ⟨hs, u, rfl, htime⟩ := hs
  refine ⟨(sending_step hhi timer hs).1, ?_⟩
  have hwait : u.waitStart timer = t := by
    rw [Updata.waitStart, htime, if_neg ht]
  have hnone := (sending_step hhi timer hs).1
  unfold callRun Updata.updataRun at hnone ⊢
  rw [Option.bind_some] at hnone ⊢
  split
  · split
    · cases hp : r.volumePacket u.l with
      | none =>
          rename_i hflag hdue
          rw [if_pos hflag, if_pos hdue, hp] at hnone
          exact hnone.elim
      | some packet =>
          rw [Option.bind_eq_bind, Option.bind_some]
          split
          · exact ⟨_, rfl, hwait⟩
          · exact ⟨_, rfl, hwait⟩
    · exact ⟨_, rfl, hwait⟩
  · exact ⟨_, rfl, htime⟩

theorem offered_of_due (hhi : r.snoringVolumeNub.toNat ≤ 720) {t : UInt32} (ht : t ≠ 0)
    {s : Option Updata} {timer : UInt32} (hs : Waiting r t s) (hdue : timer - t > 20)
    (hleft : remaining r s ≠ []) : offered r s timer ≠ [] := by
  obtain ⟨hsend, u, rfl, htime⟩ := hs
  have hwait : u.waitStart timer = t := by
    rw [Updata.waitStart, htime, if_neg ht]
  have hflag : u.snoringVolumeupdataFlag = 1 := by
    by_contra hne
    exact hleft (if_neg hne)
  have hl : u.l.toNat < r.packetCount := by
    rcases hsend with ⟨-, hl⟩ | ⟨hzero, -⟩
    · exact hl
    · rw [hflag] at hzero
      cases hzero
  have hpassed : u.waitStart timer ≠ 0 ∧ timer - u.waitStart timer > 20 := by
    rw [hwait]
    exact ⟨ht, hdue⟩
  obtain ⟨v, hrun, -⟩ := updataRun_due hhi hflag hl hpassed
  unfold offered
  rw [Option.bind_some, hrun]
  exact List.cons_ne_nil _ _

/-- The transfer ends: as many calls are enough as there are packets, once the wait is over. -/
theorem transfer_ends (hhi : r.snoringVolumeNub.toNat ≤ 720) (hu : Sending r (some u))
    (ht : u.timerT ≠ 0) {timers : List UInt32}
    (hdue : r.packetCount ≤ timers.countP fun timer => timer - u.timerT > 20) :
    ∃ v, exec (callRun r) (some u) timers = some v ∧ v.snoringVolumeupdataFlag = 0 := by
  have hI : ∀ s timer, Waiting r u.timerT s → True → Waiting r u.timerT (callRun r s timer) :=
    fun s timer hs _ => waiting_step hhi ht timer hs
  have hkeep : ∀ s timer, Waiting r u.timerT s → True →
      remaining r s <+: offered r s timer ++ remaining r (callRun r s timer) :=
    fun s timer hs _ => (sending_step hhi timer hs.1).2 ▸ List.prefix_rfl
  have hslot : ∀ s timer, Waiting r u.timerT s → True → decide (timer - u.timerT > 20) = true →
      remaining r s ≠ [] → offered r s timer ≠ [] :=
    fun s timer hs _ hslot => offered_of_due hhi ht hs (of_decide_eq_true hslot)
  have hstart : Waiting r u.timerT (some u) := ⟨hu, u, rfl, rfl⟩
  have hrun : Along (callRun r) (fun _ _ => True) (some u) timers :=
    along_of_forall fun _ _ _ => trivial
  have hlen : (remaining r (some u)).length ≤ r.packetCount := by
    rw [remaining]
    split
    · rw [List.length_drop, SleepReport.length_packets]
      omega
    · exact Nat.zero_le _
  have hall : remaining r (some u) <+: offers r u timers :=
    outputs_deliver hI hkeep hslot hstart hrun List.prefix_rfl (Nat.le_trans hlen hdue)
  have hdrain : offers r u timers ++ remaining r (exec (callRun r) (some u) timers) =
      remaining r (some u) :=
    outputs_drain (I := Sending r) (fun s timer hs => sending_step hhi timer hs) hu timers
  have hnone : remaining r (exec (callRun r) (some u) timers) = [] := by
    have hle := hall.length_le
    have hsum := congrArg List.length hdrain
    rw [List.length_append] at hsum
    exact List.length_eq_zero_iff.mp (by omega)
  have hsend : Sending r (exec (callRun r) (some u) timers) :=
    exec_invariant_all (I := Sending r) (fun s timer hs => (sending_step hhi timer hs).1) hu timers
  cases hend : exec (callRun r) (some u) timers with
  | none =>
      rw [hend] at hsend
      exact hsend.elim
  | some v =>
      rw [hend] at hsend hnone
      rcases hsend with ⟨hflag, hl⟩ | ⟨hflag, -⟩
      · rw [remaining, if_pos hflag, List.drop_eq_nil_iff, SleepReport.length_packets] at hnone
        omega
      · exact ⟨v, rfl, hflag⟩

end transfer

/-! ### Requests -/

/-- What the transfer may have seen before, each with the report of that time. -/
inductive UpdataEvent where
  /-- `x_report_get_snoringVolume`. -/
  | request (r : SleepReport) (type : UInt8)
  /-- `x_report_snoringVolumeupdataRun`. -/
  | run (r : SleepReport) (timer : UInt32)

def updataStep (s : Option Updata) : UpdataEvent → Option Updata
  | .request r type => s.bind fun u => (u.getSnoringVolume r type).map Prod.fst
  | .run r timer => callRun r s timer

/-- Between transfers, the next one begins with the first packet. -/
def Rewound : Option Updata → Prop
  | some u => u.snoringVolumeupdataFlag = 1 ∨ u.snoringVolumeupdataFlag = 0 ∧ u.l = 0
  | none => True

theorem rewound_step (s : Option Updata) (e : UpdataEvent) (hs : Rewound s) :
    Rewound (updataStep s e) := by
  cases s with
  | none =>
      cases e with
      | request r type | run r timer => trivial
  | some u =>
      cases e with
      | request r type =>
          change Rewound ((u.getSnoringVolume r type).map Prod.fst)
          unfold Updata.getSnoringVolume
          cases (List.range r.fbNub.toNat).mapM fun l => r.volumePacket (.ofNat l) with
          | none => trivial
          | some packets =>
              rw [Option.bind_eq_bind, Option.bind_some]
              split
              · exact hs
              · split
                · exact hs
                · exact .inl rfl
      | run r timer =>
          change Rewound ((u.updataRun r timer).map Prod.fst)
          unfold Updata.updataRun
          split
          · next hflag =>
            split
            · cases r.volumePacket u.l with
              | none => trivial
              | some packet =>
                  rw [Option.bind_eq_bind, Option.bind_some]
                  split
                  · exact .inr ⟨rfl, rfl⟩
                  · exact .inl hflag
            · exact .inl hflag
          · next hflag => exact .inr ⟨(hs.resolve_left hflag).1, rfl⟩

theorem rewound_of_run {before : List UpdataEvent} {u : Updata}
    (h : exec updataStep (some {}) before = some u) (hidle : u.snoringVolumeupdataFlag = 0) :
    u.l = 0 := by
  have hs : Rewound (some u) := by
    rw [← h]
    exact exec_invariant_all rewound_step (show Rewound (some {}) from .inr ⟨rfl, rfl⟩) before
  rcases hs with hflag | hs
  · rw [hidle] at hflag
    cases hflag
  · exact hs.2

/-! ### The notification layer -/

/-- Of the packets that are offered one after the other, those that are accepted when they find
the dock in these states. -/
def accepted (found : ℕ → Dock) : List (List UInt8) → List (List UInt8)
  | [] => []
  | p :: ps => (if ((found 0).lsBleupServerSendNotification p).1 = 1 then [p] else []) ++
      accepted (fun j => found (j + 1)) ps

theorem accepted_one_iff {d : Dock} {p : List UInt8} (hp : p ≠ []) :
    (d.lsBleupServerSendNotification p).1 = 1 ↔ d.link.Open := by
  have hlen : p.length ≠ 0 := mt List.length_eq_zero_iff.mp hp
  unfold Dock.lsBleupServerSendNotification BleLink.Open
  by_cases hopen : d.link.connectId ≠ 0xFF ∧ d.link.uartServerNtfDone = true
  · rw [if_pos ⟨hopen.1, hlen, hopen.2⟩]
    exact ⟨fun _ => hopen, fun _ => rfl⟩
  · rw [if_neg fun h => hopen ⟨h.1, h.2.2⟩]
    exact ⟨fun h => absurd h (show ¬ (0 : UInt8) = 1 by decide), fun h => absurd h hopen⟩

theorem length_accepted_le (found : ℕ → Dock) (ps : List (List UInt8)) :
    (accepted found ps).length ≤ ps.length := by
  induction ps generalizing found with
  | nil => exact Nat.le_refl 0
  | cons p ps ih =>
      have hle := ih fun j => found (j + 1)
      rw [accepted, List.length_append, List.length_cons]
      split
      · rw [List.length_singleton]
        omega
      · rw [List.length_nil]
        omega

/-- Nothing is lost exactly if every packet finds the link open. -/
theorem accepted_eq_self_iff (found : ℕ → Dock) {ps : List (List UInt8)}
    (hps : ∀ p ∈ ps, p ≠ []) :
    accepted found ps = ps ↔ ∀ j < ps.length, (found j).link.Open := by
  induction ps generalizing found with
  | nil => exact ⟨fun _ j hj => absurd hj (Nat.not_lt_zero j), fun _ => rfl⟩
  | cons p ps ih =>
      have hfirst := accepted_one_iff (d := found 0) (hps p (List.mem_cons_self ..))
      have hrest := ih (fun j => found (j + 1)) fun q hq => hps q (List.mem_cons_of_mem _ hq)
      rw [accepted, List.length_cons]
      constructor
      · intro h j hj
        by_cases hopen : (found 0).link.Open
        · rw [if_pos (hfirst.mpr hopen)] at h
          cases j with
          | zero => exact hopen
          | succ j => exact hrest.mp (List.tail_eq_of_cons_eq h) j (by omega)
        · have hle := length_accepted_le (fun j => found (j + 1)) ps
          rw [if_neg (mt hfirst.mp hopen), List.nil_append] at h
          rw [h, List.length_cons] at hle
          omega
      · intro h
        rw [if_pos (hfirst.mpr (h 0 (by omega))),
          hrest.mpr fun j hj => h (j + 1) (by omega)]
        rfl

/-- These are the packets that the UART path transmits, and a reader finds the fragments of the
volumes in them, each with the number of packets and its own. -/
structure SleepReport.SentWhole (r : SleepReport) (packets : List (List UInt8)) : Prop where
  uart : ∀ u : Updata, u.getSnoringVolume r 0 = some (u, packets.map .uart)
  frames : ∃ fragments : List (List UInt8),
    fragments.flatten = r.snoringVolumebuff.toList.take r.snoringVolumeNub.toNat ∧
    packets.map (openFrame 3) = fragments.mapIdx fun l fragment =>
      some (r.sleeptimerCome.toNat, UInt8.ofNat fragments.length, UInt8.ofNat (l + 1), fragment)

theorem SleepReport.sentWhole_iff {r : SleepReport} (hhi : r.snoringVolumeNub.toNat ≤ 720)
    (packets : List (List UInt8)) : r.SentWhole packets ↔ packets = r.packets := by
  constructor
  · intro h
    have huart := (h.uart {}).symm.trans (getSnoringVolume_uart hhi {})
    have hmap := congrArg Prod.snd (Option.some.inj huart)
    exact List.map_injective_iff.mpr (fun _ _ h => ReportTx.uart.inj h) hmap
  · rintro rfl
    refine ⟨getSnoringVolume_uart hhi, (List.range r.packetCount).map r.fragment,
      flatten_fragment r, ?_⟩
    rw [SleepReport.packets, List.map_map, List.length_map, List.length_range]
    refine List.ext_getElem (by simp) fun l h₁ h₂ => ?_
    simp [openFrame_packet]

/-- A transfer over the air, requested while none is going on: over all calls up to its end, what
the notification layer accepts is what the UART path sends, and all of it, exactly if none of the
packets is refused. -/
theorem ble_transfer_iff (r : SleepReport) (hlo : 0 < r.snoringVolumeNub.toNat)
    (hhi : r.snoringVolumeNub.toNat ≤ 720) (before : List UpdataEvent) (u v w : Updata)
    (sent : List ReportTx) (hbefore : exec updataStep (some {}) before = some u)
    (hidle : u.snoringVolumeupdataFlag = 0) (hreq : u.getSnoringVolume r 1 = some (v, sent))
    (timers : List UInt32) (hrun : exec (callRun r) (some v) timers = some w)
    (hover : w.snoringVolumeupdataFlag = 0) (found : ℕ → Dock) :
    r.SentWhole (accepted found (offers r v timers)) ↔
      ∀ j < (r.snoringVolumeNub.toNat + 149) / 150, (found j).link.Open := by
  rw [SleepReport.getSnoringVolume_ble hlo hhi] at hreq
  obtain rfl := congrArg Prod.fst (Option.some.inj hreq)
  have hl := rewound_of_run hbefore hidle
  have hcount : 0 < r.packetCount := by
    unfold SleepReport.packetCount
    omega
  have hoffers : offers r { u with snoringVolumeupdataFlag := 1 } timers = r.packets := by
    rw [offers_of_over hhi (.inl ⟨rfl, by rw [hl]; exact hcount⟩) hrun hover, remaining,
      if_pos rfl, hl]
    rfl
  have hlen : r.packets.length = (r.snoringVolumeNub.toNat + 149) / 150 :=
    SleepReport.length_packets
  have hne : ∀ p ∈ r.packets, p ≠ [] := fun p hp => by
    obtain ⟨l, -, rfl⟩ := List.mem_map.mp hp
    exact SleepReport.packet_ne_nil l
  rw [SleepReport.sentWhole_iff hhi, hoffers, accepted_eq_self_iff found hne, hlen]

/-- Two packets. -/
def twoPackets : SleepReport := { snoringVolumeNub := 151 }

/-- A dock that is connected, and whose last notification is done or not. -/
def connectedDock (done : Bool) : Dock :=
  { boot ⟨[], 1, 1⟩ with link := { connectId := 0, uartServerNtfDone := done } }

theorem two_packets_sent : twoPackets.SentWhole
    (accepted (fun _ => connectedDock true) (offers twoPackets ⟨1, 0, 0⟩ [1, 22, 23])) :=
  (ble_transfer_iff twoPackets (by decide) (by decide) [] {} ⟨1, 0, 0⟩ ⟨0, 1, 0⟩ [] rfl rfl
    (SleepReport.getSnoringVolume_ble (by decide) (by decide) {}) [1, 22, 23] rfl rfl
    fun _ => connectedDock true).mpr fun _ _ => by decide

/-- The second packet is offered in the call behind the first, and is lost if the first
notification is not done by then. -/
theorem second_packet_lost : ¬ ∀ (r : SleepReport) (u v w : Updata) (sent : List ReportTx)
    (before : List UpdataEvent) (timers : List UInt32) (found : ℕ → Dock),
    0 < r.snoringVolumeNub.toNat → r.snoringVolumeNub.toNat ≤ 720 →
    exec updataStep (some {}) before = some u → u.snoringVolumeupdataFlag = 0 →
    u.getSnoringVolume r 1 = some (v, sent) → exec (callRun r) (some v) timers = some w →
    w.snoringVolumeupdataFlag = 0 → r.SentWhole (accepted found (offers r v timers)) := by
  intro h
  have hsent := h twoPackets {} ⟨1, 0, 0⟩ ⟨0, 1, 0⟩ [] [] [1, 22, 23]
    (fun j => connectedDock (j == 0)) (by decide) (by decide) rfl rfl
    (SleepReport.getSnoringVolume_ble (by decide) (by decide) {}) rfl rfl
  have hlen := congrArg List.length ((SleepReport.sentWhole_iff (by decide) _).mp hsent)
  revert hlen
  decide +kernel

end ErgoDock
