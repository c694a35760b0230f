import ErgoDock.BootRam
import ErgoDock.FotaTransfer

/-! # From the update service to the new image

The server records in the update settings what the boot loader is to do (`Fota.update`), and resets.
`boot_after_finish` puts the two together: whatever the phone asked for with `FINISH_CMD` is done by
the first start that is not cut short.  `update_installs_image` adds the transfer before it. -/

namespace ErgoDock
open Machine PowerCut

/-- The call to the update settings that an act is. -/
def FotaAct.otaCall : FotaAct → Option OtaCall
  | otaBootAddrSet addr => some (.bootAddrSet addr)
  | otaSettingsEraseReqSet => some .settingsEraseReqSet
  | otaCopyInfoSet src dst size => some (.copyInfoSet ⟨src, dst, size⟩)
  | _ => none

/-- A call that returns. -/
def OtaCall.run (chip : FlashChip) (flash : ℕ → UInt8) (c : OtaCall) : ℕ → UInt8 :=
  ((c.commands chip flash).getD []).foldl FlashCommand.run flash

/-- A call during which power goes. -/
def OtaCall.Cut (chip : FlashChip) (flash : ℕ → UInt8) (c : OtaCall) (left : ℕ → UInt8) : Prop :=
  ∃ cs, c.commands chip flash = some cs ∧ CutShort flash cs left

/-- What the calls to the update settings leave in the flash. -/
def otaCalls (chip : FlashChip) (flash : ℕ → UInt8) (acts : List FotaAct) : ℕ → UInt8 :=
  (acts.filterMap FotaAct.otaCall).foldl (OtaCall.run chip) flash

/-- Power goes during one of the calls to the update settings. -/
def OtaCallsCut (chip : FlashChip) (flash : ℕ → UInt8) (acts : List FotaAct) (left : ℕ → UInt8) :
    Prop :=
  PowerCut.Cut (OtaCall.run chip) (OtaCall.Cut chip) flash (acts.filterMap FotaAct.otaCall) left

/-- A step of the server, with its calls to the update settings. -/
def Fota.update [Divider] (chip : FlashChip) (s : Fota) (e : FotaEvent) : Fota :=
  { s.step e with flash := otaCalls chip (s.step e).flash (s.issued e) }

/-- What a `FINISH_CMD` asks to be copied. -/
def Packet.copyInfo (p : Packet) : FotaCopyInfo := ⟨p.le32 5, p.le32 9, p.le24 2⟩

section finish
variable {chip : FlashChip} {f : ℕ → UInt8} {value : OtaRecord → Option (List UInt32)}
  {room : OtaRecord → ℕ} {r : OtaRecord} {ws : List UInt32} {a : ℕ}

theorem otaCalls_append (chip : FlashChip) (f : ℕ → UInt8) (xs ys : List FotaAct) :
    otaCalls chip f (xs ++ ys) = otaCalls chip (otaCalls chip f xs) ys := by
  rw [otaCalls, List.filterMap_append, List.foldl_append]
  rfl

/-- A record that is set under a condition. -/
theorem otaCalls_optional (act : FotaAct) {c : OtaCall} (hact : act.otaCall = some c)
    (hc : c.sets = some (r, ws)) (hr : OtaRecords chip f value room) (hroom : 2 ≤ room r)
    (b : Prop) [Decidable b] :
    let g := otaCalls chip f (if b then [act] else [])
    OtaRecords chip g (Function.update value r (if b then some ws else value r))
        (Function.update room r 1) ∧
      ∀ a, a < getOtaSettingsOffset chip ∨ getOtaSettingsOffset chip + 256 ≤ a → g a = f a := by
  by_cases hb : b
  · rw [if_pos hb, if_pos hb]
    obtain ⟨hcs, hlen⟩ := OtaCall.commands_of_sets hc chip f
    obtain ⟨cs, hset, ⟨hdone, hout⟩, -⟩ :=
      hr.set (k := room r - 1) (by omega) hlen
    have hcalls : otaCalls chip f [act] = cs.foldl FlashCommand.run f := by
      rw [otaCalls, List.filterMap_cons_some hact, List.filterMap_nil, List.foldl_cons,
        List.foldl_nil, OtaCall.run, hcs, hset, Option.getD_some]
    rw [hcalls]
    refine ⟨fun r' => (hdone r').mono ?_, fun a ha => hout.outside_page ha⟩
    by_cases he : r' = r
    · subst he
      rw [Function.update_self, Function.update_self]
      omega
    · rw [Function.update_of_ne he, Function.update_of_ne he]
  · rw [if_neg hb, if_neg hb, Function.update_eq_self]
    refine ⟨fun r' => (hr r').mono ?_, fun _ _ => rfl⟩
    by_cases he : r' = r
    · subst he
      rw [Function.update_self]
      omega
    · rw [Function.update_of_ne he]

theorem otaCallsCut_append {xs ys : List FotaAct} {h : ℕ → UInt8} :
    OtaCallsCut chip f (xs ++ ys) h ↔
      OtaCallsCut chip f xs h ∨ OtaCallsCut chip (otaCalls chip f xs) ys h := by
  rw [OtaCallsCut, List.filterMap_append, cut_append]
  rfl

/-- A record that was being set when power went. -/
theorem otaCallsCut_optional (act : FotaAct) {c : OtaCall} (hact : act.otaCall = some c)
    (hc : c.sets = some (r, ws)) (hr : OtaRecords chip f value room) (hroom : 2 ≤ room r)
    {b : Prop} [Decidable b] {h : ℕ → UInt8}
    (hcut : OtaCallsCut chip f (if b then [act] else []) h) :
    b ∧ (∃ v, (v = value r ∨ v = none ∨ v = some ws) ∧
        OtaRecords chip h (Function.update value r v) (Function.update room r 1)) ∧
      ∀ a, a < getOtaSettingsOffset chip ∨ getOtaSettingsOffset chip + 256 ≤ a → h a = f a := by
  by_cases hb : b
  · obtain ⟨hcs, hlen⟩ := OtaCall.commands_of_sets hc chip f
    obtain ⟨cs, hset, -, hshort⟩ := hr.set (k := room r - 1) (by omega) hlen
    rw [if_pos hb, OtaCallsCut, List.filterMap_cons_some hact, List.filterMap_nil] at hcut
    obtain ⟨cs', hcs', hleft⟩ := (cut_cons.mp hcut).resolve_right not_cut_nil
    rw [hcs, hset] at hcs'
    obtain rfl := Option.some.inj hcs'
    obtain ⟨⟨v, hv, hrec⟩, hout⟩ := hshort h hleft
    refine ⟨hb, ⟨v, hv, fun r' => (hrec r').mono ?_⟩, fun a ha => hout.outside_page ha⟩
    by_cases he : r' = r
    · subst he
      rw [Function.update_self, Function.update_self]
      omega
    · rw [Function.update_of_ne he, Function.update_of_ne he]
  · rw [if_neg hb] at hcut
    exact absurd hcut not_cut_nil

/-- What a `FINISH_CMD` leaves in the update settings. -/
theorem finishCmd_settings {p : Packet} (hreb : p.Reboots) (hsize : p.le24 2 ≠ 0) (env : FotasEnv)
    (hr : OtaRecords chip f value fun _ => 2) :
    let g := otaCalls chip f (finishCmd env p).acts
    (∃ value', OtaRecords chip g value' (fun _ => 1) ∧ value' .copyInfo = some p.copyInfo.toWords ∧
      value' .bootAddr = (if p.le32 13 ≠ 0 then some [p.le32 13] else value .bootAddr) ∧
      value' .eraseReq = (if p.byte 1 &&& 4 ≠ 0 then some [0x53415245] else value .eraseReq)) ∧
    ∀ a, a < getOtaSettingsOffset chip ∨ getOtaSettingsOffset chip + 256 ≤ a → g a = f a := by
  have hacts : (finishCmd env p).acts =
      (if p.le32 13 ≠ 0 then [.otaBootAddrSet (p.le32 13)] else []) ++
        (if p.byte 1 &&& 4 ≠ 0 then [.otaSettingsEraseReqSet] else []) ++
        (if p.le24 2 ≠ 0 then [.otaCopyInfoSet (p.le32 5) (p.le32 9) (p.le24 2)] else []) ++
        [.platformReset] := by
    rw [finishCmd, if_pos hreb]
  have hreset : ∀ h, otaCalls chip h [.platformReset] = h := fun h => rfl
  obtain ⟨hboot, hout₁⟩ := otaCalls_optional (.otaBootAddrSet (p.le32 13)) rfl rfl hr
    (Nat.le_refl 2) (p.le32 13 ≠ 0)
  obtain ⟨herase, hout₂⟩ := otaCalls_optional .otaSettingsEraseReqSet rfl rfl hboot
    (Nat.le_refl 2) (p.byte 1 &&& 4 ≠ 0)
  obtain ⟨hcopy, hout₃⟩ := otaCalls_optional
    (.otaCopyInfoSet (p.le32 5) (p.le32 9) (p.le24 2)) rfl rfl herase
    (Nat.le_refl 2) (p.le24 2 ≠ 0)
  rw [hacts, otaCalls_append, otaCalls_append, otaCalls_append, hreset]
  refine ⟨⟨_, fun r => (hcopy r).mono ?_, ?_, ?_, ?_⟩, fun a ha => ?_⟩
  · cases r <;> exact Nat.le_refl 1
  · rw [Function.update_self, if_pos hsize]
    rfl
  · rfl
  · rfl
  · exact (hout₃ a ha).trans ((hout₂ a ha).trans (hout₁ a ha))

/-- What a `FINISH_CMD` during which power went leaves in the update settings: the copy record is
there only when all of it is done. -/
theorem finishCmd_settings_cut {p : Packet} (hreb : p.Reboots) (env : FotasEnv)
    (hr : OtaRecords chip f value fun _ => 2) (hnone : value .copyInfo = none) {h : ℕ → UInt8}
    (hcut : OtaCallsCut chip f (finishCmd env p).acts h) :
    (∃ value', OtaRecords chip h value' (fun _ => 1) ∧
      (value' .bootAddr = value .bootAddr ∨ value' .bootAddr = none ∨
        p.le32 13 ≠ 0 ∧ value' .bootAddr = some [p.le32 13]) ∧
      (value' .copyInfo = none ∨ value' .copyInfo = some p.copyInfo.toWords ∧
        value' .bootAddr = (if p.le32 13 ≠ 0 then some [p.le32 13] else value .bootAddr))) ∧
    ∀ a, a < getOtaSettingsOffset chip ∨ getOtaSettingsOffset chip + 256 ≤ a → h a = f a := by
  have hacts : (finishCmd env p).acts =
      (if p.le32 13 ≠ 0 then [.otaBootAddrSet (p.le32 13)] else []) ++
        (if p.byte 1 &&& 4 ≠ 0 then [.otaSettingsEraseReqSet] else []) ++
        (if p.le24 2 ≠ 0 then [.otaCopyInfoSet (p.le32 5) (p.le32 9) (p.le24 2)] else []) ++
        [.platformReset] := by
    rw [finishCmd, if_pos hreb]
  obtain ⟨hboot, hout₁⟩ := otaCalls_optional (.otaBootAddrSet (p.le32 13)) rfl rfl hr
    (Nat.le_refl 2) (p.le32 13 ≠ 0)
  obtain ⟨herase, hout₂⟩ := otaCalls_optional .otaSettingsEraseReqSet rfl rfl hboot
    (Nat.le_refl 2) (p.byte 1 &&& 4 ≠ 0)
  have hset : ∀ v, v = (if p.le32 13 ≠ 0 then some [p.le32 13] else value .bootAddr) →
      v = value .bootAddr ∨ v = none ∨ p.le32 13 ≠ 0 ∧ v = some [p.le32 13] := by
    intro v hv
    split at hv
    · next hne => exact .inr (.inr ⟨hne, hv⟩)
    · exact .inl hv
  rw [hacts, otaCallsCut_append, otaCallsCut_append, otaCallsCut_append] at hcut
  rcases hcut with ((hcut | hcut) | hcut) | hcut
  · -- in the call for the boot address
    obtain ⟨hb, ⟨v, hv, hrec⟩, hout⟩ := otaCallsCut_optional (.otaBootAddrSet (p.le32 13)) rfl rfl
      hr (Nat.le_refl 2) hcut
    refine ⟨⟨_, fun r => (hrec r).mono (by cases r <;> decide), ?_, .inl hnone⟩, hout⟩
    rw [Function.update_self]
    rcases hv with rfl | rfl | rfl
    · exact .inl rfl
    · exact .inr (.inl rfl)
    · exact .inr (.inr ⟨hb, rfl⟩)
  · -- in the request to erase the settings
    obtain ⟨-, ⟨v, -, hrec⟩, hout⟩ := otaCallsCut_optional .otaSettingsEraseReqSet rfl rfl hboot
      (Nat.le_refl 2) hcut
    exact ⟨⟨_, fun r => (hrec r).mono (by cases r <;> decide), hset _ rfl, .inl hnone⟩,
      fun a ha => (hout a ha).trans (hout₁ a ha)⟩
  · -- in the call for the copy record
    rw [otaCalls_append] at hcut
    obtain ⟨-, ⟨v, hv, hrec⟩, hout⟩ := otaCallsCut_optional
      (.otaCopyInfoSet (p.le32 5) (p.le32 9) (p.le24 2)) rfl rfl herase (Nat.le_refl 2) hcut
    refine ⟨⟨_, fun r => (hrec r).mono (by cases r <;> decide), hset _ rfl, ?_⟩,
      fun a ha => (hout a ha).trans ((hout₂ a ha).trans (hout₁ a ha))⟩
    rw [Function.update_self]
    rcases hv with rfl | rfl | rfl
    · exact .inl hnone
    · exact .inl rfl
    · exact .inr ⟨rfl, rfl⟩
  · exact absurd hcut not_cut_nil

/-- A `FINISH_CMD` programs nothing but the update settings. -/
theorem flash_finishCmd [Divider] {s : Fota} (hrun : s.stop = none) {c : UInt8} {p : Packet}
    (hp : p.ctrlType = .finishCmd) (hreb : p.Reboots) :
    (s.update chip (.ctrlWrite c p)).flash = otaCalls chip s.flash (finishCmd s.env p).acts := by
  have hhandle : s.handle (.ctrlWrite c p) = finishCmd s.env p := by
    simp only [Fota.handle, ctrlPktDispatch, hp]
  have hflash : (s.step (.ctrlWrite c p)).flash = s.flash := by
    rw [Fota.flash_step, Fota.issued_eq hrun, hhandle, finishCmd, if_pos hreb]
    split_ifs <;> rfl
  unfold Fota.update
  dsimp only
  rw [hflash, Fota.issued_eq hrun, hhandle]

end finish

section boot
variable [Divider] {chip : FlashChip} {s : Fota} {c : UInt8} {p : Packet} {f : ℕ → UInt8}

/-- Where the boot loader goes after a `FINISH_CMD`. -/
def bootBase (chip : FlashChip) (flash : ℕ → UInt8) (p : Packet) : UInt32 :=
  if p.le32 13 ≠ 0 then p.le32 13
  else (otaBootAddrGet chip flash).getD (getAppImageBase flash)

/-- Whatever a `FINISH_CMD` asks for is done by the first start that is not cut short: the copy as
it says, from the flash as it was, the boot at the address it says, if any, and the erase of the
update settings if it says so. -/
theorem boot_after_finish (hrun : s.stop = none) (hp : p.ctrlType = .finishCmd)
    (hreb : p.Reboots) (hsize : p.le24 2 ≠ 0) (hf : p.copyInfo.Fits chip)
    (hroom : ∃ value, OtaRecords chip s.flash value fun _ => 2)
    (hcuts : Relation.ReflTransGen (BootCut chip) (s.update chip (.ctrlWrite c p)).flash f) :
    ∃ cs, bootRamStart chip f = some (cs, bootBase chip s.flash p) ∧
      (∀ j < 256 * p.copyInfo.pages, cs.foldl FlashCommand.run f (p.copyInfo.dstOffset + j) =
        s.flash (p.copyInfo.srcOffset + j)) ∧
      (∀ a ∉ p.copyInfo.target, a / 4096 ≠ getOtaSettingsOffset chip / 4096 →
        cs.foldl FlashCommand.run f a = s.flash a) ∧
      otaCopyInfoGet chip (cs.foldl FlashCommand.run f) = none ∧
      (p.byte 1 &&& 4 ≠ 0 → otaBootAddrGet chip (cs.foldl FlashCommand.run f) = none ∧
        otaSettingsEraseReqGet chip (cs.foldl FlashCommand.run f) = false) := by
  obtain ⟨value, hr⟩ := hroom
  obtain ⟨⟨value', hr', hcopy, hboot, herase⟩, hout⟩ := finishCmd_settings hreb hsize s.env hr
  rw [flash_finishCmd hrun hp hreb] at hcuts
  generalize otaCalls chip s.flash (finishCmd s.env p).acts = f₀ at *
  have hvalue : ∀ r, settingsGet f₀ (OtaRecord.info chip r) = value' r :=
    BootRam.get_of_records hr'
  have hget : otaCopyInfoGet chip f₀ = some p.copyInfo := by
    have hmap := congrArg (Option.map FotaCopyInfo.ofWords) ((hvalue .copyInfo).trans hcopy)
    exact hmap
  obtain ⟨cs, hcs, hbooted⟩ := BootRam.boot_after_cuts hf ⟨value', hr'⟩ hget hcuts
  have hbase : (otaBootAddrGet chip f₀).getD (getAppImageBase f₀) = bootBase chip s.flash p := by
    have hold : settingsGet s.flash (OtaRecord.info chip .bootAddr) = value .bootAddr :=
      hr.get fun _ _ => by decide
    have hheader : getAppImageBase f₀ = getAppImageBase s.flash := by
      obtain ⟨k, hoff⟩ := chip.settingsOffset_eq
      exact flashWord_eq_iff.mpr fun i hi => hout _ (.inl (by omega))
    have hnew : settingsGet f₀ (OtaRecord.info chip .bootAddr) =
        if p.le32 13 ≠ 0 then some [p.le32 13]
        else settingsGet s.flash (OtaRecord.info chip .bootAddr) := by
      rw [hvalue, hboot, hold]
    unfold bootBase otaBootAddrGet
    change Option.getD (Option.map _ (settingsGet f₀ (OtaRecord.info chip .bootAddr))) _ = _
    rw [hnew, hheader]
    split
    · rfl
    · rfl
  rw [hbase] at hcs
  refine ⟨cs, hcs, fun j hj => ?_, fun a ha hsector => ?_, ?_, fun hreq => ?_⟩
  · rw [hbooted.copied j hj]
    exact hout _ (BootRam.src_apart hf hj).2
  · rw [hbooted.outside a ha hsector]
    exact hout a (FlashChip.outside_page hsector)
  · have hnone := hbooted.settings .copyInfo
    rw [if_pos (.inr rfl)] at hnone
    exact congrArg (Option.map _) hnone
  · have hset : otaSettingsEraseReqGet chip f₀ = true := by
      have hsome := congrArg Option.isSome ((hvalue .eraseReq).trans herase)
      rw [if_pos hreq] at hsome
      exact hsome
    have hnone : ∀ r, settingsGet (cs.foldl FlashCommand.run f) (OtaRecord.info chip r) = none := by
      intro r
      rw [hbooted.settings r, if_pos (.inl hset)]
    exact ⟨congrArg (Option.map _) (hnone .bootAddr), congrArg Option.isSome (hnone .eraseReq)⟩

theorem acts_finishCmd (hrun : s.stop = none) (hp : p.ctrlType = .finishCmd) :
    s.issued (.ctrlWrite c p) = (finishCmd s.env p).acts := by
  rw [Fota.issued_eq hrun]
  simp only [Fota.handle, ctrlPktDispatch, hp]

omit [Divider] in
/-- A start without a copy record. -/
theorem bootRamStart_of_no_record (hnone : otaCopyInfoGet chip f = none) :
    bootCopy chip f = some [] ∧ bootRamStart chip f =
      some (if otaSettingsEraseReqGet chip f then otaSettingsErase chip else [],
        (otaBootAddrGet chip f).getD (getAppImageBase f)) := by
  have hcopy : bootCopy chip f = some [] := by
    unfold bootCopy
    rw [hnone]
  refine ⟨hcopy, ?_⟩
  unfold bootRamStart
  rw [hcopy]
  rfl

/-- Power may even go while a `FINISH_CMD` is carried out, at any point of its calls, and any number
of times in the starts after that.  The copy is then made as it was asked for or not at all, and the
start that is not cut short boots where it should have, where it did before, or at the address the
flash came with.  Nothing but the target of the copy and the settings changes. -/
theorem finish_cut_atomic (s : Fota) (c : UInt8) (p : Packet) (hrun : s.stop = none)
    (hp : p.ctrlType = .finishCmd)
    (hreb : p.Reboots) (hf : p.copyInfo.Fits chip)
    (hroom : ∃ value, OtaRecords chip s.flash value fun _ => 2)
    (hnone : otaCopyInfoGet chip s.flash = none) {h : ℕ → UInt8}
    (hcut : OtaCallsCut chip s.flash (s.issued (.ctrlWrite c p)) h)
    (hcuts : Relation.ReflTransGen (BootCut chip) h f) :
    ∃ cs base, bootRamStart chip f = some (cs, base) ∧
      (base = bootBase chip s.flash p ∧
          (∀ j < 256 * p.copyInfo.pages, cs.foldl FlashCommand.run f (p.copyInfo.dstOffset + j) =
            s.flash (p.copyInfo.srcOffset + j)) ∧
          (∀ a ∉ p.copyInfo.target, a / 4096 ≠ getOtaSettingsOffset chip / 4096 →
            cs.foldl FlashCommand.run f a = s.flash a) ∨
        (base = bootBase chip s.flash p ∨
            base = (otaBootAddrGet chip s.flash).getD (getAppImageBase s.flash) ∨
            base = getAppImageBase s.flash) ∧
          ∀ a, a / 4096 ≠ getOtaSettingsOffset chip / 4096 →
            cs.foldl FlashCommand.run f a = s.flash a) := by
  obtain ⟨value, hr⟩ := hroom
  have hvalue : ∀ r, settingsGet s.flash (OtaRecord.info chip r) = value r := fun r =>
    hr.get fun _ _ => by decide
  have hcopy : value .copyInfo = none := by
    rw [← hvalue .copyInfo]
    exact Option.map_eq_none_iff.mp hnone
  rw [acts_finishCmd hrun hp] at hcut
  obtain ⟨⟨value', hr', hboot, hstate⟩, hout⟩ := finishCmd_settings_cut hreb s.env hr hcopy hcut
  have hvalue' : ∀ r, settingsGet h (OtaRecord.info chip r) = value' r :=
    BootRam.get_of_records hr'
  have hheader : getAppImageBase h = getAppImageBase s.flash := by
    obtain ⟨k, hoff⟩ := chip.settingsOffset_eq
    exact flashWord_eq_iff.mpr fun i hi => hout _ (.inl (by omega))
  have hbase : ∀ {g : ℕ → UInt8} {v : Option (List UInt32)},
      settingsGet g (OtaRecord.info chip .bootAddr) = v →
        otaBootAddrGet chip g = v.map fun ws => ws.getD 0 0 := by
    rintro g v rfl
    rfl
  have hold := hbase (hvalue .bootAddr)
  have hnew := hbase (hvalue' .bootAddr)
  rcases hstate with hno | ⟨hrecord, haddr⟩
  · -- no record: nothing is copied
    have hget : otaCopyInfoGet chip h = none :=
      congrArg (Option.map FotaCopyInfo.ofWords) ((hvalue' .copyInfo).trans hno)
    obtain ⟨hskip, hstart⟩ := bootRamStart_of_no_record hget
    obtain rfl : h = f := by
      rcases hcuts.cases_head with he | ⟨g, ⟨cs, hcs, hshort⟩, -⟩
      · exact he
      · rw [hskip] at hcs
        obtain rfl := Option.some.inj hcs
        exact absurd hshort not_cut_nil
    refine ⟨_, _, hstart, .inr ⟨?_, fun a ha => ?_⟩⟩
    · rw [hheader, hnew]
      rcases hboot with hb | hb | ⟨hne, hb⟩
      · exact .inr (.inl (by rw [hb, hold]))
      · exact .inr (.inr (by rw [hb]; rfl))
      · refine .inl ?_
        rw [hb, bootBase, if_pos hne]
        rfl
    · have hsame := hout a (FlashChip.outside_page ha)
      split
      · exact (otaSettingsErase_outside ha).trans hsame
      · exact hsame
  · -- the record is complete
    have hget : otaCopyInfoGet chip h = some p.copyInfo :=
      congrArg (Option.map FotaCopyInfo.ofWords) ((hvalue' .copyInfo).trans hrecord)
    obtain ⟨cs, hcs, hbooted⟩ := BootRam.boot_after_cuts hf ⟨value', hr'⟩ hget hcuts
    refine ⟨cs, _, hcs, .inl ⟨?_, fun j hj => ?_, fun a ha hsector => ?_⟩⟩
    · rw [hheader, hnew, haddr, bootBase, hold]
      split
      · rfl
      · rfl
    · rw [hbooted.copied j hj]
      exact hout _ (BootRam.src_apart hf hj).2
    · rw [hbooted.outside a ha hsector]
      exact hout a (FlashChip.outside_page hsector)

end boot

/-- A `FINISH_CMD` for one sector at `0x18040000`, to be copied to `0x18004000` and booted there. -/
def installSector : Packet :=
  ⟨[7, 7, 0, 16, 0, 0, 0, 4, 0x18, 0, 0x40, 0, 0x18, 0, 0x40, 0, 0x18],
    (by decide : 17 < 65536), fun _ => 0⟩

theorem installSector_fits : installSector.copyInfo.Fits chip512 :=
  ⟨by decide, by decide, by decide, by decide, by decide⟩

/-- The settings of a new flash. -/
theorem erased_room (chip : FlashChip) :
    ∃ value, OtaRecords chip (fun _ => 0xFF) value fun _ => 2 :=
  ⟨fun _ => none, fun r => (journaled_erased fun _ _ _ => rfl).mono (by cases r <;> decide)⟩

open scoped ShiftDivider in
/-- Power goes before anything is written. -/
theorem finish_cut_at_once : ∃ cs base, bootRamStart chip512 (fun _ => 0xFF) = some (cs, base) := by
  have hfits : (otaBootAddrInfo chip512).Fits (otaBootAddrInfo chip512).count :=
    ⟨by decide, by decide, by decide, by decide⟩
  have hcall : OtaCall.Cut chip512 (fun _ => 0xFF) (.bootAddrSet 0x18004000) fun _ => 0xFF :=
    ⟨_, settingsSet_erased hfits (by decide) (fun _ _ _ => rfl) _,
      .now (fun a => between_left _ _) []⟩
  have hget : otaCopyInfoGet chip512 (fun _ => 0xFF) = none := by
    obtain ⟨value, hr⟩ := erased_room chip512
    have hblank : Journaled (fun _ => 0xFF) (otaCopyInfo chip512) OtaRecord.copyInfo.own none 4 :=
      journaled_erased fun _ _ _ => rfl
    have hvalue := (hr .copyInfo).value_eq.symm.trans hblank.value_eq
    exact congrArg (Option.map FotaCopyInfo.ofWords)
      ((hr.get (r := .copyInfo) fun _ _ => by decide).trans hvalue)
  obtain ⟨cs, base, hcs, -⟩ := finish_cut_atomic (.boot fun _ => 0xFF) 0
    installSector rfl (by decide) (by decide) installSector_fits (erased_room chip512) hget
    (.now hcall _) .refl
  exact ⟨cs, base, hcs⟩

/-! ### The whole update -/

section transfer
variable [Divider] {image : FotaImageInfo} {n : UInt16} {content : ℕ → UInt8}
  {w : Fota × Option (Set ℕ)} {a : ℕ}

/-- A start of an update leaves the cells outside the image alone. -/
theorem flash_startReq {s₀ : Fota} {c : UInt8} {p : Packet} (hrun : s₀.stop = none)
    (hidle : s₀.env.state = .idle) (hp : p.ctrlType = .startReq) (hbase : p.image.SectorAligned)
    (ha : ∀ x < p.image.rounded, a ≠ p.image.cell x) :
    (s₀.step (.ctrlWrite c p)).flash a = s₀.flash a := by
  have hacts : (s₀.handle (.ctrlWrite c p)).acts =
      fotasFlashCleanup p.image.offset p.image.size ++ [.indication c 3 0, .confirm 0] := by
    simp only [Fota.handle, ctrlPktDispatch, hp, startReq, hidle]
    rfl
  rw [Fota.flash_step, Fota.issued_eq hrun, hacts, List.foldl_append]
  change List.foldl FotaAct.onFlash s₀.flash (fotasFlashCleanup p.image.offset p.image.size) a = _
  refine RawMemory.foldl_untouched (fun act hact flash => FotaAct.onFlash_untouched ?_ flash) _
  intro htouch
  obtain ⟨x, hx, hcell⟩ := (touches_cleanup hbase.offset).mp ⟨act, hact, htouch⟩
  exact ha x hx hcell

/-- So does every step of the transfer. -/
theorem InTransfer.frame (h : InTransfer image n content w) (hn : n ≠ 0) (hlo : 19 ≤ n.toNat)
    (hbase : image.SectorAligned) {e : FotaEvent} (ht : Transfers content w e)
    (hsplit : SplitsPages w.1 e) (ha : ∀ x < image.rounded, a ≠ image.cell x) :
    (sectorStep w e).1.flash a = w.1.flash a := by
  cases e with
  | ctrlWrite c p => exact congrFun (h.step_sector (c := c) ht.1 ht.2).1 a
  | dataWrite p =>
      obtain ⟨-, -, -, -, hflash, -⟩ := h.dataWrite hn hlo hbase ht hsplit
      obtain ⟨hw, hid, -⟩ := ht
      rw [h.length_eq] at hid
      obtain ⟨-, -, hrow⟩ := h.segment_row hn hbase hid
      have hpos := h.pos_lt hn hw hid
      change (w.1.step _).flash a = _
      rw [hflash]
      refine Nor.burn_outside ?_
      rw [Packet.length_bytes]
      by_contra hin
      refine ha _ ?_ ((hrow (a - (segmentStart w.1.env (p.byte 0)).toNat) (by omega)).trans
        (by omega)).symm
      omega
  | dataRead c => rw [h.step_read (e := .dataRead c) rfl (fun _ => rfl) rfl nofun]
  | cccdRead c => rw [h.step_read (e := .cccdRead c) rfl (fun _ => rfl) rfl nofun]
  | cccdWrite p => exact ht.elim
  | connected | disconnected => exact ht.elim

/-- And so does the whole of it. -/
theorem InTransfer.frame_run (h : InTransfer image n content w) (hn : n ≠ 0)
    (hlo : 19 ≤ n.toNat) (hbase : image.SectorAligned) {es : List FotaEvent}
    (hes : Along sectorStep (fun w e => Transfers content w e ∧ SplitsPages w.1 e) w es)
    (ha : ∀ x < image.rounded, a ≠ image.cell x) :
    (exec sectorStep w es).1.flash a = w.1.flash a :=
  exec_constant (f := fun v : Fota × Option (Set ℕ) => v.1.flash a)
    (fun _ _ hv hok => (hv.step hn hlo hbase hok.1 hok.2).1)
    (fun _ _ hv hok => hv.frame hn hlo hbase hok.1 hok.2 ha) h hes

end transfer

section update
variable {chip : FlashChip} {f : ℕ → UInt8}

/-- The image lies before the last sector, that of the update settings. -/
def FotaImageInfo.BeforeSettings (image : FotaImageInfo) (chip : FlashChip) : Prop :=
  image.offset.toNat + image.rounded + 4096 ≤ chip.totalSize

/-- The cells of an image before the settings are in a row. -/
theorem FotaImageInfo.BeforeSettings.cell_eq {image : FotaImageInfo}
    (h : image.BeforeSettings chip) {x : ℕ} (hx : x < image.rounded) :
    image.cell x = image.offset.toNat + x := by
  have htotal := chip.totalSize_le
  unfold FotaImageInfo.BeforeSettings at h
  exact toNat_add_ofNat (by omega)

/-- The segments of an image before the settings end far from the end of the offsets. -/
theorem InTransfer.splits [Divider] {image : FotaImageInfo} {n : UInt16} {content : ℕ → UInt8}
    {w : Fota × Option (Set ℕ)} (h : InTransfer image n content w) (hn : n ≠ 0)
    (hbase : image.SectorAligned) (hbefore : image.BeforeSettings chip) {e : FotaEvent}
    (ht : Transfers content w e) : SplitsPages w.1 e := by
  cases e with
  | dataWrite p =>
      obtain ⟨hw, hid, -⟩ := ht
      rw [h.length_eq] at hid
      have htotal := chip.totalSize_le
      have hpos := h.pos_lt hn hw hid
      have hlen := segmentLen_pos hn (p.byte 0)
      obtain ⟨hstart, -, -⟩ := h.segment_row hn hbase hid
      rw [hbefore.cell_eq (by omega)] at hstart
      unfold FotaImageInfo.BeforeSettings at hbefore
      unfold SplitsPages PagesSplit
      rw [h.length_eq]
      constructor <;> omega
  | _ => trivial

/-- An update from beginning to end: an image is announced, its segments come in any order and as
often as they like, each sector is complete at some time, and a `FINISH_CMD` asks for it to be
copied.  Then however often power goes during the copy, the first start that is not cut short
boots with the image in its place, byte for byte. -/
theorem update_installs_image [Divider] (s₀ : Fota) (c c' : UInt8) (p q : Packet)
    (hrun : s₀.stop = none) (hidle : s₀.env.state = .idle)
    (hp : p.ctrlType = .startReq) (hbase : p.image.SectorAligned)
    (hbefore : p.image.BeforeSettings chip) (hlo : 19 ≤ (p.le16 9).toNat) (content : ℕ → UInt8)
    (es : List FotaEvent)
    (ht : Along sectorStep (Transfers content) (s₀.step (.ctrlWrite c p), none) es)
    (hseen : ∀ k < ceiling p.image.size.toNat 4096,
      SectorSeen (s₀.step (.ctrlWrite c p), none) es k)
    (hq : q.ctrlType = .finishCmd) (hreb : q.Reboots) (hsrc : q.le32 5 = p.image.base)
    (hsize : q.le24 2 = p.image.size) (hpos : p.image.size ≠ 0) (hf : q.copyInfo.Fits chip)
    (hroom : ∃ value, OtaRecords chip s₀.flash value fun _ => 2)
    (hcuts : Relation.ReflTransGen (BootCut chip)
      ((exec sectorStep (s₀.step (.ctrlWrite c p), none) es).1.update chip
        (.ctrlWrite c' q)).flash f) :
    ∃ cs, bootRamStart chip f = some (cs, bootBase chip
        (exec sectorStep (s₀.step (.ctrlWrite c p), none) es).1.flash q) ∧
      ∀ x < p.image.size.toNat,
        cs.foldl FlashCommand.run f (q.copyInfo.dstOffset + x) = content x := by
  have hn : p.le16 9 ≠ 0 := fun h0 => by
    rw [h0] at hlo
    exact absurd hlo (by decide)
  have hstart := in_transfer_start (c := c) hrun hidle hp hbase content
  have ht : Along sectorStep (fun w e => Transfers content w e ∧ SplitsPages w.1 e)
      (s₀.step (.ctrlWrite c p), none) es :=
    ht.of_invariant (I := InTransfer p.image (p.le16 9) content)
      (fun _ _ hv hok => (hv.step hn hlo hbase hok (hv.splits hn hbase hbefore hok)).1)
      (fun _ _ hv hok => ⟨hok, hv.splits hn hbase hbefore hok⟩) hstart
  have hin := (hstart.run hn hlo hbase ht).1
  have hrow := fun x hx => hbefore.cell_eq (x := x) hx
  unfold FotaImageInfo.BeforeSettings at hbefore
  -- the last sector has not changed
  have hframe : ∀ a, p.image.offset.toNat + p.image.rounded ≤ a →
      (exec sectorStep (s₀.step (.ctrlWrite c p), none) es).1.flash a = s₀.flash a := by
    intro a ha
    have hcell : ∀ x < p.image.rounded, a ≠ p.image.cell x := fun x hx => by
      rw [hrow x hx]
      omega
    exact (hstart.frame_run hn hlo hbase ht hcell).trans (flash_startReq hrun hidle hp hbase hcell)
  have hroom' : ∃ value, OtaRecords chip
      (exec sectorStep (s₀.step (.ctrlWrite c p), none) es).1.flash value fun _ => 2 := by
    obtain ⟨value, hr⟩ := hroom
    have htotal := chip.settingsOffset_add
    refine ⟨value, fun r => (hr r).congr fun a hlo _ => hframe a ?_⟩
    have := r.in_page chip
    omega
  obtain ⟨cs, hcs, hcopied, -⟩ := boot_after_finish hin.running hq hreb
    (by rw [hsize]; exact hpos) hf hroom' hcuts
  refine ⟨cs, hcs, fun x hx => ?_⟩
  have hround : p.image.rounded ≤ 2 ^ 32 := p.image.rounded_le
  have hle : p.image.size.toNat ≤ p.image.rounded := by
    unfold FotaImageInfo.rounded ceiling
    omega
  have hoffset : q.copyInfo.srcOffset = p.image.offset.toNat := by
    unfold FotaCopyInfo.srcOffset FotaImageInfo.offset
    rw [show q.copyInfo.fwCopySrcAddr = p.image.base from hsrc]
  have hpages : q.copyInfo.pages = (p.image.size.toNat + 255) / 256 := by
    have htotal := chip.totalSize_le
    unfold FotaCopyInfo.pages fwPages
    rw [show q.copyInfo.fwCopySize = p.image.size from hsize, UInt32.toNat_div, UInt32.toNat_add]
    change (p.image.size.toNat + 255) % 2 ^ 32 / 256 = _
    rw [Nat.mod_eq_of_lt (by omega)]
  -- a complete sector is in the flash
  have hsector : x / 4096 < ceiling p.image.size.toNat 4096 := by
    unfold ceiling
    omega
  have hcell := hstart.seen_written hn hlo hbase ht (hseen _ hsector)
    (Nat.mod_lt x (by decide : 0 < 4096))
  rw [Nat.mul_comm, Nat.div_add_mod, FotaImageInfo.wanted_cell _ (by omega),
    hrow x (by omega)] at hcell
  rw [hcopied x (by omega), hoffset]
  exact hcell

open scoped ShiftDivider in
/-- A sector of zeros is transferred and installed. -/
theorem zero_sector_installed : ∃ cs, bootRamStart chip512
    ((exec sectorStep ((Fota.boot fun _ => 0xFF).step (.ctrlWrite 0 (startSector 0 4 0x18)), none)
      zeroSector).1.update chip512 (.ctrlWrite 0 installSector)).flash =
    some (cs, 0x18004000) := by
  have hbefore : (startSector 0 4 0x18).image.BeforeSettings chip512 :=
    show _ + _ + 4096 ≤ _ by decide
  have hseen : ∀ k < ceiling (startSector 0 4 0x18).image.size.toNat 4096,
      SectorSeen ((Fota.boot fun _ => 0xFF).step (.ctrlWrite 0 (startSector 0 4 0x18)), none)
        zeroSector k := fun k hk => by
    have h0 : k = 0 := Nat.lt_one_iff.mp hk
    exact ⟨zeroSector, List.prefix_refl _, by decide +kernel, by rw [h0]; decide +kernel,
      by decide +kernel⟩
  obtain ⟨cs, hcs, -⟩ := update_installs_image (.boot fun _ => 0xFF) 0 0 (startSector 0 4 0x18)
    installSector rfl rfl (by decide) (by decide) hbefore (by decide) (fun _ => 0) zeroSector
    (zero_sector_transfers rfl rfl (by decide)) hseen (by decide) (by decide)
    (by decide) (by decide) (by decide) installSector_fits (erased_room chip512) .refl
  exact ⟨cs, hcs⟩

end update

end ErgoDock
