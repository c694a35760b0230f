import ErgoDock.LedTasks

/-! # The configuration of the voice chip

The stable position of the switch is published as the pair (`key_enable`, `wake_word`), and the
pair is sent to the chip on UART2.  A transmit shadow, which ignores the word while the function is
off, says what was sent last.

The debounce counter counts the last samples that are equal (`counted_debounce`); the shadow is the
published pair, and the last frame is the one of that pair (`ConfigInv`).  So the pair changes on
three equal samples only, the chip always has the frame of the pair, and a frame is sent only when
it is another one (`config_follows_switch`). -/

namespace ErgoDock

open Machine

/-! ### The chip -/

def Output.isUart2 : Output → Bool
  | .uart2 _ => true
  | .notify _ _ | .startAdv | .stopAdv | .flashErase | .flashProgram _ | .liftStart _ _ _
  | .voiceCmd _ => false

/-- The transmit shadow, and the frames sent on UART2, latest first. -/
structure Chip where
  shadow : Ci1302Shadow
  sent : List Output
deriving DecidableEq

/-- The published pair. -/
structure VoiceKey where
  keyEnable : Bool
  wakeWord : UInt8
deriving DecidableEq

def OfflineVoice.key (v : OfflineVoice) : VoiceKey := ⟨v.keyEnable, v.wakeWord⟩

def VoiceKey.frame (k : VoiceKey) : Output := .uart2 (Dock.ci1302Frame k.keyEnable k.wakeWord)

namespace Dock

def chip (d : Dock) : Chip := ⟨d.ci1302Shadow, d.out.filter Output.isUart2⟩

theorem chip_emit (d : Dock) {o : Output} (ho : o.isUart2 = false) : (d.emit o).chip = d.chip := by
  have hfilter : (o :: d.out).filter Output.isUart2 = d.out.filter Output.isUart2 :=
    List.filter_cons_of_neg (by simp [ho])
  simp only [chip, emit, hfilter]

theorem blind_chip : Blind chip where
  mapAnti _ _ := rfl
  mfp _ _ := rfl
  ci1302 _ _ := rfl
  dbg _ _ := rfl
  bleTestinfo _ _ _ := rfl
  emit d o ho := d.chip_emit (by cases o <;> first | rfl | cases ho)

theorem narrow_chip : Narrow chip where
  toLiftBlind := blind_chip.toLiftBlind
  setLed _ _ := rfl
  voice _ _ := rfl
  voiceState _ _ := rfl
  charge _ _ := rfl
  flash _ _ := rfl
  link _ _ := rfl
  setBletx _ _ := rfl
  uart1CmdHandle d raw := by
    simp only [Dock.uart1CmdHandle]
    split <;> rfl
  notify d _ _ := d.chip_emit rfl
  flashErase d := d.chip_emit rfl
  flashProgram d _ := d.chip_emit rfl

section functions
variable (d : Dock)

/-- Nothing is sent if the shadow says that it has been. -/
theorem chip_ci1302Sync (force : Bool) :
    (d.ci1302Uart2VoiceConfigSync force).chip =
      if force = false ∧ d.chip.shadow.haveShadow = true ∧ d.chip.shadow.shEn = d.voice.keyEnable ∧
          (d.voice.keyEnable = true → d.chip.shadow.shWw = d.voice.wakeWord) then d.chip
      else ⟨⟨true, d.voice.keyEnable, d.voice.wakeWord⟩, d.voice.key.frame :: d.chip.sent⟩ := by
  have hshadow : d.chip.shadow = d.ci1302Shadow := rfl
  have hcond : (!force && d.ci1302Shadow.haveShadow && (d.ci1302Shadow.shEn == d.voice.keyEnable &&
      (!d.voice.keyEnable || d.ci1302Shadow.shWw == d.voice.wakeWord))) = true ↔
      force = false ∧ d.ci1302Shadow.haveShadow = true ∧
        d.ci1302Shadow.shEn = d.voice.keyEnable ∧
        (d.voice.keyEnable = true → d.ci1302Shadow.shWw = d.voice.wakeWord) := by
    cases force <;> cases d.ci1302Shadow.haveShadow <;> cases d.voice.keyEnable <;> simp
  simp only [ci1302Uart2VoiceConfigSync, hcond, hshadow]
  split <;> rfl

theorem chip_applySwitch (raw key1 key2 : UInt8) :
    (d.applySwitch raw key1 key2).chip = d.chip := by
  simp only [applySwitch]
  split
  · split <;> rfl
  · rfl

theorem chip_controlTimer10ms (key : UInt8) : (d.controlTimer10ms key).chip = d.chip := by
  have hset : ∀ (c : Dock) k, (c.setKeys k).chip = c.chip := fun _ _ => rfl
  have h4 : ∀ c : Dock, c.longPressKey4.chip = c.chip := by
    intro c
    simp only [longPressKey4]
    split <;> rfl
  simp only [controlTimer10ms, hset]
  split
  · rfl
  split
  · split
    · exact h4 _
    · split <;> rfl
  split
  · split <;> rfl
  · rfl

theorem chip_ledTask10ms (b : Bool) (i : Fin 4) : (ledTask10ms b d i).chip = d.chip := by
  rw [ledTask10ms_eq]
  split
  · unfold afterTask
    split <;> rfl
  · rfl

theorem chip_ledCtrl10msHandler : d.ledCtrl10msHandler.chip = d.chip := by
  simp only [ledCtrl10msHandler, List.foldl_cons, List.foldl_nil, chip_ledTask10ms]
  rfl

end functions
end Dock

/-! ### The events -/

/-- Only a sample of the switch concerns the published pair and the debounce. -/
theorem key_step (s : Desk) {e : Event} (he : ∀ key1 key2, e ≠ .switchSample key1 key2) :
    (s.step e).voice.key = s.voice.key ∧ (s.step e).switch = s.switch := by
  cases e with
  | switchSample key1 key2 => exact absurd rfl (he key1 key2)
  | voiceFrame cmd data =>
      simp only [Desk.step, Desk.hear]
      split
      · split <;> exact ⟨rfl, rfl⟩
      · cases s.voiceState with
        | disabled =>
            dsimp only
            split <;> exact ⟨rfl, rfl⟩
        | wakeWordDetected | active =>
            dsimp only
            split
            · split <;> exact ⟨rfl, rfl⟩
            · split <;> exact ⟨rfl, rfl⟩
  | mfpFrame raw =>
      simp only [Desk.step]
      split <;> exact ⟨rfl, rfl⟩
  | bleWrite value =>
      simp only [Desk.step]
      split <;> exact ⟨rfl, rfl⟩
  | _ => exact ⟨rfl, rfl⟩

/-- Only a sample of the switch sends to the chip. -/
theorem chip_step (d : Dock) {e : Event} (he : ∀ key1 key2, e ≠ .switchSample key1 key2) :
    (step d e).chip = d.chip := by
  cases e with
  | switchSample key1 key2 => exact absurd rfl (he key1 key2)
  | control key => exact d.chip_controlTimer10ms key
  | led => exact d.chip_ledCtrl10msHandler
  | charge status => exact Dock.narrow_chip.controlTimer1000ms d status
  | snoreRun => exact Dock.blind_chip.snoringInterventionRun d
  | flashRun => exact Dock.narrow_chip.flashSaveSnoreCfgIfChanged d
  | voiceFrame cmd data => exact Dock.narrow_chip.offlineVoiceHandle d Dock.blind_chip cmd data
  | mfpFrame raw => exact Dock.narrow_chip.xUart1DateReceiveHandle d raw
  | statusFrame raw => exact Dock.narrow_chip.xUart3DateReceiveHandle d raw
  | bleWrite value => exact Dock.narrow_chip.uartServerWriteReq d value
  | connected conIdx =>
      simp only [step, Dock.gapConnected]
      split <;> rfl
  | disconnected =>
      simp only [step, Dock.gapDisconnected]
      split
      · split <;> rfl
      · rfl
  | _ => rfl

/-- A sample that has not settled, or not to another position, changes neither the pair nor the
chip; any other is published and synchronised. -/
theorem chip_checkOfflineVoiceKeys (d : Dock) (key1 key2 : UInt8) :
    let raw := Dock.switchRaw key1 key2
    let v := Desk.switchVoice d.voice raw key1 key2
    if (Dock.debounce d.switch raw).rawCnt < 3 ∨ raw = d.switch.stable then
      (d.checkOfflineVoiceKeys key1 key2).voice = d.voice ∧
        (d.checkOfflineVoiceKeys key1 key2).chip = d.chip
    else
      (d.checkOfflineVoiceKeys key1 key2).voice = v ∧
        (d.checkOfflineVoiceKeys key1 key2).chip =
          if d.chip.shadow.haveShadow = true ∧ d.chip.shadow.shEn = v.keyEnable ∧
              (v.keyEnable = true → d.chip.shadow.shWw = v.wakeWord) then d.chip
          else ⟨⟨true, v.keyEnable, v.wakeWord⟩, v.key.frame :: d.chip.sent⟩ := by
  have hstable : (Dock.debounce d.switch (Dock.switchRaw key1 key2)).stable = d.switch.stable := by
    simp only [Dock.debounce]
    split <;> rfl
  have hvoice := congrArg Desk.voice (d.desk_checkOfflineVoiceKeys key1 key2)
  simp only [Desk.sample] at hvoice
  change (d.checkOfflineVoiceKeys key1 key2).voice = _ at hvoice
  dsimp only
  rw [hvoice]
  simp only [Dock.checkOfflineVoiceKeys, hstable]
  split
  · next h => exact ⟨if_pos (hstable.symm ▸ h) ▸ rfl, rfl⟩
  · next h =>
    refine ⟨if_neg (hstable.symm ▸ h) ▸ rfl, ?_⟩
    have happly : ∀ c : Dock, (c.applySwitch (Dock.switchRaw key1 key2) key1 key2).voice =
        Desk.switchVoice c.voice (Dock.switchRaw key1 key2) key1 key2 := fun c =>
      congrArg Desk.voice (c.desk_applySwitch _ key1 key2)
    rw [Dock.chip_ci1302Sync, Dock.chip_applySwitch, happly]
    exact if_congr (and_iff_right rfl) rfl rfl

/-! ### The debounce -/

/-- The counter is at most the number of the last samples that are equal. -/
def Debounced (sw : SwitchStatics) (h : List UInt8) : Prop :=
  List.replicate sw.rawCnt.toNat sw.rawLast <+: h

theorem counted_debounce {sw : SwitchStatics} {h : List UInt8} (hd : Debounced sw h)
    (raw : UInt8) : Debounced (Dock.debounce sw raw) (raw :: h) := by
  unfold Debounced at hd ⊢
  simp only [Dock.debounce]
  split
  · next heq =>
    subst heq
    dsimp only
    have hsucc : List.replicate (sw.rawCnt.toNat + 1) sw.rawLast <+: sw.rawLast :: h := by
      rw [List.replicate_succ, List.cons_prefix_cons]
      exact ⟨rfl, hd⟩
    split
    · next hlt =>
      have hnat : sw.rawCnt.toNat < 3 := UInt8.lt_iff_toNat_lt.mp hlt
      have hadd : (sw.rawCnt + 1).toNat = sw.rawCnt.toNat + 1 := by
        rw [UInt8.toNat_add]
        exact Nat.mod_eq_of_lt (by change _ + 1 < 2 ^ 8; omega)
      rw [hadd]
      exact hsucc
    · refine List.IsPrefix.trans ?_ hsucc
      rw [List.replicate_succ']
      exact List.prefix_append ..
  · exact List.cons_prefix_cons.mpr ⟨rfl, List.nil_prefix⟩

/-- A settled sample has come three times. -/
theorem three_of_settled {sw : SwitchStatics} {h : List UInt8} {raw : UInt8}
    (hd : Debounced sw h) (hcnt : ¬ (Dock.debounce sw raw).rawCnt < 3) :
    List.replicate 3 raw <+: raw :: h := by
  have hnext := counted_debounce hd raw
  have hlast : (Dock.debounce sw raw).rawLast = raw := by
    simp only [Dock.debounce]
    split
    · next heq => exact heq.symm
    · rfl
  have hthree : 3 ≤ (Dock.debounce sw raw).rawCnt.toNat :=
    UInt8.le_iff_toNat_le.mp (UInt8.not_lt.mp hcnt)
  rw [Debounced, hlast] at hnext
  obtain ⟨k, hk⟩ := Nat.exists_eq_add_of_le hthree
  rw [hk, List.replicate_add] at hnext
  exact (List.prefix_append ..).trans hnext

/-! ### The shadow -/

/-- The words that the switch can publish. -/
def VoiceKey.Proper (k : VoiceKey) : Prop :=
  k.keyEnable = true → k.wakeWord = helloErgo ∨ k.wakeWord = helloBed

/-- The shadow is the published pair, and the chip has its frame. -/
structure ConfigInv (k : VoiceKey) (c : Chip) : Prop where
  proper : k.Proper
  kept : c.shadow.haveShadow = true
  enabled : c.shadow.shEn = k.keyEnable
  word : k.keyEnable = true → c.shadow.shWw = k.wakeWord
  sent : c.sent.head? = some k.frame

/-- Pairs with one frame are the same, but for the word while the function is off. -/
theorem frame_inj {k k' : VoiceKey} (hk : k.Proper) (hk' : k'.Proper) :
    k.frame = k'.frame ↔
      k.keyEnable = k'.keyEnable ∧ (k'.keyEnable = true → k.wakeWord = k'.wakeWord) := by
  obtain ⟨en, ww⟩ := k
  obtain ⟨en', ww'⟩ := k'
  have hoff : ∀ ww, VoiceKey.frame ⟨false, ww⟩ = .uart2 Dock.ci1302FrameVoiceOff := fun _ => rfl
  cases en with
  | false =>
      cases en' with
      | false => exact iff_of_true rfl ⟨rfl, nofun⟩
      | true =>
          rw [hoff]
          rcases hk' rfl with h | h <;> cases h <;> exact iff_of_false (by decide) nofun
  | true =>
      cases en' with
      | false =>
          rw [hoff]
          rcases hk rfl with h | h <;> cases h <;> exact iff_of_false (by decide) nofun
      | true =>
          rcases hk rfl with h | h <;> cases h <;> rcases hk' rfl with h | h <;> cases h <;> decide

/-- After the sync with a new pair the chip has its frame, and a frame was sent only if it had
another. -/
theorem configInv_sync {k : VoiceKey} {c : Chip} (h : ConfigInv k c) {v : OfflineVoice}
    (hv : v.key.Proper) {c' : Chip}
    (hc : c' = if c.shadow.haveShadow = true ∧ c.shadow.shEn = v.keyEnable ∧
        (v.keyEnable = true → c.shadow.shWw = v.wakeWord) then c
      else ⟨⟨true, v.keyEnable, v.wakeWord⟩, v.key.frame :: c.sent⟩) :
    ConfigInv v.key c' ∧ (c'.sent = c.sent ∨
      c'.sent = v.key.frame :: c.sent ∧ c.sent.head? ≠ some v.key.frame) := by
  have hframe : k.frame = v.key.frame ↔
      c.shadow.shEn = v.keyEnable ∧ (v.keyEnable = true → c.shadow.shWw = v.wakeWord) := by
    rw [frame_inj h.proper hv, h.enabled]
    refine and_congr_right fun hen => forall_congr' fun hon => ?_
    rw [h.word (hen.trans hon)]
    exact Iff.rfl
  subst hc
  split
  · next hsame =>
    refine ⟨⟨hv, h.kept, hsame.2.1, hsame.2.2, ?_⟩, .inl rfl⟩
    rw [h.sent, hframe.mpr hsame.2]
  · next hother =>
    refine ⟨⟨hv, rfl, rfl, fun _ => rfl, rfl⟩, .inr ⟨rfl, fun heq => hother ?_⟩⟩
    rw [h.sent] at heq
    exact ⟨h.kept, hframe.mp (Option.some.inj heq)⟩

/-! ### Runs -/

/-- The samples of the switch, latest first. -/
def rawHistory (h : List UInt8) (_d : Dock) : Event → List UInt8
  | .switchSample key1 key2 => Dock.switchRaw key1 key2 :: h
  | _ => h

/-- The pair changes on the third equal sample of another position, the chip has the frame of the
pair, and a frame is sent only if the chip had another. -/
structure ConfigKept (p : Dock × List UInt8) (e : Event) : Prop where
  settled : (step p.1 e).voice.key ≠ p.1.voice.key → ∃ key1 key2, e = .switchSample key1 key2 ∧
    Dock.switchRaw key1 key2 ≠ p.1.switch.stable ∧
    List.replicate 3 (Dock.switchRaw key1 key2) <+: Dock.switchRaw key1 key2 :: p.2
  current : (step p.1 e).chip.sent.head? = some (step p.1 e).voice.key.frame
  needed : (step p.1 e).chip.sent = p.1.chip.sent ∨
    ∃ key1 key2, e = .switchSample key1 key2 ∧
      (step p.1 e).chip.sent = (step p.1 e).voice.key.frame :: p.1.chip.sent ∧
      p.1.chip.sent.head? ≠ some (step p.1 e).voice.key.frame

/-- The samples are levels of the two pins. -/
def PinLevels : Event → Prop
  | .switchSample key1 key2 => key1 ≤ 1 ∧ key2 ≤ 1
  | _ => True

/-- The debounce and the shadow, in a run. -/
structure ConfigRun (p : Dock × List UInt8) : Prop where
  config : ConfigInv p.1.voice.key p.1.chip
  debounced : Debounced p.1.switch p.2

theorem proper_switchVoice (v : OfflineVoice) {key1 key2 : UInt8} (h1 : key1 ≤ 1)
    (h2 : key2 ≤ 1) :
    (Desk.switchVoice v (Dock.switchRaw key1 key2) key1 key2).key.Proper := by
  have hlevel : ∀ {key : UInt8}, key ≤ 1 → key = 0 ∨ key = 1 := by
    intro key hkey
    have hnat : key.toNat ≤ 1 := UInt8.le_iff_toNat_le.mp hkey
    rcases Nat.le_one_iff_eq_zero_or_eq_one.mp hnat with h | h
    · exact .inl (UInt8.toNat_inj.mp h)
    · exact .inr (UInt8.toNat_inj.mp h)
  intro hon
  rcases hlevel h1 with rfl | rfl <;> rcases hlevel h2 with rfl | rfl
  · exact .inr rfl
  · exact .inr rfl
  · exact .inl rfl
  · cases hon

theorem switch_sample (s : Desk) (key1 key2 : UInt8) :
    (s.sample key1 key2).switch.rawCnt =
        (Dock.debounce s.switch (Dock.switchRaw key1 key2)).rawCnt ∧
      (s.sample key1 key2).switch.rawLast =
        (Dock.debounce s.switch (Dock.switchRaw key1 key2)).rawLast := by
  simp only [Desk.sample]
  split <;> exact ⟨rfl, rfl⟩

theorem configRun_sample {p : Dock × List UInt8} {key1 key2 : UInt8} (h : ConfigRun p)
    (h1 : key1 ≤ 1) (h2 : key2 ≤ 1) :
    ConfigRun (monitor step rawHistory p (.switchSample key1 key2)) ∧
      ConfigKept p (.switchSample key1 key2) := by
  have hswitch : (step p.1 (.switchSample key1 key2)).switch =
      (p.1.desk.sample key1 key2).switch :=
    congrArg Desk.switch (step_desk p.1 (.switchSample key1 key2))
  obtain ⟨hcnt, hlast⟩ := switch_sample p.1.desk key1 key2
  have hdeb : Debounced (step p.1 (.switchSample key1 key2)).switch
      (Dock.switchRaw key1 key2 :: p.2) := by
    rw [Debounced, hswitch, hcnt, hlast]
    exact counted_debounce h.debounced _
  have hchip := chip_checkOfflineVoiceKeys p.1 key1 key2
  dsimp only at hchip
  change if _ then (step p.1 (.switchSample key1 key2)).voice = _ ∧
    (step p.1 (.switchSample key1 key2)).chip = _ else _ at hchip
  split at hchip
  · obtain ⟨hv, hc⟩ := hchip
    refine ⟨⟨?_, hdeb⟩, fun hne => absurd (congrArg OfflineVoice.key hv) hne, ?_, .inl ?_⟩
    · change ConfigInv (step p.1 _).voice.key (step p.1 _).chip
      rw [hv, hc]
      exact h.config
    · rw [hv, hc]
      exact h.config.sent
    · rw [hc]
  · next hsettled =>
    obtain ⟨hcount, hnew⟩ := not_or.mp hsettled
    obtain ⟨hv, hc⟩ := hchip
    obtain ⟨hinv, hneeded⟩ :=
      configInv_sync h.config (proper_switchVoice p.1.voice h1 h2) hc
    rw [← hv] at hinv hneeded
    refine ⟨⟨hinv, hdeb⟩, fun _ => ⟨key1, key2, rfl, hnew, three_of_settled h.debounced hcount⟩,
      hinv.sent, ?_⟩
    exact hneeded.imp_right fun hn => ⟨key1, key2, rfl, hn⟩

theorem configRun_step {p : Dock × List UInt8} {e : Event} (h : ConfigRun p) (he : PinLevels e) :
    ConfigRun (monitor step rawHistory p e) ∧ ConfigKept p e := by
  by_cases hs : ∃ key1 key2, e = .switchSample key1 key2
  · obtain ⟨key1, key2, rfl⟩ := hs
    exact configRun_sample h he.1 he.2
  · have hother : ∀ key1 key2, e ≠ .switchSample key1 key2 := fun key1 key2 heq =>
      hs ⟨key1, key2, heq⟩
    obtain ⟨hkey, hsw⟩ := key_step p.1.desk hother
    rw [← step_desk] at hkey hsw
    change (step p.1 e).voice.key = p.1.voice.key at hkey
    change (step p.1 e).switch = p.1.switch at hsw
    have hchip := chip_step p.1 hother
    have hhist : rawHistory p.2 p.1 e = p.2 := by
      cases e <;> first | rfl | exact absurd rfl (hother _ _)
    refine ⟨⟨?_, ?_⟩, fun hne => absurd hkey hne, ?_, .inl (by rw [hchip])⟩
    · change ConfigInv (step p.1 e).voice.key (step p.1 e).chip
      rw [hkey, hchip]
      exact h.config
    · change Debounced (step p.1 e).switch (rawHistory p.2 p.1 e)
      rw [hsw, hhist]
      exact h.debounced
    · rw [hkey, hchip]
      exact h.config.sent

theorem configRun_boot (b : Boot) : ConfigRun (boot b, [Dock.switchRaw b.key1 b.key2]) := by
  have hdesk := desk_boot b
  have hfirst : Debounced ({} : Dock).switch [] := List.nil_prefix
  have hone : ∀ raw, (Dock.debounce ({} : Dock).switch raw).rawCnt = 1 := by
    intro raw
    simp only [Dock.debounce]
    split <;> rfl
  -- the first sample never settles, so the voice function is off
  have hvoice : (boot b).voice = ({} : Dock).voice := by
    have hlow : (Dock.debounce ({} : Dock).desk.switch (Dock.switchRaw b.key1 b.key2)).rawCnt < 3 :=
      (hone _).symm ▸ (by decide)
    rw [show (boot b).voice = (boot b).desk.voice from rfl, hdesk, Desk.sample, if_pos (.inl hlow)]
    rfl
  have hsync : ∀ d : Dock, (d.ci1302Uart2VoiceConfigSync true).chip =
      ⟨⟨true, d.voice.keyEnable, d.voice.wakeWord⟩, d.voice.key.frame :: d.chip.sent⟩ :=
    fun d => (d.chip_ci1302Sync true).trans (if_neg fun h => absurd h.1 (by decide))
  have hforced : (boot b).chip = ⟨⟨true, (boot b).voice.keyEnable, (boot b).voice.wakeWord⟩,
      (boot b).voice.key.frame :: (boot b).chip.sent.tail⟩ := by
    have hkeep : ∀ d : Dock, (d.ci1302Uart2VoiceConfigSync true).voice = d.voice := fun d =>
      congrArg Desk.voice (d.desk_ci1302Sync true)
    rw [boot, Dock.xUartInit, hkeep, hsync]
    rfl
  refine ⟨⟨?_, ?_, ?_, fun hon => ?_, ?_⟩, ?_⟩
  · rw [hvoice]
    exact fun hon => absurd hon (by decide)
  · rw [hforced]
  · rw [hforced]
    rfl
  · rw [hforced]
    rfl
  · rw [hforced]
    rfl
  · obtain ⟨hcnt, hlast⟩ := switch_sample ({} : Dock).desk b.key1 b.key2
    change Debounced (boot b).desk.switch _
    rw [hdesk, Debounced, hcnt, hlast]
    exact counted_debounce hfirst _

/-- From every start, in every run: the pair follows the switch, and the chip follows the pair. -/
theorem config_follows_switch (b : Boot) (es : List Event) (hes : ∀ e ∈ es, PinLevels e) :
    (boot b).chip.sent.head? = some (boot b).voice.key.frame ∧
      Along (monitor step rawHistory) ConfigKept (boot b, [Dock.switchRaw b.key1 b.key2]) es := by
  have hstart := configRun_boot b
  have hpins : Along (monitor step rawHistory) (fun _ e => PinLevels e)
      (boot b, [Dock.switchRaw b.key1 b.key2]) es := along_of_forall fun e he _ => hes e he
  exact ⟨hstart.config.sent, hpins.of_invariant (I := ConfigRun)
    (fun _ _ h he => (configRun_step h he).1) (fun _ _ h he => (configRun_step h he).2) hstart⟩

theorem config_follows_switch_bounce :
    (boot ⟨[], 1, 1⟩).chip.sent.head? = some (boot ⟨[], 1, 1⟩).voice.key.frame ∧
      Along (monitor step rawHistory) ConfigKept (boot ⟨[], 1, 1⟩, [Dock.switchRaw 1 1])
        [.switchSample 0 1, .switchSample 1 1, .switchSample 0 1] :=
  config_follows_switch ⟨[], 1, 1⟩ [.switchSample 0 1, .switchSample 1 1, .switchSample 0 1]
    (by simp [PinLevels])

end ErgoDock
