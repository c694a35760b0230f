import ErgoDock.SnoreCounts

/-! # Voice counters

`ble_testinfo` counts the words `offline_voice_Handle` has handled: each of the 24 words of the
table in a counter of its own, the wake words and the other words in two more.  The words are
counted in two functions, the first wake word of a session in `offline_voice_wake_up` and all later
ones in `offline_voice_dataHandle`; `handledWords` is the list they count. -/

namespace ErgoDock

open Machine

/-! ### Words -/

/-- The word an event makes `offline_voice_Handle` handle. -/
def handledWord (d : Dock) : Event → List UInt8
  | .voiceFrame cmd data => if d.HandlesWord cmd data then [data] else []
  | _ => []

/-- The words handled in a run, the first one first. -/
def handledWords (b : Boot) (es : List Event) : List UInt8 := outputs step handledWord (boot b) es

/-- "Hello Ergo" or "Hello Bed". -/
def IsWakeWord (data : UInt8) : Prop := data = 0x21 ∨ data = 0x22

instance (data : UInt8) : Decidable (IsWakeWord data) := by unfold IsWakeWord; infer_instance

namespace BleTestinfo

/-- The counters of words, without the count of interventions. -/
def wordCounts (t : BleTestinfo) : BleTestinfo := { t with snoreInterventionTrig := 0 }

/-! ### One word -/

theorem toNat_satInc_if (n : UInt16) (c : Prop) [Decidable c] :
    (if c then satInc n else n).toNat = min 65535 (n.toNat + if c then 1 else 0) := by
  have hlt := n.toNat_lt
  by_cases h : c
  · rw [if_pos h, if_pos h]
    exact toNat_satInc n
  · rw [if_neg h, if_neg h]
    omega

section heard
variable (t : BleTestinfo) (data : UInt8)

theorem heard_wake : (t.heard data).offlineVoiceWake.toNat =
    min 65535 (t.offlineVoiceWake.toNat + if IsWakeWord data then 1 else 0) := by
  rw [← toNat_satInc_if]
  exact congrArg UInt16.toNat (if_congr Iff.rfl rfl rfl)

theorem heard_resp : (t.heard data).offlineVoiceResp.toNat =
    min 65535 (t.offlineVoiceResp.toNat + if ¬ IsWakeWord data then 1 else 0) := by
  rw [← toNat_satInc_if, ite_not]
  exact congrArg UInt16.toNat (if_congr Iff.rfl rfl rfl)

theorem length_heard : (t.heard data).voiceDetail.length = t.voiceDetail.length := by
  unfold heard
  dsimp only
  split
  · rfl
  · exact List.length_set ..

/-- A word of the table has its own counter; the others have none. -/
theorem heard_detail (hlen : t.voiceDetail.length = 24) {i : ℕ} (hi : i < 24) :
    ((t.heard data).voiceDetail.getD i 0).toNat =
      min 255 ((t.voiceDetail.getD i 0).toNat + if data = 0x21 + UInt8.ofNat i then 1 else 0) := by
  have hlt := (t.voiceDetail.getD i 0).toNat_lt
  have hword : data = 0x21 + UInt8.ofNat i ↔ data.toNat = 33 + i := by
    rw [← UInt8.toNat_inj, UInt8.toNat_add, UInt8.toNat_ofNat']
    simp only [UInt8.reduceToNat]
    omega
  have hb := data.toNat_lt
  unfold heard
  simp only [hword]
  split
  · next hout =>
    have hne : data.toNat ≠ 33 + i := by
      rw [gt_iff_lt, UInt8.lt_iff_toNat_lt, UInt8.lt_iff_toNat_lt] at hout
      simp only [UInt8.reduceToNat] at hout
      omega
    rw [if_neg hne]
    omega
  · next hin =>
    rw [gt_iff_lt, UInt8.lt_iff_toNat_lt, UInt8.lt_iff_toNat_lt] at hin
    simp only [UInt8.reduceToNat] at hin
    have hidx : (data - 0x21).toNat = data.toNat - 33 := by
      refine UInt8.toNat_sub_of_le _ _ (UInt8.le_iff_toNat_le.mpr ?_)
      simp only [UInt8.reduceToNat]
      omega
    rw [hidx]
    by_cases he : data.toNat = 33 + i
    · have hi' : data.toNat - 33 = i := by omega
      rw [if_pos he, hi', List.getD_eq_getElem _ _ (by rw [List.length_set]; omega),
        List.getElem_set_self]
      split
      · next h =>
        rw [UInt8.lt_iff_toNat_lt] at h
        rw [UInt8.toNat_add]
        simp only [UInt8.reduceToNat] at *
        omega
      · next h =>
        rw [UInt8.not_lt, UInt8.le_iff_toNat_le] at h
        simp only [UInt8.reduceToNat] at *
        omega
    · rw [if_neg he, List.getD_eq_getElem _ _ (by rw [List.length_set]; omega),
        List.getElem_set_ne (by omega), ← List.getD_eq_getElem _ 0]
      omega

end heard

/-! ### A list of words -/

section words
variable (ws : List UInt8)

theorem length_exec_heard (t : BleTestinfo) :
    (exec heard t ws).voiceDetail.length = t.voiceDetail.length := by
  induction ws generalizing t with
  | nil => rfl
  | cons w ws ih => exact (ih _).trans (length_heard t w)

theorem exec_heard_wake :
    (exec heard {} ws).offlineVoiceWake.toNat = min 65535 (ws.countP fun w => IsWakeWord w) := by
  have h : _ = min 65535 (_ + hits heard (fun _ w => IsWakeWord w) {} ws) :=
    exec_saturates (I := fun _ => True) (f := fun t => t.offlineVoiceWake.toNat)
      (fun _ _ _ => trivial) (fun t w _ => heard_wake t w) trivial (by decide) ws
  rw [h, hits_eq_countP (p := fun w => IsWakeWord w) (by simp)]
  exact congrArg (min 65535) (Nat.zero_add _)

theorem exec_heard_resp :
    (exec heard {} ws).offlineVoiceResp.toNat = min 65535 (ws.countP fun w => ¬ IsWakeWord w) := by
  have h : _ = min 65535 (_ + hits heard (fun _ w => ¬ IsWakeWord w) {} ws) :=
    exec_saturates (I := fun _ => True) (f := fun t => t.offlineVoiceResp.toNat)
      (fun _ _ _ => trivial) (fun t w _ => heard_resp t w) trivial (by decide) ws
  rw [h, hits_eq_countP (p := fun w => ¬ IsWakeWord w) (by simp)]
  exact congrArg (min 65535) (Nat.zero_add _)

theorem exec_heard_detail {i : ℕ} (hi : i < 24) :
    ((exec heard {} ws).voiceDetail.getD i 0).toNat =
      min 255 (ws.count (0x21 + UInt8.ofNat i)) := by
  have h : _ = min 255 (_ + hits heard (fun _ w => w = 0x21 + UInt8.ofNat i) {} ws) :=
    exec_saturates (I := fun t => t.voiceDetail.length = 24)
      (f := fun t => (t.voiceDetail.getD i 0).toNat)
      (fun t w ht => (length_heard t w).trans ht) (fun t w ht => heard_detail t w ht hi) rfl ?_ ws
  · rw [h, hits_eq_countP (p := (· == 0x21 + UInt8.ofNat i)) (by simp)]
    have h0 : (({} : BleTestinfo).voiceDetail.getD i 0).toNat = 0 := by
      rw [List.getD_eq_getElem _ _ (by exact hi)]
      exact congrArg UInt8.toNat (List.getElem_replicate ..)
    rw [h0, Nat.zero_add]
    rfl
  · exact Nat.le_of_lt_succ (UInt8.toNat_lt _)

end words
end BleTestinfo

/-! ### The counters of a run -/

theorem wordCounts_step (d : Dock) (e : Event) :
    (step d e).sys.bleTestinfo.wordCounts =
      exec BleTestinfo.heard d.sys.bleTestinfo.wordCounts (handledWord d e) := by
  by_cases hv : ∃ cmd data, e = .voiceFrame cmd data
  · obtain ⟨cmd, data, rfl⟩ := hv
    have h := congrArg Prod.snd (d.tally_offlineVoiceHandle cmd data)
    change (step d (.voiceFrame cmd data)).sys.bleTestinfo = _ at h
    rw [h, handledWord]
    split <;> rfl
  · have hnone : handledWord d e = [] := by
      cases e with
      | voiceFrame cmd data => exact absurd ⟨cmd, data, rfl⟩ hv
      | _ => rfl
    rw [hnone]
    by_cases hr : e = .snoreRun
    · subst hr
      -- an intervention is counted elsewhere
      rcases d.tally_run with h | h
      · exact congrArg (fun t => t.2.wordCounts) h
      · exact congrArg (fun t => t.2.wordCounts) h
    · have h := congrArg Prod.snd (tally_step d hr fun cmd data he => hv ⟨cmd, data, he⟩)
      exact congrArg BleTestinfo.wordCounts h

theorem wordCounts_exec (d : Dock) (es : List Event) :
    (exec step d es).sys.bleTestinfo.wordCounts =
      exec BleTestinfo.heard d.sys.bleTestinfo.wordCounts (outputs step handledWord d es) := by
  induction es generalizing d with
  | nil => rfl
  | cons e es ih => rw [exec_cons, ih, wordCounts_step, outputs_cons, exec_append]

theorem wordCounts_runFrom (b : Boot) (es : List Event) :
    (runFrom b es).sys.bleTestinfo.wordCounts = exec BleTestinfo.heard {} (handledWords b es) := by
  have h0 : (boot b).sys.bleTestinfo = {} := congrArg Prod.snd (tally_boot b)
  rw [runFrom, wordCounts_exec, h0]
  rfl

/-- A 16-bit counter, from its two bytes. -/
theorem le16_toNat (n : UInt16) :
    n.toUInt8.toNat + 256 * (n >>> 8).toUInt8.toNat = n.toNat := by
  have hlt := n.toNat_lt
  rw [UInt16.toNat_toUInt8, UInt16.toNat_toUInt8, UInt16.toNat_shiftRight]
  have hshift : n.toNat >>> (UInt16.toNat 8 % 16) = n.toNat / 256 := Nat.shiftRight_eq_div_pow _ _
  omega

/-- The 3.5 response carries the counters, the two totals with the low byte first. -/
theorem testinfo_answer {d : Dock} {value frame : List UInt8}
    (h : (d.bleApply value).answer value = some frame) (hport : byteAt frame 1 = bleDataPort)
    (hseg : byteAt frame 2 = 0x12) :
    let t := d.sys.bleTestinfo
    byteAt frame 4 = t.offlineVoiceWake.toUInt8 ∧
      byteAt frame 5 = (t.offlineVoiceWake >>> 8).toUInt8 ∧
      byteAt frame 6 = t.offlineVoiceResp.toUInt8 ∧
      byteAt frame 7 = (t.offlineVoiceResp >>> 8).toUInt8 ∧
      frame.drop 11 = t.voiceDetail := by
  have ht : (d.bleApply value).sys.bleTestinfo = d.sys.bleTestinfo :=
    congrArg Prod.snd (Dock.narrow_tally.bleApply d value)
  rcases Dock.answer_cases h with ⟨-, rfl⟩ | ⟨data, rfl, -, hdata⟩
  · exact absurd hport (show bleAppPortInner ≠ bleDataPort by decide)
  · rcases hdata with ⟨-, rfl⟩ | ⟨-, rfl⟩ | ⟨-, rfl⟩ | ⟨-, rfl⟩
    · exact absurd hseg (show (0x10 : UInt8) ≠ 0x12 by decide)
    · exact absurd hseg (show (0x11 : UInt8) ≠ 0x12 by decide)
    · rw [← ht]
      exact ⟨rfl, rfl, rfl, rfl, rfl⟩
    · exact absurd hseg (show (0x13 : UInt8) ≠ 0x12 by decide)

/-- In every run the counters hold the handled words, each counted once and cut off at the
counter's maximum: entry `i` of the table the word `0x21 + i`, the other two the wake words and all
other words; and a 3.5 response carries them. -/
theorem voice_counters (b : Boot) (es : List Event) :
    let ws := handledWords b es
    let t := (runFrom b es).sys.bleTestinfo
    t.voiceDetail.length = 24 ∧
    (∀ i < 24, (t.voiceDetail.getD i 0).toNat = min 255 (ws.count (0x21 + UInt8.ofNat i))) ∧
    t.offlineVoiceWake.toNat = min 65535 (ws.countP fun w => IsWakeWord w) ∧
    t.offlineVoiceResp.toNat = min 65535 (ws.countP fun w => ¬ IsWakeWord w) ∧
    ∀ value frame, ((runFrom b es).bleApply value).answer value = some frame →
      byteAt frame 1 = bleDataPort → byteAt frame 2 = 0x12 →
        (byteAt frame 4).toNat + 256 * (byteAt frame 5).toNat = t.offlineVoiceWake.toNat ∧
        (byteAt frame 6).toNat + 256 * (byteAt frame 7).toNat = t.offlineVoiceResp.toNat ∧
        frame.drop 11 = t.voiceDetail := by
  intro ws t
  have hcounts : t.wordCounts = exec BleTestinfo.heard {} ws := wordCounts_runFrom b es
  have hwake : t.offlineVoiceWake = (exec BleTestinfo.heard {} ws).offlineVoiceWake := by
    rw [← hcounts]
    rfl
  have hresp : t.offlineVoiceResp = (exec BleTestinfo.heard {} ws).offlineVoiceResp := by
    rw [← hcounts]
    rfl
  have hdetail : t.voiceDetail = (exec BleTestinfo.heard {} ws).voiceDetail := by
    rw [← hcounts]
    rfl
  refine ⟨?_, fun i hi => ?_, ?_, ?_, fun value frame h hport hseg => ?_⟩
  · rw [hdetail, BleTestinfo.length_exec_heard]
    rfl
  · rw [hdetail, BleTestinfo.exec_heard_detail ws hi]
  · rw [hwake, BleTestinfo.exec_heard_wake]
  · rw [hresp, BleTestinfo.exec_heard_resp]
  · obtain ⟨h4, h5, h6, h7, hdrop⟩ := testinfo_answer h hport hseg
    rw [h4, h5, h6, h7]
    exact ⟨le16_toNat _, le16_toNat _, hdrop⟩

end ErgoDock
