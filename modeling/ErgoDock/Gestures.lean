import ErgoDock.Keys
import ErgoDock.Desk
import ErgoDock.Runs

/-! # Gestures of key 3 (`control_timer10ms`)

A hold of key 3 is either long, which switches the intervention off, or short, which steps the
level when the key is released.  Both keys share the repeat counter and the flag
`keys_ignore`, and only two equal ticks without a key or a change between two keys reset them: a
second key that is touched during a hold takes the flag away, and one that went up a tick before
leaves its repeats behind.  `gestureRight_iff` says for each hold of any run when it acts as it
should.

The repeats of key 3 come in stretches, in which it alone is down.  What the statics are in a
stretch (`statics_stretch`) decides everything. -/

namespace ErgoDock

open Machine Debounce

/-- The values of `current_key`, tick by tick. -/
structure KeyTrace where
  currentKey : ℕ → UInt8

namespace KeyTrace

/-! ### Runs of the keys -/

section defs
variable (t : KeyTrace)

def key3 (n : ℕ) : Bool := t.currentKey n &&& 1 ≠ 0

def key4 (n : ℕ) : Bool := t.currentKey n &&& 2 ≠ 0

/-- The keys of the tick. -/
def touch (n : ℕ) : UInt8 := appTouchKeyGet (t.currentKey n)

/-- The first `n` ticks. -/
def events (n : ℕ) : List Event := (List.range n).map fun i => .control (t.touch i)

/-- The statics before tick `n`. -/
def statics : ℕ → KeyStatics
  | 0 => {}
  | n + 1 => (statics n).next (t.touch n)

/-- The level before tick `n`. -/
def level (b : Boot) (n : ℕ) : UInt8 := (runFrom b (t.events n)).anti.antiSnoreIntensity

/-- Tick `n` switches the intervention off (`level_succ`). -/
def SwitchesOff (n : ℕ) : Prop := (t.statics n).LongPress3 (t.touch n)

/-- Tick `n` steps the level (`level_succ`). -/
def StepsLevel (n : ℕ) : Prop := (t.statics n).Release3 (t.touch n)

/-- Key 3 is down from tick `a` on up to tick `b`. -/
structure Hold (a b : ℕ) : Prop where
  lt : a < b
  up : a = 0 ∨ t.key3 (a - 1) = false
  down : ∀ n, a ≤ n → n < b → t.key3 n = true

/-- Key 3 alone is down for 500 repeats. -/
def LongHold (a b : ℕ) : Prop :=
  ∃ s, a ≤ s ∧ s + 500 < b ∧ ∀ n, s ≤ n → n ≤ s + 500 → t.key4 n = false

/-- What a hold of key 3 from `a` to `b` should do. -/
structure GestureRight (boot : Boot) (a b : ℕ) : Prop where
  off : t.LongHold a b → ∃! n, a ≤ n ∧ n < b ∧ t.SwitchesOff n
  noStep : t.LongHold a b → t.key3 b = false → ¬ t.StepsLevel b
  levelZero : t.LongHold a b → ∀ m, b ≤ m → (∀ n, b ≤ n → n ≤ m → t.key3 n = false) →
    t.level boot (m + 1) = 0
  step : ¬ t.LongHold a b → (∀ n, a ≤ n → n < b → t.key4 n = false) → t.key3 b = false →
    ∀ n, a ≤ n → n ≤ b → (t.StepsLevel n ↔ n = b)

/-- Key 3 alone is down from `s` to `n`, and not just before, in a hold from `a` on. -/
structure Stretch (a s n : ℕ) : Prop where
  le : a ≤ s
  le' : s ≤ n
  start : s = a ∨ t.key4 (s - 1) = true
  alone : ∀ i, s ≤ i → i ≤ n → t.key4 i = false

end defs
end KeyTrace

/-- The repeats that are left when a key goes down after a tick without a key. -/
def KeyStatics.leftRepeats (k : KeyStatics) : ℕ := if k.lastKey = 0 then k.keyRepeat.toNat else 0

/-- The flag that is left when a key goes down after a tick without a key. -/
def KeyStatics.leftIgnore (k : KeyStatics) : Bool := if k.lastKey = 0 then k.keysIgnore else false

namespace KeyTrace

section defs
variable (t : KeyTrace)

/-- The repeats of the stretch from `s`, with those left over at the press. -/
def repeats (a s n : ℕ) : ℕ := (if s = a then (t.statics a).leftRepeats else 0) + (n - s)

/-- The stretch from `s` has 500 repeats at tick `n`. -/
def Reaches (a s n : ℕ) : Prop := t.Stretch a s n ∧ s < n ∧ t.repeats a s n = 500

/-- When a hold of key 3 from `a` to `b` does what it should. -/
structure HoldWhen (a b : ℕ) : Prop where
  once : t.LongHold a b → ∃! n, a ≤ n ∧ n < b ∧ ∃ s, t.Reaches a s n
  last : t.LongHold a b → t.key3 b = false → t.key4 b = false → ∀ s, t.Stretch a s (b - 1) →
    ∃ n < b, t.Reaches a s n
  short : ¬ t.LongHold a b → (∀ n, a ≤ n → n < b → t.key4 n = false) → t.key3 b = false →
    t.key4 b = false ∧ (t.statics a).leftIgnore = false ∧ ¬ ∃ n < b, t.Reaches a a n

end defs
end KeyTrace

/-! ### The statics -/

theorem appTouchKeyGet_eq (c : UInt8) : appTouchKeyGet c =
    (if c &&& 1 ≠ 0 then appKeyNum3 else 0) ||| (if c &&& 2 ≠ 0 then appKeyNum4 else 0) := by
  have hmask : (1 : UInt8) <<< 1 = 2 := by decide
  simp only [appTouchKeyGet, buttonPosTable, List.foldl_cons, List.foldl_nil, hmask]
  split <;> split <;> rfl

namespace KeyStatics
variable {k : KeyStatics} {key : UInt8}

/-- A key goes down. -/
theorem next_press (h : k.lastKey = 0) (hkey : key ≠ 0) :
    k.next key = { k with lastKey := key } := by
  rw [next, if_pos ⟨h, hkey⟩]

/-- A change between two keys. -/
theorem next_change (h : k.lastKey ≠ 0) (hne : k.lastKey ≠ key) (hkey : key ≠ 0) :
    k.next key = ⟨false, key, 0⟩ := by
  rw [next, if_neg fun hp => h hp.1, if_neg fun hh => hne hh.1, if_neg fun hr => hkey hr.2]

/-- Another repeat of key 3. -/
theorem next_repeat3 (h : k.lastKey = appKeyNum3) :
    k.next appKeyNum3 =
      ⟨k.keysIgnore || decide (k.keyRepeat = 499), appKeyNum3, satInc k.keyRepeat⟩ := by
  have hpress : ¬ (k.lastKey = 0 ∧ appKeyNum3 ≠ 0) := fun hp => by simp [h, appKeyNum3] at hp
  have hkey : ¬ (appKeyNum3 = appKeyNum4) := by decide
  rw [next, if_neg hpress, if_pos ⟨h, by decide⟩]
  simp only [hkey, and_false, and_true, false_or, Dock.satInc_eq_500]
  split
  · next h499 => simp [h499]
  · next h499 => simp [h499]

end KeyStatics

namespace KeyTrace
variable {t : KeyTrace} {a b s n : ℕ}

theorem touch_eq : t.touch n =
    (if t.key3 n then appKeyNum3 else 0) ||| (if t.key4 n then appKeyNum4 else 0) := by
  simp only [touch, appTouchKeyGet_eq, key3, key4, decide_eq_true_eq]

theorem touch_alone : t.touch n = appKeyNum3 ↔ t.key3 n = true ∧ t.key4 n = false := by
  rw [touch_eq]
  cases t.key3 n <;> cases t.key4 n <;> decide

theorem touch_none : t.touch n = 0 ↔ t.key3 n = false ∧ t.key4 n = false := by
  rw [touch_eq]
  cases t.key3 n <;> cases t.key4 n <;> decide

theorem lastKey_statics (h : 0 < n) : (t.statics n).lastKey = t.touch (n - 1) := by
  obtain ⟨m, rfl⟩ : ∃ m, n = m + 1 := ⟨n - 1, by omega⟩
  rfl

/-- What is left of the flag at the start of a stretch. -/
def startIgnore (t : KeyTrace) (a s : ℕ) : Bool :=
  if s = a then (t.statics a).leftIgnore else false

theorem repeats_succ (h : s ≤ n) : t.repeats a s (n + 1) = t.repeats a s n + 1 := by
  rw [repeats, repeats, Nat.sub_add_comm h, Nat.add_assoc]

theorem Hold.touch_alone (h : t.Hold a b) (ha : a ≤ n) (hb : n < b) (h4 : t.key4 n = false) :
    t.touch n = appKeyNum3 := KeyTrace.touch_alone.mpr ⟨h.down n ha hb, h4⟩

/-- Before the first tick of a stretch the statics hold the last key, and unless that was none the
tick resets them. -/
theorem Hold.lastKey_start (h : t.Hold a b) (hs : t.Stretch a s s) (hb : s < b) :
    (t.statics s).lastKey ≠ appKeyNum3 ∧ (s ≠ a → (t.statics s).lastKey ≠ 0) := by
  rcases Nat.eq_zero_or_pos s with rfl | hpos
  · have ha := hs.le
    exact ⟨show (0 : UInt8) ≠ appKeyNum3 by decide, fun hne => absurd (Nat.le_zero.mp ha).symm hne⟩
  · rw [lastKey_statics hpos]
    refine ⟨fun h3 => ?_, fun hsa h0 => ?_⟩
    · obtain ⟨h3, h4⟩ := KeyTrace.touch_alone.mp h3
      rcases hs.start with rfl | hstart
      · have hup := h.up.resolve_left (by omega)
        simp [hup] at h3
      · simp [hstart] at h4
    · have hstart := hs.start.resolve_left hsa
      rw [(touch_none.mp h0).2] at hstart
      exact Bool.false_ne_true hstart

theorem statics_start (h : t.Hold a b) (hs : t.Stretch a s s) (hb : s < b) :
    (t.statics (s + 1)).keyRepeat.toNat = t.repeats a s s ∧
      (t.statics (s + 1)).keysIgnore = t.startIgnore a s := by
  obtain ⟨hne, hlast⟩ := h.lastKey_start hs hb
  have htouch := h.touch_alone hs.le hb (hs.alone s (Nat.le_refl s) (Nat.le_refl s))
  have hkey : appKeyNum3 ≠ 0 := by decide
  rw [statics, htouch, repeats, startIgnore, Nat.sub_self, Nat.add_zero]
  rcases eq_or_ne (t.statics s).lastKey 0 with h0 | h0
  · obtain rfl : s = a := by_contra fun hsa => hlast hsa h0
    rw [KeyStatics.next_press h0 hkey, KeyStatics.leftRepeats, KeyStatics.leftIgnore]
    simp [h0]
  · rw [KeyStatics.next_change h0 hne hkey]
    split
    · next hsa =>
      subst hsa
      simp [KeyStatics.leftRepeats, KeyStatics.leftIgnore, h0]
    · exact ⟨rfl, rfl⟩

/-- The statics in a stretch: the counter holds the repeats, and the flag is set when they pass
500. -/
theorem statics_stretch (h : t.Hold a b) (hs : t.Stretch a s n) (hb : n < b) :
    (t.statics (n + 1)).keyRepeat.toNat = min (t.repeats a s n) 65535 ∧
      (t.statics (n + 1)).keysIgnore =
        (t.startIgnore a s || decide (t.repeats a s s < 500 ∧ 500 ≤ t.repeats a s n)) := by
  obtain ⟨hle, hle', hstart, halone⟩ := hs
  induction n, hle' using Nat.le_induction with
  | base =>
      obtain ⟨hrep, hign⟩ := statics_start h ⟨hle, Nat.le_refl s, hstart, halone⟩ hb
      have hlt := (t.statics (s + 1)).keyRepeat.toNat_lt
      have hfalse : decide (t.repeats a s s < 500 ∧ 500 ≤ t.repeats a s s) = false :=
        decide_eq_false (by omega)
      rw [hign, hfalse, Bool.or_false]
      exact ⟨by omega, rfl⟩
  | succ n hsn ih =>
      obtain ⟨hrep, hign⟩ := ih (by omega) fun i hi hin => halone i hi (by omega)
      have hlast : (t.statics (n + 1)).lastKey = appKeyNum3 :=
        h.touch_alone (by omega) (by omega) (halone n hsn (by omega))
      have htouch := h.touch_alone (n := n + 1) (by omega) hb (halone _ (by omega) (Nat.le_refl _))
      have h499 : (t.statics (n + 1)).keyRepeat = 499 ↔ t.repeats a s n = 499 := by
        rw [← UInt16.toNat_inj, hrep]
        simp only [UInt16.reduceToNat]
        omega
      have hmono : t.repeats a s s ≤ t.repeats a s n := by
        unfold repeats
        omega
      rw [statics, htouch, KeyStatics.next_repeat3 hlast, repeats_succ hsn]
      dsimp only
      rw [toNat_satInc, hrep, hign, Bool.or_assoc]
      refine ⟨by omega, ?_⟩
      congr 1
      rw [← Bool.decide_or, decide_eq_decide, h499]
      omega

/-! ### Stretches -/

/-- Every tick of a hold with key 4 up lies in a stretch. -/
theorem exists_stretch (han : a ≤ n) (h4 : t.key4 n = false) : ∃ s, t.Stretch a s n := by
  induction n, han using Nat.le_induction with
  | base =>
      refine ⟨a, Nat.le_refl a, Nat.le_refl a, .inl rfl, fun i hi hia => ?_⟩
      rwa [Nat.le_antisymm hia hi]
  | succ n han ih =>
      cases hn : t.key4 n with
      | true =>
          refine ⟨n + 1, by omega, Nat.le_refl _, .inr hn, fun i hi hin => ?_⟩
          rwa [Nat.le_antisymm hin hi]
      | false =>
          obtain ⟨s, hle, hle', hstart, halone⟩ := ih hn
          refine ⟨s, hle, by omega, hstart, fun i hi hin => ?_⟩
          rcases Nat.lt_or_eq_of_le hin with hlt | rfl
          · exact halone i hi (by omega)
          · exact h4

/-- With key 4 up, the hold is one stretch. -/
theorem Hold.stretch (h : t.Hold a b) (hup : ∀ n, a ≤ n → n < b → t.key4 n = false) :
    t.Stretch a a (b - 1) := by
  have hlt := h.lt
  exact ⟨Nat.le_refl a, by omega, .inl rfl, fun i hi hib => hup i hi (by omega)⟩

theorem stretch_le {s' : ℕ} (h : t.Stretch a s n) (h' : t.Stretch a s' n) : s' ≤ s := by
  rcases h'.start with rfl | h4
  · exact h.le
  · refine Nat.le_of_not_lt fun hlt => ?_
    have h0 := h.alone (s' - 1) (by omega) (by have := h'.le'; omega)
    rw [h0] at h4
    exact Bool.false_ne_true h4

theorem stretch_unique {s' : ℕ} (h : t.Stretch a s n) (h' : t.Stretch a s' n) : s = s' :=
  Nat.le_antisymm (stretch_le h' h) (stretch_le h h')

theorem Stretch.of_le {m : ℕ} (h : t.Stretch a s n) (hs : s ≤ m) (hm : m ≤ n) :
    t.Stretch a s m :=
  ⟨h.le, hs, h.start, fun i hi him => h.alone i hi (him.trans hm)⟩

/-- The stretch up to tick `n` reaches 500 repeats at some tick of its own. -/
theorem exists_reaches (hs : t.Stretch a s n) :
    (∃ m ≤ n, t.Reaches a s m) ↔ t.repeats a s s < 500 ∧ 500 ≤ t.repeats a s n := by
  have hle := hs.le'
  constructor
  · rintro ⟨m, hm, -, hsm, h500⟩
    unfold repeats at h500 ⊢
    omega
  · intro h
    refine ⟨s + (500 - t.repeats a s s), ?_, hs.of_le ?_ ?_, ?_, ?_⟩ <;>
      simp only [repeats] at h ⊢ <;> omega

/-- Which ticks of a hold switch the intervention off. -/
theorem switchesOff_iff (h : t.Hold a b) (ha : a ≤ n) (hb : n < b) :
    t.SwitchesOff n ↔ ∃ s, t.Reaches a s n := by
  constructor
  · rintro ⟨hlast, htouch, h499⟩
    have hpos : a < n := by
      refine Nat.lt_of_le_of_ne ha fun han => ?_
      subst han
      have h4 := (KeyTrace.touch_alone.mp htouch).2
      obtain ⟨s, hs⟩ := exists_stretch (Nat.le_refl a) h4
      obtain rfl : s = a := Nat.le_antisymm hs.le' hs.le
      exact (h.lastKey_start hs hb).1 hlast
    obtain ⟨m, rfl⟩ : ∃ m, n = m + 1 := ⟨n - 1, by omega⟩
    have h4 : t.key4 m = false := (KeyTrace.touch_alone.mp hlast).2
    have h4' : t.key4 (m + 1) = false := (KeyTrace.touch_alone.mp htouch).2
    obtain ⟨s, hs⟩ := exists_stretch (show a ≤ m by omega) h4
    have hle := hs.le'
    obtain ⟨hrep, -⟩ := statics_stretch h hs (by omega)
    rw [h499] at hrep
    simp only [UInt16.reduceToNat] at hrep
    refine ⟨s, ⟨hs.le, by omega, hs.start, fun i hi him => ?_⟩, by omega, ?_⟩
    · rcases Nat.lt_or_eq_of_le him with hlt | rfl
      · exact hs.alone i hi (by omega)
      · exact h4'
    · rw [repeats_succ hle]
      omega
  · rintro ⟨s, hs, hsn, h500⟩
    obtain ⟨m, rfl⟩ : ∃ m, n = m + 1 := ⟨n - 1, by omega⟩
    have hs' := hs.of_le (show s ≤ m by omega) (by omega)
    have hle := hs.le
    obtain ⟨hrep, -⟩ := statics_stretch h hs' (by omega)
    rw [repeats_succ hs'.le'] at h500
    refine ⟨h.touch_alone (by omega) (by omega) (hs'.alone m hs'.le' (Nat.le_refl m)),
      h.touch_alone (by omega) hb (hs.alone _ (by omega) (Nat.le_refl _)), ?_⟩
    rw [← UInt16.toNat_inj, hrep]
    simp only [UInt16.reduceToNat]
    omega

/-- A step of the level is the release of key 3 alone. -/
theorem StepsLevel.keys (h : t.StepsLevel n) :
    0 < n ∧ (t.key3 (n - 1) = true ∧ t.key4 (n - 1) = false) ∧
      t.key3 n = false ∧ t.key4 n = false := by
  obtain ⟨hlast, htouch, -⟩ := h
  have hpos : 0 < n := by
    refine Nat.pos_of_ne_zero fun h0 => ?_
    subst h0
    exact absurd hlast (show (0 : UInt8) ≠ appKeyNum3 by decide)
  rw [lastKey_statics hpos] at hlast
  exact ⟨hpos, KeyTrace.touch_alone.mp hlast, touch_none.mp htouch⟩

/-- When the end of a hold steps the level. -/
theorem stepsLevel_iff (h : t.Hold a b) (hs : t.Stretch a s (b - 1)) (h3 : t.key3 b = false) :
    t.StepsLevel b ↔
      t.key4 b = false ∧ t.startIgnore a s = false ∧ ¬ ∃ n < b, t.Reaches a s n := by
  have hlt := h.lt
  have hb : b - 1 + 1 = b := by omega
  have hlast : (t.statics b).lastKey = appKeyNum3 := by
    rw [lastKey_statics (by omega)]
    exact h.touch_alone (by omega) (by omega) (hs.alone _ hs.le' (Nat.le_refl _))
  obtain ⟨-, hign⟩ := statics_stretch h hs (by omega)
  have hreach : (∃ n < b, t.Reaches a s n) ↔ ∃ n ≤ b - 1, t.Reaches a s n := by
    simp only [Nat.lt_iff_le_pred (show 0 < b by omega)]
  rw [hreach, exists_reaches hs, StepsLevel, KeyStatics.Release3, touch_none, ← hb, hign, hb]
  simp [hlast, h3]

/-! ### The level -/

theorem keys_boot (boot : Boot) : (ErgoDock.boot boot).keys = {} := by
  refine (congrArg Desk.keys (desk_boot boot)).trans ?_
  simp only [Desk.sample]
  split <;> rfl

theorem runFrom_events (boot : Boot) (n : ℕ) :
    runFrom boot (t.events (n + 1)) =
      (runFrom boot (t.events n)).controlTimer10ms (t.touch n) := by
  rw [events, List.range_succ, List.map_append, runFrom_append]
  rfl

theorem keys_run (boot : Boot) (n : ℕ) : (runFrom boot (t.events n)).keys = t.statics n := by
  induction n with
  | zero => exact keys_boot boot
  | succ n ih =>
      have hdesk := Dock.desk_controlTimer10ms (runFrom boot (t.events n)) (t.touch n)
      rw [runFrom_events, statics, ← ih]
      exact congrArg Desk.keys hdesk

instance (n : ℕ) : Decidable (t.SwitchesOff n) :=
  inferInstanceAs (Decidable ((t.statics n).LongPress3 _))

instance (n : ℕ) : Decidable (t.StepsLevel n) :=
  inferInstanceAs (Decidable ((t.statics n).Release3 _))

/-- What a tick does to the level. -/
theorem level_succ (boot : Boot) (n : ℕ) : t.level boot (n + 1) =
    if t.SwitchesOff n then 0
    else if t.StepsLevel n then AntiSnore.nextLevel (t.level boot n)
    else t.level boot n := by
  rw [level, runFrom_events, Dock.anti_controlTimer10ms, antiOp, keys_run]
  have happly := apply_ite fun op =>
    (AntiOp.apply (runFrom boot (t.events n)).anti op).antiSnoreIntensity
  exact (happly ..).trans (congrArg (ite (t.SwitchesOff n) 0) (happly ..))

/-- Once off, the level stays zero until it is stepped. -/
theorem level_of_switchesOff {boot : Boot} {m : ℕ} (hoff : t.SwitchesOff n) (hnm : n ≤ m)
    (h : ∀ i, n < i → i ≤ m → ¬ t.StepsLevel i) : t.level boot (m + 1) = 0 := by
  induction m, hnm using Nat.le_induction with
  | base => rw [level_succ, if_pos hoff]
  | succ m hnm ih =>
      have hm := ih fun i hi him => h i hi (by omega)
      rw [level_succ, if_neg (h (m + 1) (by omega) (Nat.le_refl _)), hm, ite_self]

/-! ### Debounced traces -/

/-- Each level lasts for at least four ticks. -/
def FourTicks (x : ℕ → Bool) : Prop :=
  ∀ n, x (n + 1) ≠ x n → ∀ j ≤ 3, x (n + 1 + j) = x (n + 1)

/-- Both keys have been debounced. -/
def Debounced (t : KeyTrace) : Prop := FourTicks t.key3 ∧ FourTicks t.key4

/-- What `on_key_10ms_handle` makes of the two pins. -/
def ofPins (pin3 pin4 : ℕ → Bool) : KeyTrace := ⟨fun n => (pinRun pin3 pin4 (n + 1)).currentKey⟩

theorem and_twoPow_ne_zero (v : UInt16) {i : ℕ} (hi : i < 8) :
    v.toUInt8 &&& ⟨BitVec.twoPow 8 i⟩ ≠ 0 ↔ keyBit v i = true := by
  have hzero : BitVec.twoPow 8 i ≠ 0 := fun h0 => by
    have hbit := congrArg (·.getLsbD i) h0
    simp [hi] at hbit
  rw [Ne, ← UInt8.toBitVec_inj, UInt8.toBitVec_and, BitVec.and_twoPow, UInt16.toBitVec_toUInt8,
    BitVec.getLsbD_setWidth, decide_eq_true hi, Bool.true_and, keyBit]
  split
  · next hv => exact iff_of_true hzero hv
  · next hv => exact iff_of_false (not_not.mpr rfl) hv

theorem fourTicks_settled (x : ℕ → Bool) : FourTicks fun n => settled 3 false x (n + 1) := by
  intro n hne j hj
  have hlast := settled_lasts hne j hj
  rwa [Nat.add_right_comm] at hlast

/-- The debouncer debounces. -/
theorem debounced_ofPins (pin3 pin4 : ℕ → Bool) : (ofPins pin3 pin4).Debounced := by
  have hbit : ∀ i < 8, (fun n => decide ((pinRun pin3 pin4 (n + 1)).currentKey &&&
      ⟨BitVec.twoPow 8 i⟩ ≠ 0)) =
        fun n => settled 3 false (fun m => keyBit (sampleKeys (pin3 m) (pin4 m)) i) (n + 1) := by
    intro i hi
    funext n
    rw [pinRun_eq, ← analogKeyDeebounce_debounces hi]
    exact Bool.eq_iff_iff.mpr (decide_eq_true_iff.trans (and_twoPow_ne_zero _ hi))
  have h3 := hbit 0 (by decide) ▸ fourTicks_settled _
  have h4 := hbit 1 (by decide) ▸ fourTicks_settled _
  exact ⟨h3, h4⟩

/-- The trace of two keys. -/
def ofKeys (down3 down4 : ℕ → Bool) : KeyTrace :=
  ⟨fun n => (if down3 n then 1 else 0) ||| (if down4 n then 2 else 0)⟩

theorem keys_bits (x y : Bool) :
    decide (((if x then 1 else 0) ||| (if y then 2 else 0) : UInt8) &&& 1 ≠ 0) = x ∧
      decide (((if x then 1 else 0) ||| (if y then 2 else 0) : UInt8) &&& 2 ≠ 0) = y := by
  cases x <;> cases y <;> decide

theorem key3_ofKeys (x y : ℕ → Bool) (n : ℕ) : (ofKeys x y).key3 n = x n :=
  (keys_bits (x n) (y n)).1

theorem key4_ofKeys (x y : ℕ → Bool) (n : ℕ) : (ofKeys x y).key4 n = y n :=
  (keys_bits (x n) (y n)).2

/-- A key that is down from `p` on up to `q`. -/
def downFor (p q n : ℕ) : Bool := p ≤ n ∧ n < q

theorem fourTicks_downFor {p q : ℕ} (h : p + 4 ≤ q) : FourTicks (downFor p q) := by
  intro n hne j hj
  simp only [downFor, ne_eq, decide_eq_decide] at hne ⊢
  omega

/-- Off in a hold whose end does not step the level, it is zero until key 3 goes down again. -/
theorem Hold.level_zero {boot : Boot} {m : ℕ} (h : t.Hold a b) (ha : a ≤ n) (hb : n < b)
    (hoff : t.SwitchesOff n) (hend : t.key3 b = false → ¬ t.StepsLevel b) (hm : b ≤ m)
    (hup : ∀ i, b ≤ i → i ≤ m → t.key3 i = false) : t.level boot (m + 1) = 0 := by
  refine level_of_switchesOff hoff (by omega) fun i hi him hstep => ?_
  obtain ⟨-, ⟨h3', -⟩, h3, -⟩ := hstep.keys
  rcases Nat.lt_trichotomy i b with hib | rfl | hib
  · simp [h.down i (by omega) hib] at h3
  · exact hend h3 hstep
  · simp [hup (i - 1) (by omega) (by omega)] at h3'

/-! ### Holds of key 3 -/

/-- For each hold of key 3, in any run of the two keys: it does what it should if and only if, when
long, exactly one of its stretches reaches 500 repeats, the last one if all keys go up at its end;
and when short with key 4 up, nothing is left of the flag, the repeats with those left do not come
to 500, and key 4 does not go down as key 3 goes up. -/
theorem gestureRight_iff (boot : Boot) (h : t.Hold a b) :
    t.GestureRight boot a b ↔ t.HoldWhen a b := by
  have hlt := h.lt
  have honce : (∃! n, a ≤ n ∧ n < b ∧ t.SwitchesOff n) ↔
      ∃! n, a ≤ n ∧ n < b ∧ ∃ s, t.Reaches a s n :=
    existsUnique_congr fun n => and_congr_right fun ha => and_congr_right fun hb =>
      switchesOff_iff h ha hb
  constructor
  · intro hr
    refine ⟨fun hl => honce.mp (hr.off hl), fun hl h3 h4 s hs => ?_, fun hl hup h3 => ?_⟩
    · -- Otherwise the flag is clear at the release, unless the stretch is the whole hold.
      by_contra hno
      obtain ⟨n, ⟨ha, hb, s', hs'⟩, -⟩ := honce.mp (hr.off hl)
      refine hr.noStep hl h3 ((stepsLevel_iff h hs h3).mpr ⟨h4, if_neg fun hsa => ?_, hno⟩)
      subst hsa
      have hs'' := stretch_unique (hs.of_le ha (by omega)) hs'.1
      exact hno ⟨n, hb, hs''.symm ▸ hs'⟩
    · have hstep := (hr.step hl hup h3 b (Nat.le_of_lt hlt) (Nat.le_refl b)).mpr rfl
      obtain ⟨h4, hign, hno⟩ := (stepsLevel_iff h (h.stretch hup) h3).mp hstep
      exact ⟨h4, (if_pos rfl).symm.trans hign, hno⟩
  · intro hw
    have hnoStep : t.LongHold a b → t.key3 b = false → ¬ t.StepsLevel b := by
      intro hl h3 hstep
      obtain ⟨-, ⟨-, h4'⟩, -, h4⟩ := hstep.keys
      obtain ⟨s, hs⟩ := exists_stretch (show a ≤ b - 1 by omega) h4'
      exact ((stepsLevel_iff h hs h3).mp hstep).2.2 (hw.last hl h3 h4 s hs)
    refine ⟨fun hl => honce.mpr (hw.once hl), hnoStep, fun hl m hm hup => ?_,
      fun hl hup h3 n ha hb => ⟨fun hstep => ?_, fun hn => ?_⟩⟩
    · obtain ⟨n, ⟨ha, hb, hoff⟩, -⟩ := honce.mpr (hw.once hl)
      exact h.level_zero ha hb hoff (hnoStep hl) hm hup
    · refine Nat.le_antisymm hb (Nat.le_of_not_lt fun hnb => ?_)
      obtain ⟨-, -, h3', -⟩ := hstep.keys
      simp [h.down n ha hnb] at h3'
    · subst hn
      obtain ⟨h4, hign, hno⟩ := hw.short hl hup h3
      exact (stepsLevel_iff h (h.stretch hup) h3).mpr ⟨h4, (if_pos rfl).trans hign, hno⟩

/-- A short press from rest, with key 4 up. -/
theorem gestureRight_iff_tap :
    (ofKeys (downFor 4 10) fun _ => false).GestureRight (bootAt 1) 4 10 := by
  refine (gestureRight_iff (bootAt 1) ⟨by decide, .inr (key3_ofKeys ..), fun n ha hb => ?_⟩).mpr
    ⟨?_, ?_, ?_⟩
  · rw [key3_ofKeys]
    exact decide_eq_true ⟨ha, hb⟩
  · rintro ⟨s, hs, hlt, -⟩
    omega
  · rintro ⟨s, hs, hlt, -⟩
    omega
  · intro _ _ _
    refine ⟨key4_ofKeys .., by decide, ?_⟩
    rintro ⟨n, hn, -, hlt, h500⟩
    have hleft : ((ofKeys (downFor 4 10) fun _ => false).statics 4).leftRepeats = 0 := by decide
    rw [repeats, if_pos rfl, hleft] at h500
    omega

/-- Key 4 is touched at the end of a long press of key 3. -/
def secondKey : KeyTrace := ofKeys (downFor 4 520) (downFor 510 514)

/-- The touch takes the flag away, and the release of key 3 steps the level. -/
theorem second_key_steps_level :
    secondKey.Debounced ∧ secondKey.Hold 4 520 ∧ secondKey.LongHold 4 520 ∧
      ¬ secondKey.GestureRight (bootAt 1) 4 520 ∧ secondKey.touch 520 = 0 ∧
      secondKey.level (bootAt 1) 521 = 1 := by
  have hhold : secondKey.Hold 4 520 :=
    ⟨by decide, .inr (key3_ofKeys ..), fun n ha hb =>
      (key3_ofKeys ..).trans (decide_eq_true ⟨ha, hb⟩)⟩
  have hup : ∀ n, n < 510 ∨ 514 ≤ n → secondKey.key4 n = false := by
    intro n hn
    exact (key4_ofKeys ..).trans (decide_eq_false (by omega))
  have hlong : secondKey.LongHold 4 520 := ⟨4, by decide, by decide, fun n _ hn => hup n (by omega)⟩
  have hlast : secondKey.Stretch 4 514 519 :=
    ⟨by decide, by decide, .inr (key4_ofKeys ..), fun n hn _ => hup n (by omega)⟩
  have h3 : secondKey.key3 520 = false := key3_ofKeys ..
  have hstep : secondKey.StepsLevel 520 := by
    refine (stepsLevel_iff hhold hlast h3).mpr ⟨hup 520 (by decide), rfl, ?_⟩
    rintro ⟨n, hn, -, hlt, h500⟩
    rw [repeats, if_neg (by decide)] at h500
    omega
  have hoff : secondKey.SwitchesOff 504 := by
    refine (switchesOff_iff hhold (by decide) (by decide)).mpr ⟨4, ⟨by decide, by decide, .inl rfl,
      fun n _ hn => hup n (by omega)⟩, by decide, ?_⟩
    have hleft : (secondKey.statics 4).leftRepeats = 0 := by decide
    rw [repeats, if_pos rfl, hleft]
  have hzero : secondKey.level (bootAt 1) 520 = 0 := by
    refine level_of_switchesOff hoff (by decide) fun i hi hi' hs => ?_
    have h3' := hs.keys.2.2.1
    rw [hhold.down i (by omega) (by omega)] at h3'
    exact absurd h3' (by decide)
  have hnone : secondKey.touch 520 = 0 := touch_none.mpr ⟨h3, hup 520 (by decide)⟩
  have hnotOff : ¬ secondKey.SwitchesOff 520 := fun h => absurd (hnone.symm.trans h.2.1) (by decide)
  have hd3 : secondKey.key3 = downFor 4 520 := funext (key3_ofKeys _ _)
  have hd4 : secondKey.key4 = downFor 510 514 := funext (key4_ofKeys _ _)
  refine ⟨⟨?_, ?_⟩, hhold, hlong, fun hr => hr.noStep hlong h3 hstep, hnone, ?_⟩
  · exact hd3 ▸ fourTicks_downFor (by decide)
  · exact hd4 ▸ fourTicks_downFor (by decide)
  · rw [level_succ, if_neg hnotOff, if_pos hstep, hzero]
    rfl

end KeyTrace
end ErgoDock
