import ErgoDock.LedPins

/-! # Requests to the LEDs

`led_ctrl_set_on` and `led_ctrl_set_flash` are accepted or rejected as a whole: a rejected request
leaves the LEDs as they are, and an accepted one replaces the task of its LED only. -/

namespace ErgoDock
namespace LedModule

/-- A request takes effect entirely or not at all: `r` is its result and the LEDs after it. -/
structure Atomic (m : LedModule) (ledId : ℕ) (color : LedColor) (priority : UInt8)
    (r : Bool × LedModule) : Prop where
  /-- What is accepted: a colour of an existing LED that is off or has no higher priority. -/
  accepted : r.1 = true ↔ ∃ i : Fin 4, ledId = i ∧ ledGetPinByColor i color ≠ none ∧
    ((m.ledCtrl i).mode = .off ∨ (m.ledCtrl i).priority ≤ priority)
  rejected : r.1 = false → r.2 = m
  others : r.1 = true → ∀ j : Fin 4, ledId ≠ j → r.2.ledCtrl j = m.ledCtrl j
  /-- The pin of another colour that was on is dark. -/
  previous : r.1 = true → ∀ i : Fin 4, ledId = i → (m.ledCtrl i).color ≠ color →
    ∀ pin, ledGetPinByColor i (m.ledCtrl i).color = some pin → r.2.level pin = true

variable (m : LedModule)

theorem ledCtrlRequest_fst (ledId : ℕ) (color : LedColor) (p : UInt8)
    (accept : LedModule → Fin 4 → LedCtrl → LedModule) :
    (m.ledCtrlRequest ledId color p accept).1 = true ↔
      ∃ i : Fin 4, ledId = i ∧ ledGetPinByColor i color ≠ none ∧ Yields (m.ledCtrl i) p := by
  unfold ledCtrlRequest
  by_cases hlt : ledId < ledIdMax
  · obtain ⟨i, rfl⟩ : ∃ i : Fin 4, ledId = i := ⟨⟨ledId, hlt⟩, rfl⟩
    rw [dif_pos hlt]
    have hany : ∀ Q : Fin 4 → Prop, (∃ j : Fin 4, (i : ℕ) = j ∧ Q j) ↔ Q i := fun Q =>
      ⟨fun ⟨j, hj, hq⟩ => Fin.ext hj ▸ hq, fun hq => ⟨i, rfl, hq⟩⟩
    rw [hany]
    by_cases hc : color = .none
    · subst hc
      rw [if_pos rfl, ledGetPinByColor_none]
      simp
    by_cases hp : ledGetPinByColor i color = none
    · rw [if_neg hc, if_pos hp]
      simp [hp]
    rw [if_neg hc, if_neg hp]
    by_cases hy : Yields (m.ledCtrl i) p
    · rw [if_neg fun hn => not_yields.mpr hn hy]
      simp [hp, hy]
    · rw [if_pos (not_yields.mp hy)]
      simp [hy]
  · rw [dif_neg hlt]
    have hno : ∀ i : Fin 4, ledId ≠ i := fun i h => hlt (h ▸ i.isLt)
    simp [hno]

/-- A request whose acceptance replaces the task of the LED is atomic. -/
theorem atomic_request {ledId : ℕ} {color : LedColor} {p : UInt8}
    {accept : LedModule → Fin 4 → LedCtrl → LedModule} (task : LedCtrl → LedCtrl) (lit : Bool)
    (hcolor : ∀ c, (task c).color = color)
    (haccept : ∀ m i c, accept m i c = (m.setCtrl i (task c)).ledHwSetPin
      (ledGetPinByColor ledId color) lit) :
    m.Atomic ledId color p (m.ledCtrlRequest ledId color p accept) := by
  have hiff := m.ledCtrlRequest_fst ledId color p accept
  have hkeep : (m.ledCtrlRequest ledId color p accept).1 = false →
      (m.ledCtrlRequest ledId color p accept).2 = m := by
    unfold ledCtrlRequest
    split
    · split
      · exact fun _ => rfl
      split
      · exact fun _ => rfl
      dsimp only
      split
      · exact fun _ => rfl
      · exact fun h => Bool.noConfusion h
    · exact fun _ => rfl
  -- an accepted request is one replaced task
  have htask : ∀ i : Fin 4, ledId = i → (m.ledCtrlRequest ledId color p accept).1 = true →
      (m.ledCtrlRequest ledId color p accept).2 = m.retask i (task (m.ledCtrl i)) lit := by
    rintro i rfl h
    obtain ⟨j, hj, hp, hy⟩ := hiff.mp h
    obtain rfl := Fin.ext hj
    have hc : color ≠ .none := fun hc => hp (hc ▸ ledGetPinByColor_none i)
    rw [ledCtrlRequest_eq m i hc hp, if_pos hy, haccept]
    exact accept_eq_retask m i _ (hcolor _) lit
  refine ⟨hiff, hkeep, fun h j hj => ?_, fun h i hi hne pin hpin => ?_⟩
  · obtain ⟨i, hi, -⟩ := hiff.mp h
    have hij : j ≠ i := fun hij => hj (hij ▸ hi)
    rw [htask i hi h, ledCtrl_retask, Function.update_of_ne hij]
  · have hother : ledGetPinByColor i color ≠ some pin := fun h =>
      hne (ledGetPinByColor_inj hpin h)
    rw [htask i hi h, level_retask, hcolor, if_neg hother, if_pos hpin]

/-- In every state of the LEDs and for all arguments, `led_ctrl_set_on` and `led_ctrl_set_flash`
are accepted exactly when the LED has the colour and is off or of no higher priority; rejected,
they change nothing; accepted, they change no other task and darken the colour before. -/
theorem led_requests_atomic (m : LedModule) (ledId : ℕ) (color : LedColor)
    (intervalMs : UInt16) (times : UInt8) (timeoutS : UInt16) (priority : UInt8)
    (callback : Option LedCallback) :
    m.Atomic ledId color priority (m.ledCtrlSetOn ledId color timeoutS priority callback) ∧
      m.Atomic ledId color priority
        (m.ledCtrlSetFlash ledId color intervalMs times timeoutS priority callback) := by
  constructor
  · exact m.atomic_request (fun ctrl : LedCtrl =>
      { ctrl with
        color := color
        mode := if timeoutS = 0 then .onPermanent else .on
        timeout100ms := timeoutS * 10
        priority := priority
        callback := callback }) true (fun _ => rfl) fun _ _ _ => rfl
  · exact m.atomic_request (fun ctrl : LedCtrl =>
      { ctrl with
        color := color
        mode := .flash
        flashInterval10ms := intervalMs / 10
        flashCounter := 0
        flashTimes := times * 2
        timeout100ms := timeoutS * 10
        priority := priority
        callback := callback }) false (fun _ => rfl) fun _ _ _ => rfl

end LedModule
end ErgoDock
