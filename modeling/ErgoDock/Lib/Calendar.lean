import Mathlib

/-! # The Gregorian calendar

Dates with their successor (`Date.next`), and the number of days since the first of January of a
year `e` (`Date.days`).  Counting and stepping are the same: the date of day `n` is the `n`-th
successor of the first date (`days_dateOfDay`, `dateOfDay_days`), and the count follows the order
of the calendar (`days_lt`). -/

namespace Calendar

/-- Every fourth year, but of the full centuries only every fourth. -/
def IsLeap (y : ℕ) : Prop := y % 4 = 0 ∧ y % 100 ≠ 0 ∨ y % 400 = 0

instance : DecidablePred IsLeap := fun _ => inferInstanceAs (Decidable (_ ∨ _))

def yearDays (y : ℕ) : ℕ := if IsLeap y then 366 else 365

def monthDays (y : ℕ) : ℕ → ℕ
  | 2 => if IsLeap y then 29 else 28
  | 4 | 6 | 9 | 11 => 30
  | _ => 31

structure Date where
  year : ℕ
  month : ℕ
  day : ℕ
deriving DecidableEq, Repr

namespace Date

structure Valid (d : Date) : Prop where
  month_pos : 1 ≤ d.month
  month_le : d.month ≤ 12
  day_pos : 1 ≤ d.day
  day_le : d.day ≤ monthDays d.year d.month

instance : DecidablePred Valid := fun d =>
  decidable_of_iff (1 ≤ d.month ∧ d.month ≤ 12 ∧ 1 ≤ d.day ∧ d.day ≤ monthDays d.year d.month)
    ⟨fun ⟨h1, h2, h3, h4⟩ => ⟨h1, h2, h3, h4⟩, fun ⟨h1, h2, h3, h4⟩ => ⟨h1, h2, h3, h4⟩⟩

/-- The following day. -/
def next (d : Date) : Date :=
  if d.day < monthDays d.year d.month then { d with day := d.day + 1 }
  else if d.month < 12 then ⟨d.year, d.month + 1, 1⟩
  else ⟨d.year + 1, 1, 1⟩

/-- The days of the year before the date. -/
def dayOfYear (d : Date) : ℕ :=
  ∑ i ∈ Finset.range (d.month - 1), monthDays d.year (i + 1) + (d.day - 1)

/-- The days since the first of January of the year `e`. -/
def days (e : ℕ) (d : Date) : ℕ :=
  ∑ i ∈ Finset.range (d.year - e), yearDays (e + i) + d.dayOfYear

/-- The order of the calendar. -/
def Before (d d' : Date) : Prop :=
  d.year < d'.year ∨ d.year = d'.year ∧
    (d.month < d'.month ∨ d.month = d'.month ∧ d.day < d'.day)

end Date

/-- The date of day `n` after the first of January of the year `e`. -/
def dateOfDay (e n : ℕ) : Date := Date.next^[n] ⟨e, 1, 1⟩

/-! ### Months and years -/

theorem monthDays_pos (y m : ℕ) : 1 ≤ monthDays y m := by
  unfold monthDays
  split
  · split <;> decide
  all_goals decide

theorem sum_monthDays (y : ℕ) : ∑ i ∈ Finset.range 12, monthDays y (i + 1) = yearDays y := by
  simp only [Finset.sum_range_succ, Finset.sum_range_zero, monthDays, yearDays]
  split <;> rfl

/-- The days of the years from `e` on before the year `y`. -/
theorem sum_years_succ {e y : ℕ} (he : e ≤ y) :
    ∑ i ∈ Finset.range (y + 1 - e), yearDays (e + i) =
      ∑ i ∈ Finset.range (y - e), yearDays (e + i) + yearDays y := by
  rw [Nat.sub_add_comm he, Finset.sum_range_succ, Nat.add_sub_cancel' he]

/-- The days of the months before the month `m + 1`. -/
theorem sum_months_succ (y : ℕ) {m : ℕ} (hm : 1 ≤ m) :
    ∑ i ∈ Finset.range m, monthDays y (i + 1) =
      ∑ i ∈ Finset.range (m - 1), monthDays y (i + 1) + monthDays y m := by
  obtain ⟨k, rfl⟩ : ∃ k, m = k + 1 := ⟨m - 1, by omega⟩
  rw [Finset.sum_range_succ, Nat.add_sub_cancel]

theorem sum_mono (f : ℕ → ℕ) {n m : ℕ} (h : n ≤ m) :
    ∑ i ∈ Finset.range n, f i ≤ ∑ i ∈ Finset.range m, f i :=
  Finset.sum_le_sum_of_subset (Finset.range_subset_range.mpr h)

namespace Date
variable {d d' : Date} {e : ℕ}

theorem dayOfYear_lt (h : d.Valid) : d.dayOfYear < yearDays d.year := by
  obtain ⟨h1, h2, h3, h4⟩ := h
  have hle := sum_mono (fun i => monthDays d.year (i + 1)) h2
  rw [sum_months_succ d.year h1, sum_monthDays] at hle
  unfold dayOfYear
  omega

theorem valid_next (h : d.Valid) : d.next.Valid := by
  obtain ⟨h1, h2, h3, h4⟩ := h
  unfold next
  split
  · next hday => exact ⟨h1, h2, Nat.le_add_left .., hday⟩
  · split
    · next hmonth => exact ⟨Nat.le_add_left .., hmonth, Nat.le_refl 1, monthDays_pos ..⟩
    · exact ⟨Nat.le_refl 1, show 1 ≤ 12 by decide, Nat.le_refl 1, monthDays_pos ..⟩

/-- The count goes up by one from a day to the next. -/
theorem days_next (h : d.Valid) (he : e ≤ d.year) : d.next.days e = d.days e + 1 := by
  obtain ⟨h1, h2, h3, h4⟩ := h
  have hpos := monthDays_pos d.year d.month
  unfold next
  split
  · simp only [days, dayOfYear]
    omega
  · next hday =>
    have hlast : d.day = monthDays d.year d.month := by omega
    split
    · simp only [days, dayOfYear, hlast, Nat.add_sub_cancel, sum_months_succ d.year h1]
      omega
    · next hmonth =>
      have h12 : d.month = 12 := by omega
      have hsum := sum_months_succ d.year h1
      rw [h12, sum_monthDays] at hsum
      have hfirst : (⟨d.year + 1, 1, 1⟩ : Date).dayOfYear = 0 := rfl
      have hlastDay : d.dayOfYear + 1 = yearDays d.year := by
        rw [h12] at hlast hpos
        rw [dayOfYear, hlast, h12]
        omega
      simp only [days, hfirst, sum_years_succ he]
      omega

/-- The count follows the order of the calendar. -/
theorem days_lt (h : d.Valid) (he : e ≤ d.year) (hlt : d.Before d') :
    d.days e < d'.days e := by
  rcases hlt with hyear | ⟨hyear, hmonth | ⟨hmonth, hday⟩⟩
  · have hle := sum_mono (fun i => yearDays (e + i)) (Nat.sub_le_sub_right hyear e)
    rw [Nat.succ_eq_add_one, sum_years_succ he] at hle
    have hd := dayOfYear_lt h
    simp only [days]
    omega
  · have hle := sum_mono (fun i => monthDays d.year (i + 1)) (Nat.le_sub_one_of_lt hmonth)
    rw [sum_months_succ d.year h.month_pos] at hle
    have hday := h.day_le
    have hpos := h.day_pos
    simp only [days, dayOfYear, ← hyear]
    omega
  · have hpos := h.day_pos
    simp only [days, dayOfYear, ← hyear, ← hmonth]
    omega

theorem before_or_eq (d d' : Date) : d.Before d' ∨ d = d' ∨ d'.Before d := by
  obtain ⟨y, m, x⟩ := d
  obtain ⟨y', m', x'⟩ := d'
  simp only [Before, mk.injEq]
  omega

/-- The count tells the dates apart. -/
theorem eq_of_days (h : d.Valid) (h' : d'.Valid) (he : e ≤ d.year) (he' : e ≤ d'.year)
    (heq : d.days e = d'.days e) : d = d' := by
  rcases before_or_eq d d' with hlt | rfl | hlt
  · exact absurd heq (Nat.ne_of_lt (days_lt h he hlt))
  · rfl
  · exact absurd heq (Nat.ne_of_gt (days_lt h' he' hlt))

end Date

/-! ### Counting is stepping -/

theorem days_dateOfDay (e n : ℕ) :
    (dateOfDay e n).Valid ∧ e ≤ (dateOfDay e n).year ∧ (dateOfDay e n).days e = n := by
  induction n with
  | zero =>
      refine ⟨⟨Nat.le_refl 1, show 1 ≤ 12 by decide, Nat.le_refl 1, monthDays_pos ..⟩,
        Nat.le_refl e, ?_⟩
      simp [dateOfDay, Date.days, Date.dayOfYear]
  | succ n ih =>
      obtain ⟨hv, he, hn⟩ := ih
      have hstep : dateOfDay e (n + 1) = (dateOfDay e n).next := Function.iterate_succ_apply' ..
      have hyear : (dateOfDay e n).year ≤ (dateOfDay e n).next.year := by
        unfold Date.next
        split
        · exact Nat.le_refl _
        · split
          · exact Nat.le_refl _
          · exact Nat.le_succ _
      rw [hstep]
      exact ⟨Date.valid_next hv, he.trans hyear, by rw [Date.days_next hv he, hn]⟩

theorem dateOfDay_days {d : Date} {e : ℕ} (h : d.Valid) (he : e ≤ d.year) :
    dateOfDay e (d.days e) = d := by
  obtain ⟨hv, he', hn⟩ := days_dateOfDay e (d.days e)
  exact Date.eq_of_days hv h he' he hn

end Calendar
