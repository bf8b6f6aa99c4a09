import Mathlib.Algebra.Order.Group.Unbundled.Abs
import Mathlib.Tactic.Ring
import Mathlib.Tactic.SplitIfs
import Reckoner.Calendar.Date
/-!
Counting days. Main statements: the date that has a day number has that number and every date is
found by its own, later dates have greater numbers and none is left out between two of them, so that
dates are shifted by exactly the days that are asked for.
-/
namespace Reckoner

/-- The parts of a date are in range. -/
structure IsDate (year : ℤ) (month day : ℕ) : Prop where
  le_year : -262143 ≤ year
  year_le : year ≤ 262142
  one_le_month : 1 ≤ month
  month_le : month ≤ 12
  one_le_day : 1 ≤ day
  day_le : day ≤ daysInMonth year month

theorem isDate_iff {year : ℤ} {month day : ℕ} :
    isDate year month day = true ↔ IsDate year month day := by
  simp only [isDate, Bool.and_eq_true, decide_eq_true_eq]
  constructor
  · rintro ⟨⟨⟨⟨⟨h1, h2⟩, h3⟩, h4⟩, h5⟩, h6⟩
    exact ⟨h1, h2, h3, h4, h5, h6⟩
  · rintro ⟨h1, h2, h3, h4, h5, h6⟩
    exact ⟨⟨⟨⟨⟨h1, h2⟩, h3⟩, h4⟩, h5⟩, h6⟩

theorem daysInMonth_le (year : ℤ) (month : ℕ) : daysInMonth year month ≤ 31 := by
  unfold daysInMonth
  split_ifs <;> decide

namespace Date

theorem inRange (d : Date) : IsDate d.year d.month d.day := isDate_iff.mp d.isDate

theorem eq_of_parts {d e : Date} (hy : d.year = e.year) (hm : d.month = e.month)
    (hd : d.day = e.day) : d = e := by
  obtain ⟨y, m, k, h⟩ := d
  cases hy
  cases hm
  cases hd
  rfl

section Years

theorem daysBeforeYear_mono {y z : ℤ} (h : y ≤ z) : daysBeforeYear y ≤ daysBeforeYear z := by
  unfold daysBeforeYear
  omega

/-- December is followed by the next year. -/
theorem daysBeforeYear_succ (year : ℤ) : daysBeforeYear (year + 1) =
    daysBeforeYear year + (daysBeforeMonth year 12 + daysInMonth year 12 : ℕ) := by
  have hleap : daysInMonth year 2 = if isLeapYear year then 29 else 28 := rfl
  have hyear : daysBeforeMonth year 12 + daysInMonth year 12 = 337 + daysInMonth year 2 := by
    simp only [daysBeforeMonth, daysInMonth]
    simp
    omega
  rw [hyear, hleap]
  simp only [daysBeforeYear, isLeapYear, Bool.and_eq_true, Bool.or_eq_true, beq_iff_eq, bne_iff_ne]
  split_ifs <;> omega

theorem daysBeforeYear_yearOf_le (n : ℤ) : daysBeforeYear (yearOf n) ≤ n := by
  unfold yearOf
  dsimp only
  split
  · next h =>
    simp only [daysBeforeYear] at h ⊢
    omega
  · next h =>
    split
    · assumption
    · omega

theorem lt_daysBeforeYear_yearOf (n : ℤ) : n < daysBeforeYear (yearOf n + 1) := by
  unfold yearOf
  dsimp only
  split
  · next h => rwa [sub_add_cancel]
  · next h =>
    split
    · simp only [daysBeforeYear]
      omega
    · omega

/-- The year of a day is the one whose days it is among. -/
theorem yearOf_eq {n year : ℤ} (h : daysBeforeYear year ≤ n) (h' : n < daysBeforeYear (year + 1)) :
    yearOf n = year := by
  have hle := daysBeforeYear_yearOf_le n
  have hlt := lt_daysBeforeYear_yearOf n
  rcases lt_trichotomy (yearOf n) year with hy | hy | hy
  · have := daysBeforeYear_mono (show yearOf n + 1 ≤ year by omega)
    omega
  · exact hy
  · have := daysBeforeYear_mono (show year + 1 ≤ yearOf n by omega)
    omega

end Years

section Months

theorem daysBeforeMonth_succ (year : ℤ) {month : ℕ} (h : 1 ≤ month) :
    daysBeforeMonth year (month + 1) = daysBeforeMonth year month + daysInMonth year month := by
  obtain ⟨k, rfl⟩ := Nat.exists_eq_add_of_le' h
  rfl

theorem daysBeforeMonth_add_le (year : ℤ) {m month : ℕ} (h : 1 ≤ m) (hm : m < month) :
    daysBeforeMonth year m + daysInMonth year m ≤ daysBeforeMonth year month := by
  induction month, hm using Nat.le_induction with
  | base => exact (daysBeforeMonth_succ year h).ge
  | succ month hle ih =>
    rw [daysBeforeMonth_succ year (by omega)]
    omega

/-- Walking through the months leaves the day of the year. -/
theorem daysBeforeMonth_monthFrom (year : ℤ) (fuel rest : ℕ) {month : ℕ} (h : 1 ≤ month) :
    daysBeforeMonth year (monthFrom year month rest fuel).1 + (monthFrom year month rest fuel).2 =
      daysBeforeMonth year month + rest + 1 := by
  induction fuel generalizing month rest with
  | zero => rfl
  | succ fuel ih =>
    unfold monthFrom
    split
    · rfl
    · next hr =>
      rw [ih _ (by omega), daysBeforeMonth_succ year h]
      omega

/-- The walk ends at a day of the month that it has come to, if December is not passed. -/
theorem monthFrom_inRange (year : ℤ) (fuel rest : ℕ) {month : ℕ} (h : 1 ≤ month)
    (hfuel : month + fuel = 12)
    (hrest : daysBeforeMonth year month + rest < daysBeforeMonth year 12 + daysInMonth year 12) :
    1 ≤ (monthFrom year month rest fuel).1 ∧ (monthFrom year month rest fuel).1 ≤ 12 ∧
      1 ≤ (monthFrom year month rest fuel).2 ∧
      (monthFrom year month rest fuel).2 ≤ daysInMonth year (monthFrom year month rest fuel).1 := by
  induction fuel generalizing month rest with
  | zero =>
    obtain rfl : month = 12 := by omega
    simp only [monthFrom]
    omega
  | succ fuel ih =>
    unfold monthFrom
    split
    · simp only
      omega
    · next hr =>
      apply ih _ (by omega) (by omega)
      rw [daysBeforeMonth_succ year h]
      omega

/-- Walking from a month to the day of a later one. -/
theorem monthFrom_eq (year : ℤ) {fuel rest m month day : ℕ} (h : 1 ≤ m) (hm : m ≤ month)
    (hfuel : month ≤ m + fuel) (hday : 1 ≤ day) (hday' : day ≤ daysInMonth year month)
    (hrest : daysBeforeMonth year m + rest + 1 = daysBeforeMonth year month + day) :
    monthFrom year m rest fuel = (month, day) := by
  induction fuel generalizing m rest with
  | zero =>
    obtain rfl : m = month := by omega
    rw [monthFrom, Prod.mk.injEq]
    omega
  | succ fuel ih =>
    rcases hm.eq_or_lt with rfl | hlt
    · rw [monthFrom, if_pos (by omega), Prod.mk.injEq]
      omega
    · have hnext := daysBeforeMonth_add_le year h hlt
      rw [monthFrom, if_neg (by omega)]
      apply ih (by omega) (by omega) (by omega)
      rw [daysBeforeMonth_succ year h]
      omega

end Months

section Numbers

theorem dayOfYear_lt (d : Date) :
    daysBeforeMonth d.year d.month + d.day ≤ daysBeforeMonth d.year 12 + daysInMonth d.year 12 := by
  have h := d.inRange
  rcases h.month_le.eq_or_lt with hm | hm
  · have := h.day_le
    rw [hm] at this ⊢
    omega
  · have := daysBeforeMonth_add_le d.year h.one_le_month hm
    have := h.day_le
    omega

theorem daysBeforeYear_le_number (d : Date) : daysBeforeYear d.year ≤ d.number := by
  have h := d.inRange.one_le_day
  rw [number]
  omega

theorem number_lt_daysBeforeYear (d : Date) : d.number < daysBeforeYear (d.year + 1) := by
  have h := d.dayOfYear_lt
  rw [number, daysBeforeYear_succ]
  omega

theorem abs_number_lt (d : Date) : |d.number| < 10 ^ 8 := by
  -- The years that dates have bound the numbers of their days.
  have hlow := d.daysBeforeYear_le_number
  have hhigh := d.number_lt_daysBeforeYear
  have hyear := d.inRange.le_year
  have hyear' := d.inRange.year_le
  rw [daysBeforeYear] at hlow hhigh
  rw [abs_lt]
  omega

theorem number_of_ofNumber? {n : ℤ} {d : Date} (h : ofNumber? n = some d) : d.number = n := by
  have hyear := daysBeforeYear_yearOf_le n
  have hmonth := daysBeforeMonth_monthFrom (yearOf n) 11 (n - daysBeforeYear (yearOf n)).toNat
    le_rfl
  unfold ofNumber? ofParts? at h
  dsimp only at h
  split at h
  · cases h
    simp only [number]
    rw [show daysBeforeMonth (yearOf n) 1 = 0 from rfl] at hmonth
    omega
  · cases h

/-- Every date is found by its number. -/
theorem ofNumber?_number (d : Date) : ofNumber? d.number = some d := by
  have h := d.inRange
  have hyear := yearOf_eq d.daysBeforeYear_le_number d.number_lt_daysBeforeYear
  have hmonth : monthFrom d.year 1 (d.number - daysBeforeYear d.year).toNat 11 =
      (d.month, d.day) := by
    have hday := h.one_le_day
    refine monthFrom_eq d.year le_rfl h.one_le_month (by have := h.month_le; omega) hday h.day_le ?_
    rw [number, show daysBeforeMonth d.year 1 = 0 from rfl]
    omega
  unfold ofNumber? ofParts?
  dsimp only
  rw [hyear, hmonth]
  exact dif_pos d.isDate

theorem ofNumber?_eq_some_iff {n : ℤ} {d : Date} : ofNumber? n = some d ↔ d.number = n := by
  constructor
  · exact number_of_ofNumber?
  · rintro rfl
    exact d.ofNumber?_number

theorem number_injective : Function.Injective number := by
  intro d e h
  have hd := d.ofNumber?_number
  rw [h, e.ofNumber?_number] at hd
  exact (Option.some.inj hd).symm

/-- Every number from the first to the last day of the years that dates have is that of a date. -/
theorem exists_number_eq {n : ℤ} (h : daysBeforeYear (-262143) ≤ n)
    (h' : n < daysBeforeYear 262143) :
    ∃ d : Date, d.number = n := by
  have hlow := daysBeforeYear_yearOf_le n
  have hhigh := lt_daysBeforeYear_yearOf n
  have hyear : -262143 ≤ yearOf n := by
    by_contra hlt
    have := daysBeforeYear_mono (show yearOf n + 1 ≤ -262143 by omega)
    omega
  have hyear' : yearOf n ≤ 262142 := by
    by_contra hlt
    have := daysBeforeYear_mono (show (262143 : ℤ) ≤ yearOf n by omega)
    omega
  rw [daysBeforeYear_succ] at hhigh
  obtain ⟨h1, h12, hday, hday'⟩ := monthFrom_inRange (yearOf n) 11
    (n - daysBeforeYear (yearOf n)).toNat (le_refl 1) rfl
    (by rw [show daysBeforeMonth (yearOf n) 1 = 0 from rfl]; omega)
  refine ⟨⟨_, _, _, isDate_iff.mpr ⟨hyear, hyear', h1, h12, hday, hday'⟩⟩, number_of_ofNumber? ?_⟩
  unfold ofNumber? ofParts?
  exact dif_pos _

end Numbers

section Order

/-- Years are compared first, then months, then days. -/
def Before (d e : Date) : Prop :=
  d.year < e.year ∨ d.year = e.year ∧ (d.month < e.month ∨ d.month = e.month ∧ d.day < e.day)

instance (d e : Date) : Decidable (d.Before e) := inferInstanceAs (Decidable (_ ∨ _))

variable {d e : Date}

theorem Before.number_lt (h : d.Before e) : d.number < e.number := by
  rcases h with hy | ⟨hy, hm | ⟨hm, hk⟩⟩
  · have hd := d.number_lt_daysBeforeYear
    have he := e.daysBeforeYear_le_number
    have := daysBeforeYear_mono (show d.year + 1 ≤ e.year by omega)
    omega
  · have hmonth := daysBeforeMonth_add_le d.year d.inRange.one_le_month hm
    have hday := d.inRange.day_le
    have hday' := e.inRange.one_le_day
    rw [number, number, ← hy]
    omega
  · rw [number, number, ← hy, ← hm]
    omega

theorem number_lt_iff : d.number < e.number ↔ d.Before e := by
  refine ⟨fun h => ?_, Before.number_lt⟩
  by_contra hn
  -- Dates of which neither is before the other are one.
  have hrest : e.Before d ∨ d = e := by
    rcases lt_trichotomy d.year e.year with hy | hy | hy
    · exact absurd (Or.inl hy) hn
    · rcases lt_trichotomy d.month e.month with hm | hm | hm
      · exact absurd (Or.inr ⟨hy, Or.inl hm⟩) hn
      · rcases lt_trichotomy d.day e.day with hk | hk | hk
        · exact absurd (Or.inr ⟨hy, Or.inr ⟨hm, hk⟩⟩) hn
        · exact Or.inr (eq_of_parts hy hm hk)
        · exact Or.inl (Or.inr ⟨hy.symm, Or.inr ⟨hm.symm, hk⟩⟩)
      · exact Or.inl (Or.inr ⟨hy.symm, Or.inl hm⟩)
    · exact Or.inl (Or.inl hy)
  rcases hrest with hb | rfl
  · have := hb.number_lt
    omega
  · omega

end Order

section Shift

variable {d e f g : Date} {k m n : ℤ}

theorem shift_eq_ok_iff : d.shift n = .ok e ↔ e.number = d.number + n := by
  rw [← ofNumber?_eq_some_iff]
  unfold shift orError
  cases ofNumber? (d.number + n) <;> simp

/-- Two shifts in a row lead to the date of another shift exactly if their days add up. -/
theorem shift_shift_eq_iff (he : d.shift k = .ok e) (hf : e.shift m = .ok f)
    (hg : d.shift n = .ok g) : g = f ↔ n = k + m := by
  rw [shift_eq_ok_iff] at he hf hg
  rw [← number_injective.eq_iff, hf, hg, he]
  omega

theorem shift_eq_iff (he : d.shift m = .ok e) (hf : d.shift n = .ok f) : f = e ↔ n = m := by
  rw [shift_eq_ok_iff] at he hf
  rw [← number_injective.eq_iff, he, hf]
  omega

end Shift

end Date
end Reckoner
