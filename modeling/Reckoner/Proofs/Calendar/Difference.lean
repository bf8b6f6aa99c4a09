import Mathlib.Data.Int.ConditionallyCompleteOrder
import Mathlib.Data.Int.Interval
import Mathlib.Data.Set.Card
import Reckoner.Proofs.Decimal.Same
import Reckoner.Proofs.Time.Additive
/-!
Differences of dates. Main statement: the difference of two dates counts the dates from one to the
other, and leads from each to the other; a date that a duration has led to differs by its whole days,
and the same duration leads back.
-/
namespace Reckoner

open Decimal

namespace Date

variable {a b d e : Date} {p : Duration} {n : ℤ}

/-- The dates from one on before another are as many as the days between their numbers. -/
theorem bijOn_number (b a : Date) :
    Set.BijOn number {c | ¬c.Before b ∧ c.Before a} (Set.Ico b.number a.number) := by
  refine ⟨fun c hc => ?_, number_injective.injOn, fun k hk => ?_⟩
  · rw [Set.mem_ofPred_eq, ← number_lt_iff, ← number_lt_iff, not_lt] at hc
    exact hc
  · obtain ⟨hlow, hhigh⟩ := hk
    have hfirst := daysBeforeYear_mono b.inRange.le_year
    have hlast := daysBeforeYear_mono (show a.year + 1 ≤ 262143 by
      have := a.inRange.year_le
      omega)
    have hb := b.daysBeforeYear_le_number
    have ha := a.number_lt_daysBeforeYear
    obtain ⟨c, rfl⟩ := exists_number_eq (n := k) (by omega) (by omega)
    refine ⟨c, ?_, rfl⟩
    rw [Set.mem_ofPred_eq, ← number_lt_iff, ← number_lt_iff, not_lt]
    exact ⟨hlow, hhigh⟩

/-- How many dates there are from one on before another. -/
noncomputable def daysFrom (b a : Date) : ℕ := {c : Date | ¬c.Before b ∧ c.Before a}.ncard

theorem daysFrom_eq (b a : Date) : daysFrom b a = (a.number - b.number).toNat := by
  rw [daysFrom, ← Set.ncard_image_of_injective _ number_injective, (bijOn_number b a).image_eq,
    Set.ncard_eq_toFinset_card', Set.toFinset_Ico, Int.card_Ico]

theorem number_sub_number (a b : Date) : a.number - b.number = daysFrom b a - daysFrom a b := by
  rw [daysFrom_eq, daysFrom_eq]
  omega

theorem exists_since (d e : Date) :
    ∃ n, ofInt? (d.number - e.number) = some n ∧ d.since e = ⟨n, .day⟩ := by
  have hd := abs_lt.mp d.abs_number_lt
  have he := abs_lt.mp e.abs_number_lt
  obtain ⟨n, hn, -⟩ := exists_ofInt? (n := d.number - e.number) (by rw [abs_lt]; omega)
  exact ⟨n, hn, by rw [since, hn, Option.getD_some]⟩

theorem wholeDays_since {a b : Date} {n : Decimal} (h : ofInt? (a.number - b.number) = some n) :
    wholeDays ⟨n, .day⟩ = .ok (a.number - b.number) := by
  have ha := abs_lt.mp a.abs_number_lt
  have hb := abs_lt.mp b.abs_number_lt
  exact wholeDays_of_toRat (toRat_of_ofInt? h) (by rw [abs_lt]; omega) rfl

theorem before_eq_shift (d : Date) (h : wholeDays p = .ok (a.number - b.number)) :
    d.before p = d.shift (b.number - a.number) := by
  have ha := abs_lt.mp a.abs_number_lt
  have hb := abs_lt.mp b.abs_number_lt
  rw [d.before_of_wholeDays h (by rw [abs_lt]; omega), neg_sub]

theorem exists_of_after (h : d.after p = .ok e) : wholeDays p = .ok (e.number - d.number) := by
  cases hdays : wholeDays p with
  | error x =>
    rw [after, hdays] at h
    cases h
  | ok k =>
    rw [d.after_of_wholeDays hdays, shift_eq_ok_iff] at h
    rw [h, add_sub_cancel_left]

end Date

namespace Value

theorem combine_date_sub_duration (d : Date) (p : Duration) (env : Environment) :
    combine (.date d) .subtract (.duration p) env = (d.before p).map date := rfl

theorem combine_dates {d e : Date} {n : Decimal} (h : ofInt? (d.number - e.number) = some n)
    (env : Environment) :
    combine (date d) .subtract (date e) env = .ok (duration ⟨n, .day⟩) := by
  obtain ⟨m, hm, hsince⟩ := d.exists_since e
  rw [← Option.some.inj (hm.symm.trans h), ← hsince]
  rfl

/-- The difference of two dates is the number of dates from the second on before the first, or less
than zero if the first is before the second. Added to the second it gives the first, and taken from
the first the second. A date that a duration has led to differs from the one before by the whole
days of the duration, and taking the duration away leads back. -/
theorem date_difference_and_shift (a b : Date) (env : Environment) :
    (∃ n m : Decimal, combine (date a) .subtract (date b) env = .ok (duration ⟨n, .day⟩) ∧
      ofInt? (Date.daysFrom b a - Date.daysFrom a b) = some n ∧
      (n.isBelowZero = true ↔ a.Before b) ∧
      combine (date b) .add (duration ⟨n, .day⟩) env = .ok (date a) ∧
      combine (date a) .subtract (duration ⟨n, .day⟩) env = .ok (date b) ∧
      combine (date b) .subtract (date a) env = .ok (duration ⟨m, .day⟩) ∧
      m.same n.neg = true) ∧
    ∀ p : Duration, combine (date b) .add (duration p) env = .ok (date a) →
      ∃ (k : ℤ) (n : Decimal), Date.wholeDays p = .ok k ∧ ofInt? k = some n ∧
        combine (date a) .subtract (date b) env = .ok (duration ⟨n, .day⟩) ∧
        combine (date a) .subtract (duration p) env = .ok (date b) := by
  obtain ⟨n, hn, -⟩ := a.exists_since b
  obtain ⟨m, hm, -⟩ := b.exists_since a
  have hback {p : Duration} (h : Date.wholeDays p = .ok (a.number - b.number)) :
      combine (date a) .subtract (duration p) env = .ok (date b) := by
    rw [combine_date_sub_duration, map_date_eq_ok, Date.before_eq_shift a h, Date.shift_eq_ok_iff]
    omega
  constructor
  · have hdays := Date.wholeDays_since hn
    refine ⟨n, m, combine_dates hn env, by rw [← Date.number_sub_number, hn], ?_, ?_, hback hdays,
      combine_dates hm env, ?_⟩
    · rw [isBelowZero_iff, toRat_of_ofInt? hn, Int.cast_lt_zero, sub_neg, Date.number_lt_iff]
    · rw [combine_date_duration, map_date_eq_ok, b.after_of_wholeDays hdays, Date.shift_eq_ok_iff]
      omega
    · rw [Decimal.same_iff, toRat_neg, toRat_of_ofInt? hn, toRat_of_ofInt? hm]
      push_cast
      ring
  · intro p hp
    rw [combine_date_duration, map_date_eq_ok] at hp
    have hdays := Date.exists_of_after hp
    exact ⟨_, n, hdays, hn, combine_dates hn env, hback hdays⟩

/-- Thirty-six hours lead one day on, to the 29th of February of the year -4, and back. -/
theorem date_difference_leap_day :
    combine (date ⟨-4, 2, 28, by decide⟩) .add (duration ⟨.ofLiteral 36 0, .hour⟩) .initial =
        .ok (date ⟨-4, 2, 29, by decide⟩) ∧
      combine (date ⟨-4, 2, 29, by decide⟩) .subtract (duration ⟨.ofLiteral 36 0, .hour⟩) .initial =
        .ok (date ⟨-4, 2, 28, by decide⟩) ∧
      ∃ n : Decimal, combine (date ⟨-4, 2, 29, by decide⟩) .subtract (date ⟨-4, 2, 28, by decide⟩)
        .initial = .ok (duration ⟨n, .day⟩) ∧ ofInt? 1 = some n := by
  have hadd : combine (date ⟨-4, 2, 28, by decide⟩) .add (duration ⟨.ofLiteral 36 0, .hour⟩)
      .initial = .ok (date ⟨-4, 2, 29, by decide⟩) := by rfl
  obtain ⟨k, n, hk, hn, hdifference, hback⟩ :=
    (date_difference_and_shift ⟨-4, 2, 29, by decide⟩ ⟨-4, 2, 28, by decide⟩ .initial).2 _ hadd
  have hone : Date.wholeDays ⟨.ofLiteral 36 0, .hour⟩ = .ok 1 := by rfl
  cases Except.ok.inj (hone.symm.trans hk)
  exact ⟨hadd, hback, n, hdifference, hn⟩

end Value
end Reckoner
