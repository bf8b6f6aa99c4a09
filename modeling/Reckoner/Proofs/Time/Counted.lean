import Mathlib.Tactic.Linarith
import Mathlib.Tactic.NormNum
import Reckoner.Proofs.Decimal.Divided
import Reckoner.Calendar.Date
/-!
A number of seconds counted in a unit of time. Main statements: the whole seconds and the whole days
that a counted length turns into, and when they are the ones that were counted.
-/
namespace Reckoner

open Decimal

namespace TimeUnit

@[simp] theorem toRat_length (u : TimeUnit) : u.length.toRat = u.seconds := by
  rw [toRat_eq]
  simp [length]

theorem one_le_seconds (u : TimeUnit) : (1 : ℚ) ≤ u.seconds := by exact_mod_cast u.seconds_pos

theorem cast_seconds_pos (u : TimeUnit) : (0 : ℚ) < u.seconds :=
  zero_lt_one.trans_le u.one_le_seconds

theorem cast_seconds_le (u : TimeUnit) : (u.seconds : ℚ) ≤ 31536000 := by
  exact_mod_cast u.seconds_le

theorem hasQuotient_length (n : Decimal) (u : TimeUnit) : HasQuotient n u.length := by
  apply hasQuotient_of_one_le
  rw [toRat_length, Nat.abs_cast]
  exact u.one_le_seconds

theorem toRat_dividedBy_length (n : Decimal) (u : TimeUnit) :
    (n.dividedBy u.length).toRat = nearest (n.toRat / u.seconds) := by
  rw [(hasQuotient_length n u).toRat_dividedBy, toRat_length]

/-- What a number of seconds becomes when it is counted in a unit and turned into seconds again. -/
def through (u : TimeUnit) (x : ℚ) : ℚ := nearest (nearest (x / u.seconds) * u.seconds)

@[simp] theorem through_neg (u : TimeUnit) (x : ℚ) : u.through (-x) = -u.through x := by
  rw [through, neg_div, nearest_neg, neg_mul, nearest_neg, through]

@[simp] theorem through_zero (u : TimeUnit) : u.through 0 = 0 := by simp [through]

/-- Counting `s` seconds in the unit loses no more than half a unit in the last place that a
decimal of the size of `s` has. -/
def KeepsSeconds (u : TimeUnit) (s : ℤ) : Prop :=
  2 * (|(s : ℚ)| - nearest (|(s : ℚ)| / u.seconds) * u.seconds) * 10 ^ placesFor (s : ℚ) ≤ 1

/-- Counting `n` days in the unit and turning them into seconds again loses no more than half a unit
in the last place that a decimal of the size of `n` has. -/
def KeepsDays (u : TimeUnit) (n : ℤ) : Prop :=
  2 * (|(n : ℚ)| - u.through (|(n : ℚ)| * 86400) / 86400) * 10 ^ placesFor (n : ℚ) ≤ 1

instance (u : TimeUnit) (s : ℤ) : Decidable (u.KeepsSeconds s) :=
  inferInstanceAs (Decidable (_ ≤ _))

instance (u : TimeUnit) (n : ℤ) : Decidable (u.KeepsDays n) :=
  inferInstanceAs (Decidable (_ ≤ _))

@[simp] theorem keepsSeconds_neg (u : TimeUnit) (s : ℤ) :
    u.KeepsSeconds (-s) ↔ u.KeepsSeconds s := by
  simp only [KeepsSeconds, Int.cast_neg, abs_neg, placesFor_neg]

@[simp] theorem keepsDays_neg (u : TimeUnit) (n : ℤ) : u.KeepsDays (-n) ↔ u.KeepsDays n := by
  simp only [KeepsDays, Int.cast_neg, abs_neg, placesFor_neg]

/-- A count that ends within the places there are is exact. -/
theorem nearest_div_of_dvd (u : TimeUnit) {s : ℤ} {k : ℕ} (hk : k ≤ 28)
    (h : (u.seconds : ℤ) ∣ s * 10 ^ k) (hs : |s| * 10 ^ k < 2 ^ 96) :
    nearest (|(s : ℚ)| / u.seconds) = |(s : ℚ)| / u.seconds := by
  obtain ⟨c, hc⟩ := h
  have hpos := u.cast_seconds_pos.ne'
  have habs : |s| * 10 ^ k = u.seconds * |c| := by
    have := congrArg (fun i : ℤ => |i|) hc
    simpa [abs_mul] using this
  have hval : |(s : ℚ)| * 10 ^ k = u.seconds * (|c| : ℤ) := by exact_mod_cast habs
  apply nearest_eq_self (c := |c|) hk
  · rw [div_mul_eq_mul_div, hval, mul_div_cancel_left₀ _ hpos]
  · have h1 : (1 : ℤ) ≤ u.seconds := by exact_mod_cast u.seconds_pos
    rw [abs_abs]
    nlinarith [abs_nonneg c]

theorem keepsSeconds_of_dvd (u : TimeUnit) {s : ℤ} {k : ℕ} (hk : k ≤ 28)
    (h : (u.seconds : ℤ) ∣ s * 10 ^ k) (hs : |s| * 10 ^ k < 2 ^ 96) : u.KeepsSeconds s := by
  have hpos := u.cast_seconds_pos.ne'
  rw [KeepsSeconds, u.nearest_div_of_dvd hk h hs, div_mul_cancel₀ _ hpos]
  norm_num

theorem keepsDays_of_dvd (u : TimeUnit) {n : ℤ} {k : ℕ} (hk : k ≤ 28)
    (h : (u.seconds : ℤ) ∣ n * 86400 * 10 ^ k) (hn : |n * 86400| * 10 ^ k < 2 ^ 96) :
    u.KeepsDays n := by
  have hpos := u.cast_seconds_pos.ne'
  have hcount := u.nearest_div_of_dvd hk h hn
  have hone : |n * 86400| < 2 ^ 96 := by
    have : (1 : ℤ) ≤ 10 ^ k := one_le_pow₀ (by norm_num)
    nlinarith [abs_nonneg (n * 86400)]
  have hself := nearest_intCast (c := |n * 86400|) (by rwa [abs_abs])
  have hcast : ((n * 86400 : ℤ) : ℚ) = n * 86400 := by push_cast; ring
  rw [Int.cast_abs] at hself
  rw [hcast, abs_mul, abs_of_pos (by norm_num : (0 : ℚ) < 86400)] at hcount hself
  rw [KeepsDays, through, hcount, div_mul_cancel₀ _ hpos, hself]
  norm_num

/-- The whole seconds in `s` seconds counted in the unit: one too few if the counting loses any. -/
def keptSeconds (u : TimeUnit) (s : ℤ) : ℤ := if u.KeepsSeconds s then s else s - s.sign

/-- The whole days in `n` days counted in the unit: one too few if the counting loses any. -/
def keptDays (u : TimeUnit) (n : ℤ) : ℤ := if u.KeepsDays n then n else n - n.sign

@[simp] theorem keptSeconds_neg (u : TimeUnit) (s : ℤ) :
    u.keptSeconds (-s) = -u.keptSeconds s := by
  simp only [keptSeconds, keepsSeconds_neg, Int.sign_neg]
  split <;> ring

@[simp] theorem keptDays_neg (u : TimeUnit) (n : ℤ) : u.keptDays (-n) = -u.keptDays n := by
  simp only [keptDays, keepsDays_neg, Int.sign_neg]
  split <;> ring

theorem keepsSeconds_zero (u : TimeUnit) : u.KeepsSeconds 0 := by simp [KeepsSeconds]

theorem keepsDays_zero (u : TimeUnit) : u.KeepsDays 0 := by simp [KeepsDays]

theorem keptSeconds_eq_iff (u : TimeUnit) (s : ℤ) : u.keptSeconds s = s ↔ u.KeepsSeconds s := by
  unfold keptSeconds
  split
  · next h => exact iff_of_true rfl h
  · next h =>
    refine iff_of_false (fun he => h ?_) h
    have hz : s = 0 := Int.sign_eq_zero_iff_zero.mp (by omega)
    rw [hz]
    exact u.keepsSeconds_zero

theorem keptDays_eq_iff (u : TimeUnit) (n : ℤ) : u.keptDays n = n ↔ u.KeepsDays n := by
  unfold keptDays
  split
  · next h => exact iff_of_true rfl h
  · next h =>
    refine iff_of_false (fun he => h ?_) h
    have hz : n = 0 := Int.sign_eq_zero_iff_zero.mp (by omega)
    rw [hz]
    exact u.keepsDays_zero

theorem abs_keptSeconds_sub_le (u : TimeUnit) (s : ℤ) : |u.keptSeconds s - s| ≤ 1 := by
  have hsign := s.sign_trichotomy
  unfold keptSeconds
  rw [abs_le]
  split <;> omega

theorem abs_keptDays_sub_le (u : TimeUnit) (n : ℤ) : |u.keptDays n - n| ≤ 1 := by
  have hsign := n.sign_trichotomy
  unfold keptDays
  rw [abs_le]
  split <;> omega

/-- Counting changes less than an eighth of a second, and counting back less than another. -/
theorem abs_through_sub_lt (u : TimeUnit) {s : ℤ} (hs : |s| ≤ 2 ^ 57) :
    |nearest (s / u.seconds) * u.seconds - s| < 1 / 8 ∧ |u.through s - s| < 1 / 4 := by
  have h1 := u.one_le_seconds
  have hL := u.cast_seconds_le
  have hpos := u.cast_seconds_pos
  have hx : |(s : ℚ)| ≤ 2 ^ 57 := by exact_mod_cast hs
  have hq : |s / (u.seconds : ℚ)| ≤ 2 ^ 57 := by
    rw [abs_div, abs_of_pos hpos]
    exact (div_le_self (abs_nonneg _) h1).trans hx
  -- Eleven places are left for a count of this size, against a unit below `10 ^ 8` seconds.
  have hcount : |nearest (s / u.seconds) * u.seconds - s| < 1 / 8 := by
    have he := abs_nearest_sub_le_of_lt (x := s / u.seconds) (k := 11) (by norm_num)
      (by rw [limit]; norm_num at hq ⊢; linarith)
    have hm : nearest (s / u.seconds) * u.seconds - s =
        (nearest (s / u.seconds) - s / u.seconds) * u.seconds := by
      field_simp
    rw [hm, abs_mul, abs_of_pos hpos]
    norm_num at he ⊢
    nlinarith
  refine ⟨hcount, ?_⟩
  have hr : |nearest (s / u.seconds) * u.seconds| ≤ 2 ^ 57 + 1 := by
    have := abs_sub_abs_le_abs_sub (nearest (s / u.seconds) * u.seconds) s
    linarith
  have he := abs_nearest_sub_le_of_lt (x := nearest (s / u.seconds) * u.seconds) (k := 11)
    (by norm_num) (by rw [limit]; norm_num at hr ⊢; linarith)
  have ht := abs_sub_le (u.through s) (nearest (s / u.seconds) * u.seconds) s
  norm_num [through] at he ht ⊢
  linarith

theorem natCast_fits {n : ℕ} (hn : n ≤ 2 ^ 57) : (n : ℚ) * 10 < limit := by
  have h : (n : ℚ) ≤ 2 ^ 57 := by exact_mod_cast hn
  rw [limit]
  linarith

theorem sub_sign_natCast {n : ℕ} (hn : n ≠ 0) : (n : ℤ) - (n : ℤ).sign = n - 1 := by
  rw [Int.sign_eq_one_of_pos (by omega)]

theorem towardZero_through_natCast (u : TimeUnit) {n : ℕ} (hn : n ≤ 2 ^ 57) :
    towardZero (u.through n) = u.keptSeconds n := by
  have hnear := (u.abs_through_sub_lt (s := n) (by rw [Nat.abs_cast]; exact_mod_cast hn)).2
  rw [Int.cast_natCast] at hnear
  have hkeeps : u.KeepsSeconds n ↔ (n : ℚ) ≤ u.through n := by
    rw [through, natCast_le_nearest_iff (natCast_fits hn), KeepsSeconds, Int.cast_natCast,
      Nat.abs_cast]
  rw [towardZero_of_near (by linarith) (by rintro rfl; simp), keptSeconds]
  by_cases hk : u.KeepsSeconds n
  · rw [if_pos (hkeeps.mp hk), if_pos hk]
  · rw [if_neg (fun h => hk (hkeeps.mpr h)), if_neg hk, sub_sign_natCast]
    rintro rfl
    exact hk u.keepsSeconds_zero

/-- What is left of a counted length when the fraction of a second is cut off. -/
theorem towardZero_through (u : TimeUnit) {s : ℤ} (hs : |s| ≤ 2 ^ 57) :
    towardZero (u.through s) = u.keptSeconds s := by
  obtain ⟨n, rfl | rfl⟩ := s.eq_nat_or_neg
  · exact u.towardZero_through_natCast (by rw [Nat.abs_cast] at hs; exact_mod_cast hs)
  · rw [abs_neg, Nat.abs_cast] at hs
    push_cast
    rw [through_neg, towardZero_neg, u.towardZero_through_natCast (by exact_mod_cast hs),
      keptSeconds_neg]

theorem towardZero_days_natCast (u : TimeUnit) {n : ℕ} (hn : n * 86400 ≤ 2 ^ 57) :
    towardZero (nearest (u.through (n * 86400) / 86400)) = u.keptDays n := by
  have hnear := (u.abs_through_sub_lt (s := n * 86400)
    (by rw [abs_of_nonneg (by positivity)]; exact_mod_cast hn)).2
  push_cast at hnear
  have hkeeps : u.KeepsDays n ↔ (n : ℚ) ≤ nearest (u.through (n * 86400) / 86400) := by
    rw [natCast_le_nearest_iff (natCast_fits (by omega)), KeepsDays, Int.cast_natCast, Nat.abs_cast]
  have hday : |u.through (n * 86400) / 86400 - n| < 1 / 4 := by
    rw [abs_lt] at hnear ⊢
    constructor <;> linarith
  have hbound : |u.through (n * 86400) / 86400| * 10 ^ 9 < limit := by
    have hle := abs_sub_abs_le_abs_sub (u.through (n * 86400) / 86400) n
    have hn' : (n : ℚ) * 86400 ≤ 2 ^ 57 := by exact_mod_cast hn
    rw [Nat.abs_cast] at hle
    rw [limit]
    linarith
  have herr := abs_nearest_sub_le_of_lt (by norm_num) hbound
  have htri := abs_sub_le (nearest (u.through (n * 86400) / 86400))
    (u.through (n * 86400) / 86400) n
  norm_num at herr
  rw [towardZero_of_near (n := n) (by linarith) (by rintro rfl; simp), keptDays]
  by_cases hk : u.KeepsDays n
  · rw [if_pos (hkeeps.mp hk), if_pos hk]
  · rw [if_neg (fun h => hk (hkeeps.mpr h)), if_neg hk, sub_sign_natCast]
    rintro rfl
    exact hk u.keepsDays_zero

/-- What is left of a counted length of whole days when the fraction of a day is cut off. -/
theorem towardZero_days (u : TimeUnit) {n : ℤ} (hn : |n * 86400| ≤ 2 ^ 57) :
    towardZero (nearest (u.through (n * 86400) / 86400)) = u.keptDays n := by
  rw [abs_le] at hn
  obtain ⟨k, rfl | rfl⟩ := n.eq_nat_or_neg
  · exact_mod_cast u.towardZero_days_natCast (n := k) (by omega)
  · push_cast
    rw [neg_mul, through_neg, neg_div, nearest_neg, towardZero_neg,
      u.towardZero_days_natCast (by omega), keptDays_neg]

end TimeUnit

namespace Duration

/-- The duration is `s` seconds long, counted in its unit. -/
def Counts (d : Duration) (s : ℤ) : Prop := d.value.toRat = nearest (s / d.unit.seconds)

variable {d : Duration} {s : ℤ}

/-- The length in seconds is rounded as any product is, and there is one just if it is in range. -/
theorem map_toRat_seconds (d : Duration) :
    (d.value.mul d.unit.length).map toRat = nearest? (d.value.toRat * d.unit.seconds) := by
  rw [map_toRat_mul, TimeUnit.toRat_length]

theorem seconds_eq_ok_iff {a : Decimal} :
    d.seconds = .ok a ↔ d.value.mul d.unit.length = some a := by
  rw [seconds]
  cases d.value.mul d.unit.length <;> simp [orError]

/-- A whole number of units is counted without a rounding. -/
theorem counts_of_toRat {m : ℤ} (h : d.value.toRat = m) : d.Counts (m * d.unit.seconds) := by
  have hpos := d.unit.cast_seconds_pos.ne'
  rw [Counts]
  push_cast
  rw [mul_div_cancel_right₀ _ hpos, ← h, nearest_toRat]

theorem Counts.exists_seconds (h : d.Counts s) (hs : |s| ≤ 2 ^ 57) :
    ∃ n, d.seconds = .ok n ∧ n.toRat = d.unit.through s := by
  have hmul := d.map_toRat_seconds
  rw [h] at hmul
  have hnear := (d.unit.abs_through_sub_lt hs).1
  have hle := abs_sub_abs_le_abs_sub (nearest (s / d.unit.seconds) * d.unit.seconds) s
  have hs' : |(s : ℚ)| ≤ 2 ^ 57 := by exact_mod_cast hs
  have hr : InRange (nearest (s / d.unit.seconds) * d.unit.seconds) := by
    rw [InRange, limit]
    linarith
  obtain ⟨n, hn, hval⟩ := exists_of_map_toRat hmul hr
  exact ⟨n, seconds_eq_ok_iff.mpr hn, hval⟩

theorem Counts.wholeSeconds_eq (h : d.Counts s) (hs : |s| ≤ 2 ^ 57) :
    TimeOfDay.wholeSeconds d = .ok (d.unit.keptSeconds s) := by
  obtain ⟨n, hn, hval⟩ := h.exists_seconds hs
  have hcut := d.unit.towardZero_through hs
  rw [← hval] at hcut
  have hkept := d.unit.abs_keptSeconds_sub_le s
  rw [abs_le] at hs hkept
  rw [TimeOfDay.wholeSeconds, hn]
  show orError n.toInt64? _ = _
  rw [toInt64?_eq, hcut, if_pos (by omega), orError]

theorem Counts.wholeDays_eq {n : ℤ} (h : d.Counts (n * 86400)) (hn : |n * 86400| ≤ 2 ^ 57) :
    Date.wholeDays d = .ok (d.unit.keptDays n) := by
  obtain ⟨a, ha, hval⟩ := h.exists_seconds hn
  have hcut := d.unit.towardZero_days hn
  have hdiv := TimeUnit.toRat_dividedBy_length a .day
  rw [hval] at hdiv
  push_cast [TimeUnit.seconds] at hdiv
  rw [← hdiv] at hcut
  have hkept := d.unit.abs_keptDays_sub_le n
  rw [abs_le] at hn hkept
  rw [Date.wholeDays, ha]
  show orError (a.dividedBy TimeUnit.day.length).toInt64? _ = _
  rw [toInt64?_eq, hcut, if_pos (by omega), orError]

theorem counts_ofSeconds {n : Decimal} (h : n.toRat = s) (u : TimeUnit) :
    (ofSeconds n u).Counts s := by
  rw [Counts, ofSeconds, TimeUnit.toRat_dividedBy_length, h]

end Duration
end Reckoner
