import Mathlib.Data.Int.ModEq
import Mathlib.Tactic.LinearCombination
import Reckoner.Proofs.Time.Additive
/-!
Differences of times. Main statement: adding the difference of two times to the second leads back to
the first exactly if the number of seconds between them survives being counted in minutes, which is
settled by its remainder modulo three and its size.
-/
namespace Reckoner

open Decimal

namespace TimeUnit

/-- Between two whole numbers a third apart from the nearer, that one is the nearest decimal. -/
theorem sub_nearest_div_sixty {m : ℕ} {d b : ℤ} (hd : |d| ≤ 1) (hm : (m : ℤ) + d = 3 * b)
    (hp : 2 ≤ placesFor ((m : ℚ) / 60)) :
    m - nearest ((m : ℚ) / 60) * 60 = 20 * d / 10 ^ placesFor ((m : ℚ) / 60) := by
  obtain ⟨k, hk⟩ := Nat.exists_eq_add_of_le' hp
  have hten : 1 ^ k ≡ 10 ^ k [ZMOD 3] := Int.ModEq.pow k (by decide)
  obtain ⟨a, ha⟩ := hten.dvd
  rw [one_pow] at ha
  -- The scaled quotient is the number of thirds `5 * m * 10 ^ k`, and that is `d` modulo three.
  have hthirds : 5 * (m : ℤ) * 10 ^ k = 3 * (5 * m * a + 2 * m - b) + d := by
    have h10 : (10 : ℤ) ^ k = 3 * a + 1 := by linarith
    rw [h10]
    linear_combination -hm
  have hscaled : (m : ℚ) / 60 * 10 ^ placesFor ((m : ℚ) / 60) =
      (5 * m * a + 2 * m - b : ℤ) + (d : ℚ) / 3 := by
    have h : 5 * (m : ℚ) * 10 ^ k = 3 * (5 * m * a + 2 * m - b : ℤ) + d := by
      exact_mod_cast hthirds
    rw [hk, pow_add]
    linear_combination h / 3
  have hnear : |(m : ℚ) / 60 * 10 ^ placesFor ((m : ℚ) / 60) -
      ((5 * m * a + 2 * m - b : ℤ) : ℚ)| < 1 / 2 := by
    have hd' : |(d : ℚ)| ≤ 1 := by exact_mod_cast hd
    rw [hscaled, add_sub_cancel_left, abs_div]
    norm_num
    linarith
  have hpow : (10 : ℚ) ^ placesFor ((m : ℚ) / 60) ≠ 0 := by positivity
  rw [nearest, halfEven_eq_of_lt hnear]
  rw [← sub_eq_iff_eq_add] at hscaled
  rw [← hscaled]
  field_simp
  ring

/-- Only a remainder of two loses anything, and that does not show when the count has room for two
places more than the seconds. -/
theorem keepsSeconds_minute_iff {m : ℕ} (hm : m ≤ 2 ^ 57) :
    minute.KeepsSeconds m ↔
      m % 3 ≠ 2 ∨ placesFor (m : ℚ) + 2 ≤ placesFor ((m : ℚ) / 60) := by
  have hp : 2 ≤ placesFor ((m : ℚ) / 60) := by
    have hm' : (m : ℚ) ≤ 2 ^ 57 := by exact_mod_cast hm
    apply le_placesFor (by norm_num)
    rw [abs_of_nonneg (by positivity), limit]
    linarith
  have hloss {d b : ℤ} (hd : |d| ≤ 1) (hb : (m : ℤ) + d = 3 * b) : minute.KeepsSeconds m ↔
      2 * (20 * d / 10 ^ placesFor ((m : ℚ) / 60)) * 10 ^ placesFor (m : ℚ) ≤ (1 : ℚ) := by
    rw [← sub_nearest_div_sixty hd hb hp, KeepsSeconds, Int.cast_natCast, Nat.abs_cast]
    norm_num [seconds]
  have hpow : (0 : ℚ) < 10 ^ placesFor ((m : ℚ) / 60) := by positivity
  -- The remainders nought, one and two lose nothing, gain something and lose something.
  have hcases : m % 3 = 0 ∨ m % 3 = 1 ∨ m % 3 = 2 := by omega
  rcases hcases with h | h | h
  · refine iff_of_true ((hloss (d := 0) (b := m / 3) (by norm_num) (by omega)).mpr ?_)
      (Or.inl (by omega))
    norm_num
  · refine iff_of_true ((hloss (d := -1) (b := m / 3) (by norm_num) (by omega)).mpr ?_)
      (Or.inl (by omega))
    have hneg : 2 * (20 * ((-1 : ℤ) : ℚ) / 10 ^ placesFor ((m : ℚ) / 60)) ≤ 0 := by
      push_cast
      rw [mul_neg_one, neg_div]
      have : (0 : ℚ) ≤ 20 / 10 ^ placesFor ((m : ℚ) / 60) := by positivity
      linarith
    exact (mul_nonpos_of_nonpos_of_nonneg hneg (by positivity)).trans zero_le_one
  · rw [hloss (d := 1) (b := m / 3 + 1) (by norm_num) (by omega)]
    have hscale : 2 * (20 * ((1 : ℤ) : ℚ) / 10 ^ placesFor ((m : ℚ) / 60)) * 10 ^ placesFor (m : ℚ) =
        40 * 10 ^ placesFor (m : ℚ) / 10 ^ placesFor ((m : ℚ) / 60) := by
      push_cast
      ring
    rw [hscale, div_le_one hpow]
    simp only [h, ne_eq, not_true_eq_false, false_or]
    -- Forty lies between ten and a hundred.
    constructor
    · intro hle
      by_contra hlt
      have hmono : (10 : ℚ) ^ placesFor ((m : ℚ) / 60) ≤ 10 ^ (placesFor (m : ℚ) + 1) :=
        pow_le_pow_right₀ (by norm_num) (by omega)
      rw [pow_succ] at hmono
      have hpos : (0 : ℚ) < 10 ^ placesFor (m : ℚ) := by positivity
      linarith
    · intro hle
      have hmono : (10 : ℚ) ^ (placesFor (m : ℚ) + 2) ≤ 10 ^ placesFor ((m : ℚ) / 60) :=
        pow_le_pow_right₀ (by norm_num) hle
      have hpos : (0 : ℚ) < 10 ^ placesFor (m : ℚ) := by positivity
      rw [pow_add] at hmono
      linarith

/-- Whether a number of seconds survives being counted in minutes: unless its remainder modulo three
is two, or it lies in one of the ranges where the minutes have room for two places more. -/
def Survives (m : ℕ) : Prop :=
  m % 3 ≠ 2 ∨ (80 ≤ m ∧ m ≤ 475) ∨ (793 ≤ m ∧ m ≤ 4753) ∨ (7923 ≤ m ∧ m ≤ 47536) ∨
    (79229 ≤ m ∧ m ≤ 475368) ∨ 792282 ≤ m

instance (m : ℕ) : Decidable (Survives m) := inferInstanceAs (Decidable (_ ∨ _))

theorem placesFor_natCast {m p : ℕ} (hp : p ≤ 28) (h : m * 10 ^ p < 2 ^ 96)
    (hmax : p = 28 ∨ 2 ^ 96 ≤ m * 10 ^ (p + 1)) : placesFor (m : ℚ) = p := by
  apply placesFor_eq hp
  · have h' : (m : ℚ) * 10 ^ p ≤ 2 ^ 96 - 1 := by
      rw [le_sub_iff_add_le]
      exact_mod_cast h
    rw [Nat.abs_cast, limit]
    linarith
  · refine hmax.imp_right fun hmax => ?_
    have h' : (2 : ℚ) ^ 96 ≤ m * 10 ^ (p + 1) := by exact_mod_cast hmax
    rw [Nat.abs_cast, limit]
    linarith

theorem le_placesFor_div_sixty {m p : ℕ} (hm : m ≤ 2 ^ 57) :
    p ≤ placesFor ((m : ℚ) / 60) ↔ p ≤ 28 ∧ m * 10 ^ p + 30 < 60 * 2 ^ 96 := by
  have habs : |(m : ℚ) / 60| * 10 ^ p < limit ↔ m * 10 ^ p + 30 < 60 * 2 ^ 96 := by
    have h : (m : ℚ) * 10 ^ p + 30 < 60 * 2 ^ 96 ↔ m * 10 ^ p + 30 < 60 * 2 ^ 96 := by
      exact_mod_cast Iff.rfl
    rw [← h, abs_of_nonneg (by positivity), limit]
    constructor <;> intro h <;> linarith
  have hr : InRange ((m : ℚ) / 60) := by
    have hm' : (m : ℚ) ≤ 2 ^ 57 := by exact_mod_cast hm
    rw [InRange, abs_of_nonneg (by positivity), limit]
    linarith
  constructor
  · intro h
    exact ⟨h.trans (placesFor_le _), habs.mp (scaled_lt_limit hr h)⟩
  · rintro ⟨h28, h⟩
    exact le_placesFor h28 (habs.mpr h)

theorem keepsSeconds_minute_iff_survives {m : ℕ} (hm : m < 4753689) :
    minute.KeepsSeconds m ↔ Survives m := by
  rw [keepsSeconds_minute_iff (by omega), le_placesFor_div_sixty (by omega), Survives]
  -- How many places there are for the seconds is a matter of how many digits they have.
  rcases lt_or_ge m 8 with h | h
  · rw [placesFor_natCast (p := 28) (by norm_num) (by omega) (Or.inl rfl)]
    omega
  rcases lt_or_ge m 80 with h | h
  · rw [placesFor_natCast (p := 27) (by norm_num) (by omega) (Or.inr (by omega))]
    omega
  rcases lt_or_ge m 793 with h | h
  · rw [placesFor_natCast (p := 26) (by norm_num) (by omega) (Or.inr (by omega))]
    omega
  rcases lt_or_ge m 7923 with h | h
  · rw [placesFor_natCast (p := 25) (by norm_num) (by omega) (Or.inr (by omega))]
    omega
  rcases lt_or_ge m 79229 with h | h
  · rw [placesFor_natCast (p := 24) (by norm_num) (by omega) (Or.inr (by omega))]
    omega
  rcases lt_or_ge m 792282 with h | h
  · rw [placesFor_natCast (p := 23) (by norm_num) (by omega) (Or.inr (by omega))]
    omega
  · rw [placesFor_natCast (p := 22) (by norm_num) (by omega) (Or.inr (by omega))]
    omega

end TimeUnit
namespace TimeOfDay

variable {a b : TimeOfDay}

theorem toRat_ofInt? {n : ℤ} (hn : |n| < 2 ^ 96) :
    ((Decimal.ofInt? n).getD .zero).toRat = n := by
  obtain ⟨x, hx, hval⟩ := Decimal.exists_ofInt? hn
  rw [hx, Option.getD_some, hval]

theorem Valid.natAbs_sub_lt (ha : a.Valid) (hb : b.Valid) :
    (a.universalSecond - b.universalSecond).natAbs < 4753689 := by
  have hal := ha.secondOfDay_bounds.1
  have hau := ha.secondOfDay_lt
  have hbl := hb.secondOfDay_bounds.1
  have hbu := hb.secondOfDay_lt
  have hao := ha.le_offset
  have hao' := ha.offset_lt
  have hbo := hb.le_offset
  have hbo' := hb.offset_lt
  rw [universalSecond, universalSecond]
  omega

theorem counts_since (h : |a.universalSecond - b.universalSecond| < 2 ^ 96) :
    (a.since b).Counts (a.universalSecond - b.universalSecond) :=
  Duration.counts_ofSeconds (toRat_ofInt? h) .minute

end TimeOfDay

/-- The difference of two times can always be added to the second, and the sum has its offset. It is
the first time of day, as universal time counts it, exactly if the seconds between the two survive
being counted in minutes. -/
theorem Value.time_add_difference_iff (a b : TimeOfDay) (env : Environment) (ha : a.Valid)
    (hb : b.Valid) :
    ∃ d t, combine (time a) .subtract (time b) env = .ok (duration d) ∧
      combine (time b) .add (duration d) env = .ok (time t) ∧ t.offset = b.offset ∧
      (t.universalSecond ≡ a.universalSecond [ZMOD 86400] ↔
        TimeUnit.Survives (a.universalSecond - b.universalSecond).natAbs) := by
  have hlt := ha.natAbs_sub_lt hb
  have habs : |a.universalSecond - b.universalSecond| ≤ 2 ^ 57 := by
    rw [Int.abs_eq_natAbs]
    omega
  obtain ⟨t, ht, -, hval, hoff⟩ := hb.exists_after
    (TimeOfDay.counts_since (a := a) (b := b) (by omega)) habs
  refine ⟨a.since b, t, rfl, by rw [combine_time_duration, ht]; rfl, hoff, ?_⟩
  have hkeeps : TimeUnit.minute.KeepsSeconds (a.universalSecond - b.universalSecond) ↔
      TimeUnit.Survives (a.universalSecond - b.universalSecond).natAbs := by
    rw [← TimeUnit.keepsSeconds_minute_iff_survives hlt]
    rcases Int.natAbs_eq (a.universalSecond - b.universalSecond) with h | h
    · rw [← h]
    · rw [h, TimeUnit.keepsSeconds_neg, Int.natAbs_neg, Int.natAbs_natCast]
  have hkept := TimeUnit.minute.abs_keptSeconds_sub_le (a.universalSecond - b.universalSecond)
  rw [← hkeeps, ← TimeUnit.keptSeconds_eq_iff]
  have hunit : (a.since b).unit = .minute := rfl
  have hat : t.universalSecond =
      (b.secondOfDay + TimeUnit.minute.keptSeconds (a.universalSecond - b.universalSecond)) %
        86400 - b.offset.getD 0 * 60 := by
    rw [TimeOfDay.universalSecond, hval, hoff, hunit]
  have hb' : b.universalSecond = b.secondOfDay - b.offset.getD 0 * 60 := rfl
  -- A second lost is less than a day, so it does not come round again.
  rw [abs_le] at hkept
  rw [Int.ModEq, hat]
  omega

/-- A minute and three seconds survive, also between two offsets. -/
theorem Value.time_add_difference_survives :
    ∃ d t, combine (time ⟨9, 1, some 3, some 120⟩) .subtract (time ⟨1, 0, none, some (-360)⟩)
        .initial = .ok (duration d) ∧
      combine (time ⟨1, 0, none, some (-360)⟩) .add (duration d) .initial = .ok (time t) ∧
      t.offset = some (-360) ∧
      t.universalSecond ≡ TimeOfDay.universalSecond ⟨9, 1, some 3, some 120⟩ [ZMOD 86400] := by
  obtain ⟨d, t, hd, ht, hoff, hiff⟩ :=
    time_add_difference_iff ⟨9, 1, some 3, some 120⟩ ⟨1, 0, none, some (-360)⟩ .initial
      ⟨⟨by decide, by decide, by decide, by decide, by decide⟩, by decide, by decide, by decide⟩
      ⟨⟨by decide, by decide, by decide, by decide, by decide⟩, by decide, by decide, by decide⟩
  exact ⟨d, t, hd, ht, hoff, hiff.mpr (by decide)⟩

/-- A minute and two seconds do not: from midnight the difference leads to 00:01:01. -/
theorem Value.time_add_difference_loses_second :
    ((combine (time ⟨0, 1, some 2, none⟩) .subtract (time ⟨0, 0, none, none⟩) .initial).bind
      fun d => combine (time ⟨0, 0, none, none⟩) .add d .initial) =
        .ok (time ⟨0, 1, some 1, none⟩) ∧
    ¬TimeOfDay.universalSecond ⟨0, 1, some 1, none⟩ ≡
      TimeOfDay.universalSecond ⟨0, 1, some 2, none⟩ [ZMOD 86400] :=
  ⟨by rfl, by decide⟩

end Reckoner
