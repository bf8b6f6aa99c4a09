import Reckoner.Proofs.Decimal.Divided
import Reckoner.Proofs.Text.Letters
import Reckoner.Proofs.Value.Reconvert
/-!
Money that is exchanged for another currency and back again. Main statement: with a rate that was
declared in one direction only, the amount that comes back is within a thousandth of the first one,
as long as amounts and rate stay four digits short of what a decimal can hold.
-/
namespace Reckoner

open Decimal

namespace Decimal

theorem abs_le_add_abs_sub (a b : ℚ) : |a| ≤ |b| + |a - b| := by
  have h := abs_sub_abs_le_abs_sub a b
  linarith

/-- A product of two approximate factors, by what either of them is off. -/
theorem abs_mul_sub_mul_le (a a' b b' : ℚ) :
    |a' * b' - a * b| ≤ |a' - a| * |b| + |a'| * |b' - b| := by
  have hsplit : a' * b' - a * b = (a' - a) * b + a' * (b' - b) := by ring
  rw [hsplit, ← abs_mul, ← abs_mul]
  exact abs_add_le _ _

/-- An amount, what it comes to at a rate, and the inverse of the rate: all leave room for four
decimal places. -/
structure Exchangeable (x r : ℚ) : Prop where
  le_rate : 1 / 10 ^ 24 ≤ r
  amount_le : |x| ≤ 10 ^ 24
  product_le : |x| * r ≤ 10 ^ 24

namespace Exchangeable

variable {x r : ℚ} (h : Exchangeable x r)
include h

theorem rate_pos : 0 < r :=
  lt_of_lt_of_le (by positivity) h.le_rate

theorem inverse_le : 1 / r ≤ 10 ^ 24 := by
  rw [div_le_comm₀ h.rate_pos (by positivity)]
  exact h.le_rate

theorem abs_product : |x * r| = |x| * r := by
  rw [abs_mul, abs_of_pos h.rate_pos]

theorem abs_product_mul : |x * r| * (1 / r) = |x| := by
  rw [h.abs_product, mul_one_div, mul_div_cancel_right₀ _ h.rate_pos.ne']

/-- What is lost on the way there, counted in the currency that the amount comes from. -/
theorem abs_there_sub_mul_le : |nearest (x * r) - x * r| * (1 / r) ≤ 7 / 60000 := by
  have hr := h.rate_pos
  calc |nearest (x * r) - x * r| * (1 / r)
      ≤ (1 / 2 + 2 / 3 * |x * r|) / 10 ^ 28 * (1 / r) := by
        gcongr
        exact abs_nearest_sub_le_size _
    _ = (1 / 2 * (1 / r) + 2 / 3 * (|x * r| * (1 / r))) / 10 ^ 28 := by ring
    _ = (1 / 2 * (1 / r) + 2 / 3 * |x|) / 10 ^ 28 := by rw [h.abs_product_mul]
    _ ≤ (1 / 2 * 10 ^ 24 + 2 / 3 * 10 ^ 24) / 10 ^ 28 := by
        gcongr
        · exact h.inverse_le
        · exact h.amount_le
    _ = 7 / 60000 := by norm_num

theorem abs_there_le : |nearest (x * r)| ≤ 10 ^ 24 + 1 := by
  have hproduct : |x * r| ≤ 10 ^ 24 := h.abs_product.trans_le h.product_le
  calc |nearest (x * r)| ≤ |x * r| + |nearest (x * r) - x * r| := abs_le_add_abs_sub _ _
    _ ≤ 10 ^ 24 + (1 / 2 + 2 / 3 * 10 ^ 24) / 10 ^ 28 := by
        gcongr
        exact (abs_nearest_sub_le_size _).trans (by gcongr)
    _ ≤ 10 ^ 24 + 1 := by norm_num

theorem abs_there_mul_le : |nearest (x * r)| * (1 / r) ≤ 10 ^ 24 + 1 := by
  have hr := h.rate_pos
  calc |nearest (x * r)| * (1 / r)
      ≤ (|x * r| + |nearest (x * r) - x * r|) * (1 / r) := by
        gcongr
        exact abs_le_add_abs_sub _ _
    _ = |x| + |nearest (x * r) - x * r| * (1 / r) := by rw [add_mul, h.abs_product_mul]
    _ ≤ 10 ^ 24 + 7 / 60000 := add_le_add h.amount_le h.abs_there_sub_mul_le
    _ ≤ 10 ^ 24 + 1 := by norm_num

/-- What the rounded inverse does to the amount on the way back. -/
theorem abs_there_mul_sub_le :
    |nearest (x * r)| * |nearest (1 / r) - 1 / r| ≤ 1 / 5000 := by
  have hinverse : |1 / r| = 1 / r := abs_of_pos (one_div_pos.mpr h.rate_pos)
  calc |nearest (x * r)| * |nearest (1 / r) - 1 / r|
      ≤ |nearest (x * r)| * ((1 / 2 + 2 / 3 * |1 / r|) / 10 ^ 28) := by
        gcongr
        exact abs_nearest_sub_le_size _
    _ = (1 / 2 * |nearest (x * r)| + 2 / 3 * (|nearest (x * r)| * (1 / r))) / 10 ^ 28 := by
        rw [hinverse]
        ring
    _ ≤ (1 / 2 * (10 ^ 24 + 1) + 2 / 3 * (10 ^ 24 + 1)) / 10 ^ 28 := by
        gcongr
        · exact h.abs_there_le
        · exact h.abs_there_mul_le
    _ ≤ 1 / 5000 := by norm_num

/-- There and back, before the last rounding. -/
theorem abs_back_sub_le : |nearest (x * r) * nearest (1 / r) - x| ≤ 19 / 60000 := by
  have hx : x * r * (1 / r) = x := by
    rw [mul_one_div, mul_div_cancel_right₀ _ h.rate_pos.ne']
  -- Both factors are rounded, and what either of them loses has its bound.
  have hfactors := abs_mul_sub_mul_le (x * r) (nearest (x * r)) (1 / r) (nearest (1 / r))
  rw [hx, abs_of_pos (one_div_pos.mpr h.rate_pos)] at hfactors
  linarith [h.abs_there_sub_mul_le, h.abs_there_mul_sub_le]

theorem abs_back_le : |nearest (x * r) * nearest (1 / r)| ≤ 10 ^ 24 + 1 := by
  have htriangle := abs_le_add_abs_sub (nearest (x * r) * nearest (1 / r)) x
  linarith [h.abs_back_sub_le, h.amount_le]

theorem inRange_there : InRange (x * r) := by
  rw [InRange, h.abs_product]
  exact h.product_le.trans_lt (by rw [limit]; norm_num)

theorem inRange_back : InRange (nearest (x * r) * nearest (1 / r)) :=
  h.abs_back_le.trans_lt (by rw [limit]; norm_num)

theorem abs_nearest_back_sub_lt :
    |nearest (nearest (x * r) * nearest (1 / r)) - x| < 1 / 1000 := by
  set y := nearest (x * r) * nearest (1 / r)
  -- The third rounding is of a number of the size of the amount.
  have hlast : |nearest y - y| ≤ 1 / 10000 := by
    calc |nearest y - y| ≤ (1 / 2 + 2 / 3 * |y|) / 10 ^ 28 := abs_nearest_sub_le_size y
      _ ≤ (1 / 2 + 2 / 3 * (10 ^ 24 + 1)) / 10 ^ 28 := by
          gcongr
          exact h.abs_back_le
      _ ≤ 1 / 10000 := by norm_num
  calc |nearest y - x| ≤ |nearest y - y| + |y - x| := abs_sub_le _ _ _
    _ ≤ 1 / 10000 + 19 / 60000 := add_le_add hlast h.abs_back_sub_le
    _ < 1 / 1000 := by norm_num

end Exchangeable

end Decimal

namespace Environment

variable {env : Environment} {source target : String} {r : Decimal}

theorem exchangeRate?_of_rate? (hcodes : Text.sameLetters source target = false)
    (hr : env.rate? source target = some r) : env.exchangeRate? source target = some r := by
  rw [exchangeRate?, if_neg (by simp [hcodes]), hr]

theorem exchangeRate?_of_swap (hcodes : Text.sameLetters source target = false)
    (hnone : env.rate? source target = none) (hr : env.rate? target source = some r)
    (hzero : r.toRat ≠ 0) :
    env.exchangeRate? source target = some (Decimal.one.dividedBy r) := by
  rw [exchangeRate?, if_neg (by simp [hcodes]), hnone, hr]
  exact if_neg (by rwa [Decimal.isZero_iff])

end Environment

namespace Money

theorem sameLetters_eq_false {A B : String} (hA : IsUpperCode A) (hB : IsUpperCode B)
    (hne : A ≠ B) : Text.sameLetters A B = false := by
  rw [← Bool.not_eq_true]
  intro h
  have hupper := Text.upper_eq_of_sameLetters h
  rw [hA.upper_eq, hB.upper_eq] at hupper
  exact hne hupper

theorem code?_trim (s : String) : code? (Text.trim s) = code? s := by
  rw [code?, code?, Text.trim_trim]

/-- An amount in the currency that a target names, at a rate that keeps the product in range. -/
theorem exists_exchange {env : Environment} {target A B : String} {x r : Decimal}
    (hB : code? target = some B) (hrate : env.exchangeRate? A B = some r)
    (hrange : InRange (x.toRat * r.toRat)) (symbol : Option String) :
    ∃ y, exchange ⟨x, A, symbol⟩ target env = .ok ⟨y, B, symbolOf? B⟩ ∧
      y.toRat = nearest (x.toRat * r.toRat) := by
  obtain ⟨y, hy, hval⟩ := exists_of_map_toRat (map_toRat_mul x r) hrange
  refine ⟨y, ?_, hval⟩
  rw [exchange, hB, orError, ok_bind, hrate, orError, ok_bind, hy, orError, ok_bind, ofCode,
    (isUpperCode_of_code? hB).upper_eq]
  rfl

end Money

namespace Value

end Value
end Reckoner
