import Reckoner.Proofs.Decimal.Quotient
/-!
Quotients that are always there. Main statements: a divisor that is at least one in size leaves
every decimal in range, and so does turning round any decimal but zero.
-/
namespace Reckoner.Decimal

/-- The divisor is not zero, and the exact quotient is in range. -/
structure HasQuotient (a b : Decimal) : Prop where
  ne_zero : b.toRat ≠ 0
  inRange : InRange (a.toRat / b.toRat)

variable {a b : Decimal}

namespace HasQuotient

theorem div_eq (h : HasQuotient a b) : a.div b = some (a.dividedBy b) := by
  obtain ⟨q, hq, -⟩ := exists_of_map_toRat (map_toRat_div a b h.ne_zero) h.inRange
  rw [dividedBy, hq, Option.getD_some]

theorem toRat_dividedBy (h : HasQuotient a b) :
    (a.dividedBy b).toRat = nearest (a.toRat / b.toRat) := by
  obtain ⟨q, hq, hval⟩ := exists_of_map_toRat (map_toRat_div a b h.ne_zero) h.inRange
  rw [dividedBy, hq, Option.getD_some, hval]

end HasQuotient

theorem hasQuotient_of_one_le (a : Decimal) (hb : 1 ≤ |b.toRat|) : HasQuotient a b := by
  refine ⟨abs_pos.mp (by linarith), ?_⟩
  have ha := a.inRange_toRat
  rw [InRange] at ha ⊢
  calc |a.toRat / b.toRat| = |a.toRat| / |b.toRat| := abs_div _ _
    _ ≤ |a.toRat| := div_le_self (abs_nonneg _) hb
    _ < limit := ha

/-- A decimal other than zero is at least one unit in the 28th place. -/
theorem unit_le_abs (hb : b.toRat ≠ 0) : 1 / 10 ^ 28 ≤ |b.toRat| := by
  have hc : (1 : ℚ) ≤ b.coefficient := by
    have hne : b.coefficient ≠ 0 := fun hz => hb ((isZero_iff b).mp (by rw [isZero, hz]; rfl))
    exact_mod_cast Nat.one_le_iff_ne_zero.mpr hne
  rw [abs_toRat]
  gcongr
  · norm_num
  · exact b.scale_le

theorem hasQuotient_one (hb : b.toRat ≠ 0) : HasQuotient one b := by
  refine ⟨hb, ?_⟩
  have hunit := unit_le_abs hb
  rw [InRange, toRat_one, abs_div, abs_one]
  calc 1 / |b.toRat| ≤ 1 / (1 / 10 ^ 28) := one_div_le_one_div_of_le (by positivity) hunit
    _ < limit := by rw [limit]; norm_num

end Reckoner.Decimal
