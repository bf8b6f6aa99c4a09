import Mathlib.Algebra.Order.Archimedean.Basic
import Mathlib.Tactic.Ring
import Reckoner.Proofs.Decimal.SameRounded
/-!
The multiple of a unit that is nearest to a number, and rounding to significant figures, where the
unit follows the leading digit. Main statements: there is only one such multiple, it does not fall
as the number grows, also where the unit changes, and rounding the units of a decimal finds it.
-/
namespace Reckoner

/-- The multiple `r` of `u` is the nearest one to `x`; of two that are equally near, the one further
away from zero. -/
structure NearestMultiple (u x r : ℚ) : Prop where
  multiple : ∃ k : ℤ, r = k * u
  near : ∀ k : ℤ, |x - r| ≤ |x - k * u|
  away : ∀ k : ℤ, |x - k * u| = |x - r| → |k * u| ≤ |r|

namespace NearestMultiple

variable {u x y r s : ℚ}

theorem neg (h : NearestMultiple u x r) : NearestMultiple u (-x) (-r) := by
  have hflip (k : ℤ) : |-x - k * u| = |x - (-k : ℤ) * u| := by
    rw [← abs_neg]
    congr 1
    push_cast
    ring
  have hflip' : |-x - -r| = |x - r| := by
    rw [← abs_neg]
    congr 1
    ring
  refine ⟨?_, fun k => ?_, fun k hk => ?_⟩
  · obtain ⟨k, rfl⟩ := h.multiple
    exact ⟨-k, by push_cast; ring⟩
  · rw [hflip, hflip']
    exact h.near (-k)
  · rw [hflip, hflip'] at hk
    have haway := h.away (-k) hk
    rwa [Int.cast_neg, neg_mul, abs_neg, ← abs_neg r] at haway

/-- A multiple is its own nearest multiple. -/
theorem self (k : ℤ) : NearestMultiple u (k * u) (k * u) := by
  refine ⟨⟨k, rfl⟩, fun j => ?_, fun j hj => ?_⟩
  · rw [sub_self, abs_zero]
    exact abs_nonneg _
  · rw [sub_self, abs_zero, abs_eq_zero, sub_eq_zero] at hj
    rw [hj]

/-- Between two multiples the nearer one is taken, and halfway the one further from zero, on either
side: so they cannot be taken in the wrong order. -/
theorem mono (hr : NearestMultiple u x r) (hs : NearestMultiple u y s) (h : x ≤ y) : r ≤ s := by
  by_contra hlt
  rw [not_le] at hlt
  obtain ⟨k, hk⟩ := hr.multiple
  obtain ⟨j, hj⟩ := hs.multiple
  have hx : (r + s) / 2 ≤ x := by
    have hnear := hr.near j
    rw [← hj, ← sq_le_sq] at hnear
    nlinarith
  have hy : y ≤ (r + s) / 2 := by
    have hnear := hs.near k
    rw [← hk, ← sq_le_sq] at hnear
    nlinarith
  have hmid : x = (r + s) / 2 := le_antisymm (h.trans hy) hx
  have hmid' : y = (r + s) / 2 := le_antisymm hy (hx.trans h)
  have htie : |x - s| = |x - r| := by
    rw [hmid, ← abs_neg]
    congr 1
    ring
  have hsize : |r| = |s| := by
    apply le_antisymm
    · have haway := hs.away k
      rw [← hk] at haway
      apply haway
      rw [hmid', ← hmid, htie]
    · have haway := hr.away j
      rw [← hj] at haway
      exact haway htie
  -- Only about zero are both equally far from it, and zero itself is nearer.
  have hopposite : r = -s := (abs_eq_abs.mp hsize).resolve_left hlt.ne'
  have hzero := hr.near 0
  rw [hmid, hopposite, Int.cast_zero, zero_mul, sub_zero, neg_add_cancel, zero_div, zero_sub,
    neg_neg, abs_zero] at hzero
  have hs0 : s = 0 := abs_nonpos_iff.mp hzero
  rw [hopposite, hs0, neg_zero] at hlt
  exact lt_irrefl _ hlt

theorem unique (hr : NearestMultiple u x r) (hs : NearestMultiple u x s) : r = s :=
  le_antisymm (hr.mono hs le_rfl) (hs.mono hr le_rfl)

/-- Rounding a quotient to the nearest natural number, halves upwards, is rounding to a multiple. -/
theorem of_quotient {q : ℕ} (hu : 0 < u) (hx : 0 ≤ x) (hup : q - x ≤ 1 / 2)
    (hdown : x - q < 1 / 2) : NearestMultiple u (x * u) (q * u) := by
  have hscaled (k : ℚ) : |x * u - k * u| = |x - k| * u := by
    rw [← sub_mul, abs_mul, abs_of_pos hu]
  have hnear : |x - q| ≤ 1 / 2 := by
    rw [abs_le]
    constructor <;> linarith
  have hfar {k : ℤ} (hk : k ≠ q) : 1 ≤ |x - q| + |x - k| := by
    have hone : (1 : ℚ) ≤ |((k - q : ℤ) : ℚ)| := by
      exact_mod_cast Int.one_le_abs (sub_ne_zero.mpr hk)
    have habs := abs_intCast_sub_le x k q
    rw [Int.cast_natCast] at habs
    linarith
  refine ⟨⟨q, rfl⟩, fun k => ?_, fun k hk => ?_⟩
  · rw [hscaled, hscaled]
    apply mul_le_mul_of_nonneg_right _ hu.le
    by_cases hkq : k = q
    · rw [hkq, Int.cast_natCast]
    · linarith [hfar hkq]
  · rw [hscaled, hscaled] at hk
    have htie := mul_right_cancel₀ hu.ne' hk
    rw [abs_mul, abs_mul, abs_of_pos hu]
    apply mul_le_mul_of_nonneg_right _ hu.le
    by_cases hkq : k = q
    · rw [hkq, Int.cast_natCast]
    · -- The other one of a tie is below `x`, and `x` is not below zero.
      have hhalf : |x - q| = 1 / 2 := by linarith [hfar hkq]
      have hq : (q : ℚ) = x + 1 / 2 := by
        rcases abs_eq (by norm_num) |>.mp hhalf with h | h
        · linarith
        · linarith
      have hk' : (k : ℚ) = x - 1 / 2 := by
        rw [hhalf] at htie
        rcases abs_eq (by norm_num) |>.mp htie with h | h
        · linarith
        · refine absurd ?_ hkq
          have heq : (k : ℚ) = q := by linarith
          exact_mod_cast heq
      have hpos : (0 : ℚ) ≤ k := by
        have hq0 : (0 : ℚ) < q := by linarith
        have hq1 : (1 : ℚ) ≤ q := by exact_mod_cast hq0
        linarith
      rw [abs_of_nonneg hpos, abs_of_nonneg (Nat.cast_nonneg q)]
      linarith

end NearestMultiple

theorem roundsUp_awayFromZero_iff (n d : ℕ) :
    Tie.awayFromZero.roundsUp n d ↔ d ≤ 2 * (n % d) := by
  unfold Tie.roundsUp
  dsimp only
  split
  · next htie => simp [htie]
  · next htie =>
    rw [decide_eq_true_iff]
    omega

/-- Halves go up, as the quotients of natural numbers are not below zero. -/
theorem roundQuotient_awayFromZero_bounds (n : ℕ) {d : ℕ} (hd : 0 < d) :
    (roundQuotient .awayFromZero n d : ℚ) - n / d ≤ 1 / 2 ∧
      (n : ℚ) / d - roundQuotient .awayFromZero n d < 1 / 2 := by
  have hd' : (0 : ℚ) < d := by exact_mod_cast hd
  have hbounds : 2 * d * roundQuotient .awayFromZero n d ≤ 2 * n + d ∧
      2 * n < 2 * d * roundQuotient .awayFromZero n d + d := by
    have hsplit := Nat.div_add_mod n d
    have hrest := Nat.mod_lt n hd
    have hdouble : 2 * d * (n / d) = 2 * (d * (n / d)) := Nat.mul_assoc _ _ _
    unfold roundQuotient
    split
    · next hup =>
      rw [roundsUp_awayFromZero_iff] at hup
      rw [Nat.mul_add, hdouble]
      omega
    · next hup =>
      rw [roundsUp_awayFromZero_iff] at hup
      rw [hdouble]
      omega
  obtain ⟨hup, hdown⟩ := hbounds
  have hup' : 2 * (d : ℚ) * roundQuotient .awayFromZero n d ≤ 2 * n + d := by exact_mod_cast hup
  have hdown' : 2 * (n : ℚ) < 2 * d * roundQuotient .awayFromZero n d + d := by exact_mod_cast hdown
  constructor
  · rw [sub_le_iff_le_add, ← sub_le_iff_le_add', le_div_iff₀ hd']
    linarith
  · rw [sub_lt_iff_lt_add, div_lt_iff₀ hd']
    linarith

/-- The leading digit of `x` stands at `10 ^ e`. -/
def LeadsAt (x : ℚ) (e : ℤ) : Prop := 10 ^ e ≤ |x| ∧ |x| < 10 ^ (e + 1)

section LeadsAt

variable {x y : ℚ} {e e' : ℤ}

theorem exists_leadsAt (hx : x ≠ 0) : ∃ e, LeadsAt x e :=
  exists_mem_Ico_zpow (abs_pos.mpr hx) (by norm_num)

theorem not_leadsAt_zero (e : ℤ) : ¬LeadsAt 0 e := by
  intro h
  have hpos : (0 : ℚ) < 10 ^ e := zpow_pos (by norm_num) e
  exact absurd (h.1.trans_eq abs_zero) (not_le.mpr hpos)

theorem LeadsAt.neg (h : LeadsAt x e) : LeadsAt (-x) e := by
  rwa [LeadsAt, abs_neg]

theorem LeadsAt.le_of_abs_le (h : LeadsAt x e) (h' : LeadsAt y e') (hle : |x| ≤ |y|) : e ≤ e' := by
  have hlt := (h.1.trans hle).trans_lt h'.2
  rw [zpow_lt_zpow_iff_right₀ (by norm_num)] at hlt
  omega

theorem LeadsAt.unique (h : LeadsAt x e) (h' : LeadsAt x e') : e = e' :=
  le_antisymm (h.le_of_abs_le h' le_rfl) (h'.le_of_abs_le h le_rfl)

end LeadsAt

/-- Rounding `x` to `n` significant figures leads to `r`. -/
inductive RoundsTo (n : ℕ) : ℚ → ℚ → Prop
  | zero : RoundsTo n 0 0
  | leads {x r : ℚ} {e : ℤ} (he : LeadsAt x e) (h : NearestMultiple (10 ^ (e - n + 1)) x r) :
      RoundsTo n x r

/-- The powers from the last figure up are multiples of its unit. -/
theorem exists_pow_eq_mul (n : ℕ) {e k : ℤ} (h : e - n + 1 ≤ k) :
    ∃ c : ℤ, (10 : ℚ) ^ k = c * 10 ^ (e - n + 1) := by
  obtain ⟨j, hj⟩ := Int.eq_ofNat_of_zero_le (show 0 ≤ k - (e - n + 1) by omega)
  refine ⟨10 ^ j, ?_⟩
  rw [show k = j + (e - n + 1) by omega, zpow_add₀ (by norm_num), zpow_natCast]
  push_cast
  rfl

namespace RoundsTo

variable {n : ℕ} {x y r s : ℚ} {e : ℤ}

theorem neg (h : RoundsTo n x r) : RoundsTo n (-x) (-r) := by
  cases h with
  | zero => simpa using RoundsTo.zero
  | leads he h => exact .leads he.neg h.neg

theorem nearestMultiple (h : RoundsTo n x r) (he : LeadsAt x e) :
    NearestMultiple (10 ^ (e - n + 1)) x r := by
  cases h with
  | zero => exact absurd he (not_leadsAt_zero e)
  | leads he' h =>
    rw [he.unique he']
    exact h

theorem eq_zero (h : RoundsTo n 0 r) : r = 0 := by
  cases h with
  | zero => rfl
  | leads he h => exact absurd he (not_leadsAt_zero _)

/-- Rounding does not leave the decade, but may end at its upper end. -/
theorem mem_decade (hn : 1 ≤ n) (h : RoundsTo n x r) (hx : 0 < x) (he : LeadsAt x e) :
    10 ^ e ≤ r ∧ r ≤ 10 ^ (e + 1) := by
  have hnearest := h.nearestMultiple he
  obtain ⟨hlow, hhigh⟩ := he
  rw [abs_of_pos hx] at hlow hhigh
  obtain ⟨c, hc⟩ := exists_pow_eq_mul n (show e - n + 1 ≤ e by omega)
  obtain ⟨c', hc'⟩ := exists_pow_eq_mul n (show e - n + 1 ≤ e + 1 by omega)
  constructor
  · rw [hc] at hlow ⊢
    exact (NearestMultiple.self c).mono hnearest hlow
  · rw [hc'] at hhigh ⊢
    exact hnearest.mono (NearestMultiple.self c') hhigh.le

theorem nonneg (hn : 1 ≤ n) (h : RoundsTo n x r) (hx : 0 ≤ x) : 0 ≤ r := by
  rcases hx.eq_or_lt with rfl | hpos
  · rw [h.eq_zero]
  · obtain ⟨e, he⟩ := exists_leadsAt hpos.ne'
    exact (zpow_pos (by norm_num) e).le.trans (h.mem_decade hn hpos he).1

theorem mono_of_nonneg (hn : 1 ≤ n) (hr : RoundsTo n x r) (hs : RoundsTo n y s) (hx : 0 ≤ x)
    (h : x ≤ y) : r ≤ s := by
  rcases hx.eq_or_lt with rfl | hpos
  · rw [hr.eq_zero]
    exact hs.nonneg hn h
  · have hpos' := hpos.trans_le h
    obtain ⟨e, he⟩ := exists_leadsAt hpos.ne'
    obtain ⟨e', he'⟩ := exists_leadsAt hpos'.ne'
    have hle : e ≤ e' := he.le_of_abs_le he' (by rwa [abs_of_pos hpos, abs_of_pos hpos'])
    rcases hle.eq_or_lt with rfl | hlt
    · exact (hr.nearestMultiple he).mono (hs.nearestMultiple he') h
    · -- The power between the two decades is between the results.
      calc r ≤ 10 ^ (e + 1) := (hr.mem_decade hn hpos he).2
        _ ≤ 10 ^ e' := zpow_le_zpow_right₀ (by norm_num) hlt
        _ ≤ s := (hs.mem_decade hn hpos' he').1

theorem mono (hn : 1 ≤ n) (hr : RoundsTo n x r) (hs : RoundsTo n y s) (h : x ≤ y) : r ≤ s := by
  rcases le_total 0 x with hx | hx
  · exact mono_of_nonneg hn hr hs hx h
  · rcases le_total 0 y with hy | hy
    · have hr0 := hr.neg.nonneg hn (neg_nonneg.mpr hx)
      have hs0 := hs.nonneg hn hy
      linarith
    · have hle := mono_of_nonneg hn hs.neg hr.neg (neg_nonneg.mpr hy) (neg_le_neg h)
      exact neg_le_neg_iff.mp hle

theorem unique (hn : 1 ≤ n) (hr : RoundsTo n x r) (hs : RoundsTo n x s) : r = s :=
  le_antisymm (hr.mono hn hs le_rfl) (hs.mono hn hr le_rfl)

end RoundsTo

namespace Decimal

theorem leadsAt_units {u : ℕ} (hu : 0 < u) : LeadsAt ((u : ℚ) / 10 ^ 28) (digitCount u - 29) := by
  have hpos : 0 < digitCount u := Nat.length_toDigits_pos
  have hlow : 10 ^ (digitCount u - 1) ≤ u := by
    by_contra hlt
    rcases Nat.eq_zero_or_pos (digitCount u - 1) with h | h
    · rw [h] at hlt
      omega
    · have hcount := (Nat.length_toDigits_le_iff (by decide) h).mpr (not_le.mp hlt)
      rw [digitCount] at hpos h hcount
      omega
  have hhigh : u < 10 ^ digitCount u := (Nat.length_toDigits_le_iff (by decide) hpos).mp le_rfl
  have hlow' : (10 : ℚ) ^ (digitCount u - 1) ≤ u := by exact_mod_cast hlow
  have hhigh' : (u : ℚ) < 10 ^ digitCount u := by exact_mod_cast hhigh
  have hpow (k : ℕ) : (10 : ℚ) ^ ((k : ℤ) - 28) = 10 ^ k / 10 ^ 28 := by
    rw [zpow_sub₀ (by norm_num), zpow_natCast]
    rfl
  rw [LeadsAt, abs_of_nonneg (by positivity),
    show ((digitCount u : ℤ) - 29) = ((digitCount u - 1 : ℕ) : ℤ) - 28 by omega,
    show (((digitCount u - 1 : ℕ) : ℤ) - 28 + 1) = (digitCount u : ℤ) - 28 by omega, hpow, hpow]
  exact ⟨by gcongr, by gcongr⟩

/-- The size that is left of a number of units is the nearest multiple of the last figure. -/
theorem roundsTo_figuresSize (n : ℕ) {u : ℕ} (hu : 0 < u) :
    RoundsTo n ((u : ℚ) / 10 ^ 28) (figuresSize n u) := by
  refine .leads (leadsAt_units hu) ?_
  set lost := lostDigits n u with hlost
  rcases Nat.lt_or_ge (digitCount u) n with hfew | hmany
  · -- With fewer digits than figures, nothing is lost.
    have hsize : figuresSize n u = u / 10 ^ 28 := by
      rw [figuresSize, lostDigits, Nat.sub_eq_zero_of_le hfew.le, pow_zero, pow_zero,
        roundQuotient_one, mul_one]
    obtain ⟨c, hc⟩ := exists_pow_eq_mul n
      (show (digitCount u : ℤ) - 29 - n + 1 ≤ -28 by omega)
    have hmultiple : (u : ℚ) / 10 ^ 28 =
        ((u * c : ℤ) : ℚ) * 10 ^ ((digitCount u : ℤ) - 29 - n + 1) := by
      rw [Int.cast_mul, mul_assoc, ← hc, zpow_neg, ← div_eq_mul_inv]
      rfl
    rw [hsize, hmultiple]
    exact .self _
  · have hunit : (10 : ℚ) ^ ((digitCount u : ℤ) - 29 - n + 1) = 10 ^ lost / 10 ^ 28 := by
      rw [show (digitCount u : ℤ) - 29 - n + 1 = (lost : ℤ) - 28 by rw [hlost, lostDigits]; omega,
        zpow_sub₀ (by norm_num), zpow_natCast]
      rfl
    have hpos : (0 : ℚ) < 10 ^ lost := by positivity
    obtain ⟨hup, hdown⟩ := roundQuotient_awayFromZero_bounds u (d := 10 ^ lost) (by positivity)
    have hnearest := NearestMultiple.of_quotient (show (0 : ℚ) < 10 ^ lost / 10 ^ 28 by positivity)
      (by positivity) hup hdown
    rw [hunit, figuresSize, ← hlost, mul_div_assoc]
    have hvalue : (u : ℚ) / (10 ^ lost : ℕ) * (10 ^ lost / 10 ^ 28) = u / 10 ^ 28 := by
      push_cast
      field_simp
    rw [hvalue] at hnearest
    exact hnearest

theorem signFactor_mul_roundsTo {n : ℕ} {x r : ℚ} (h : RoundsTo n x r) (negative : Bool) :
    RoundsTo n (signFactor negative * x) (signFactor negative * r) := by
  cases negative with
  | true => simpa using h.neg
  | false => simpa using h

end Decimal
end Reckoner
