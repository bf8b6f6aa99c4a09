import Mathlib.Data.Rat.Floor
import Mathlib.Algebra.Order.Ring.Int
import Mathlib.Algebra.Ring.Int.Parity
import Mathlib.Tactic.Linarith
import Mathlib.Tactic.FieldSimp
import Mathlib.Tactic.Ring
import Reckoner.Decimal.Rounding
/-!
Rounding a rational number to the nearest whole number, a half to the even neighbour. Main
statements: the law that singles the result out, monotonicity, and that the rounded quotients of
natural numbers are of this kind.
-/
namespace Reckoner

/-- The whole number nearest to `x`, the even one of two. -/
def halfEven (x : ℚ) : ℤ :=
  if 2 * Int.fract x < 1 then ⌊x⌋
  else if 1 < 2 * Int.fract x then ⌊x⌋ + 1
  else ⌊x⌋ + ⌊x⌋ % 2

/-- Nearer than a half, or at a half and even: one whole number at most is so placed. -/
theorem halfEven_law (x : ℚ) :
    |x - halfEven x| < 1 / 2 ∨ (|x - halfEven x| = 1 / 2 ∧ Even (halfEven x)) := by
  have hf := Int.floor_add_fract x
  have h0 := Int.fract_nonneg x
  have h1 := Int.fract_lt_one x
  unfold halfEven
  split_ifs with hlow hhigh
  · left
    rw [abs_lt]
    constructor <;> linarith
  · left
    push_cast
    rw [abs_lt]
    constructor <;> linarith
  · right
    have hh : Int.fract x = 1 / 2 := by linarith
    rcases Int.emod_two_eq_zero_or_one ⌊x⌋ with he | ho
    · refine ⟨?_, ?_⟩
      · rw [he, add_zero, abs_of_nonneg (by linarith)]
        linarith
      · rw [he, add_zero]
        exact Int.even_iff.mpr he
    · refine ⟨?_, ?_⟩
      · rw [ho, abs_of_nonpos (by push_cast; linarith)]
        push_cast
        linarith
      · rw [ho]
        exact Int.even_iff.mpr (by omega)

theorem abs_sub_halfEven_le (x : ℚ) : |x - halfEven x| ≤ 1 / 2 := by
  rcases halfEven_law x with h | h
  · exact h.le
  · exact h.1.le

/-- Two whole numbers are no further apart than their distances from `x` together. -/
theorem abs_intCast_sub_le (x : ℚ) (m n : ℤ) : |((m - n : ℤ) : ℚ)| ≤ |x - m| + |x - n| := by
  have h := abs_sub_le (m : ℚ) x n
  rw [abs_sub_comm (m : ℚ) x] at h
  push_cast
  exact h

theorem halfEven_eq_of_lt {x : ℚ} {n : ℤ} (h : |x - n| < 1 / 2) : halfEven x = n := by
  have hd := abs_intCast_sub_le x (halfEven x) n
  have hx := abs_sub_halfEven_le x
  have hi : |halfEven x - n| < 1 := by
    exact_mod_cast (show |((halfEven x - n : ℤ) : ℚ)| < 1 by linarith)
  have := Int.abs_lt_one_iff.mp hi
  omega

/-- What is smaller than the way to every tie does not matter. -/
theorem halfEven_sub_eq {x e : ℚ} (h : ∀ j : ℤ, |e| < |x - (j + 1 / 2)|) :
    halfEven (x - e) = halfEven x := by
  apply halfEven_eq_of_lt
  have hnear := abs_le.mp (abs_sub_halfEven_le x)
  -- The ties beside the nearest whole number are the ones above and below it.
  have habove := h (halfEven x)
  have hbelow := h (halfEven x - 1)
  push_cast at hbelow
  rw [abs_of_nonpos (show x - (halfEven x + 1 / 2) ≤ 0 by linarith), abs_lt] at habove
  rw [abs_of_nonneg (show 0 ≤ x - (halfEven x - 1 + 1 / 2) by linarith), abs_lt] at hbelow
  rw [abs_lt]
  constructor <;> linarith

@[simp] theorem halfEven_intCast (n : ℤ) : halfEven n = n :=
  halfEven_eq_of_lt (by norm_num)

@[simp] theorem halfEven_zero : halfEven 0 = 0 := by
  simpa using halfEven_intCast 0

theorem halfEven_eq_of_tie {x : ℚ} {n : ℤ} (h : |x - n| = 1 / 2) (hn : Even n) :
    halfEven x = n := by
  have hd := abs_intCast_sub_le x (halfEven x) n
  rcases halfEven_law x with hx | ⟨hx, he⟩
  · have hi : |halfEven x - n| < 1 := by
      exact_mod_cast (show |((halfEven x - n : ℤ) : ℚ)| < 1 by linarith)
    have := Int.abs_lt_one_iff.mp hi
    omega
  · -- Both are even and at most one apart.
    have hi : |halfEven x - n| ≤ 1 := by
      exact_mod_cast (show |((halfEven x - n : ℤ) : ℚ)| ≤ 1 by linarith)
    obtain ⟨hl, hu⟩ := abs_le.mp hi
    obtain ⟨j, hj⟩ := he
    obtain ⟨k, hk⟩ := hn
    omega

@[simp] theorem halfEven_neg (x : ℚ) : halfEven (-x) = -halfEven x := by
  have hflip : |-x - ((-halfEven x : ℤ) : ℚ)| = |x - halfEven x| := by
    push_cast
    rw [← abs_neg]
    congr 1
    ring
  rcases halfEven_law x with h | ⟨h, he⟩
  · exact halfEven_eq_of_lt (hflip.trans_lt h)
  · exact halfEven_eq_of_tie (hflip.trans h) he.neg

theorem halfEven_mono {x y : ℚ} (h : x ≤ y) : halfEven x ≤ halfEven y := by
  by_contra hn
  have hn' : (halfEven y : ℚ) + 1 ≤ halfEven x := by exact_mod_cast (not_le.mp hn)
  have hx := abs_le.mp (abs_sub_halfEven_le x)
  have hy := abs_le.mp (abs_sub_halfEven_le y)
  have he : x = y := by linarith [hx.1, hy.2]
  subst he
  exact hn le_rfl

theorem halfEven_le_iff {x : ℚ} {n : ℤ} (hn : Even n) : halfEven x ≤ n ↔ x ≤ n + 1 / 2 := by
  constructor
  · intro h
    have hx := abs_le.mp (abs_sub_halfEven_le x)
    have hc : (halfEven x : ℚ) ≤ n := by exact_mod_cast h
    linarith [hx.2]
  · intro h
    have ht : halfEven ((n : ℚ) + 1 / 2) = n :=
      halfEven_eq_of_tie (by rw [add_sub_cancel_left, abs_of_pos (by norm_num)]) hn
    exact ht ▸ halfEven_mono h

theorem le_halfEven_iff {x : ℚ} {n : ℤ} (hn : Even n) : n ≤ halfEven x ↔ n - 1 / 2 ≤ x := by
  have h := halfEven_le_iff (x := -x) hn.neg
  rw [halfEven_neg, neg_le_neg_iff] at h
  rw [h]
  push_cast
  constructor <;> intro h <;> linarith

theorem halfEven_nonneg {x : ℚ} (h : 0 ≤ x) : 0 ≤ halfEven x := by
  simpa using halfEven_mono h

theorem halfEven_lt_iff {x : ℚ} {n : ℤ} (hn : Even n) : halfEven x < n ↔ x < n - 1 / 2 := by
  rw [← not_le, le_halfEven_iff hn, not_le]

/-- The rounded quotient of two natural numbers is their quotient, rounded. -/
theorem cast_roundQuotient (n d : ℕ) (hd : 0 < d) :
    (roundQuotient .toEven n d : ℤ) = halfEven ((n : ℚ) / d) := by
  have hfloor : ⌊(n : ℚ) / d⌋ = (n / d : ℕ) := by
    rw [Rat.floor_natCast_div_natCast]
    exact_mod_cast rfl
  have hd' : (0 : ℚ) < d := by exact_mod_cast hd
  have hfract : Int.fract ((n : ℚ) / d) = (n % d : ℕ) / d := by
    have h : (n : ℚ) = d * (n / d : ℕ) + (n % d : ℕ) := by exact_mod_cast (Nat.div_add_mod n d).symm
    rw [Int.fract, hfloor, eq_div_iff hd'.ne', sub_mul, div_mul_cancel₀ _ hd'.ne', Int.cast_natCast]
    linarith
  have hlow : 2 * Int.fract ((n : ℚ) / d) < 1 ↔ 2 * (n % d) < d := by
    rw [hfract, ← mul_div_assoc, div_lt_one hd']
    exact_mod_cast Iff.rfl
  have hhigh : 1 < 2 * Int.fract ((n : ℚ) / d) ↔ d < 2 * (n % d) := by
    rw [hfract, ← mul_div_assoc, one_lt_div hd']
    exact_mod_cast Iff.rfl
  unfold halfEven
  simp only [hlow, hhigh, hfloor, roundQuotient, Tie.roundsUp]
  by_cases htie : 2 * (n % d) = d
  · simp only [htie, if_true, lt_irrefl, if_false]
    rcases Nat.mod_two_eq_zero_or_one (n / d) with he | ho
    · simp only [he]
      norm_num
      omega
    · simp only [ho]
      norm_num
      omega
  · rcases Nat.lt_or_gt_of_ne htie with hlt | hgt
    · simp [htie, hlt, Nat.lt_asymm hlt]
    · simp [htie, hgt, Nat.lt_asymm hgt]

end Reckoner
