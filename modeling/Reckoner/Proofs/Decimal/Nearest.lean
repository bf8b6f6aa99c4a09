import Mathlib.Data.Nat.Find
import Mathlib.Tactic.GCongr
import Mathlib.Tactic.Positivity
import Mathlib.Tactic.NormNum
import Reckoner.Proofs.Decimal.HalfEven
import Reckoner.Decimal.Basic
/-!
The decimal nearest to a rational number: as many places as a coefficient of 96 bits leaves room
for, 28 at most, and a half to the even neighbour. Main statements: the nearest decimal of a decimal
is itself, taking the nearest decimal is monotone and errs by half a unit in the last place, and when
the nearest decimal of a number beside a whole one lies on the other side of it.
-/
namespace Reckoner.Decimal

/-- The numbers below this round to a coefficient of 96 bits, the others do not. -/
def limit : ℚ := 2 ^ 96 - 1 / 2

/-- Whether a number rounds to a decimal at all. -/
def InRange (x : ℚ) : Prop := |x| < limit

instance (x : ℚ) : Decidable (InRange x) := inferInstanceAs (Decidable (|x| < limit))

/-- The places that the nearest decimal has room for. -/
def placesFor (x : ℚ) : ℕ := Nat.findGreatest (fun p => |x| * 10 ^ p < limit) 28

/-- The decimal nearest to a number, as a number. -/
def nearest (x : ℚ) : ℚ := halfEven (x * 10 ^ placesFor x) / 10 ^ placesFor x

/-- The nearest decimal of a number that has one. -/
def nearest? (x : ℚ) : Option ℚ := if InRange x then some (nearest x) else none

theorem placesFor_le (x : ℚ) : placesFor x ≤ 28 := Nat.findGreatest_le 28

@[simp] theorem placesFor_neg (x : ℚ) : placesFor (-x) = placesFor x := by
  simp only [placesFor, abs_neg]

theorem le_placesFor {x : ℚ} {p : ℕ} (hp : p ≤ 28) (h : |x| * 10 ^ p < limit) : p ≤ placesFor x :=
  Nat.le_findGreatest hp h

theorem limit_le_of_placesFor_lt {x : ℚ} {p : ℕ} (h : placesFor x < p) (hp : p ≤ 28) :
    limit ≤ |x| * 10 ^ p :=
  not_lt.mp (Nat.findGreatest_is_greatest h hp)

theorem scaled_mono {x : ℚ} {p q : ℕ} (h : p ≤ q) : |x| * 10 ^ p ≤ |x| * 10 ^ q := by
  gcongr
  norm_num

theorem scaled_lt_limit {x : ℚ} (hx : InRange x) {p : ℕ} (hp : p ≤ placesFor x) :
    |x| * 10 ^ p < limit := by
  have h0 : |x| * 10 ^ 0 < limit := by simpa [InRange] using hx
  have h : |x| * 10 ^ placesFor x < limit :=
    Nat.findGreatest_spec (P := fun p => |x| * 10 ^ p < limit) (Nat.zero_le 28) h0
  exact (scaled_mono hp).trans_lt h

theorem placesFor_eq {x : ℚ} {p : ℕ} (hp : p ≤ 28) (h : |x| * 10 ^ p < limit)
    (hmax : p = 28 ∨ limit ≤ |x| * 10 ^ (p + 1)) : placesFor x = p := by
  apply le_antisymm _ (le_placesFor hp h)
  rcases hmax with rfl | hmax
  · exact placesFor_le x
  · by_contra hn
    have hr : InRange x := by
      have := (scaled_mono (x := x) (Nat.zero_le p)).trans_lt h
      simpa [InRange] using this
    exact absurd (scaled_lt_limit hr (not_le.mp hn)) (not_lt.mpr hmax)

theorem placesFor_anti {x y : ℚ} (h : |x| ≤ |y|) : placesFor y ≤ placesFor x := by
  rcases Nat.eq_zero_or_pos (placesFor y) with hz | hp
  · omega
  · apply le_placesFor (placesFor_le y)
    have hy : |y| * 10 ^ placesFor y < limit :=
      Nat.findGreatest_of_ne_zero (P := fun p => |y| * 10 ^ p < limit) rfl hp.ne'
    exact (mul_le_mul_of_nonneg_right h (by positivity)).trans_lt hy

@[simp] theorem nearest_neg (x : ℚ) : nearest (-x) = -nearest x := by
  simp only [nearest, placesFor_neg, neg_mul, halfEven_neg, Int.cast_neg, neg_div]

@[simp] theorem nearest_zero : nearest 0 = 0 := by
  simp [nearest]

theorem nearest_nonneg {x : ℚ} (h : 0 ≤ x) : 0 ≤ nearest x := by
  have hh : (0 : ℚ) ≤ halfEven (x * 10 ^ placesFor x) := by
    exact_mod_cast halfEven_nonneg (mul_nonneg h (by positivity))
  exact div_nonneg hh (by positivity)

theorem abs_nearest (x : ℚ) : |nearest x| = nearest |x| := by
  rcases le_total 0 x with h | h
  · rw [abs_of_nonneg h, abs_of_nonneg (nearest_nonneg h)]
  · rw [abs_of_nonpos h, nearest_neg, ← abs_neg, ← nearest_neg,
      abs_of_nonneg (nearest_nonneg (neg_nonneg.mpr h))]

/-- No decimal with more than `p` places lies nearer to `x`: there is no room for another place, or
none is needed. -/
def Settled (x : ℚ) (p : ℕ) : Prop :=
  p = 28 ∨ limit ≤ |x| * 10 ^ (p + 1) ∨ ∃ c : ℤ, x * 10 ^ p = c

theorem nearest_eq_of_settled {x : ℚ} {p : ℕ} (hp : p ≤ 28) (h : |x| * 10 ^ p < limit)
    (hs : Settled x p) : nearest x = halfEven (x * 10 ^ p) / 10 ^ p := by
  rcases hs with h28 | hmax | ⟨c, hc⟩
  · rw [nearest, placesFor_eq hp h (Or.inl h28)]
  · rw [nearest, placesFor_eq hp h (Or.inr hmax)]
  · obtain ⟨k, hk⟩ := Nat.exists_eq_add_of_le (le_placesFor hp h)
    have hint : x * 10 ^ placesFor x = ((c * 10 ^ k : ℤ) : ℚ) := by
      rw [hk, pow_add, ← mul_assoc, hc]
      push_cast
      ring
    have hx : x = c / 10 ^ p := by rw [eq_div_iff (by positivity), hc]
    rw [nearest, hint, hc, halfEven_intCast, halfEven_intCast, ← hint, ← hx,
      mul_div_assoc, div_self (by positivity), mul_one]

theorem intCast_lt_limit {c : ℤ} : |(c : ℚ)| < limit ↔ |c| < 2 ^ 96 := by
  rw [limit, ← Int.cast_abs]
  constructor
  · intro h
    have hc : ((|c| : ℤ) : ℚ) < ((2 ^ 96 : ℤ) : ℚ) := by push_cast at h ⊢; linarith
    exact_mod_cast hc
  · intro h
    have hc : ((|c| : ℤ) : ℚ) ≤ ((2 ^ 96 - 1 : ℤ) : ℚ) := by exact_mod_cast Int.le_sub_one_of_lt h
    push_cast at hc ⊢
    linarith

theorem nearest_eq_self {x : ℚ} {c : ℤ} {p : ℕ} (hp : p ≤ 28) (hx : x * 10 ^ p = c)
    (hc : |c| < 2 ^ 96) : nearest x = x := by
  have h : |x| * 10 ^ p < limit := by
    rw [← abs_of_pos (show (0 : ℚ) < 10 ^ p by positivity), ← abs_mul, hx]
    exact intCast_lt_limit.mpr hc
  rw [nearest_eq_of_settled hp h (Or.inr (Or.inr ⟨c, hx⟩)), hx, halfEven_intCast, ← hx,
    mul_div_assoc, div_self (by positivity), mul_one]

theorem nearest_intCast {c : ℤ} (hc : |c| < 2 ^ 96) : nearest c = c :=
  nearest_eq_self (Nat.zero_le 28) (by simp) hc

theorem nearest_natCast {n : ℕ} (hn : n < 2 ^ 96) : nearest n = n := by
  have h := nearest_intCast (c := n) (by rw [abs_of_nonneg (by omega)]; exact_mod_cast hn)
  simpa using h

/-- A number fits at a place exactly if the coefficient rounded there has 96 bits. -/
theorem halfEven_lt_iff_lt_limit (x : ℚ) : halfEven x < 2 ^ 96 ↔ x < limit := by
  rw [halfEven_lt_iff (by decide), limit]
  norm_num

/-- A coefficient that leaves no room for another place is at least a tenth of `2 ^ 96`. -/
theorem le_halfEven_of_limit_le {x : ℚ} (h : limit ≤ x * 10) :
    7922816251426433759354395034 ≤ halfEven x := by
  apply (le_halfEven_iff (by decide)).mpr
  rw [limit] at h
  norm_num at h ⊢
  linarith

theorem nearest_mono_of_nonneg {x y : ℚ} (hx : 0 ≤ x) (h : x ≤ y) : nearest x ≤ nearest y := by
  have hy : 0 ≤ y := hx.trans h
  have habs : |x| ≤ |y| := by rwa [abs_of_nonneg hx, abs_of_nonneg hy]
  rcases (placesFor_anti habs).eq_or_lt with he | hlt
  · rw [nearest, nearest, he]
    gcongr
    exact halfEven_mono (by gcongr)
  · -- `x` has places that `y` has no room for: the coefficient of `y` is all but a tenth of the
    -- largest that `x` can have.
    have hxr : |x| * 10 ^ placesFor x < limit :=
      Nat.findGreatest_of_ne_zero (P := fun p => |x| * 10 ^ p < limit) rfl (by omega)
    have hyl := limit_le_of_placesFor_lt (Nat.lt_succ_self (placesFor y))
      (hlt.trans_le (placesFor_le x))
    rw [abs_of_nonneg hx, ← halfEven_lt_iff_lt_limit] at hxr
    rw [abs_of_nonneg hy, pow_succ, ← mul_assoc] at hyl
    have hxc : (halfEven (x * 10 ^ placesFor x) : ℚ) ≤ 2 ^ 96 - 1 := by
      exact_mod_cast Int.le_sub_one_of_lt hxr
    have hyc : (7922816251426433759354395034 : ℚ) ≤ halfEven (y * 10 ^ placesFor y) := by
      exact_mod_cast le_halfEven_of_limit_le hyl
    have hpow : (10 : ℚ) ^ placesFor y * 10 ≤ 10 ^ placesFor x := by
      rw [← pow_succ]
      exact pow_le_pow_right₀ (by norm_num) hlt
    have h0 : (0 : ℚ) < 10 ^ placesFor y := by positivity
    rw [nearest, nearest, div_le_div_iff₀ (by positivity) (by positivity)]
    calc
      (halfEven (x * 10 ^ placesFor x) : ℚ) * 10 ^ placesFor y
          ≤ (2 ^ 96 - 1) * 10 ^ placesFor y := by gcongr
      _ ≤ 7922816251426433759354395034 * (10 ^ placesFor y * 10) := by nlinarith
      _ ≤ halfEven (y * 10 ^ placesFor y) * 10 ^ placesFor x := by gcongr

theorem nearest_mono {x y : ℚ} (h : x ≤ y) : nearest x ≤ nearest y := by
  rcases le_total 0 x with hx | hx
  · exact nearest_mono_of_nonneg hx h
  · rcases le_total 0 y with hy | hy
    · have hn : nearest x ≤ 0 := by
        have := nearest_nonneg (neg_nonneg.mpr hx)
        rw [nearest_neg] at this
        linarith
      exact hn.trans (nearest_nonneg hy)
    · have hm := nearest_mono_of_nonneg (neg_nonneg.mpr hy) (neg_le_neg h)
      rw [nearest_neg, nearest_neg] at hm
      linarith

/-- Nothing is left of a number exactly if it is half a unit in the 28th place at most. -/
theorem nearest_pos_iff {x : ℚ} (hx : 0 ≤ x) : 0 < nearest x ↔ 1 / 2 / 10 ^ 28 < x := by
  have hsign : 0 < nearest x ↔ 1 / 2 < x * 10 ^ placesFor x := by
    rw [nearest, div_pos_iff_of_pos_right (by positivity), Int.cast_pos, ← not_le,
      halfEven_le_iff (by decide), not_le, Int.cast_zero, zero_add]
  rcases (placesFor_le x).eq_or_lt with he | hlt
  · rw [hsign, he, div_lt_iff₀ (show (0 : ℚ) < 10 ^ 28 by positivity)]
  · -- There is no room for all places only beside digits that are there.
    have hnext := limit_le_of_placesFor_lt (Nat.lt_succ_self (placesFor x)) hlt
    have hall := limit_le_of_placesFor_lt hlt le_rfl
    rw [abs_of_nonneg hx, pow_succ, ← mul_assoc, limit] at hnext
    rw [abs_of_nonneg hx, limit] at hall
    refine iff_of_true (hsign.mpr ?_) ?_
    · linarith
    · rw [div_lt_iff₀ (by positivity)]
      linarith

theorem abs_nearest_sub_le (x : ℚ) : |nearest x - x| ≤ 1 / 2 / 10 ^ placesFor x := by
  have hp : (0 : ℚ) < 10 ^ placesFor x := by positivity
  have h : nearest x - x =
      (halfEven (x * 10 ^ placesFor x) - x * 10 ^ placesFor x) / 10 ^ placesFor x := by
    rw [nearest]
    field_simp
  rw [h, abs_div, abs_of_pos hp, abs_sub_comm]
  gcongr
  exact abs_sub_halfEven_le _

/-- Half a unit in the last of `k` places, if there is room for so many. -/
theorem abs_nearest_sub_le_of_lt {x : ℚ} {k : ℕ} (hk : k ≤ 28) (h : |x| * 10 ^ k < limit) :
    |nearest x - x| ≤ 1 / 2 / 10 ^ k := by
  apply (abs_nearest_sub_le x).trans
  gcongr
  · norm_num
  · exact le_placesFor hk h

/-- Half a unit in the last place against the size of the number: half a unit in the 28th place, and
for large numbers a little more than half a unit in the 28th digit. -/
theorem half_unit_le_size (x : ℚ) :
    1 / 2 / 10 ^ placesFor x ≤ (1 / 2 + 2 / 3 * |x|) / 10 ^ 28 := by
  rcases (placesFor_le x).eq_or_lt with he | hlt
  · rw [he]
    gcongr
    linarith [abs_nonneg x]
  · have hl := limit_le_of_placesFor_lt (Nat.lt_succ_self (placesFor x)) hlt
    rw [pow_succ, ← mul_assoc, limit] at hl
    rw [div_le_div_iff₀ (by positivity) (by positivity)]
    have hp : (0 : ℚ) < 10 ^ placesFor x := by positivity
    norm_num at hl ⊢
    nlinarith

theorem abs_nearest_sub_le_size (x : ℚ) :
    |nearest x - x| ≤ (1 / 2 + 2 / 3 * |x|) / 10 ^ 28 :=
  (abs_nearest_sub_le x).trans (half_unit_le_size x)

/-- A coefficient that ends in a zero is not the largest there is. -/
theorem le_of_natCast_mul_lt_limit {n p : ℕ} (hp : 1 ≤ p) (h : (n : ℚ) * 10 ^ p < limit) :
    (n : ℚ) * 10 ^ p ≤ 2 ^ 96 - 6 := by
  have hc : n * 10 ^ p < 2 ^ 96 := by
    have : ((n * 10 ^ p : ℕ) : ℚ) < ((2 ^ 96 : ℕ) : ℚ) := by
      rw [limit] at h
      push_cast
      linarith
    exact_mod_cast this
  obtain ⟨k, rfl⟩ := Nat.exists_eq_add_of_le' hp
  have hi : n * 10 ^ (k + 1) + 6 ≤ 2 ^ 96 := by
    rw [pow_succ, ← mul_assoc] at hc ⊢
    omega
  have hq : (n : ℚ) * 10 ^ (k + 1) + 6 ≤ 2 ^ 96 := by exact_mod_cast hi
  linarith

/-- Nor is one that ends in two zeros and is too large the least such. -/
theorem le_natCast_mul_of_limit_le {n p : ℕ} (hp : 2 ≤ p) (h : limit ≤ (n : ℚ) * 10 ^ p) :
    2 ^ 96 + 64 ≤ (n : ℚ) * 10 ^ p := by
  have hc : 2 ^ 96 ≤ n * 10 ^ p := by
    have : ((2 ^ 96 : ℕ) : ℚ) < ((n * 10 ^ p + 1 : ℕ) : ℚ) := by
      rw [limit] at h
      push_cast
      linarith
    have h' : 2 ^ 96 < n * 10 ^ p + 1 := by exact_mod_cast this
    omega
  obtain ⟨k, rfl⟩ := Nat.exists_eq_add_of_le' hp
  have hi : 2 ^ 96 + 64 ≤ n * 10 ^ (k + 2) := by
    rw [pow_add, ← mul_assoc] at hc ⊢
    omega
  exact_mod_cast hi

section Whole

variable {z : ℤ} (hz : |(z : ℚ)| * 10 < limit)
include hz

theorem inRange_intCast : InRange (z : ℚ) := by
  rw [InRange]
  linarith [abs_nonneg (z : ℚ)]

theorem one_le_placesFor_intCast : 1 ≤ placesFor (z : ℚ) :=
  le_placesFor (by norm_num) (by rwa [pow_one])

theorem abs_mul_placesFor_le : |(z : ℚ)| * 10 ^ placesFor (z : ℚ) ≤ 2 ^ 96 - 6 := by
  have h := scaled_lt_limit (inRange_intCast hz) le_rfl
  have habs : |(z : ℚ)| = z.natAbs := by rw [Nat.cast_natAbs, Int.cast_abs]
  rw [habs] at h ⊢
  exact le_of_natCast_mul_lt_limit (one_le_placesFor_intCast hz) h

/-- Beside a whole number with a decimal place to spare, the nearest decimals have the places of
that number. -/
theorem placesFor_eq_of_near {x : ℚ} (h : |x - z| * 10 ^ placesFor (z : ℚ) < 1) :
    placesFor x = placesFor (z : ℚ) := by
  have hfit := abs_mul_placesFor_le hz
  have hone := one_le_placesFor_intCast hz
  have hle := placesFor_le (z : ℚ)
  have hup : |x| ≤ |(z : ℚ)| + |x - z| := by
    have := abs_sub_abs_le_abs_sub x z
    linarith
  have hlow : |(z : ℚ)| - |x - z| ≤ |x| := by
    have := abs_sub_abs_le_abs_sub (z : ℚ) x
    rw [abs_sub_comm] at this
    linarith
  have hpow : (0 : ℚ) < 10 ^ placesFor (z : ℚ) := by positivity
  refine placesFor_eq hle ?_ ?_
  · rw [limit]
    nlinarith
  · rcases hle.eq_or_lt with he | hlt
    · exact Or.inl he
    · -- One place more is too much for the whole number by more than `x` can differ from it.
      right
      have hl := limit_le_of_placesFor_lt (Nat.lt_succ_self (placesFor (z : ℚ))) hlt
      have habs : |(z : ℚ)| = z.natAbs := by rw [Nat.cast_natAbs, Int.cast_abs]
      rw [habs] at hl hlow
      have hq := le_natCast_mul_of_limit_le (by omega) hl
      have hsucc : (10 : ℚ) ^ (placesFor (z : ℚ) + 1) = 10 ^ placesFor (z : ℚ) * 10 :=
        pow_succ _ _
      rw [Nat.succ_eq_add_one, hsucc] at hq
      calc
        limit ≤ 2 ^ 96 + 64 - 10 := by rw [limit]; norm_num
        _ ≤ ((z.natAbs : ℚ) - |x - z|) * 10 ^ (placesFor (z : ℚ) + 1) := by
          rw [hsucc]
          linarith
        _ ≤ |x| * 10 ^ (placesFor (z : ℚ) + 1) := by gcongr

theorem nearest_of_near {x : ℚ} (h : |x - z| * 10 ^ placesFor (z : ℚ) < 1) :
    nearest x = halfEven (x * 10 ^ placesFor (z : ℚ)) / 10 ^ placesFor (z : ℚ) := by
  rw [nearest, placesFor_eq_of_near hz h]

theorem nearest_successor :
    nearest (z + 1 / 10 ^ placesFor (z : ℚ)) = z + 1 / 10 ^ placesFor (z : ℚ) := by
  have hp : (10 : ℚ) ^ placesFor (z : ℚ) ≠ 0 := by positivity
  apply nearest_eq_self (c := z * 10 ^ placesFor (z : ℚ) + 1) (placesFor_le _)
  · push_cast
    field_simp
  · have hfit : |z| * 10 ^ placesFor (z : ℚ) + 6 ≤ 2 ^ 96 := by
      have h := abs_mul_placesFor_le hz
      rw [le_sub_iff_add_le, ← Int.cast_abs] at h
      exact_mod_cast h
    have hten : |(10 : ℤ) ^ placesFor (z : ℚ)| = 10 ^ placesFor (z : ℚ) := abs_of_nonneg (by positivity)
    have hadd := abs_add_le (z * 10 ^ placesFor (z : ℚ)) 1
    rw [abs_mul, hten, abs_one] at hadd
    omega

theorem even_scaled : Even (z * 10 ^ placesFor (z : ℚ)) := by
  obtain ⟨k, hk⟩ := Nat.exists_eq_add_of_le' (one_le_placesFor_intCast hz)
  rw [hk, pow_succ]
  exact ((by decide : Even (10 : ℤ)).mul_left _).mul_left _

/-- The nearest decimal is not above a whole number exactly if the number exceeds it by half a unit
in its last place at most. -/
theorem nearest_le_intCast_iff {x : ℚ} :
    nearest x ≤ z ↔ 2 * (x - z) * 10 ^ placesFor (z : ℚ) ≤ 1 := by
  have hself := nearest_intCast (intCast_lt_limit.mp (inRange_intCast hz))
  have hnext := nearest_successor hz
  have heven := even_scaled hz
  have hnear := nearest_of_near hz (x := x)
  have hp : (0 : ℚ) < 10 ^ placesFor (z : ℚ) := by positivity
  generalize placesFor (z : ℚ) = p at *
  rcases le_or_gt x z with hle | hgt
  · refine iff_of_true (hself ▸ nearest_mono hle) ?_
    nlinarith
  · rcases lt_or_ge (|x - z| * 10 ^ p) 1 with hlt | hge
    · -- A tie goes to the whole number, whose last digit is a zero.
      rw [hnear hlt, div_le_iff₀ hp]
      have h := halfEven_le_iff (x := x * 10 ^ p) heven
      push_cast at h
      rw [show (halfEven (x * 10 ^ p) : ℚ) ≤ z * 10 ^ p ↔ halfEven (x * 10 ^ p) ≤ z * 10 ^ p by
        exact_mod_cast Iff.rfl, h]
      constructor <;> intro h <;> linarith
    · rw [abs_of_pos (by linarith)] at hge
      refine iff_of_false ?_ (by linarith)
      have hm : (z : ℚ) + 1 / 10 ^ p ≤ x := by
        rw [← le_sub_iff_add_le', div_le_iff₀ hp]
        exact hge
      have := nearest_mono hm
      rw [hnext] at this
      have h1 : (0 : ℚ) < 1 / 10 ^ p := by positivity
      linarith

/-- The nearest decimal is not below a whole number exactly if the number falls short of it by half
a unit in its last place at most. -/
theorem intCast_le_nearest_iff {x : ℚ} :
    z ≤ nearest x ↔ 2 * (z - x) * 10 ^ placesFor (z : ℚ) ≤ 1 := by
  have h := nearest_le_intCast_iff (z := -z) (by rwa [Int.cast_neg, abs_neg]) (x := -x)
  rwa [nearest_neg, Int.cast_neg, placesFor_neg, neg_le_neg_iff, neg_sub_neg] at h

end Whole

section Natural

variable {n : ℕ} (hn : (n : ℚ) * 10 < limit)
include hn

theorem nearest_le_natCast_iff {x : ℚ} :
    nearest x ≤ n ↔ 2 * (x - n) * 10 ^ placesFor (n : ℚ) ≤ 1 := by
  have h := nearest_le_intCast_iff (z := n) (by rwa [Int.cast_natCast, Nat.abs_cast]) (x := x)
  rwa [Int.cast_natCast] at h

theorem natCast_le_nearest_iff {x : ℚ} :
    n ≤ nearest x ↔ 2 * (n - x) * 10 ^ placesFor (n : ℚ) ≤ 1 := by
  have h := intCast_le_nearest_iff (z := n) (by rwa [Int.cast_natCast, Nat.abs_cast]) (x := x)
  rwa [Int.cast_natCast] at h

/-- What exceeds a whole number by more than half a unit in its last digit stays above it. -/
theorem natCast_lt_nearest {x : ℚ} (h : (1 / 2 + 2 / 3 * (n : ℚ)) / 10 ^ 28 < x - n) :
    n < nearest x := by
  have hunit := half_unit_le_size (n : ℚ)
  rw [Nat.abs_cast] at hunit
  have hlt := hunit.trans_lt h
  rw [div_lt_iff₀ (by positivity)] at hlt
  rw [← not_le, nearest_le_natCast_iff hn]
  linarith

end Natural

end Reckoner.Decimal
