import Mathlib.Tactic.LinearCombination
import Reckoner.Proofs.Planning.Ceiling
import Reckoner.Proofs.Time.Counted
/-!
How many units of a capacity carry a load, when both are rates. Main statement: the count is the
least whole number whose capacity carries the load, unless a whole number does so exactly and the
rounded amounts a second make it look too small; then it is one more.
-/
namespace Reckoner.Capacity

open Decimal

/-- Whole amounts of a load and of a capacity, the units of time that they are for, and a buffer in
ten-thousandths. -/
structure Plan where
  load : ℕ
  capacity : ℕ
  buffer : ℕ
  loadPer : TimeUnit
  capacityPer : TimeUnit
  load_lt : load < 10 ^ 9
  capacity_pos : 0 < capacity
  capacity_lt : capacity < 10 ^ 9
  buffer_lt : buffer < 10 ^ 7

namespace Plan

/-- The factor that makes room for the buffer. -/
def factor (p : Plan) : ℚ := 1 + p.buffer / 10 ^ 4

/-- The load a second with the buffer added. -/
def loadRate (p : Plan) : ℚ := p.load / p.loadPer.seconds * p.factor

def capacityRate (p : Plan) : ℚ := p.capacity / p.capacityPer.seconds

/-- How many times the capacity goes into the load. -/
def ratio (p : Plan) : ℚ := p.loadRate / p.capacityRate

/-- The load a second with the buffer added, as decimals give it. -/
def decimalLoad (p : Plan) : ℚ := nearest (nearest (p.load / p.loadPer.seconds) * p.factor)

/-- The capacity a second, as decimals give it. -/
def decimalCapacity (p : Plan) : ℚ := nearest (p.capacity / p.capacityPer.seconds)

/-- The ratio is not whole, or the rounded load exceeds that many times the rounded capacity by no
more than half a unit in the last place of the ratio. -/
def Fair (p : Plan) : Prop :=
  p.ratio.den = 1 →
    2 * (p.decimalLoad - p.ratio * p.decimalCapacity) * 10 ^ placesFor p.ratio ≤ p.decimalCapacity

instance (p : Plan) : Decidable p.Fair := inferInstanceAs (Decidable (_ → _))

variable (p : Plan)

theorem one_le_factor : 1 ≤ p.factor := by
  have : (0 : ℚ) ≤ p.buffer / 10 ^ 4 := by positivity
  rw [factor]
  linarith

theorem factor_lt : p.factor < 1001 := by
  have h : (p.buffer : ℚ) < 10 ^ 7 := by exact_mod_cast p.buffer_lt
  have h' : (p.buffer : ℚ) / 10 ^ 4 < 1000 := by
    rw [div_lt_iff₀ (by norm_num)]
    linarith
  rw [factor]
  linarith

theorem load_lt_cast : (p.load : ℚ) < 10 ^ 9 := by exact_mod_cast p.load_lt

theorem one_le_capacity : (1 : ℚ) ≤ p.capacity := by exact_mod_cast p.capacity_pos

theorem capacity_lt_cast : (p.capacity : ℚ) < 10 ^ 9 := by exact_mod_cast p.capacity_lt

theorem capacityRate_pos : 0 < p.capacityRate := by
  have h1 := p.one_le_capacity
  have h2 := p.capacityPer.one_le_seconds
  exact div_pos (by linarith) (by linarith)

theorem loadRate_nonneg : 0 ≤ p.loadRate := by
  have := p.one_le_factor
  rw [loadRate]
  positivity

theorem ratio_nonneg : 0 ≤ p.ratio := div_nonneg p.loadRate_nonneg p.capacityRate_pos.le

/-- Every count of ten-thousandths in a unit of time has a fraction with a small denominator. -/
theorem exists_fraction (u : TimeUnit) :
    ∃ h w : ℕ, 10 ^ 4 * w = h * u.seconds ∧ 0 < h ∧ h ≤ 10 ^ 4 ∧ w ≤ 604800 ∧
      w * u.seconds ≤ 5 * 10 ^ 11 := by
  cases u
  · exact ⟨10 ^ 4, 1, by decide⟩
  · exact ⟨10 ^ 4, 60, by decide⟩
  · exact ⟨10 ^ 4, 3600, by decide⟩
  · exact ⟨10 ^ 4, 86400, by decide⟩
  · exact ⟨10 ^ 4, 604800, by decide⟩
  · exact ⟨5, 1296, by decide⟩
  · exact ⟨5, 15768, by decide⟩

theorem abs_decimalLoad_sub_le :
    |p.decimalLoad - p.loadRate| ≤ (2 * p.factor + 2 * p.loadRate) / 10 ^ 28 := by
  have hF := p.one_le_factor
  have hx : (0 : ℚ) ≤ p.load / p.loadPer.seconds := by positivity
  have h1 := abs_nearest_sub_le_size (p.load / p.loadPer.seconds)
  have h2 := abs_nearest_sub_le_size (nearest (p.load / p.loadPer.seconds) * p.factor)
  have hl := nearest_nonneg hx
  rw [abs_of_nonneg hx] at h1
  rw [abs_of_nonneg (mul_nonneg hl (by linarith))] at h2
  have h3 : |nearest (p.load / p.loadPer.seconds) * p.factor - p.loadRate| ≤
      (1 / 2 * p.factor + 2 / 3 * p.loadRate) / 10 ^ 28 := by
    rw [loadRate, ← sub_mul, abs_mul, abs_of_nonneg (by linarith : 0 ≤ p.factor)]
    calc
      |nearest (p.load / p.loadPer.seconds) - p.load / p.loadPer.seconds| * p.factor
          ≤ (1 / 2 + 2 / 3 * (p.load / p.loadPer.seconds)) / 10 ^ 28 * p.factor := by gcongr
      _ = (1 / 2 * p.factor + 2 / 3 * (p.load / p.loadPer.seconds * p.factor)) / 10 ^ 28 := by
          ring
  have h4 := (abs_sub_abs_le_abs_sub _ _).trans h3
  rw [abs_of_nonneg (mul_nonneg hl (by linarith)), abs_of_nonneg p.loadRate_nonneg] at h4
  have htri := abs_sub_le p.decimalLoad (nearest (p.load / p.loadPer.seconds) * p.factor) p.loadRate
  have hY := p.loadRate_nonneg
  rw [decimalLoad] at htri ⊢
  norm_num at h2 h3 h4 ⊢
  linarith

theorem abs_decimalCapacity_sub_le :
    |p.decimalCapacity - p.capacityRate| ≤ (1 / 2 + 2 / 3 * p.capacityRate) / 10 ^ 28 := by
  have h := abs_nearest_sub_le_size (p.capacity / p.capacityPer.seconds)
  rwa [abs_of_nonneg (show (0 : ℚ) ≤ p.capacity / p.capacityPer.seconds by positivity)] at h

theorem capacityRate_le_decimalCapacity : 9 / 10 * p.capacityRate ≤ p.decimalCapacity := by
  have herr := (abs_le.mp p.abs_decimalCapacity_sub_le).1
  have hK := p.one_le_capacity
  have hs := p.capacityPer.cast_seconds_le
  have hs1 := p.capacityPer.one_le_seconds
  have hlow : 1 / 31536000 ≤ p.capacityRate := by
    rw [capacityRate, div_le_div_iff₀ (by norm_num) (by linarith)]
    linarith
  norm_num at herr
  linarith

theorem decimalCapacity_pos : 0 < p.decimalCapacity := by
  have := p.capacityRate_pos
  have := p.capacityRate_le_decimalCapacity
  linarith

/-- What the roundings of load and capacity do to the load that is left over. -/
theorem abs_leftover_le :
    |p.decimalLoad - p.ratio * p.decimalCapacity| ≤
      (2 * p.factor + 3 * p.loadRate + p.ratio / 2) / 10 ^ 28 := by
  have hc := p.capacityRate_pos
  have hX := p.ratio_nonneg
  have hY : p.ratio * p.capacityRate = p.loadRate := div_mul_cancel₀ _ hc.ne'
  have hY0 := p.loadRate_nonneg
  have hload := p.abs_decimalLoad_sub_le
  have hcap : |p.loadRate - p.ratio * p.decimalCapacity| ≤
      (p.ratio / 2 + 2 / 3 * p.loadRate) / 10 ^ 28 := by
    rw [← hY, ← mul_sub, abs_mul, abs_of_nonneg hX, abs_sub_comm]
    calc
      p.ratio * |p.decimalCapacity - p.capacityRate|
          ≤ p.ratio * ((1 / 2 + 2 / 3 * p.capacityRate) / 10 ^ 28) := by
            gcongr
            exact p.abs_decimalCapacity_sub_le
      _ = (p.ratio / 2 + 2 / 3 * (p.ratio * p.capacityRate)) / 10 ^ 28 := by ring
  have htri := abs_sub_le p.decimalLoad p.loadRate (p.ratio * p.decimalCapacity)
  norm_num at hload hcap ⊢
  linarith

theorem load_mul_factor_le : p.load * (p.factor * 10 ^ 4) ≤ (10 ^ 9 * (1001 * 10 ^ 4) : ℚ) := by
  have hF := p.factor_lt.le
  have hA := p.load_lt_cast.le
  have hF1 := p.one_le_factor
  gcongr

section Denominator

variable {h w : ℕ} (hw : 10 ^ 4 * w = h * p.capacityPer.seconds)
include hw

theorem ratio_mul_denominator :
    p.ratio * (h * p.capacity * p.loadPer.seconds : ℕ) = p.load * (p.factor * 10 ^ 4) * w := by
  have hw' : (10 : ℚ) ^ 4 * w = h * p.capacityPer.seconds := by exact_mod_cast hw
  have hK : (p.capacity : ℚ) ≠ 0 := by linarith [p.one_le_capacity]
  have hu : (p.loadPer.seconds : ℚ) ≠ 0 := by linarith [p.loadPer.one_le_seconds]
  have hv : (p.capacityPer.seconds : ℚ) ≠ 0 := by linarith [p.capacityPer.one_le_seconds]
  rw [ratio, loadRate, capacityRate]
  push_cast
  field_simp
  linear_combination (-(p.load : ℚ) * p.factor) * hw'

theorem denominator_eq : ((h * p.capacity * p.loadPer.seconds : ℕ) : ℚ) =
    10 ^ 4 * w * p.loadPer.seconds * p.capacityRate := by
  have hw' : (10 : ℚ) ^ 4 * w = h * p.capacityPer.seconds := by exact_mod_cast hw
  have hv : (p.capacityPer.seconds : ℚ) ≠ 0 := by linarith [p.capacityPer.one_le_seconds]
  rw [hw', capacityRate]
  push_cast
  field_simp

theorem denominator_mul_ratio_le (hw1 : w ≤ 604800) :
    (h * p.capacity * p.loadPer.seconds : ℕ) * p.ratio ≤ 10 ^ 9 * (1001 * 10 ^ 4) * 604800 := by
  have hw1' : (w : ℚ) ≤ 604800 := by exact_mod_cast hw1
  have hload := p.load_mul_factor_le
  rw [mul_comm, p.ratio_mul_denominator hw]
  gcongr

end Denominator

/-- The errors of load and capacity, in parts of the denominator. -/
theorem scaled_errors_le {w : ℕ} (hw1 : w ≤ 604800)
    (hw2 : w * p.capacityPer.seconds ≤ 5 * 10 ^ 11) :
    10 ^ 4 * w * p.loadPer.seconds * (2 * p.factor + 3 * p.loadRate + p.ratio / 2) ≤
      9 / 25 * 10 ^ 28 := by
  have hw1' : (w : ℚ) ≤ 604800 := by exact_mod_cast hw1
  have hw2' : (w : ℚ) * p.capacityPer.seconds ≤ 5 * 10 ^ 11 := by exact_mod_cast hw2
  have hload := p.load_mul_factor_le
  have hF := p.factor_lt.le
  have hF1 := p.one_le_factor
  have hu := p.loadPer.cast_seconds_le
  have hu1 := p.loadPer.one_le_seconds
  have hK := p.one_le_capacity
  have hload0 : (0 : ℚ) ≤ p.load * (p.factor * 10 ^ 4) := by positivity
  -- Only the third part, the error of the capacity, comes near the bound.
  have hfirst : (w : ℚ) * p.loadPer.seconds * p.factor ≤ 604800 * 31536000 * 1001 := by gcongr
  have hsecond : 10 ^ 4 * w * p.loadPer.seconds * p.loadRate =
      w * (p.load * (p.factor * 10 ^ 4)) := by
    rw [loadRate]
    field_simp
  have hsecond' : (w : ℚ) * (p.load * (p.factor * 10 ^ 4)) ≤
      604800 * (10 ^ 9 * (1001 * 10 ^ 4)) := by gcongr
  have hthird : 10 ^ 4 * w * p.loadPer.seconds * p.ratio =
      w * p.capacityPer.seconds * (p.load * (p.factor * 10 ^ 4)) / p.capacity := by
    rw [ratio, loadRate, capacityRate]
    field_simp
  have hthird' : w * p.capacityPer.seconds * (p.load * (p.factor * 10 ^ 4)) / p.capacity ≤
      5 * 10 ^ 11 * (10 ^ 9 * (1001 * 10 ^ 4)) := by
    apply (div_le_self (by positivity) hK).trans
    gcongr
  norm_num at hfirst hsecond hsecond' hthird hthird' ⊢
  linarith

/-- How many times the capacity goes into the load, as decimals give them. -/
def decimalRatio (p : Plan) : ℚ := p.decimalLoad / p.decimalCapacity

theorem decimalRatio_sub_ratio : p.decimalRatio - p.ratio =
    (p.decimalLoad - p.ratio * p.decimalCapacity) / p.decimalCapacity := by
  have hC := p.decimalCapacity_pos
  rw [decimalRatio]
  field_simp

/-- The ratio is a fraction of the denominator `d`, of which the rounded load and capacity give it
back to within two fifths of a part, and half a unit in the last place is less than a tenth. -/
structure Denominator (p : Plan) (d : ℕ) : Prop where
  pos : 0 < d
  exists_numerator : ∃ n : ℕ, p.ratio * d = n
  mul_error_le : d * |p.decimalRatio - p.ratio| ≤ 2 / 5
  mul_half_unit_lt : d * ((1 / 2 + 2 / 3 * p.ratio) / 10 ^ 28) < 1 / 10

theorem exists_denominator : ∃ d, p.Denominator d := by
  obtain ⟨h, w, hw, hpos, hh, hw1, hw2⟩ := exists_fraction p.capacityPer
  have hC := p.decimalCapacity_pos
  have hcC := p.capacityRate_le_decimalCapacity
  have hc := p.capacityRate_pos
  refine ⟨h * p.capacity * p.loadPer.seconds, ?_, ?_, ?_, ?_⟩
  · exact Nat.mul_pos (Nat.mul_pos hpos p.capacity_pos) p.loadPer.seconds_pos
  · refine ⟨p.load * (10 ^ 4 + p.buffer) * w, ?_⟩
    rw [p.ratio_mul_denominator hw, factor]
    push_cast
    ring
  · rw [p.decimalRatio_sub_ratio, abs_div, abs_of_pos hC, ← mul_div_assoc, div_le_iff₀ hC,
      p.denominator_eq hw]
    calc
      10 ^ 4 * w * p.loadPer.seconds * p.capacityRate *
          |p.decimalLoad - p.ratio * p.decimalCapacity|
          ≤ 10 ^ 4 * w * p.loadPer.seconds * p.capacityRate *
            ((2 * p.factor + 3 * p.loadRate + p.ratio / 2) / 10 ^ 28) := by
          gcongr
          exact p.abs_leftover_le
      _ = 10 ^ 4 * w * p.loadPer.seconds * (2 * p.factor + 3 * p.loadRate + p.ratio / 2) *
            (p.capacityRate / 10 ^ 28) := by ring
      _ ≤ 9 / 25 * 10 ^ 28 * (p.capacityRate / 10 ^ 28) :=
          mul_le_mul_of_nonneg_right (p.scaled_errors_le hw1 hw2) (by positivity)
      _ ≤ 2 / 5 * p.decimalCapacity := by
          norm_num
          linarith
  · have hd : ((h * p.capacity * p.loadPer.seconds : ℕ) : ℚ) ≤ 10 ^ 4 * 10 ^ 9 * 31536000 := by
      have hh' : (h : ℚ) ≤ 10 ^ 4 := by exact_mod_cast hh
      have hK := p.capacity_lt_cast.le
      have hu := p.loadPer.cast_seconds_le
      push_cast
      gcongr
    have hX := p.denominator_mul_ratio_le hw hw1
    rw [← mul_div_assoc, div_lt_iff₀ (by norm_num)]
    norm_num at hd hX ⊢
    linarith

theorem Denominator.one_le {p : Plan} {d : ℕ} (h : p.Denominator d) : (1 : ℚ) ≤ d := by
  exact_mod_cast h.pos

theorem abs_decimalRatio_sub_le : |p.decimalRatio - p.ratio| ≤ 2 / 5 := by
  obtain ⟨d, h⟩ := p.exists_denominator
  have hmul := le_mul_of_one_le_left (abs_nonneg (p.decimalRatio - p.ratio)) h.one_le
  exact hmul.trans h.mul_error_le

/-- Neither the ratio nor its neighbours come near the end of the range. -/
theorem ratio_mul_ten_lt : p.ratio * 10 + 10 < limit := by
  obtain ⟨d, h⟩ := p.exists_denominator
  have hX := p.ratio_nonneg
  have hunit : (0 : ℚ) ≤ (1 / 2 + 2 / 3 * p.ratio) / 10 ^ 28 := by positivity
  have hle := (le_mul_of_one_le_left hunit h.one_le).trans_lt h.mul_half_unit_lt
  rw [div_lt_iff₀ (by norm_num)] at hle
  rw [limit]
  norm_num at hle ⊢
  linarith

/-- Rounding keeps the decimal ratio below the next whole number. -/
theorem nearest_decimalRatio_le {N : ℕ} (hN : (N : ℚ) ≤ p.ratio) (h : p.decimalRatio ≤ N + 1) :
    nearest p.decimalRatio ≤ N + 1 := by
  have hfit := p.ratio_mul_ten_lt
  have hself : nearest ((N + 1 : ℕ) : ℚ) = ((N + 1 : ℕ) : ℚ) := by
    apply nearest_natCast
    rw [limit] at hfit
    have hlt : (N : ℚ) + 1 < 2 ^ 96 := by linarith [(Nat.cast_nonneg N : (0 : ℚ) ≤ N)]
    exact_mod_cast hlt
  push_cast at hself
  have hmono := nearest_mono h
  rwa [hself] at hmono

/-- A ratio that is not whole keeps a part of its denominator away from the whole numbers. -/
theorem Denominator.gap {p : Plan} {d : ℕ} (h : p.Denominator d) (hwhole : p.ratio.den ≠ 1) :
    (⌊p.ratio⌋₊ : ℚ) * d + 1 ≤ p.ratio * d ∧ p.ratio * d + 1 ≤ (⌊p.ratio⌋₊ + 1) * d := by
  obtain ⟨n, hn⟩ := h.exists_numerator
  have hd : (0 : ℚ) < d := by exact_mod_cast h.pos
  have hle : (⌊p.ratio⌋₊ : ℚ) ≤ p.ratio := Nat.floor_le p.ratio_nonneg
  have hne : (⌊p.ratio⌋₊ : ℚ) ≠ p.ratio := by
    intro he
    apply hwhole
    rw [← he]
    rfl
  constructor
  · have hlt := mul_lt_mul_of_pos_right (lt_of_le_of_ne hle hne) hd
    rw [hn] at hlt ⊢
    exact_mod_cast hlt
  · have hlt := mul_lt_mul_of_pos_right (Nat.lt_floor_add_one p.ratio) hd
    rw [hn] at hlt ⊢
    exact_mod_cast hlt

/-- The decimal ratio lies between the same whole numbers as a ratio that is not whole. -/
theorem ceil_decimalRatio_of_not_whole (hwhole : p.ratio.den ≠ 1) :
    ⌈nearest p.decimalRatio⌉ = ⌈p.ratio⌉ := by
  obtain ⟨d, h⟩ := p.exists_denominator
  obtain ⟨hbelow, habove⟩ := h.gap hwhole
  have hd := h.one_le
  have hle : (⌊p.ratio⌋₊ : ℚ) ≤ p.ratio := Nat.floor_le p.ratio_nonneg
  obtain ⟨hlo, hhi⟩ := abs_le.mp
    (show |d * (p.decimalRatio - p.ratio)| ≤ 2 / 5 by
      rw [abs_mul, Nat.abs_cast]
      exact h.mul_error_le)
  have hupper : nearest p.decimalRatio ≤ ⌊p.ratio⌋₊ + 1 := by
    apply p.nearest_decimalRatio_le hle
    have hscaled : d * p.decimalRatio ≤ d * (⌊p.ratio⌋₊ + 1) := by linarith
    exact le_of_mul_le_mul_left hscaled (by linarith)
  have hlower : (⌊p.ratio⌋₊ : ℚ) < nearest p.decimalRatio := by
    have hfit : (⌊p.ratio⌋₊ : ℚ) * 10 < limit := by linarith [p.ratio_mul_ten_lt]
    apply natCast_lt_nearest hfit
    -- The ratio is a part of its denominator away, and half a unit is less than that.
    have hsize : (1 / 2 + 2 / 3 * (⌊p.ratio⌋₊ : ℚ)) / 10 ^ 28 ≤
        (1 / 2 + 2 / 3 * p.ratio) / 10 ^ 28 := by gcongr
    have hmul := mul_le_mul_of_nonneg_left hsize (by linarith : (0 : ℚ) ≤ d)
    have hscaled : d * ((1 / 2 + 2 / 3 * (⌊p.ratio⌋₊ : ℚ)) / 10 ^ 28) <
        d * (p.decimalRatio - ⌊p.ratio⌋₊) := by linarith [h.mul_half_unit_lt]
    exact lt_of_mul_lt_mul_left hscaled (by linarith)
  have hlt : (⌊p.ratio⌋₊ : ℚ) < p.ratio := by
    have hscaled : (⌊p.ratio⌋₊ : ℚ) * d < p.ratio * d := by linarith
    exact lt_of_mul_lt_mul_right hscaled (by linarith)
  -- Both ceilings are the whole number above.
  rw [(Int.ceil_eq_iff (z := ⌊p.ratio⌋₊ + 1)).mpr, (Int.ceil_eq_iff (z := ⌊p.ratio⌋₊ + 1)).mpr]
  · push_cast
    exact ⟨by linarith, (Nat.lt_floor_add_one p.ratio).le⟩
  · push_cast
    exact ⟨by linarith, hupper⟩

/-- A plan with a whole ratio is fair exactly if the decimal ratio does not round beyond it. -/
theorem fair_iff {N : ℕ} (h : p.ratio = N) : p.Fair ↔ nearest p.decimalRatio ≤ N := by
  have hC := p.decimalCapacity_pos
  have hfit : (N : ℚ) * 10 < limit := by linarith [p.ratio_mul_ten_lt]
  have hscale : 2 * (p.decimalRatio - N) * 10 ^ placesFor (N : ℚ) =
      2 * (p.decimalLoad - N * p.decimalCapacity) * 10 ^ placesFor (N : ℚ) /
        p.decimalCapacity := by
    rw [decimalRatio]
    field_simp
  rw [nearest_le_natCast_iff hfit, hscale, div_le_one hC, Fair, h]
  simp

theorem ceil_decimalRatio_of_whole {N : ℕ} (h : p.ratio = N) :
    ⌈nearest p.decimalRatio⌉ = if p.Fair then (N : ℤ) else N + 1 := by
  have hnear := p.abs_decimalRatio_sub_le
  have hfit := p.ratio_mul_ten_lt
  rw [h] at hnear hfit
  obtain ⟨hlo, hhi⟩ := abs_le.mp hnear
  have hupper := p.nearest_decimalRatio_le (N := N) h.ge (by linarith)
  have hlower : (N : ℚ) - 1 < nearest p.decimalRatio := by
    -- The half below the whole number is a decimal, and rounding does not pass it.
    have hfitZ : (N : ℤ) * 10 < 2 ^ 96 := by
      rw [limit] at hfit
      have hlt : (N : ℚ) * 10 < 2 ^ 96 := by linarith
      exact_mod_cast hlt
    have hself := nearest_eq_self (x := (N : ℚ) - 1 / 2) (c := N * 10 - 5) (p := 1) (by norm_num)
      (by push_cast; ring) (by rw [abs_lt]; omega)
    have hmono := nearest_mono (show (N : ℚ) - 1 / 2 ≤ p.decimalRatio by linarith)
    rw [hself] at hmono
    linarith
  split
  · next hf =>
    rw [Int.ceil_eq_iff]
    push_cast
    exact ⟨hlower, (p.fair_iff h).mp hf⟩
  · next hf =>
    rw [p.fair_iff h, not_le] at hf
    rw [Int.ceil_eq_iff]
    push_cast
    exact ⟨by linarith, hupper⟩

theorem ceil_decimalRatio :
    ⌈nearest p.decimalRatio⌉ = if p.Fair then ⌈p.ratio⌉ else ⌈p.ratio⌉ + 1 := by
  by_cases hwhole : p.ratio.den = 1
  · have hnum : ((p.ratio.num.toNat : ℕ) : ℤ) = p.ratio.num :=
      Int.toNat_of_nonneg (Rat.num_nonneg.mpr p.ratio_nonneg)
    have hratio : p.ratio = (p.ratio.num.toNat : ℕ) := by
      rw [← Int.cast_natCast, hnum]
      exact (Rat.den_eq_one_iff _).mp hwhole |>.symm
    rw [p.ceil_decimalRatio_of_whole hratio]
    rw [show ⌈p.ratio⌉ = ((p.ratio.num.toNat : ℕ) : ℤ) by
      conv_lhs => rw [hratio]
      exact Int.ceil_natCast _]
  · have hfair : p.Fair := fun h => absurd h hwhole
    rw [p.ceil_decimalRatio_of_not_whole hwhole, if_pos hfair]

theorem isLeast_iff (k : ℤ) : IsLeast {j : ℤ | p.loadRate ≤ j * p.capacityRate} k ↔
    k = ⌈p.ratio⌉ := by
  have hmem (j : ℤ) : p.loadRate ≤ j * p.capacityRate ↔ ⌈p.ratio⌉ ≤ j := by
    rw [Int.ceil_le, ratio, div_le_iff₀ p.capacityRate_pos]
  simp only [hmem]
  constructor
  · exact fun h => le_antisymm (h.2 (le_refl ⌈p.ratio⌉)) h.1
  · rintro rfl
    exact ⟨le_refl ⌈p.ratio⌉, fun j hj => hj⟩

/-- A load, a capacity and a buffer have the numbers of the plan, and load and capacity one unit. -/
structure Describes (p : Plan) (load capacity : Rate) (buffer : Option Decimal) : Prop where
  unit_eq : load.amount.unit = capacity.amount.unit
  load_value : load.amount.value.toRat = p.load
  load_per : TimeUnit.ofString? load.per = some p.loadPer
  capacity_value : capacity.amount.value.toRat = p.capacity
  capacity_per : TimeUnit.ofString? capacity.per = some p.capacityPer
  buffer_value : (buffer.getD .zero).toRat = p.buffer / 10 ^ 4

variable {p : Plan} {load capacity : Rate} {buffer : Option Decimal}

theorem perSeconds_eq {r : Rate} {u : TimeUnit} (h : TimeUnit.ofString? r.per = some u) :
    r.perSeconds = .ok u.length := by
  rw [Rate.perSeconds, Rate.perUnit, TimeUnit.read, h]
  rfl

theorem Describes.comparable_eq (h : p.Describes load capacity buffer) :
    comparable (.rate load) (.rate capacity) =
      .ok (load.amount.value.dividedBy p.loadPer.length,
        capacity.amount.value.dividedBy p.capacityPer.length) := by
  rw [comparable, convertUnit, if_pos h.unit_eq.symm, perSeconds_eq h.load_per,
    perSeconds_eq h.capacity_per]
  rfl

theorem nearest_factor (p : Plan) : nearest p.factor = p.factor := by
  have hb := p.buffer_lt
  apply nearest_eq_self (c := 10 ^ 4 + p.buffer) (p := 4) (by norm_num)
  · rw [factor]
    push_cast
    ring
  · rw [abs_lt]
    omega

theorem inRange_load (p : Plan) : InRange (nearest (p.load / p.loadPer.seconds) * p.factor) := by
  have hF := p.factor_lt.le
  have hF1 := p.one_le_factor
  have hle : (p.load : ℚ) / p.loadPer.seconds ≤ ((10 ^ 9 : ℕ) : ℚ) := by
    push_cast
    exact (div_le_self (by positivity) p.loadPer.one_le_seconds).trans p.load_lt_cast.le
  have hl := nearest_mono hle
  rw [nearest_natCast (by norm_num)] at hl
  push_cast at hl
  have hl0 := nearest_nonneg (show (0 : ℚ) ≤ p.load / p.loadPer.seconds by positivity)
  rw [InRange, abs_of_nonneg (by positivity), limit]
  calc
    nearest (p.load / p.loadPer.seconds) * p.factor ≤ 1000000000 * 1001 := by gcongr
    _ < 2 ^ 96 - 1 / 2 := by norm_num

theorem inRange_decimalRatio (p : Plan) : InRange p.decimalRatio := by
  have hfit := p.ratio_mul_ten_lt
  have hX := p.ratio_nonneg
  have habs := (abs_sub_abs_le_abs_sub _ _).trans p.abs_decimalRatio_sub_le
  rw [abs_of_nonneg hX] at habs
  rw [InRange]
  linarith

theorem Describes.exists_count (h : p.Describes load capacity buffer) :
    ∃ n, count (load.amount.value.dividedBy p.loadPer.length)
      (capacity.amount.value.dividedBy p.capacityPer.length) (buffer.getD .zero) = some n ∧
      n.toRat = ⌈nearest p.decimalRatio⌉ := by
  have hload := TimeUnit.toRat_dividedBy_length load.amount.value p.loadPer
  have hcap := TimeUnit.toRat_dividedBy_length capacity.amount.value p.capacityPer
  rw [h.load_value] at hload
  rw [h.capacity_value] at hcap
  have hcap' : (capacity.amount.value.dividedBy p.capacityPer.length).toRat =
      p.decimalCapacity := hcap
  have hfactor : 1 + (buffer.getD .zero).toRat = p.factor := by rw [h.buffer_value, factor]
  have hcount := Capacity.exists_count (l := load.amount.value.dividedBy p.loadPer.length)
    (c := capacity.amount.value.dividedBy p.capacityPer.length) (b := buffer.getD .zero)
  -- The buffer, the load with it and the ratio are in range, one after the other.
  rw [hfactor, p.nearest_factor, hload, hcap', ← decimalLoad, ← decimalRatio] at hcount
  obtain ⟨n, hn, hval⟩ := hcount (by
      rw [InRange, abs_of_nonneg (by linarith [p.one_le_factor]), limit]
      linarith [p.factor_lt]) p.inRange_load p.decimalCapacity_pos.ne' p.inRange_decimalRatio
  exact ⟨n, hn, toRat_of_ofInt? hval⟩

theorem Describes.requires_eq (h : p.Describes load capacity buffer) :
    ∃ n, requires (.rate load) (.rate capacity) buffer = .ok n ∧
      n.toRat = ⌈nearest p.decimalRatio⌉ := by
  obtain ⟨n, hn, hval⟩ := h.exists_count
  have hload := TimeUnit.toRat_dividedBy_length load.amount.value p.loadPer
  have hcap := TimeUnit.toRat_dividedBy_length capacity.amount.value p.capacityPer
  rw [h.load_value] at hload
  rw [h.capacity_value] at hcap
  refine ⟨n, ?_, hval⟩
  rw [requires_of_comparable h.comparable_eq, hn, orError]
  · rw [h.buffer_value]
    positivity
  · rw [hload]
    exact nearest_nonneg (by positivity)
  · rw [hcap]
    exact p.decimalCapacity_pos

end Plan

/-- Whole amounts of a load and a capacity that are rates in one unit: both functions give one
count, the least whole number whose capacity carries the load with its buffer or one more, and it is
the least exactly if the plan is fair. -/
theorem requires_rates_iff (p : Plan) (load capacity : Rate) (buffer : Option Decimal)
    (unit : String) (h : p.Describes load capacity buffer) :
    ∃ (n : Decimal) (k : ℤ), requires (.rate load) (.rate capacity) buffer = .ok n ∧
      capacityAt (.rate load) (.rate capacity) unit buffer = .ok ⟨n, Text.trim unit⟩ ∧
      n.toRat = k ∧
      (IsLeast {j : ℤ | p.loadRate ≤ j * p.capacityRate} k ∨
        IsLeast {j : ℤ | p.loadRate ≤ j * p.capacityRate} (k - 1)) ∧
      (IsLeast {j : ℤ | p.loadRate ≤ j * p.capacityRate} k ↔ p.Fair) := by
  obtain ⟨n, hn, hval⟩ := h.requires_eq
  refine ⟨n, _, hn, by rw [capacityAt, hn]; rfl, hval, ?_, ?_⟩
  · simp only [Plan.isLeast_iff, p.ceil_decimalRatio]
    split
    · exact Or.inl rfl
    · exact Or.inr (by ring)
  · rw [Plan.isLeast_iff, p.ceil_decimalRatio]
    split
    · next hf => exact iff_of_true rfl hf
    · next hf => exact iff_of_false (by omega) hf

/-- Ninety a minute with a fifth to spare, carried by one a second each. -/
theorem requires_rates_fair :
    ∃ (n : Decimal) (k : ℤ),
      requires (.rate ⟨⟨.ofUInt64 90, "req"⟩, "min"⟩) (.rate ⟨⟨.one, "req"⟩, "s"⟩)
        (some ⟨false, 2, 1, by decide, by decide⟩) = .ok n ∧
      n.toRat = k ∧ IsLeast {j : ℤ | (90 : ℚ) / 60 * (1 + 2 / 10) ≤ j * (1 / 1)} k := by
  obtain ⟨n, k, hn, -, hk, -, hiff⟩ := requires_rates_iff
    ⟨90, 1, 2000, .minute, .second, by decide, by decide, by decide, by decide⟩
    ⟨⟨.ofUInt64 90, "req"⟩, "min"⟩ ⟨⟨.one, "req"⟩, "s"⟩
    (some ⟨false, 2, 1, by decide, by decide⟩) "server"
    ⟨rfl, by decide +kernel, by decide +kernel, by decide +kernel, by decide +kernel,
      by decide +kernel⟩
  refine ⟨n, k, hn, hk, ?_⟩
  have h := hiff.mpr (by decide +kernel)
  norm_num [Plan.loadRate, Plan.capacityRate, Plan.factor, TimeUnit.seconds] at h ⊢
  exact h

/-- Two units of twenty a minute carry forty a minute, but three are asked for. -/
theorem requires_rates_unfair :
    requires (.rate ⟨⟨.ofUInt64 40, "req"⟩, "min"⟩) (.rate ⟨⟨.ofUInt64 20, "req"⟩, "min"⟩) none =
      .ok (.ofUInt64 3) ∧
    IsLeast {j : ℤ | (40 : ℚ) / 60 * (1 + 0) ≤ j * (20 / 60)} 2 := by
  refine ⟨by rfl, by norm_num, fun j hj => ?_⟩
  have hj' : (40 : ℚ) / 60 * (1 + 0) ≤ j * (20 / 60) := hj
  have : (2 : ℚ) ≤ j := by linarith
  exact_mod_cast this

end Reckoner.Capacity
