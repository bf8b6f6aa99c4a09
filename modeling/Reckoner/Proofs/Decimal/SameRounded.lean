import Reckoner.Proofs.Decimal.Same
/-!
Remainders and roundings of decimals that stand for one number. Main statements: written with 28
places, a decimal shows what it leaves when it is divided and what it is rounded to at a place or at
a significant figure.
-/
namespace Reckoner

theorem roundQuotient_mul_right (tie : Tie) (n d : ℕ) {k : ℕ} (hk : 0 < k) :
    roundQuotient tie (n * k) (d * k) = roundQuotient tie n d := by
  have hup : tie.roundsUp (n * k) (d * k) = tie.roundsUp n d := by
    unfold Tie.roundsUp
    rw [Nat.mul_mod_mul_right, Nat.mul_div_mul_right _ _ hk, ← mul_assoc]
    simp only [Nat.mul_right_cancel_iff hk, Nat.mul_lt_mul_right hk]
  rw [roundQuotient, roundQuotient, hup, Nat.mul_div_mul_right _ _ hk]

namespace Decimal

/-- The coefficient with all 28 places written out. -/
def units (a : Decimal) : ℕ := a.coefficient * 10 ^ (28 - a.scale)

theorem cast_units (a : Decimal) : (a.units : ℚ) / 10 ^ 28 = a.coefficient / 10 ^ a.scale := by
  obtain ⟨j, hj⟩ := Nat.exists_eq_add_of_le a.scale_le
  rw [units, hj, Nat.add_sub_cancel_left, pow_add]
  push_cast
  field_simp

theorem Same.units_eq {a a' : Decimal} (h : Same a a') : a.units = a'.units :=
  h.coefficient_eq le_rfl

theorem units_eq_zero {a : Decimal} (h : a.isZero = true) : a.units = 0 := by
  rw [isZero, beq_iff_eq] at h
  rw [units, h, zero_mul]

theorem coefficient_pos {a : Decimal} (h : a.isZero = false) : 0 < a.coefficient := by
  rw [isZero, beq_eq_false_iff_ne] at h
  exact Nat.pos_of_ne_zero h

/-- A sign counts for as much as the number behind it. -/
theorem Same.signFactor_mul_eq {a a' : Decimal} (h : Same a a') {x : ℚ}
    (hx : a.isZero = true → x = 0) : signFactor a.negative * x = signFactor a'.negative * x := by
  cases hz : a.isZero with
  | true => rw [hx hz, mul_zero, mul_zero]
  | false => rw [h.negative_eq hz]

section Rem

theorem map_toRat_rem (a : Decimal) {b : Decimal} (hb : b.isZero = false) :
    (a.rem b).map toRat = some (signFactor a.negative * ((a.units % b.units : ℕ) / 10 ^ 28)) := by
  rw [rem, if_neg (by simp [hb])]
  split
  · next ha =>
    rw [units_eq_zero ha]
    simp
  · dsimp only
    set p := max a.scale b.scale with hp
    have hp28 : p ≤ 28 := max_le a.scale_le b.scale_le
    set n := a.coefficient * 10 ^ (p - a.scale) with hn
    set d := b.coefficient * 10 ^ (p - b.scale) with hd
    have hunits (c : Decimal) (hc : c.scale ≤ p) :
        c.units = c.coefficient * 10 ^ (p - c.scale) * 10 ^ (28 - p) := by
      rw [units, mul_assoc, ← pow_add]
      congr 2
      omega
    have hna : a.units = n * 10 ^ (28 - p) := hunits a (le_max_left _ _)
    have hdb : b.units = d * 10 ^ (28 - p) := hunits b (le_max_right _ _)
    have hpos : 0 < 10 ^ (28 - p) := by positivity
    have hmod : a.units % b.units = n % d * 10 ^ (28 - p) := by
      rw [hna, hdb, Nat.mul_mod_mul_right]
    -- A dividend below the divisor is the remainder as it is written.
    split
    · next hlt =>
      have hself : a.units % b.units = a.units := by
        rw [hmod, hna, Nat.mod_eq_of_lt hlt]
      rw [hself, cast_units, Option.map_some, toRat_eq]
    · split
      · next heq =>
        rw [hmod, heq, Nat.mod_self]
        simp
      · -- One of the two coefficients has all the places, so the remainder is one again.
        have hfit : n % d < 2 ^ 96 := by
          rcases max_choice a.scale b.scale with h | h
          · have hna' : n = a.coefficient := by rw [hn, hp, h, Nat.sub_self, pow_zero, mul_one]
            exact (Nat.mod_le _ _).trans_lt (hna' ▸ a.coefficient_lt)
          · have hdb' : d = b.coefficient := by rw [hd, hp, h, Nat.sub_self, pow_zero, mul_one]
            have hd0 : 0 < d := hdb' ▸ coefficient_pos hb
            exact (Nat.mod_lt n hd0).trans (hdb' ▸ b.coefficient_lt)
        rw [map_toRat_ofParts? _ hfit hp28, hmod]
        obtain ⟨j, hj⟩ := Nat.exists_eq_add_of_le hp28
        rw [hj, Nat.add_sub_cancel_left, pow_add]
        push_cast
        field_simp

theorem Same.rem {a a' b b' : Decimal} (h : Same a a') (h' : Same b b') :
    Option.Rel Same (a.rem b) (a'.rem b') := by
  cases hb : b.isZero with
  | true =>
    rw [Decimal.rem, if_pos hb, Decimal.rem, if_pos (h'.isZero_eq ▸ hb)]
    exact .none
  | false =>
    rw [rel_same_iff, map_toRat_rem a hb, map_toRat_rem a' (h'.isZero_eq ▸ hb), ← h.units_eq,
      ← h'.units_eq, h.signFactor_mul_eq]
    intro hz
    rw [units_eq_zero hz]
    simp

end Rem

section RoundPlaces

theorem toRat_roundPlaces (tie : Tie) {p : ℕ} (hp : p ≤ 28) (a : Decimal) :
    (a.roundPlaces tie p).toRat =
      signFactor a.negative * (roundQuotient tie a.units (10 ^ (28 - p)) / 10 ^ p) := by
  have hs := a.scale_le
  unfold roundPlaces
  split
  · next h =>
    -- Nothing is cut off, so what stands behind the place is all zeros.
    have hexact : a.units = a.coefficient * 10 ^ (p - a.scale) * 10 ^ (28 - p) := by
      rw [units, mul_assoc, ← pow_add]
      congr 2
      omega
    have hround : roundQuotient tie a.units (10 ^ (28 - p)) =
        a.coefficient * 10 ^ (p - a.scale) := by
      have hmul := roundQuotient_mul_right tie (a.coefficient * 10 ^ (p - a.scale)) 1
        (show 0 < 10 ^ (28 - p) by positivity)
      rw [one_mul] at hmul
      rw [hexact, hmul, roundQuotient_one]
    obtain ⟨j, hj⟩ := Nat.exists_eq_add_of_le h
    rw [hround, toRat_eq, hj, Nat.add_sub_cancel_left, pow_add]
    push_cast
    field_simp
  · next h =>
    -- The zeros that fill up the 28 places do not matter to the rounding.
    have hround : roundQuotient tie a.units (10 ^ (28 - p)) =
        roundQuotient tie a.coefficient (10 ^ (a.scale - p)) := by
      have hsplit : 10 ^ (28 - p) = 10 ^ (a.scale - p) * 10 ^ (28 - a.scale) := by
        rw [← pow_add]
        congr 1
        omega
      rw [units, hsplit, roundQuotient_mul_right _ _ _ (by positivity)]
    rw [toRat_eq, hround]
    dsimp only
    rw [← mul_div_assoc, signFactor_and_ne_zero, mul_div_assoc]

theorem Same.roundPlaces {a a' : Decimal} (h : Same a a') (tie : Tie) (p : ℕ) :
    Same (a.roundPlaces tie p) (a'.roundPlaces tie p) := by
  rcases Nat.lt_or_ge 28 p with hp | hp
  · have hself (c : Decimal) : c.roundPlaces tie p = c := dif_pos (c.scale_le.trans hp.le)
    rwa [hself, hself]
  · rw [Same, toRat_roundPlaces tie hp, toRat_roundPlaces tie hp, ← h.units_eq,
      h.signFactor_mul_eq]
    intro hz
    rw [units_eq_zero hz, roundQuotient_of_dvd tie 0 _ (by positivity) (Nat.zero_mod _)]
    simp

end RoundPlaces

section RoundFigures

theorem digitCount_mul_ten {n : ℕ} (hn : 0 < n) : digitCount (n * 10) = digitCount n + 1 := by
  have happend := Nat.toDigits_append_toDigits (show 1 < 10 by decide) hn (show 0 < 10 by decide)
  rw [digitCount, digitCount, mul_comm, ← Nat.add_zero (10 * n), ← happend, List.length_append]
  rfl

theorem digitCount_mul_pow {n : ℕ} (hn : 0 < n) (k : ℕ) :
    digitCount (n * 10 ^ k) = digitCount n + k := by
  induction k with
  | zero => rw [pow_zero, mul_one, Nat.add_zero]
  | succ k ih => rw [pow_succ, ← mul_assoc, digitCount_mul_ten (by positivity), ih, Nat.add_assoc]

/-- The digits that a number of units of `10 ^ -28` loses when it is rounded to so many figures. -/
def lostDigits (figures n : ℕ) : ℕ := digitCount n - figures

/-- The size of the number of `n` units rounded to so many figures. -/
def figuresSize (figures n : ℕ) : ℚ :=
  roundQuotient .awayFromZero n (10 ^ lostDigits figures n) * 10 ^ lostDigits figures n / 10 ^ 28

theorem digitCount_units {a : Decimal} (ha : a.isZero = false) :
    digitCount a.units = digitCount a.coefficient + (28 - a.scale) :=
  digitCount_mul_pow (coefficient_pos ha) _

/-- Rounding to figures is told by the units alone. -/
theorem map_toRat_roundFigures (figures : ℕ) {a : Decimal} (ha : a.isZero = false) :
    (a.roundFigures figures).map toRat =
      if figuresSize figures a.units < 2 ^ 96 then
        some (signFactor a.negative * figuresSize figures a.units)
      else none := by
  have hs := a.scale_le
  have hdigits := digitCount_units ha
  obtain ⟨j, hj⟩ := Nat.exists_eq_add_of_le hs
  have hj' : 28 - a.scale = j := by omega
  unfold roundFigures
  dsimp only
  split
  · next hle =>
    -- What is lost are zeros behind the last place of the decimal.
    have hround : roundQuotient .awayFromZero a.units (10 ^ lostDigits figures a.units) *
        10 ^ lostDigits figures a.units = a.units := by
      have hdvd : 10 ^ lostDigits figures a.units ∣ a.units := by
        apply dvd_mul_of_dvd_right
        apply pow_dvd_pow
        rw [lostDigits, hdigits]
        omega
      rw [roundQuotient_of_dvd _ _ _ (by positivity) (Nat.mod_eq_zero_of_dvd hdvd),
        Nat.div_mul_cancel hdvd]
    have hsize : figuresSize figures a.units = a.coefficient / 10 ^ a.scale := by
      rw [figuresSize, ← a.cast_units]
      congr 1
      exact_mod_cast hround
    have hlt : (a.coefficient : ℚ) / 10 ^ a.scale < 2 ^ 96 := by
      apply (div_le_self (Nat.cast_nonneg _) (one_le_pow₀ (by norm_num))).trans_lt
      exact_mod_cast a.coefficient_lt
    rw [hsize, if_pos hlt, Option.map_some, toRat_eq]
  · next hgt =>
    set dropped := digitCount a.coefficient - figures with hdropped
    set c := roundQuotient .awayFromZero a.coefficient (10 ^ dropped) with hc
    have hlost : lostDigits figures a.units = dropped + j := by
      rw [lostDigits, hdigits]
      omega
    have hround : roundQuotient .awayFromZero a.units (10 ^ lostDigits figures a.units) = c := by
      rw [hlost, pow_add, units, hj', roundQuotient_mul_right _ _ _ (by positivity)]
    have hsize : figuresSize figures a.units = c * 10 ^ dropped / 10 ^ a.scale := by
      rw [figuresSize, hround, hlost, hj, pow_add, pow_add]
      field_simp
    -- Whether the size is in range is only in question where zeros stand behind the figures.
    have hclt : c < 2 ^ 96 := roundQuotient_pow_lt _ _ _ a.coefficient_lt
    rw [hsize]
    split
    · next hle =>
      obtain ⟨i, hi⟩ := Nat.exists_eq_add_of_le hle
      have hvalue : (c : ℚ) * 10 ^ dropped / 10 ^ a.scale = c / 10 ^ i := by
        rw [hi, pow_add]
        field_simp
      have hlt : (c : ℚ) / 10 ^ i < 2 ^ 96 := by
        apply (div_le_self (Nat.cast_nonneg _) (one_le_pow₀ (by norm_num))).trans_lt
        exact_mod_cast hclt
      rw [hvalue, if_pos hlt, show a.scale - dropped = i by omega,
        map_toRat_ofParts? _ hclt (by omega)]
    · next hgt =>
      obtain ⟨i, hi⟩ := Nat.exists_eq_add_of_le (Nat.le_of_not_le hgt)
      have hvalue : (c : ℚ) * 10 ^ dropped / 10 ^ a.scale = ((c * 10 ^ i : ℕ) : ℚ) := by
        rw [hi, pow_add]
        push_cast
        field_simp
      rw [hvalue, show dropped - a.scale = i by omega]
      split
      · next hlt =>
        rw [map_toRat_ofParts? _ (by exact_mod_cast hlt) (Nat.zero_le _), pow_zero, div_one]
      · next hlt =>
        rw [ofParts?_eq_none (by exact_mod_cast hlt), Option.map_none]

theorem Same.roundFigures {a a' : Decimal} (h : Same a a') (ha : a.isZero = false) (figures : ℕ) :
    Option.Rel Same (a.roundFigures figures) (a'.roundFigures figures) := by
  rw [rel_same_iff, map_toRat_roundFigures figures ha,
    map_toRat_roundFigures figures (h.isZero_eq ▸ ha), ← h.units_eq, h.negative_eq ha]

end RoundFigures

end Decimal
end Reckoner
