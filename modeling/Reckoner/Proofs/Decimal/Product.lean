import Reckoner.Proofs.Decimal.Number
import Reckoner.Decimal.Arithmetic
/-!
Sum, difference and product of decimals. Main statements: each is the decimal nearest to the exact
result, and there is none exactly if the exact result is out of range.
-/
namespace Reckoner.Decimal

theorem nearest?_signFactor_mul (s : Bool) (x : ℚ) :
    nearest? (signFactor s * x) = (nearest? x).map (signFactor s * ·) := by
  cases s
  · simp
  · have hr : InRange (-x) ↔ InRange x := by simp only [InRange, abs_neg]
    by_cases h : InRange x
    · simp [nearest?, hr, h]
    · simp [nearest?, hr, h]

theorem inRange_of_scaled {x : ℚ} {p : ℕ} (h : |x| * 10 ^ p < limit) : InRange x := by
  have := (scaled_mono (x := x) (Nat.zero_le p)).trans_lt h
  rwa [pow_zero, mul_one] at this

/-- A product with a whole number that has room for every digit is not rounded. -/
theorem nearest_mul_natCast_of_lt {x : ℚ} {i : ℤ} {p c : ℕ} (hp : p ≤ 28) (hx : x * 10 ^ p = i)
    (h : |i| * c < 2 ^ 96) : InRange (x * c) ∧ nearest (x * c) = x * c := by
  have hproduct : x * c * 10 ^ p = (i * c : ℤ) := by
    rw [mul_right_comm, hx]
    push_cast
    rfl
  have hfit : |i * (c : ℤ)| < 2 ^ 96 := by rwa [abs_mul, Nat.abs_cast]
  refine ⟨inRange_of_scaled (p := p) ?_, nearest_eq_self hp hproduct hfit⟩
  rw [← abs_of_pos (show (0 : ℚ) < 10 ^ p by positivity), ← abs_mul, hproduct]
  exact intCast_lt_limit.mpr hfit

/-- A sign in front of a zero counts for nothing. -/
theorem signFactor_and_ne_zero (s : Bool) (c : ℕ) :
    signFactor (s && c != 0) * (c : ℚ) = signFactor s * c := by
  rcases Nat.eq_zero_or_pos c with rfl | h
  · simp
  · have : (c != 0) = true := by
      rw [bne_iff_ne]
      omega
    rw [this, Bool.and_true]

/-- Parts that are in range give the number that they show. -/
theorem map_toRat_ofParts? (s : Bool) {c p : ℕ} (hc : c < 2 ^ 96) (hp : p ≤ 28) :
    (ofParts? s c p).map toRat = some (signFactor s * (c / 10 ^ p)) := by
  rw [ofParts?, dif_pos ⟨hc, hp⟩, Option.map_some, toRat_eq]
  simp only [Option.some_inj]
  rw [← mul_div_assoc, signFactor_and_ne_zero, mul_div_assoc]

theorem ofParts?_eq_none {s : Bool} {c p : ℕ} (h : ¬(c < 2 ^ 96)) : ofParts? s c p = none :=
  dif_neg fun hh => h hh.1

theorem exists_ofNat? {n : ℕ} (hn : n < 2 ^ 96) : ∃ a, ofNat? n = some a ∧ a.toRat = n := by
  have hmap := map_toRat_ofParts? false hn (Nat.zero_le 28)
  rw [signFactor_false, pow_zero, div_one, one_mul] at hmap
  exact Option.map_eq_some_iff.mp hmap

theorem exists_ofInt? {n : ℤ} (hn : |n| < 2 ^ 96) : ∃ a, ofInt? n = some a ∧ a.toRat = n := by
  have hc : n.natAbs < 2 ^ 96 := by
    rw [Int.abs_eq_natAbs] at hn
    exact_mod_cast hn
  obtain ⟨a, ha, hval⟩ := Option.map_eq_some_iff.mp
    (map_toRat_ofParts? (decide (n < 0)) hc (Nat.zero_le 28))
  refine ⟨a, ha, ?_⟩
  rw [hval, pow_zero, div_one]
  rcases lt_or_ge n 0 with h | h
  · rw [decide_eq_true h, signFactor_true, Nat.cast_natAbs, abs_of_neg h]
    push_cast
    ring
  · rw [decide_eq_false (not_lt.mpr h), signFactor_false, Nat.cast_natAbs, abs_of_nonneg h, one_mul]

theorem toRat_of_ofInt? {n : ℤ} {a : Decimal} (h : ofInt? n = some a) : a.toRat = n := by
  have hn : |n| < 2 ^ 96 := by
    rw [ofInt?, ofParts?] at h
    split at h
    · next hr =>
      rw [Int.abs_eq_natAbs]
      exact_mod_cast hr.1
    · cases h
  obtain ⟨b, hb, hval⟩ := exists_ofInt? hn
  rw [← hval, Option.some.inj (h.symm.trans hb)]

/-- The coefficient tried at a place is the number scaled to that place, rounded. -/
theorem cast_roundQuotient_pow (n : ℕ) {scale p : ℕ} (hp : p ≤ scale) :
    (roundQuotient .toEven n (10 ^ (scale - p)) : ℤ) =
      halfEven ((n : ℚ) / 10 ^ scale * 10 ^ p) := by
  rw [cast_roundQuotient _ _ (by positivity)]
  congr 1
  obtain ⟨k, rfl⟩ := Nat.exists_eq_add_of_le hp
  rw [Nat.add_sub_cancel_left, pow_add]
  push_cast
  field_simp

/-- One place of the search: the nearest decimal if its coefficient fits. -/
theorem map_toRat_ofParts?_roundQuotient (s : Bool) (n : ℕ) {scale p : ℕ} (hp : p ≤ scale)
    (h28 : p ≤ 28) (hs : Settled ((n : ℚ) / 10 ^ scale) p)
    (hfit : (n : ℚ) / 10 ^ scale * 10 ^ p < limit) :
    (ofParts? s (roundQuotient .toEven n (10 ^ (scale - p))) p).map toRat =
      nearest? (signFactor s * ((n : ℚ) / 10 ^ scale)) := by
  have hcast := cast_roundQuotient_pow n hp
  have hpos : (0 : ℚ) ≤ (n : ℚ) / 10 ^ scale := by positivity
  have hlt : roundQuotient .toEven n (10 ^ (scale - p)) < 2 ^ 96 := by
    have := (halfEven_lt_iff_lt_limit _).mpr hfit
    rw [← hcast] at this
    exact_mod_cast this
  have hfit' : |(n : ℚ) / 10 ^ scale| * 10 ^ p < limit := by rwa [abs_of_nonneg hpos]
  rw [map_toRat_ofParts? s hlt h28, nearest?_signFactor_mul, nearest?,
    if_pos (inRange_of_scaled hfit'), Option.map_some, nearest_eq_of_settled h28 hfit' hs, ← hcast,
    Int.cast_natCast]

theorem ofParts?_roundQuotient_eq_none (s : Bool) (n : ℕ) {scale p : ℕ} (hp : p ≤ scale)
    (hfit : limit ≤ (n : ℚ) / 10 ^ scale * 10 ^ p) :
    ofParts? s (roundQuotient .toEven n (10 ^ (scale - p))) p = none := by
  apply ofParts?_eq_none
  intro hlt
  have hcast := cast_roundQuotient_pow n hp
  apply not_lt.mpr hfit
  rw [← halfEven_lt_iff_lt_limit, ← hcast]
  exact_mod_cast hlt

/-- The search goes down from a place that is settled or too long, to the first that fits. -/
theorem map_toRat_fitFrom (s : Bool) (n scale p : ℕ) (hp : p ≤ scale) (h28 : p ≤ 28)
    (hs : Settled ((n : ℚ) / 10 ^ scale) p) :
    (fitFrom s n scale p).map toRat = nearest? (signFactor s * ((n : ℚ) / 10 ^ scale)) := by
  have hpos : (0 : ℚ) ≤ (n : ℚ) / 10 ^ scale := by positivity
  induction p with
  | zero =>
    rcases lt_or_ge ((n : ℚ) / 10 ^ scale * 10 ^ 0) limit with hfit | hfit
    · exact map_toRat_ofParts?_roundQuotient s n hp h28 hs hfit
    · have hnone := ofParts?_roundQuotient_eq_none s n hp hfit
      rw [Nat.sub_zero] at hnone
      have hout : ¬ InRange (signFactor s * ((n : ℚ) / 10 ^ scale)) := by
        rw [InRange, abs_mul, abs_signFactor, one_mul, abs_of_nonneg hpos]
        simpa using hfit
      rw [fitFrom, hnone, nearest?, if_neg hout, Option.map_none]
  | succ p ih =>
    rcases lt_or_ge ((n : ℚ) / 10 ^ scale * 10 ^ (p + 1)) limit with hfit | hfit
    · have hsome := map_toRat_ofParts?_roundQuotient s n hp h28 hs hfit
      rw [fitFrom]
      cases hc : ofParts? s (roundQuotient .toEven n (10 ^ (scale - (p + 1)))) (p + 1) with
      | some a => rwa [hc] at hsome
      | none =>
        rw [nearest?_signFactor_mul, nearest?, if_pos, hc] at hsome
        · cases hsome
        · exact inRange_of_scaled (p := p + 1) (by rwa [abs_of_nonneg hpos])
    · rw [fitFrom, ofParts?_roundQuotient_eq_none s n hp hfit]
      apply ih (by omega) (by omega)
      exact Or.inr (Or.inl (by rwa [abs_of_nonneg hpos]))

/-- Fitting a scaled natural number gives the nearest decimal. -/
theorem map_toRat_fit (s : Bool) (n scale : ℕ) :
    (fit s n scale).map toRat = nearest? (signFactor s * ((n : ℚ) / 10 ^ scale)) := by
  apply map_toRat_fitFrom s n scale _ (min_le_left _ _) (min_le_right _ _)
  rcases le_total scale 28 with h | h
  · rw [min_eq_left h]
    refine Or.inr (Or.inr ⟨n, ?_⟩)
    rw [div_mul_cancel₀ _ (by positivity), Int.cast_natCast]
  · exact Or.inl (min_eq_right h)

theorem negative_of_ofParts? {s : Bool} {c p : ℕ} {a : Decimal} (h : ofParts? s c p = some a) :
    a.negative = (s && a.coefficient != 0) := by
  unfold ofParts? at h
  split at h
  · cases h
    rfl
  · cases h

/-- A decimal that was fitted has the sign that was asked for, unless it is zero. -/
theorem negative_of_fitFrom {s : Bool} {n scale p : ℕ} {a : Decimal}
    (h : fitFrom s n scale p = some a) : a.negative = (s && a.coefficient != 0) := by
  induction p with
  | zero => exact negative_of_ofParts? h
  | succ p ih =>
    unfold fitFrom at h
    split at h
    · next b hb =>
      cases h
      exact negative_of_ofParts? hb
    · exact ih h

theorem nearest?_toRat (a : Decimal) : nearest? a.toRat = some a.toRat := by
  rw [nearest?, if_pos a.inRange_toRat, nearest_toRat]

theorem exists_of_map_toRat {o : Option Decimal} {x : ℚ} (h : o.map toRat = nearest? x)
    (hx : InRange x) : ∃ a, o = some a ∧ a.toRat = nearest x := by
  rw [nearest?, if_pos hx] at h
  exact Option.map_eq_some_iff.mp h

theorem of_map_toRat {o : Option Decimal} {x : ℚ} {a : Decimal} (h : o.map toRat = nearest? x)
    (ho : o = some a) : InRange x ∧ a.toRat = nearest x := by
  by_cases hx : InRange x
  · obtain ⟨b, hb, hval⟩ := exists_of_map_toRat h hx
    cases ho.symm.trans hb
    exact ⟨hx, hval⟩
  · rw [nearest?, if_neg hx, ho] at h
    cases h

theorem eq_none_of_map_toRat {o : Option Decimal} {x : ℚ} (h : o.map toRat = nearest? x)
    (hx : ¬InRange x) : o = none := by
  rwa [nearest?, if_neg hx, Option.map_eq_none_iff] at h

/-- The sum is the decimal nearest to the exact sum. -/
theorem map_toRat_add (a b : Decimal) :
    (a.add b).map toRat = nearest? (a.toRat + b.toRat) := by
  unfold add
  split
  · next h => rw [(isZero_iff a).mp h, zero_add, nearest?_toRat, Option.map_some]
  · split
    · next h => rw [(isZero_iff b).mp h, add_zero, nearest?_toRat, Option.map_some]
    · have hscaled (c : Decimal) (p : ℕ) (hp : c.scale ≤ p) :
          ((c.signed * (10 ^ (p - c.scale) : ℕ) : ℤ) : ℚ) = c.toRat * 10 ^ p := by
        obtain ⟨k, rfl⟩ := Nat.exists_eq_add_of_le hp
        rw [Nat.add_sub_cancel_left, pow_add, ← mul_assoc, toRat_mul_pow]
        push_cast
        ring
      have hsign (i : ℤ) : signFactor (decide (i < 0)) * (i.natAbs : ℚ) = i := by
        rcases lt_or_ge i 0 with h | h
        · rw [decide_eq_true h, signFactor_true, Nat.cast_natAbs, abs_of_neg h]
          push_cast
          ring
        · rw [decide_eq_false (not_lt.mpr h), signFactor_false, Nat.cast_natAbs, abs_of_nonneg h,
            one_mul]
      rw [map_toRat_fit]
      rw [← mul_div_assoc, hsign, Int.cast_add, hscaled a _ (le_max_left _ _),
        hscaled b _ (le_max_right _ _), ← add_mul, mul_div_cancel_right₀ _ (by positivity)]

/-- The difference is the decimal nearest to the exact difference. -/
theorem map_toRat_sub (a b : Decimal) :
    (a.sub b).map toRat = nearest? (a.toRat - b.toRat) := by
  unfold sub
  split
  · next hb =>
    rw [(isZero_iff b).mp hb, sub_zero]
    split
    · next ha =>
      rw [Option.map_some, (isZero_iff b).mp hb, ← (isZero_iff a).mp ha, nearest?_toRat]
    · rw [nearest?_toRat, Option.map_some]
  · rw [map_toRat_add, toRat_neg, sub_eq_add_neg]

theorem coefficient_product (a b : Decimal) :
    signFactor (a.negative != b.negative) *
      (((a.coefficient * b.coefficient : ℕ) : ℚ) / 10 ^ (a.scale + b.scale)) =
      a.toRat * b.toRat := by
  rw [toRat_eq a, toRat_eq b, signFactor_bne, pow_add]
  push_cast
  field_simp

/-- Two coefficients below `2 ^ 32` behind the 47th place make a product that rounds to zero. -/
theorem nearest?_of_tiny {c d s : ℕ} (hc : c < 2 ^ 32) (hd : d < 2 ^ 32) (hs : 47 < s) (t : Bool) :
    nearest? (signFactor t * (((c * d : ℕ) : ℚ) / 10 ^ s)) = some 0 := by
  have hcd : c * d ≤ 2 ^ 64 := by nlinarith
  have hq : ((c * d : ℕ) : ℚ) ≤ 2 ^ 64 := by exact_mod_cast hcd
  have hpow : (10 : ℚ) ^ 48 ≤ 10 ^ s := by
    gcongr
    · norm_num
    · omega
  have hsmall : ((c * d : ℕ) : ℚ) / 10 ^ s * 10 ^ 28 < 1 / 2 := by
    calc
      ((c * d : ℕ) : ℚ) / 10 ^ s * 10 ^ 28 ≤ 2 ^ 64 / 10 ^ 48 * 10 ^ 28 := by gcongr
      _ < 1 / 2 := by norm_num
  have hpos : (0 : ℚ) ≤ ((c * d : ℕ) : ℚ) / 10 ^ s := by positivity
  have hfit : |((c * d : ℕ) : ℚ) / 10 ^ s| * 10 ^ 28 < limit := by
    rw [abs_of_nonneg hpos, limit]
    linarith
  have hzero : halfEven (((c * d : ℕ) : ℚ) / 10 ^ s * 10 ^ 28) = 0 := by
    apply halfEven_eq_of_lt
    rw [Int.cast_zero, sub_zero, abs_of_nonneg (by positivity)]
    exact hsmall
  rw [nearest?_signFactor_mul, nearest?, if_pos (inRange_of_scaled hfit),
    nearest_eq_of_settled le_rfl hfit (Or.inl rfl), hzero]
  simp

/-- The product is the decimal nearest to the exact product. -/
theorem map_toRat_mul (a b : Decimal) :
    (a.mul b).map toRat = nearest? (a.toRat * b.toRat) := by
  have hfit := map_toRat_fit (a.negative != b.negative) (a.coefficient * b.coefficient)
    (a.scale + b.scale)
  unfold mul
  dsimp only
  split
  · next hz =>
    have h0 : a.toRat * b.toRat = 0 := by
      rcases Bool.or_eq_true_iff.mp hz with h | h
      · rw [(isZero_iff a).mp h, zero_mul]
      · rw [(isZero_iff b).mp h, mul_zero]
    have hr := zero.nearest?_toRat
    rw [toRat_zero] at hr
    rw [h0, hr, Option.map_some, toRat_zero]
  · rw [coefficient_product] at hfit
    split
    · next hsmall =>
      split
      · next htiny =>
        rw [← coefficient_product, nearest?_of_tiny hsmall.1 hsmall.2 htiny, Option.map_some,
          toRat_zero]
      · exact hfit
    · -- Writing the sign of a product that was rounded to zero leaves the number.
      rw [← hfit, Option.map_map]
      cases hc : fit (a.negative != b.negative) (a.coefficient * b.coefficient)
          (a.scale + b.scale) with
      | none => rfl
      | some c =>
        simp only [Option.map_some, Function.comp_apply, Option.some_inj]
        rw [toRat_eq c, negative_of_fitFrom hc, toRat_eq, ← mul_div_assoc, ← mul_div_assoc,
          signFactor_and_ne_zero]

end Reckoner.Decimal
