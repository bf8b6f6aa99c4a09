import Reckoner.Proofs.Decimal.Product
/-!
Long division of decimals. Main statements: every step of the division keeps the digits found and
the remainder true, so that the quotient it ends with is the decimal nearest to the exact quotient,
and there is none exactly if the exact quotient is out of range.
-/
namespace Reckoner.Decimal

/-- The digits found and the remainder account for the whole of `x`. -/
structure Division.Accounts (s : Division) (x : ℚ) (d : ℕ) : Prop where
  value : x * 10 ^ s.places = s.quotient + s.remainder / d
  remainder_lt : s.remainder < d

/-- Whether a division answers with the nearest decimal, or with none for a number out of range. -/
def Division.Answers (x : ℚ) : Option (ℕ × ℤ) → Prop
  | none => ¬ InRange x
  | some (q, p) => 0 ≤ p ∧ p ≤ 28 ∧ q < 2 ^ 96 ∧ InRange x ∧ (q : ℚ) / 10 ^ p.toNat = nearest x

namespace Division

variable {x : ℚ} {d : ℕ} {s : Division}

theorem Accounts.value_nat (h : s.Accounts x d) {p : ℕ} (hp : s.places = p) :
    x * 10 ^ p = s.quotient + s.remainder / d := by
  have := h.value
  rwa [hp, zpow_natCast] at this

theorem Accounts.fraction_lt_one (h : s.Accounts x d) : (s.remainder : ℚ) / d < 1 := by
  have hr : (s.remainder : ℚ) < d := by exact_mod_cast h.remainder_lt
  have hd : (0 : ℚ) < d := lt_of_le_of_lt (Nat.cast_nonneg _) hr
  rwa [div_lt_one hd]

theorem Accounts.quotient_le (h : s.Accounts x d) : (s.quotient : ℚ) ≤ x * 10 ^ s.places := by
  rw [h.value]
  linarith [show (0 : ℚ) ≤ (s.remainder : ℚ) / d by positivity]

/-- A number with too many digits before the point is out of range. -/
theorem Accounts.not_inRange (h : s.Accounts x d) (hx : 0 ≤ x) {n : ℕ} (hn : s.places + n ≤ 0)
    (hq : 2 ^ 96 ≤ s.quotient * 10 ^ n) : ¬ InRange x := by
  have hcast : (2 : ℚ) ^ 96 ≤ s.quotient * 10 ^ n := by exact_mod_cast hq
  have hle : x * 10 ^ (s.places + n) ≤ x := by
    apply mul_le_of_le_one_right hx
    exact zpow_le_one_of_nonpos₀ (by norm_num) hn
  have hmul : (s.quotient : ℚ) * 10 ^ n ≤ x * 10 ^ (s.places + n) := by
    rw [zpow_add₀ (by norm_num), ← mul_assoc, zpow_natCast]
    gcongr
    exact h.quotient_le
  rw [InRange, abs_of_nonneg hx, limit, not_lt]
  linarith

theorem Accounts.advance (h : s.Accounts x d) (n : ℕ) : (s.advance d n).Accounts x d := by
  have hd : 0 < d := Nat.zero_lt_of_lt h.remainder_lt
  refine ⟨?_, Nat.mod_lt _ hd⟩
  have hdq : (0 : ℚ) < d := by exact_mod_cast hd
  have hsplit : ((s.remainder * 10 ^ n : ℕ) : ℚ) =
      d * (s.remainder * 10 ^ n / d : ℕ) + (s.remainder * 10 ^ n % d : ℕ) := by
    exact_mod_cast (Nat.div_add_mod _ d).symm
  have hv := h.value
  simp only [Division.advance]
  rw [zpow_add₀ (by norm_num), zpow_natCast, ← mul_assoc, hv]
  push_cast at hsplit ⊢
  field_simp
  linarith

@[simp] theorem advance_places (s : Division) (d n : ℕ) : (s.advance d n).places = s.places + n :=
  rfl

theorem advance_quotient (s : Division) (d n : ℕ) :
    (s.advance d n).quotient = s.quotient * 10 ^ n + s.remainder * 10 ^ n / d :=
  rfl

/-- The digits from the remainder are fewer than the step is long. -/
theorem Accounts.advance_lt (h : s.Accounts x d) {n : ℕ} (hn : n ≤ 9)
    (hq : s.quotient * 10 ^ n < 2 ^ 96) : (s.advance d n).quotient < 2 ^ 97 := by
  have hdig : s.remainder * 10 ^ n / d < 10 ^ n := by
    rw [Nat.div_lt_iff_lt_mul (Nat.zero_lt_of_lt h.remainder_lt), mul_comm]
    exact Nat.mul_lt_mul_of_pos_left h.remainder_lt (by positivity)
  have hpow : 10 ^ n ≤ 10 ^ 9 := Nat.pow_le_pow_right (by decide) hn
  rw [advance_quotient]
  omega

theorem roomFor_le (q k : ℕ) : roomFor q k ≤ k := by
  induction k with
  | zero => exact le_rfl
  | succ k ih =>
    unfold roomFor
    split
    · exact le_rfl
    · omega

theorem mul_roomFor_lt {q : ℕ} (hq : q < 2 ^ 96) (k : ℕ) : q * 10 ^ roomFor q k < 2 ^ 96 := by
  induction k with
  | zero => simpa [roomFor] using hq
  | succ k ih =>
    unfold roomFor
    split
    · assumption
    · exact ih

/-- There is no room for one digit more than there is room for. -/
theorem le_mul_roomFor_succ {q k : ℕ} (h : roomFor q k < k) :
    2 ^ 96 ≤ q * 10 ^ (roomFor q k + 1) := by
  induction k with
  | zero => omega
  | succ k ih =>
    unfold roomFor at h ⊢
    split at h
    · omega
    · next hfull =>
      rw [if_neg hfull]
      rcases (roomFor_le q k).eq_or_lt with he | hlt
      · rw [he]
        exact not_lt.mp hfull
      · exact ih hlt

theorem Accounts.cast_roundQuotient (h : s.Accounts x d) {p : ℕ} (hp : s.places = p) :
    (roundQuotient .toEven (s.quotient * d + s.remainder) d : ℤ) = halfEven (x * 10 ^ p) := by
  have hd : 0 < d := Nat.zero_lt_of_lt h.remainder_lt
  have hdq : (d : ℚ) ≠ 0 := by exact_mod_cast hd.ne'
  rw [Reckoner.cast_roundQuotient _ _ hd, h.value_nat hp]
  congr 1
  push_cast
  field_simp

/-- Just below `2 ^ 96`, rounding twice is rounding once. -/
theorem halfEven_div_ten {y : ℚ} (hl : limit ≤ y) (hu : y < 2 ^ 96) :
    halfEven (y / 10) = 7922816251426433759354395034 := by
  apply halfEven_eq_of_lt
  rw [limit] at hl
  norm_num at hl hu ⊢
  rw [abs_lt]
  constructor <;> linarith

/-- A full quotient has the places of the nearest decimal, or one more. -/
theorem Accounts.settled (h : s.Accounts x d) (hx : 0 ≤ x) {p : ℕ} (hp : s.places = p)
    (hend : s.places = 28 ∨ 2 ^ 96 ≤ s.quotient * 10) : Settled x p := by
  rcases hend with he | he
  · exact Or.inl (by omega)
  · refine Or.inr (Or.inl ?_)
    have he' : (2 : ℚ) ^ 96 ≤ s.quotient * 10 := by exact_mod_cast he
    have hle : (s.quotient : ℚ) ≤ x * 10 ^ p := by
      have := h.quotient_le
      rwa [hp, zpow_natCast] at this
    rw [abs_of_nonneg hx, pow_succ, limit, ← mul_assoc]
    linarith

/-- What rounds up to `2 ^ 96` gives up its last place, and the number has no nearer decimal. -/
theorem answers_shortened {k : ℕ} (hx : 0 ≤ x) (hk : k < 28) (hfit : limit ≤ x * 10 ^ (k + 1))
    (hlt : x * 10 ^ (k + 1) < 2 ^ 96) :
    Answers x (some (roundQuotient .toEven (2 ^ 96) 10, (k : ℤ))) := by
  have hten : halfEven (x * 10 ^ k) = 7922816251426433759354395034 := by
    rw [← halfEven_div_ten hfit hlt]
    congr 1
    rw [pow_succ]
    ring
  have hfit' : limit ≤ |x| * 10 ^ (k + 1) := by rwa [abs_of_nonneg hx]
  have hlt' : |x| * 10 ^ k < limit := by
    rw [abs_of_nonneg hx, limit]
    rw [pow_succ, ← mul_assoc] at hlt
    linarith
  refine ⟨by omega, by omega, by decide, inRange_of_scaled hlt', ?_⟩
  rw [nearest_eq_of_settled (by omega) hlt' (Or.inr (Or.inl hfit')), hten]
  rfl

/-- The division may end when no other place can be had. -/
theorem Accounts.close_answers (h : s.Accounts x d) (hx : 0 ≤ x) (hq : s.quotient < 2 ^ 96)
    (h0 : 0 ≤ s.places) (h28 : s.places ≤ 28)
    (hend : s.places = 28 ∨ 2 ^ 96 ≤ s.quotient * 10) : Answers x (s.close d) := by
  obtain ⟨p, hp⟩ := Int.eq_ofNat_of_zero_le h0
  have hround := h.cast_roundQuotient hp
  have hlt : x * 10 ^ p < 2 ^ 96 := by
    have hq' : (s.quotient : ℚ) + 1 ≤ 2 ^ 96 := by exact_mod_cast hq
    linarith [h.value_nat hp, h.fraction_lt_one]
  unfold close
  dsimp only
  generalize roundQuotient .toEven (s.quotient * d + s.remainder) d = q at hround
  have hfits : q < 2 ^ 96 ↔ x * 10 ^ p < limit := by
    rw [← halfEven_lt_iff_lt_limit, ← hround]
    exact_mod_cast Iff.rfl
  rcases lt_or_ge (x * 10 ^ p) limit with hfit | hfit
  · have hfit' : |x| * 10 ^ p < limit := by rwa [abs_of_nonneg hx]
    rw [if_pos (hfits.mpr hfit)]
    refine ⟨h0, h28, hfits.mpr hfit, inRange_of_scaled hfit', ?_⟩
    rw [nearest_eq_of_settled (by omega) hfit' (h.settled hx hp hend), ← hround, hp]
    rfl
  · -- The digits fit, but rounding them does not: `q` is `2 ^ 96`.
    rw [if_neg (hfits.not.mpr (not_lt.mpr hfit))]
    cases p with
    | zero =>
      rw [if_pos (by omega)]
      intro hr
      rw [InRange, abs_of_nonneg hx] at hr
      rw [pow_zero, mul_one] at hfit
      linarith
    | succ k =>
      rw [if_neg (by omega)]
      have hqe : q = 2 ^ 96 := by
        have hle : halfEven (x * 10 ^ (k + 1)) ≤ 2 ^ 96 := by
          rw [halfEven_le_iff (by decide)]
          push_cast
          linarith
        rw [← hround] at hle
        apply le_antisymm (by exact_mod_cast hle)
        exact not_lt.mp (hfits.not.mpr (not_lt.mpr hfit))
      rw [hqe, show s.places - 1 = k by omega]
      exact answers_shortened hx (by omega) hfit hlt

/-- The digit behind the last one decides, and on a five what comes after it. -/
theorem retract_round (q r : ℕ) {f : ℚ} (hf0 : 0 ≤ f) (hf1 : f < 1) (hr : r = 0 ↔ f = 0) :
    ((q / 10 + (if 5 < q % 10 || (q % 10 == 5 && (r != 0 || q / 10 % 2 == 1)) then 1 else 0) : ℕ) :
      ℤ) = halfEven ((q + f) / 10) := by
  have hsplit : (q : ℚ) = 10 * (q / 10 : ℕ) + (q % 10 : ℕ) := by
    exact_mod_cast (Nat.div_add_mod q 10).symm
  have hc10 : q % 10 < 10 := Nat.mod_lt q (by decide)
  generalize q / 10 = m at *
  generalize q % 10 = c at *
  have hgoal (u : ℕ) (hu : (if 5 < c || (c == 5 && (r != 0 || m % 2 == 1)) then 1 else 0) = u)
      (he : halfEven ((q + f) / 10) = m + u) :
      ((m + (if 5 < c || (c == 5 && (r != 0 || m % 2 == 1)) then 1 else 0) : ℕ) : ℤ) =
        halfEven ((q + f) / 10) := by
    rw [hu, he]
    push_cast
    rfl
  -- The digit `c` decides unless it is a five; then a tie needs `f` to be zero as well.
  rcases lt_trichotomy c 5 with hlt | rfl | hgt
  · have hc : (c : ℚ) ≤ 4 := by exact_mod_cast Nat.le_of_lt_succ hlt
    have hc0 : (0 : ℚ) ≤ c := Nat.cast_nonneg _
    apply hgoal 0
    · simp
      omega
    · apply halfEven_eq_of_lt
      push_cast
      rw [abs_lt]
      constructor <;> linarith
  · push_cast at hsplit
    by_cases hrz : r = 0
    · have hf := hr.mp hrz
      rcases Nat.mod_two_eq_zero_or_one m with he | ho
      · apply hgoal 0
        · simp [hrz, he]
        · apply halfEven_eq_of_tie _ (Int.even_iff.mpr (by omega))
          push_cast
          rw [hf, abs_of_nonneg] <;> linarith
      · apply hgoal 1
        · simp [hrz, ho]
        · apply halfEven_eq_of_tie _ (Int.even_iff.mpr (by omega))
          push_cast
          rw [hf, abs_of_nonpos] <;> linarith
    · have hf : 0 < f := lt_of_le_of_ne hf0 (fun h => hrz (hr.mpr h.symm))
      apply hgoal 1
      · simp [hrz]
      · apply halfEven_eq_of_lt
        push_cast
        rw [abs_lt]
        constructor <;> linarith
  · have hc : (6 : ℚ) ≤ c := by exact_mod_cast hgt
    have hc9 : (c : ℚ) ≤ 9 := by exact_mod_cast Nat.le_of_lt_succ hc10
    apply hgoal 1
    · simp [hgt]
    · apply halfEven_eq_of_lt
      push_cast
      rw [abs_lt]
      constructor <;> linarith

/-- A step that made the quotient too long is made good by rounding its last digit. -/
theorem Accounts.retract_answers (h : s.Accounts x d) (hx : 0 ≤ x) (hq : 2 ^ 96 ≤ s.quotient)
    (hq' : s.quotient < 2 ^ 97) (h28 : s.places ≤ 28) : Answers x s.retract := by
  unfold retract
  split
  · next h0 => exact h.not_inRange hx (n := 0) (by simpa using h0) (by simpa using hq)
  · next h0 =>
    obtain ⟨k, hk⟩ : ∃ k : ℕ, s.places = k + 1 := ⟨(s.places - 1).toNat, by omega⟩
    have hd : (0 : ℚ) < d := by exact_mod_cast Nat.zero_lt_of_lt h.remainder_lt
    have hval : x * 10 ^ (k + 1) = s.quotient + s.remainder / d := h.value_nat (by exact_mod_cast hk)
    have hround := retract_round s.quotient s.remainder (f := s.remainder / d) (by positivity)
      h.fraction_lt_one (by rw [div_eq_zero_iff]; simp [hd.ne'])
    rw [← hval, pow_succ, ← mul_assoc, mul_div_cancel_right₀ _ (by norm_num)] at hround
    have hlow : limit ≤ |x| * 10 ^ (k + 1) := by
      have hqq : (2 : ℚ) ^ 96 ≤ s.quotient := by exact_mod_cast hq
      have : (0 : ℚ) ≤ (s.remainder : ℚ) / d := by positivity
      rw [abs_of_nonneg hx, hval, limit]
      linarith
    have hfit : |x| * 10 ^ k < limit := by
      have hqq : (s.quotient : ℚ) ≤ 2 ^ 97 := by exact_mod_cast hq'.le
      have h1 := h.fraction_lt_one
      have hval' : x * 10 ^ k * 10 = s.quotient + s.remainder / d := by
        rw [← hval, pow_succ, mul_assoc]
      rw [abs_of_nonneg hx, limit]
      linarith
    have hplaces : s.places - 1 = k := by omega
    dsimp only
    refine ⟨by omega, by omega, ?_, inRange_of_scaled hfit, ?_⟩
    · split <;> omega
    · rw [nearest_eq_of_settled (by omega) hfit (Or.inr (Or.inl hlow)), ← hround, hplaces]
      rfl

/-- An exact quotient is its own nearest decimal. -/
theorem Accounts.exact_answers (h : s.Accounts x d) (hq : s.quotient < 2 ^ 96)
    (hr : s.remainder = 0) (h0 : 0 ≤ s.places) (h28 : s.places ≤ 28) :
    Answers x (some (s.quotient, s.places)) := by
  obtain ⟨p, hp⟩ := Int.eq_ofNat_of_zero_le h0
  have hval : x * 10 ^ p = ((s.quotient : ℤ) : ℚ) := by
    rw [h.value_nat hp, hr]
    simp
  have hc : |(s.quotient : ℤ)| < 2 ^ 96 := by
    rw [Nat.abs_cast]
    exact_mod_cast hq
  refine ⟨h0, h28, hq, ?_, ?_⟩
  · apply inRange_of_scaled (p := p)
    rw [← abs_of_pos (show (0 : ℚ) < 10 ^ p by positivity), ← abs_mul, hval]
    exact intCast_lt_limit.mpr hc
  · rw [nearest_eq_self (by omega) hval hc, hp, ← Int.cast_natCast, ← hval]
    exact mul_div_cancel_right₀ _ (by positivity)

/-- With fuel for every place that is left, the division answers. -/
theorem Accounts.run_answers (h : s.Accounts x d) (hx : 0 ≤ x) (hq : s.quotient < 2 ^ 96)
    (h28 : s.places ≤ 28) (fuel : ℕ) (hfuel : 28 - s.places < fuel) :
    Answers x (run d fuel s) := by
  -- Every step finds one place at least, and the digits found stay within 96 bits.
  induction fuel generalizing s with
  | zero => omega
  | succ fuel ih =>
    have hnext {n : ℕ} (hn : 1 ≤ n) (hle : s.places + n ≤ 28)
        (hfit : (s.advance d n).quotient < 2 ^ 96) : Answers x (run d fuel (s.advance d n)) := by
      apply ih (h.advance n) hfit
      · rwa [advance_places]
      · rw [advance_places]
        omega
    unfold run
    split
    · next hr =>
      split
      · next h0 => exact h.exact_answers hq hr h0 h28
      · next h0 =>
        -- Zeros before the point are written out.
        dsimp only
        have hn : 1 ≤ min 9 (-s.places).toNat := by omega
        have hle : s.places + (min 9 (-s.places).toNat : ℕ) ≤ 0 := by omega
        generalize min 9 (-s.places).toNat = n at hn hle
        split
        · next hfit =>
          apply hnext hn (by omega)
          rwa [advance_quotient, hr, zero_mul, Nat.zero_div, add_zero]
        · next hfull => exact h.not_inRange hx hle (not_lt.mp hfull)
    · split
      · next h28' => exact h.close_answers hx hq (by omega) h28 (Or.inl h28')
      · next h28' =>
        dsimp only
        have hroom := mul_roomFor_lt hq (min 9 (28 - s.places).toNat)
        have hlek := roomFor_le s.quotient (min 9 (28 - s.places).toNat)
        have hfull := le_mul_roomFor_succ (q := s.quotient) (k := min 9 (28 - s.places).toNat)
        have hk1 : 1 ≤ min 9 (28 - s.places).toNat := by omega
        have hk28 : s.places + (min 9 (28 - s.places).toNat : ℕ) ≤ 28 := by omega
        have hk9 : s.places < 0 → min 9 (28 - s.places).toNat = 9 := by omega
        have hk9' : min 9 (28 - s.places).toNat ≤ 9 := min_le_left _ _
        generalize min 9 (28 - s.places).toNat = k at *
        generalize roomFor s.quotient k = n at *
        split
        · next hnone =>
          -- The quotient is full before the point is reached.
          apply h.not_inRange hx (n := n + 1)
          · push_cast
            omega
          · exact hfull (by have := hk9 (by omega); omega)
        · next hsome =>
          split
          · next hn0 =>
            apply h.close_answers hx hq (by omega) h28
            have := hfull (by omega)
            rw [hn0] at this
            exact Or.inr (by simpa using this)
          · next hn0 =>
            split
            · next hfit => exact hnext (by omega) (by omega) hfit
            · next hlong =>
              apply (h.advance n).retract_answers hx (not_lt.mp hlong)
              · exact h.advance_lt (by omega) hroom
              · rw [advance_places]
                omega

end Division

theorem dropRun_value (n mask : ℕ) (q p : ℕ) :
    ((dropRun n mask q p).1 : ℚ) / 10 ^ (dropRun n mask q p).2 = q / 10 ^ p := by
  unfold dropRun
  split
  · next h =>
    obtain ⟨-, hn, hz⟩ := h
    obtain ⟨k, rfl⟩ := Nat.exists_eq_add_of_le hn
    have hq : (q : ℚ) = (q / 10 ^ n : ℕ) * 10 ^ n := by
      exact_mod_cast (Nat.div_mul_cancel (Nat.dvd_of_mod_eq_zero hz)).symm
    rw [hq, Nat.add_sub_cancel_left, pow_add, mul_comm (10 ^ n : ℚ),
      mul_div_mul_right _ _ (by positivity)]
  · rfl

theorem dropRun_le (n mask : ℕ) (q p : ℕ) :
    (dropRun n mask q p).1 ≤ q ∧ (dropRun n mask q p).2 ≤ p := by
  unfold dropRun
  split
  · exact ⟨Nat.div_le_self _ _, Nat.sub_le _ _⟩
  · exact ⟨le_rfl, le_rfl⟩

/-- Shortening leaves the number, and makes neither coefficient nor places larger. -/
theorem shorten_facts (q p : ℕ) :
    ((shorten q p).1 : ℚ) / 10 ^ (shorten q p).2 = q / 10 ^ p ∧
      (shorten q p).1 ≤ q ∧ (shorten q p).2 ≤ p := by
  have hrun (n mask : ℕ) {r : ℕ × ℕ}
      (h : (r.1 : ℚ) / 10 ^ r.2 = q / 10 ^ p ∧ r.1 ≤ q ∧ r.2 ≤ p) :
      ((dropRun n mask r.1 r.2).1 : ℚ) / 10 ^ (dropRun n mask r.1 r.2).2 = q / 10 ^ p ∧
        (dropRun n mask r.1 r.2).1 ≤ q ∧ (dropRun n mask r.1 r.2).2 ≤ p := by
    have hle := dropRun_le n mask r.1 r.2
    exact ⟨(dropRun_value n mask r.1 r.2).trans h.1, hle.1.trans h.2.1, hle.2.trans h.2.2⟩
  exact hrun 1 2 (hrun 2 4 (hrun 4 16 (hrun 8 (2 ^ 32) (hrun 8 (2 ^ 32)
    (hrun 8 (2 ^ 32) (r := (q, p)) ⟨rfl, le_rfl, le_rfl⟩)))))

theorem coefficient_quotient (a b : Decimal) :
    signFactor (a.negative != b.negative) *
      (((a.coefficient : ℚ) / 10 ^ a.scale) / (b.coefficient / 10 ^ b.scale)) =
      a.toRat / b.toRat := by
  have hs (t : Bool) : (signFactor t)⁻¹ = signFactor t := by cases t <;> norm_num [signFactor]
  rw [toRat_eq a, toRat_eq b, signFactor_bne, mul_div_mul_comm, div_eq_mul_inv (signFactor _), hs]

theorem accounts_start (a b : Decimal) (hb : 0 < b.coefficient) :
    Division.Accounts ⟨a.coefficient / b.coefficient, a.coefficient % b.coefficient,
      (a.scale : ℤ) - b.scale⟩
      (((a.coefficient : ℚ) / 10 ^ a.scale) / (b.coefficient / 10 ^ b.scale)) b.coefficient := by
  refine ⟨?_, Nat.mod_lt _ hb⟩
  have hbq : (b.coefficient : ℚ) ≠ 0 := by exact_mod_cast hb.ne'
  have hsplit : (a.coefficient : ℚ) = b.coefficient * (a.coefficient / b.coefficient : ℕ) +
      (a.coefficient % b.coefficient : ℕ) := by
    exact_mod_cast (Nat.div_add_mod a.coefficient b.coefficient).symm
  have hvalue : ((a.coefficient : ℚ) / 10 ^ a.scale) / (b.coefficient / 10 ^ b.scale) *
      10 ^ ((a.scale : ℤ) - b.scale) = a.coefficient / b.coefficient := by
    rw [zpow_sub₀ (by norm_num), zpow_natCast, zpow_natCast]
    field_simp
  rw [hvalue, div_eq_iff hbq, add_mul, div_mul_cancel₀ _ hbq]
  linarith

/-- The quotient is the decimal nearest to the exact quotient. -/
theorem map_toRat_div (a b : Decimal) (hb : b.toRat ≠ 0) :
    (a.div b).map toRat = nearest? (a.toRat / b.toRat) := by
  unfold div
  rw [if_neg (by rwa [isZero_iff])]
  split
  · next ha =>
    have hz := zero.nearest?_toRat
    rw [toRat_zero] at hz
    rw [(isZero_iff a).mp ha, zero_div, hz, Option.map_some, toRat_zero]
  · have hbc : 0 < b.coefficient := by
      rw [Nat.pos_iff_ne_zero]
      intro h
      exact hb ((isZero_iff b).mp (by simp [isZero, h]))
    have hq : a.coefficient / b.coefficient < 2 ^ 96 :=
      (Nat.div_le_self _ _).trans_lt a.coefficient_lt
    have has := a.scale_le
    have hbs := b.scale_le
    have hans := (accounts_start a b hbc).run_answers (by positivity) hq
      (by simp only; omega) 60 (by simp only; push_cast; omega)
    rw [← coefficient_quotient, nearest?_signFactor_mul]
    dsimp only
    cases hrun : Division.run b.coefficient 60 ⟨a.coefficient / b.coefficient,
        a.coefficient % b.coefficient, (a.scale : ℤ) - b.scale⟩ with
    | none =>
      rw [hrun] at hans
      rw [nearest?, if_neg hans, Option.map_none, Option.map_none]
    | some r =>
      obtain ⟨q, p⟩ := r
      rw [hrun] at hans
      obtain ⟨h0, h28, h96, hr, hval⟩ := hans
      rw [nearest?, if_pos hr, Option.map_some, ← hval]
      dsimp only
      split
      · exact map_toRat_ofParts? _ h96 (by omega)
      · obtain ⟨hv, hle, hp⟩ := shorten_facts q p.toNat
        rw [map_toRat_ofParts? _ (hle.trans_lt h96) (by omega), hv]

end Reckoner.Decimal
