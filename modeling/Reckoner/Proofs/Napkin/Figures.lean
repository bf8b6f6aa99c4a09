import Mathlib.Tactic.NormNum
import Reckoner.Proofs.Decimal.NearestMultiple
import Reckoner.Proofs.Literal.ShortText
/-!
Rounding to significant figures as correct rounding. Main statement: the result is the multiple of
the last figure's unit that is nearest, and there is none exactly where that multiple does not fit
into 96 bits; so rounding again changes nothing, signs carry over, and the order of numbers is kept.
-/
namespace Reckoner.Napkin

open Decimal

variable {n : ℕ} {x m : ℚ} {e : ℤ} {a b r s : Decimal}

/-- The figures of a number do not reach below those that rounding keeps. -/
theorem HasFigures.exists_multiple (h : HasFigures n x) (he : LeadsAt x e) :
    ∃ c : ℤ, x = c * 10 ^ (e - n + 1) := by
  obtain ⟨c, k, hc, rfl⟩ := h
  have hk : e - n + 1 ≤ k := by
    -- Otherwise the figures would be too few to reach up to the leading digit.
    by_contra hlt
    have hpow : (0 : ℚ) < 10 ^ k := zpow_pos (by norm_num) k
    have hsize : |(c : ℚ) * 10 ^ k| < 10 ^ e :=
      calc |(c : ℚ) * 10 ^ k| = |(c : ℚ)| * 10 ^ k := by rw [abs_mul, abs_of_pos hpow]
        _ < 10 ^ n * 10 ^ k := by
            apply mul_lt_mul_of_pos_right _ hpow
            exact_mod_cast hc
        _ = 10 ^ (n + k) := by rw [zpow_add₀ (by norm_num), zpow_natCast]
        _ ≤ 10 ^ e := zpow_le_zpow_right₀ (by norm_num) (by omega)
    exact absurd he.1 (not_le.mpr hsize)
  obtain ⟨j, hj⟩ := exists_pow_eq_mul n hk
  exact ⟨c * j, by rw [hj, Int.cast_mul, mul_assoc]⟩

theorem HasFigures.roundsTo_eq (h : HasFigures n x) (hm : RoundsTo n x m) : m = x := by
  cases hm with
  | zero => rfl
  | leads he hnearest =>
    obtain ⟨c, rfl⟩ := h.exists_multiple he
    exact hnearest.unique (.self c)

/-- The sign is no part of the rounding, nor are zeros behind the last place. -/
theorem roundsTo_units (n : ℕ) (a : Decimal) :
    RoundsTo n a.toRat (signFactor a.negative * figuresSize n a.units) := by
  cases ha : a.isZero with
  | true =>
    rw [(isZero_iff a).mp ha, units_eq_zero ha, figuresSize,
      roundQuotient_of_dvd _ _ _ (by positivity) (Nat.zero_mod _)]
    simpa using RoundsTo.zero
  | false =>
    have hpos : 0 < a.units := by
      have hcoefficient := coefficient_pos ha
      rw [units]
      positivity
    rw [toRat_eq, ← cast_units]
    exact signFactor_mul_roundsTo (roundsTo_figuresSize n hpos) _

/-- No decimal is that far away from zero. -/
theorem toRat_ne_of_le (h : 2 ^ 96 ≤ |m|) (d : Decimal) : d.toRat ≠ m := by
  rintro rfl
  have hrange := d.inRange_toRat
  rw [InRange, limit] at hrange
  linarith

/-- The value of a result, or an overflow where the value does not fit into 96 bits. -/
theorem round_cases (hn : 1 ≤ n) (a : Decimal) : ∃ m, RoundsTo n a.toRat m ∧
    ((∃ r, round a n = .ok r ∧ r.toRat = m) ∨
      round a n = .error (.overflow "napkin rounding") ∧ 2 ^ 96 ≤ |m|) := by
  refine ⟨_, roundsTo_units n a, ?_⟩
  rw [round, if_neg (by omega)]
  cases ha : a.isZero with
  | true =>
    refine .inl ⟨.zero, rfl, ?_⟩
    have hzero := roundsTo_units n a
    rw [(isZero_iff a).mp ha] at hzero
    rw [toRat_zero, hzero.eq_zero]
  | false =>
    rw [if_neg Bool.false_ne_true]
    have hvalue := map_toRat_roundFigures n ha
    cases hrounded : a.roundFigures n with
    | some b =>
      rw [hrounded] at hvalue
      obtain ⟨-, hvalue⟩ := Option.ite_none_right_eq_some.mp hvalue.symm
      refine .inl ⟨b.normalize, rfl, ?_⟩
      rw [toRat_normalize, ← Option.some_inj.mp hvalue]
    | none =>
      rw [hrounded] at hvalue
      split at hvalue
      · cases hvalue
      · next hge =>
        refine .inr ⟨rfl, ?_⟩
        rw [abs_mul, abs_signFactor, one_mul]
        exact (not_lt.mp hge).trans (le_abs_self _)

theorem roundsTo_of_round (hn : 1 ≤ n) (h : round a n = .ok r) : RoundsTo n a.toRat r.toRat := by
  obtain ⟨m, hm, ⟨r', hr, rfl⟩ | ⟨herror, -⟩⟩ := round_cases hn a
  · rw [h] at hr
    cases hr
    exact hm
  · rw [h] at herror
    cases herror

/-- Where a number is rounded to depends on the number only, and so does the overflow. -/
theorem round_of_roundsTo (hn : 1 ≤ n) (hm : RoundsTo n a.toRat r.toRat) :
    ∃ r', round a n = .ok r' ∧ r'.toRat = r.toRat := by
  obtain ⟨m, hm', ⟨r', hr, hvalue⟩ | ⟨-, hlarge⟩⟩ := round_cases hn a
  · exact ⟨r', hr, hvalue.trans (hm'.unique hn hm)⟩
  · exact absurd (hm.unique hn hm') (toRat_ne_of_le hlarge r)

theorem normalize_normalize (a : Decimal) : a.normalize.normalize = a.normalize :=
  Same.normalize_eq (toRat_normalize a)

theorem normalize_of_round (h : round a n = .ok r) : r.normalize = r := by
  rw [round] at h
  split at h
  · cases h
  · split at h
    · cases h
      rfl
    · cases hrounded : a.roundFigures n with
      | none =>
        rw [hrounded] at h
        cases h
      | some b =>
        rw [hrounded] at h
        cases h
        exact normalize_normalize b

theorem round_round (hn : 1 ≤ n) (h : round a n = .ok r) : round r n = .ok r := by
  have hfigures := hasFigures_of_round hn h
  obtain ⟨m, hm, ⟨r', hr, rfl⟩ | ⟨-, hlarge⟩⟩ := round_cases hn r
  · have hsame : r'.Same r := hfigures.roundsTo_eq hm
    rw [hr, ← normalize_of_round hr, hsame.normalize_eq, normalize_of_round h]
  · exact absurd (hfigures.roundsTo_eq hm).symm (toRat_ne_of_le hlarge r)

theorem map_toRat_round_neg (hn : 1 ≤ n) (a : Decimal) :
    (round a.neg n).map toRat = (round a n).map fun r => -r.toRat := by
  -- The negative of a decimal is one, so that both fit or neither does.
  obtain ⟨m, hm, ⟨r, hr, rfl⟩ | ⟨herror, hlarge⟩⟩ := round_cases hn a
  · have hneg : RoundsTo n a.neg.toRat r.neg.toRat := by
      rw [toRat_neg, toRat_neg]
      exact hm.neg
    obtain ⟨r', hr', hvalue⟩ := round_of_roundsTo hn hneg
    rw [hr, hr']
    exact congrArg Except.ok (hvalue.trans (toRat_neg r))
  · obtain ⟨m', hm', ⟨r', -, rfl⟩ | ⟨herror', -⟩⟩ := round_cases hn a.neg
    · have hback : RoundsTo n a.toRat r'.neg.toRat := by simpa using hm'.neg
      exact absurd (hback.unique hn hm) (toRat_ne_of_le hlarge r'.neg)
    · rw [herror, herror']
      rfl

/-- Rounding to significant figures is correct rounding: the result is the multiple of the last
figure's unit nearest to the number, and the number itself where it has no more figures. There is an
overflow only where that multiple does not fit into 96 bits. Rounding is idempotent, odd and
monotone. -/
theorem round_correct (hn : 1 ≤ n) :
    (∀ (a : Decimal) (e : ℤ), LeadsAt a.toRat e →
      ∃ m, NearestMultiple (10 ^ (e - n + 1)) a.toRat m ∧ (HasFigures n a.toRat → m = a.toRat) ∧
        ((∃ r, round a n = .ok r ∧ r.toRat = m) ∨
          round a n = .error (.overflow "napkin rounding") ∧ 2 ^ 96 ≤ |m|)) ∧
    (∀ a r, round a n = .ok r → round r n = .ok r) ∧
    (∀ a, (round a.neg n).map toRat = (round a n).map fun r => -r.toRat) ∧
    ∀ a b r s, a.toRat ≤ b.toRat → round a n = .ok r → round b n = .ok s →
      r.toRat ≤ s.toRat := by
  refine ⟨fun a e he => ?_, fun a r => round_round hn, map_toRat_round_neg hn,
    fun a b r s hle hr hs => ?_⟩
  · obtain ⟨m, hm, hresult⟩ := round_cases hn a
    exact ⟨m, hm.nearestMultiple he, fun hfigures => hfigures.roundsTo_eq hm, hresult⟩
  · exact (roundsTo_of_round hn hr).mono hn (roundsTo_of_round hn hs) hle

/-- Where the figures carry into one more digit, as from 9.96 to 10. -/
theorem round_correct_carry :
    round ⟨false, 996, 2, by decide, by decide⟩ 2 = .ok ⟨false, 10, 0, by decide, by decide⟩ ∧
      round ⟨false, 10, 0, by decide, by decide⟩ 2 = .ok ⟨false, 10, 0, by decide, by decide⟩ :=
  have h : round ⟨false, 996, 2, by decide, by decide⟩ 2 =
      .ok ⟨false, 10, 0, by decide, by decide⟩ := by decide
  ⟨h, (round_correct (show 1 ≤ 2 by decide)).2.1 _ _ h⟩

end Reckoner.Napkin
