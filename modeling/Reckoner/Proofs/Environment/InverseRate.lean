import Reckoner.Proofs.Decimal.Divided
import Reckoner.Proofs.Decimal.Same
import Reckoner.Proofs.Environment.Setting
/-!
Exchange rates in the direction that was not declared. Main statement: whatever declarations came
before, a rate that is found is above zero, unless it is the inverse of a rate so large that nothing
of the inverse is left at the last decimal place.
-/
namespace Reckoner

namespace Decimal

/-- Nothing is left of an inverse from twice `10 ^ 28` on. -/
theorem toRat_one_dividedBy_pos_iff {d : Decimal} (hd : 0 < d.toRat) :
    0 < (one.dividedBy d).toRat ↔ d.toRat < 2 * 10 ^ 28 := by
  have hinverse : (0 : ℚ) ≤ 1 / d.toRat := by positivity
  rw [(hasQuotient_one hd.ne').toRat_dividedBy, toRat_one, nearest_pos_iff hinverse,
    lt_div_iff₀ hd]
  constructor <;> intro h <;> linarith

theorem toRat_one_dividedBy_nonneg {d : Decimal} (hd : 0 < d.toRat) :
    0 ≤ (one.dividedBy d).toRat := by
  rw [(hasQuotient_one hd.ne').toRat_dividedBy, toRat_one]
  exact nearest_nonneg (by positivity)

end Decimal

/-- A setting to be made: the space it belongs to, its key and the value. -/
structure Declaration where
  space : String
  key : String
  value : Value

namespace Environment

/-- The environment behind a declaration; one that is rejected leaves it as it was. -/
def after (env : Environment) (d : Declaration) : Environment :=
  match env.declare d.space d.key d.value with
  | .ok env' => env'
  | .error _ => env

/-- The environment behind declarations one after another. -/
def afterAll (env : Environment) : List Declaration → Environment
  | [] => env
  | d :: ds => (env.after d).afterAll ds

/-- Every rate is above zero as it was declared. -/
def RatesPositive (env : Environment) : Prop :=
  ∀ key r, env.rates.get? key = some r → 0 < r.toRat

theorem ratesPositive_initial : initial.RatesPositive := nofun

theorem RatesPositive.setRate {env : Environment} (h : env.RatesPositive) (source target : String)
    {r : Decimal} (hr : 0 < r.toRat) : (env.setRate source target r).RatesPositive := by
  intro key s hs
  rw [Environment.setRate] at hs
  by_cases hkey : key = rateKey source target
  · rw [hkey, Dictionary.get?_insert_self] at hs
    cases hs
    exact hr
  · rw [Dictionary.get?_insert_of_ne _ _ _ _ hkey] at hs
    exact h key s hs

theorem RatesPositive.after {env : Environment} (h : env.RatesPositive) (d : Declaration) :
    (env.after d).RatesPositive := by
  have hdeclare : Gives (env.declare d.space d.key d.value) RatesPositive := by
    unfold declare
    refine gives_ite (fun _ => gives_ok h) fun _ => ?_
    refine gives_ite (fun _ => ?_) fun _ => gives_error _
    refine gives_bind (gives_self _) fun codes _ => ?_
    cases d.value with
    -- The only way for a rate to get in checks its sign.
    | number r =>
      refine gives_ite (fun hpos => gives_ok ?_) fun _ => gives_error _
      rw [Decimal.lt_iff, Decimal.toRat_zero] at hpos
      exact h.setRate _ _ hpos
    | _ => exact gives_error _
  unfold Environment.after
  split
  · next env' henv => exact hdeclare env' henv
  · exact h

theorem RatesPositive.afterAll {env : Environment} (h : env.RatesPositive)
    (ds : List Declaration) : (env.afterAll ds).RatesPositive := by
  induction ds generalizing env with
  | nil => exact h
  | cons d ds ih =>
    rw [Environment.afterAll]
    exact ih (h.after d)

/-- Nothing has to be turned round to get from one currency to another, or something is left of the
inverse. -/
def KeepsInverse (env : Environment) (source target : String) : Prop :=
  Text.sameLetters source target = true ∨ (env.rate? source target).isSome ∨
    ∀ d, env.rate? target source = some d → d.toRat < 2 * 10 ^ 28

theorem exchangeRate?_pos_of {env : Environment} (h : env.RatesPositive) {source target : String}
    {r : Decimal} (hr : env.exchangeRate? source target = some r) :
    0 ≤ r.toRat ∧ (0 < r.toRat ↔ env.KeepsInverse source target) := by
  unfold exchangeRate? at hr
  split at hr
  · next hself =>
    -- A currency is worth one of itself.
    cases hr
    rw [Decimal.toRat_one]
    exact ⟨zero_le_one, iff_of_true zero_lt_one (Or.inl hself)⟩
  · next hself =>
    split at hr
    · next d hd =>
      -- The rate is the one that was declared.
      cases hr
      have hpos : 0 < r.toRat := h _ _ hd
      exact ⟨hpos.le, iff_of_true hpos (Or.inr (Or.inl (by rw [hd]; rfl)))⟩
    · next hnone =>
      -- The rate of the other direction is turned round.
      split at hr
      · next d hd =>
        have hpos : 0 < d.toRat := h _ _ hd
        split at hr
        · cases hr
        · cases hr
          refine ⟨Decimal.toRat_one_dividedBy_nonneg hpos, ?_⟩
          rw [Decimal.toRat_one_dividedBy_pos_iff hpos]
          simp [KeepsInverse, hself, hnone, hd]
      · cases hr

/-- Behind any declarations, accepted or rejected: a rate that is found is not below zero, and it is
above zero exactly if it is not the inverse of a rate from twice `10 ^ 28` on. -/
theorem exchangeRate?_pos_iff (ds : List Declaration) {source target : String} {r : Decimal}
    (hr : (initial.afterAll ds).exchangeRate? source target = some r) :
    0 ≤ r.toRat ∧ (0 < r.toRat ↔ (initial.afterAll ds).KeepsInverse source target) :=
  exchangeRate?_pos_of (ratesPositive_initial.afterAll ds) hr

/-- The declaration of how many euros there are for a dollar. -/
def dollarInEuros (r : Decimal) : Declaration := ⟨"exchange", "USD_EUR", .number r⟩

theorem exchangeRate?_pos_euro : ∃ r,
    (initial.afterAll [dollarInEuros (.ofLiteral 92 2)]).exchangeRate? "EUR" "USD" = some r ∧
      0 < r.toRat := by
  have hrate : (initial.afterAll [dollarInEuros (.ofLiteral 92 2)]).rate? "USD" "EUR" =
      some (.ofLiteral 92 2) := by decide +kernel
  have hfound : (initial.afterAll [dollarInEuros (.ofLiteral 92 2)]).exchangeRate? "EUR" "USD" =
      some (.ofLiteral 10869565217391304347826086957 28) := by decide +kernel
  refine ⟨_, hfound, (exchangeRate?_pos_iff _ hfound).2.mpr (Or.inr (Or.inr ?_))⟩
  intro d hd
  cases hrate.symm.trans hd
  decide +kernel

/-- The inverse of the largest decimal, to 28 places, is zero. -/
theorem exchangeRate?_not_pos : ∃ r,
    (initial.afterAll [dollarInEuros (.ofLiteral 79228162514264337593543950335 0)]).exchangeRate?
      "EUR" "USD" = some r ∧ ¬ 0 < r.toRat :=
  ⟨.zero, by decide +kernel, by rw [Decimal.toRat_zero]; exact lt_irrefl 0⟩

end Environment
end Reckoner
