import Reckoner.Proofs.Decimal.Same
import Reckoner.Proofs.Environment.RateKey
import Reckoner.Proofs.Text.Letters
/-!
Exchange rates between codes that are spelled in several ways. Main statement: a rate depends on
nothing but the codes without blanks around them and in upper case, as the table of rates has them,
unless both codes are one there and are not so by the case of ASCII letters alone.
-/
namespace Reckoner.Environment

open Decimal (Same)

/-- The rate between two codes as they stand in the keys of the table: one from a code to itself,
else the rate that was declared, else the inverse of the one declared the other way round. -/
def listedRate? (env : Environment) (p : String × String) : Option Decimal :=
  if p.1 = p.2 then some .one
  else
    match env.rates.get? (p.1 ++ "_" ++ p.2) with
    | some r => some r
    | none =>
      match env.rates.get? (p.2 ++ "_" ++ p.1) with
      | some r => if r.toRat = 0 then none else some (Decimal.one.dividedBy r)
      | none => none

/-- Texts with one code are seen to have one, or the table says that it is worth one of itself. -/
def AtPar (env : Environment) (source target : String) : Prop :=
  (currencies source target).1 = (currencies source target).2 →
    Text.sameLetters source target = true ∨ ∃ r, env.rate? source target = some r ∧ r.toRat = 1

variable (env : Environment) {source target source' target' : String}

/-- Without a rate from a code to itself there is none the other way round either. -/
theorem exchangeRate?_of_code_eq
    (hcode : (currencies source target).1 = (currencies source target).2) :
    env.exchangeRate? source target =
      if Text.sameLetters source target then some .one else env.rate? source target := by
  have hupper : Text.upper (Text.trim source) = Text.upper (Text.trim target) := hcode
  have hswap : env.rate? target source = env.rate? source target := by
    rw [rate?, rate?, rateKey, rateKey, hupper]
  rw [exchangeRate?, hswap]
  cases env.rate? source target <;> rfl

theorem exchangeRate?_of_code_ne
    (hcode : (currencies source target).1 ≠ (currencies source target).2) :
    env.exchangeRate? source target = env.listedRate? (currencies source target) := by
  have hletters : ¬Text.sameLetters source target = true := by
    intro h
    exact hcode (Text.upper_trim_eq_of_sameLetters h)
  rw [exchangeRate?, if_neg hletters, listedRate?, if_neg hcode]
  -- The key of a pair is made of its two codes.
  show (match env.rate? source target with | some r => _ | none => _) =
    match env.rate? source target with | some r => _ | none => _
  cases env.rate? source target with
  | some r => rfl
  | none =>
    show (match env.rate? target source with | some r => _ | none => _) =
      match env.rate? target source with | some r => _ | none => _
    cases env.rate? target source with
    | none => rfl
    | some r => simp only [Decimal.isZero_iff]

theorem rel_some_one_iff {o : Option Decimal} :
    Option.Rel Same o (some .one) ↔ ∃ r, o = some r ∧ r.toRat = 1 := by
  rw [Decimal.rel_same_iff, Option.map_some, Decimal.toRat_one, Option.map_eq_some_iff]

theorem rel_some_one_comm {o : Option Decimal} :
    Option.Rel Same (some .one) o ↔ Option.Rel Same o (some .one) := by
  rw [Decimal.rel_same_iff, Decimal.rel_same_iff, eq_comm]

/-- One outcome beside itself, either of them replaced by the rate of one under a condition. -/
theorem rel_one_iff {a b : Prop} [Decidable a] [Decidable b] (o : Option Decimal) :
    Option.Rel Same (if a then some .one else o) (if b then some .one else o) ↔
      (a ∨ Option.Rel Same o (some .one) ↔ b ∨ Option.Rel Same o (some .one)) := by
  by_cases ha : a
  · rw [if_pos ha, iff_true_left (Or.inl ha)]
    by_cases hb : b
    · rw [if_pos hb]
      exact iff_of_true (Decimal.rel_same_refl _) (Or.inl hb)
    · rw [if_neg hb, or_iff_right hb, rel_some_one_comm]
  · rw [if_neg ha, or_iff_right ha]
    by_cases hb : b
    · rw [if_pos hb, iff_true_right (Or.inl hb)]
    · rw [if_neg hb, or_iff_right hb]
      exact iff_of_true (Decimal.rel_same_refl _) Iff.rfl

theorem atPar_of_code_ne (hcode : (currencies source target).1 ≠ (currencies source target).2) :
    env.AtPar source target := fun h => absurd h hcode

theorem atPar_iff (hcode : (currencies source target).1 = (currencies source target).2) :
    env.AtPar source target ↔ Text.sameLetters source target = true ∨
      Option.Rel Same (env.rate? source target) (some .one) := by
  rw [AtPar, rel_some_one_iff]
  exact imp_iff_right hcode

theorem rel_listedRate?_iff :
    Option.Rel Same (env.exchangeRate? source target)
      (env.listedRate? (currencies source target)) ↔ env.AtPar source target := by
  by_cases hcode : (currencies source target).1 = (currencies source target).2
  · rw [env.exchangeRate?_of_code_eq hcode, listedRate?, if_pos hcode, env.atPar_iff hcode]
    by_cases hletters : Text.sameLetters source target = true
    · rw [if_pos hletters]
      exact iff_of_true (Decimal.rel_same_refl _) (Or.inl hletters)
    · rw [if_neg hletters, or_iff_right hletters]
  · rw [env.exchangeRate?_of_code_ne hcode]
    exact iff_of_true (Decimal.rel_same_refl _) (env.atPar_of_code_ne hcode)

/-- Two spellings of one code, each with the rate that the table has or with the rate of one. -/
theorem rel_exchangeRate?_iff (h : currencies source target = currencies source' target') :
    Option.Rel Same (env.exchangeRate? source target) (env.exchangeRate? source' target') ↔
      (env.AtPar source target ↔ env.AtPar source' target') := by
  by_cases hcode : (currencies source target).1 = (currencies source target).2
  · have hcode' : (currencies source' target').1 = (currencies source' target').2 := h ▸ hcode
    -- Both pairs have one key, and the texts decide only whether the table is asked.
    have hrate : env.rate? source' target' = env.rate? source target := by
      show env.rates.get? ((currencies source' target').1 ++ "_" ++ (currencies source' target').2)
        = env.rates.get? ((currencies source target).1 ++ "_" ++ (currencies source target).2)
      rw [h]
    rw [env.exchangeRate?_of_code_eq hcode, env.exchangeRate?_of_code_eq hcode',
      env.atPar_iff hcode, env.atPar_iff hcode', hrate]
    exact rel_one_iff _
  · have hcode' : (currencies source' target').1 ≠ (currencies source' target').2 := h ▸ hcode
    rw [env.exchangeRate?_of_code_ne hcode, env.exchangeRate?_of_code_ne hcode', h]
    exact iff_of_true (Decimal.rel_same_refl _)
      (iff_of_true (env.atPar_of_code_ne hcode) (env.atPar_of_code_ne hcode'))

/-- The case of ASCII letters never matters. -/
theorem exchangeRate?_of_sameLetters (hs : Text.sameLetters source source' = true)
    (ht : Text.sameLetters target target' = true) :
    env.exchangeRate? source target = env.exchangeRate? source' target' := by
  have hletters : Text.sameLetters source target = Text.sameLetters source' target' := by
    rw [Text.sameLetters, Text.sameLetters, beq_iff_eq.mp hs, beq_iff_eq.mp ht]
  have hsource := Text.upper_trim_eq_of_sameLetters hs
  have htarget := Text.upper_trim_eq_of_sameLetters ht
  rw [exchangeRate?, exchangeRate?, hletters, rate?, rate?, rate?, rate?, rateKey, rateKey, rateKey,
    rateKey, hsource, htarget]

/-- The rate between two texts is the listed one of their codes exactly if texts of one code are at
par, and two spellings of the codes have one rate exactly if both are at par or neither is. -/
theorem exchangeRate?_listed_iff (h : currencies source target = currencies source' target') :
    (Option.Rel Same (env.exchangeRate? source target)
        (env.listedRate? (currencies source target)) ↔ env.AtPar source target) ∧
      (Option.Rel Same (env.exchangeRate? source target) (env.exchangeRate? source' target') ↔
        (env.AtPar source target ↔ env.AtPar source' target')) :=
  ⟨env.rel_listedRate?_iff, env.rel_exchangeRate?_iff h⟩

/-- A dollar is 0.92 euros under each spelling of the two codes. -/
theorem exchangeRate?_listed_dollar :
    let env := initial.setRate "USD" "EUR" (.ofLiteral 92 2)
    currencies " usd" "EUR" = currencies "USD" "eur\t" ∧
      Option.Rel Same (env.exchangeRate? " usd" "EUR") (env.listedRate? ("USD", "EUR")) ∧
      Option.Rel Same (env.exchangeRate? " usd" "EUR") (env.exchangeRate? "USD" "eur\t") := by
  intro env
  have hcodes : currencies " usd" "EUR" = ("USD", "EUR") := by decide +kernel
  have hcodes' : currencies "USD" "eur\t" = ("USD", "EUR") := by decide +kernel
  have hspellings := hcodes.trans hcodes'.symm
  have hpar : env.AtPar " usd" "EUR" := by
    apply env.atPar_of_code_ne
    rw [hcodes]
    decide
  have hpar' : env.AtPar "USD" "eur\t" := by
    apply env.atPar_of_code_ne
    rw [hcodes']
    decide
  obtain ⟨hlisted, hagree⟩ := env.exchangeRate?_listed_iff hspellings
  rw [hcodes] at hlisted
  exact ⟨hspellings, hlisted.mpr hpar, hagree.mpr (iff_of_true hpar hpar')⟩

/-- A dollar with a blank in front has the code of the dollar, and no rate to it. -/
theorem exchangeRate?_not_listed :
    currencies " USD" "USD" = currencies "USD" "USD" ∧
      initial.exchangeRate? " USD" "USD" = none ∧
      initial.listedRate? (currencies " USD" "USD") = some .one ∧
      initial.exchangeRate? "USD" "USD" = some .one := by
  refine ⟨?_, ?_, ?_, ?_⟩ <;> decide +kernel

end Reckoner.Environment
