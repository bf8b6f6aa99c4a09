import Reckoner.Napkin
import Reckoner.Proofs.Decimal.Divided
import Reckoner.Proofs.Decimal.Rendered
import Reckoner.Proofs.Gives
/-!
Rounding to significant figures and the short texts of numbers. Main statements: decimals that stand
for one number have one short text; the short text of a number shows no sign in front of zeros, and
it shows zeros only where the rounded number is half a unit in the tenth place at most.
-/
namespace Reckoner.Napkin

open Decimal

variable {a b : Decimal}

section Round

/-- Rounded numbers have no zeros to be told apart by. -/
theorem round_eq (h : a.Same b) (figures : ℕ) : round a figures = round b figures := by
  rw [round, round, ← h.isZero_eq]
  split
  · rfl
  · split
    · rfl
    · next ha =>
      have hrounded := h.roundFigures (by simpa using ha) figures
      generalize a.roundFigures figures = o at hrounded ⊢
      generalize b.roundFigures figures = p at hrounded ⊢
      cases hrounded with
      | some hr => rw [Option.map_some, Option.map_some, hr.normalize_eq]
      | none => rfl

theorem numberText_eq (h : a.Same b) (figures : ℕ) :
    numberText a figures = numberText b figures := by
  rw [numberText, numberText, round_eq h]

theorem pow_lostDigits_le {figures n : ℕ} (hf : figures ≠ 0) (hn : 0 < n) :
    10 ^ lostDigits figures n ≤ n := by
  rcases Nat.eq_zero_or_pos (lostDigits figures n) with h | h
  · rw [h, pow_zero]
    exact hn
  · by_contra hlt
    have hcount := (Nat.length_toDigits_le_iff (by decide) h).mpr (not_le.mp hlt)
    rw [lostDigits, digitCount] at hcount h
    omega

/-- One figure at least is kept, so a number is not rounded to less than a half of it. -/
theorem le_two_mul_figuresSize {figures : ℕ} (hf : figures ≠ 0) (n : ℕ) :
    (n : ℚ) / 10 ^ 28 ≤ 2 * figuresSize figures n := by
  set d := 10 ^ lostDigits figures n with hd
  have hhalf : n ≤ 2 * (roundQuotient .awayFromZero n d * d) := by
    rcases Nat.eq_zero_or_pos n with h | h
    · omega
    · have hpos : 0 < d := by positivity
      have hone : 1 ≤ n / d := (Nat.one_le_div_iff hpos).mpr (pow_lostDigits_le hf h)
      calc n = d * (n / d) + n % d := (Nat.div_add_mod n d).symm
        _ ≤ d * (n / d) + d * (n / d) :=
            Nat.add_le_add_left ((Nat.mod_lt n hpos).le.trans (Nat.le_mul_of_pos_right d hone)) _
        _ = 2 * (n / d * d) := by ring
        _ ≤ 2 * (roundQuotient .awayFromZero n d * d) := by
            gcongr
            exact div_le_roundQuotient _ n d
  have hcast : (n : ℚ) ≤ 2 * (roundQuotient .awayFromZero n d * 10 ^ lostDigits figures n) := by
    rw [hd] at hhalf
    exact_mod_cast hhalf
  rw [figuresSize, ← mul_div_assoc]
  gcongr

theorem gives_round (ha : 0 ≤ a.toRat) (figures : ℕ) :
    Gives (round a figures) fun r => 0 ≤ r.toRat ∧ a.toRat ≤ 2 * r.toRat := by
  refine gives_ite (fun _ => gives_error _) fun hf => ?_
  refine gives_ite (fun hzero => gives_ok ?_) fun hzero => gives_orError fun r hr => ?_
  · rw [toRat_zero, (isZero_iff a).mp hzero]
    exact ⟨le_rfl, by norm_num⟩
  · have hz : a.isZero = false := by simpa using hzero
    have hsign : a.negative = false := by
      have hbelow := (isBelowZero_eq_false_iff a).mpr ha
      rwa [isBelowZero, hz, Bool.not_false, Bool.and_true] at hbelow
    obtain ⟨b, hb, rfl⟩ := Option.map_eq_some_iff.mp hr
    have hvalue := map_toRat_roundFigures figures hz
    rw [hb, hsign, signFactor_false, one_mul, Option.map_some] at hvalue
    have hsize : b.toRat = figuresSize figures a.units := by
      split at hvalue
      · exact Option.some.inj hvalue
      · cases hvalue
    rw [toRat_normalize, hsize]
    refine ⟨?_, ?_⟩
    · rw [figuresSize]
      positivity
    · rw [← abs_of_nonneg ha, abs_toRat, ← cast_units]
      exact le_two_mul_figuresSize hf _

end Round

section Text

/-- A text shows the number `a` without a sign in front of zeros; if `a` is not below zero, without
a sign at all, and with zeros only where `a` is half a unit in the tenth place at most. -/
def ShowsNumber (a : Decimal) (s : String) : Prop :=
  ∃ minus n, Shows s minus n ∧ (minus = true → n ≠ 0) ∧
    (0 ≤ a.toRat → minus = false ∧ (n = 0 ↔ a.toRat ≤ 1 / 2 / 10 ^ 10))

theorem showsNumber_rendered (a : Decimal) : ShowsNumber a a.rendered := by
  refine ⟨_, _, shows_rendered a, coefficient_shown_ne_zero, fun ha => ?_⟩
  refine ⟨negative_shown_of_nonneg ha, ?_⟩
  rw [coefficient_shown_eq_zero_iff, abs_of_nonneg ha]

theorem ShowsNumber.signEarned {s : String} (h : ShowsNumber a s) : SignEarned s := by
  obtain ⟨minus, n, hs, hminus, -⟩ := h
  exact hs.signEarned_iff.mpr hminus

theorem ShowsNumber.append {s t : String} (h : ShowsNumber a s)
    (ht : ∀ c ∈ t.toList.head?, isFigure c = false) : ShowsNumber a (s ++ t) := by
  obtain ⟨minus, n, hs, hminus⟩ := h
  exact ⟨minus, n, hs.append ht, hminus⟩

theorem ShowsNumber.append_word {s : String} (h : ShowsNumber a s) (word : String) :
    ShowsNumber a (s ++ " " ++ word) := by
  rw [String.append_assoc]
  apply h.append
  exact not_isFigure_of_mem_head?_word word

/-- A power that has a letter: it is a decimal, and the letter is no part of a number. -/
def IsScale (p : ℕ × String) : Prop :=
  1 ≤ p.1 ∧ p.1 < 2 ^ 96 ∧ ∀ c ∈ p.2.toList.head?, isFigure c = false

theorem isScale_of_mem_suffixes : ∀ {p}, p ∈ suffixes → IsScale p := by
  intro p hp
  have hletters : ∀ p ∈ suffixes, p.2.toList.head?.all (!isFigure ·) = true := by decide
  have hpowers : ∀ p ∈ suffixes, 1 ≤ p.1 ∧ p.1 < 2 ^ 96 := by decide
  refine ⟨(hpowers p hp).1, (hpowers p hp).2, fun c hc => ?_⟩
  have hletter := hletters p hp
  rw [Option.mem_def.mp hc] at hletter
  simpa using hletter

theorem scaledText_cons {power : Decimal} {n : ℕ} (hpower : ofNat? n = some power) (figures : ℕ)
    (letter : String) (rest : List (ℕ × String)) :
    scaledText a figures ((n, letter) :: rest) =
      if power.le a.abs then (round (a.dividedBy power) figures).map (·.rendered ++ letter)
      else scaledText a figures rest := by
  rw [scaledText, hpower]
  rfl

/-- What is divided by a power not above it and rounded is a half at least, and so no zero. -/
theorem gives_scaled {power : Decimal} {n : ℕ} (hpower : power.toRat = n) (hn : 1 ≤ n)
    (hle : power.le a.abs = true) (ha : 0 ≤ a.toRat) (figures : ℕ) :
    Gives (round (a.dividedBy power) figures) fun r => 1 / 2 ≤ r.toRat ∧ 1 ≤ a.toRat := by
  have habs : a.abs.toRat = a.toRat := by rw [toRat_abs, abs_of_nonneg ha]
  have hone : 1 ≤ power.toRat := by
    rw [hpower]
    exact_mod_cast hn
  have hbound : power.toRat ≤ a.toRat := by rwa [le_iff, habs] at hle
  have hquotient : 1 ≤ (a.dividedBy power).toRat := by
    have hle : 1 ≤ a.toRat / power.toRat := (one_le_div (by linarith)).mpr hbound
    rw [(hasQuotient_of_one_le a (hone.trans (le_abs_self _))).toRat_dividedBy]
    calc (1 : ℚ) = nearest (1 : ℕ) := by rw [nearest_natCast (by norm_num), Nat.cast_one]
      _ ≤ nearest (a.toRat / power.toRat) := nearest_mono (by exact_mod_cast hle)
  refine (gives_round (by linarith) figures).imp fun r hr => ⟨?_, by linarith⟩
  linarith [hr.2]

theorem gives_scaledText (a : Decimal) (figures : ℕ) {ps : List (ℕ × String)}
    (hps : ∀ p ∈ ps, IsScale p) : Gives (scaledText a figures ps) (ShowsNumber a) := by
  induction ps with
  | nil => exact gives_ok (showsNumber_rendered a)
  | cons p rest ih =>
    obtain ⟨n, letter⟩ := p
    obtain ⟨hn, hlt, hletter⟩ := hps _ List.mem_cons_self
    obtain ⟨power, hpower, hvalue⟩ := exists_ofNat? hlt
    rw [scaledText_cons hpower]
    refine gives_ite (fun hle => gives_map fun r hr => ?_)
      fun _ => ih fun p hp => hps p (List.mem_cons_of_mem _ hp)
    obtain ⟨minus, k, hs, hminus, hzero⟩ := (showsNumber_rendered r).append hletter
    refine ⟨minus, k, hs, hminus, fun ha => ?_⟩
    -- Neither the number nor what is left of it is rounded to zero.
    obtain ⟨hr, hone⟩ := gives_scaled hvalue hn hle ha figures r hr
    obtain ⟨hsign, hk⟩ := hzero (by linarith)
    refine ⟨hsign, hk.trans (iff_of_false ?_ ?_)⟩
    · intro hsmall
      norm_num at hsmall
      linarith
    · intro hsmall
      norm_num at hsmall
      linarith

/-- The short text of a number shows the rounded number. -/
theorem gives_numberText (a : Decimal) (figures : ℕ) :
    Gives (numberText a figures) fun s => ∃ r, round a figures = .ok r ∧ ShowsNumber r s := by
  refine gives_bind (gives_self _) fun r hr => ?_
  refine (gives_scaledText r figures fun p hp => isScale_of_mem_suffixes hp).imp fun s hs => ?_
  exact ⟨r, hr, hs⟩

theorem signEarned_numberText (a : Decimal) (figures : ℕ) :
    Gives (numberText a figures) SignEarned := by
  refine (gives_numberText a figures).imp ?_
  rintro s ⟨r, -, hs⟩
  exact hs.signEarned

theorem signEarned_numberText_append (a : Decimal) (figures : ℕ) (word : String) :
    Gives (numberText a figures >>= fun body => pure (body ++ " " ++ word)) SignEarned := by
  refine gives_bind (gives_numberText a figures) ?_
  rintro body ⟨r, -, hs⟩
  exact gives_ok (hs.append_word word).signEarned

end Text
end Reckoner.Napkin
