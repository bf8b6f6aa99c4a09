import Reckoner.Proofs.Decimal.Rendered
/-!
What can be told from the written form of a decimal. Main statement: with all its places, a decimal
is written unlike every other one.
-/
namespace Reckoner.Decimal

section Digits

theorem ofDigitChars_paddedDigits (width n : ℕ) :
    Nat.ofDigitChars 10 (paddedDigits width n) 0 = n := by
  rw [paddedDigits, Nat.ofDigitChars_append, Nat.ofDigitChars_replicate_zero, mul_zero,
    Nat.ofDigitChars_ten_toDigits]

theorem paddedDigits_injective (width : ℕ) : Function.Injective (paddedDigits width) :=
  Function.LeftInverse.injective (ofDigitChars_paddedDigits width)

/-- The digits of a number are all there is to it, apart from the point. -/
theorem filter_isDigit_pointed (n p : ℕ) :
    (pointed n p).filter Char.isDigit = paddedDigits (p + 1) n := by
  have hdigits : ∀ ds : List Char, ds ⊆ paddedDigits (p + 1) n → ds.filter Char.isDigit = ds :=
    fun ds hds => List.filter_eq_self.mpr fun c hc => isDigit_of_mem_paddedDigits (hds hc)
  rw [pointed]
  split
  · exact hdigits _ (List.Subset.refl _)
  · rw [List.filter_append, List.filter_cons_of_neg (by decide), hdigits _ (List.take_subset _ _),
      hdigits _ (List.drop_subset _ _), List.take_append_drop]

/-- The places are what stands behind the point. -/
theorem length_dropWhile_pointed (n p : ℕ) :
    ((pointed n p).dropWhile Char.isDigit).length = if p = 0 then 0 else p + 1 := by
  have hlength := le_length_paddedDigits (p + 1) n
  rw [pointed]
  split
  · rw [List.length_eq_zero_iff, List.dropWhile_eq_nil_iff]
    exact fun c hc => isDigit_of_mem_paddedDigits hc
  · rw [List.dropWhile_append_of_pos
        fun c hc => isDigit_of_mem_paddedDigits (List.mem_of_mem_take hc),
      List.dropWhile_cons_of_neg (by decide), List.length_cons, List.length_drop]
    omega

theorem pointed_inj {n p n' p' : ℕ} : pointed n p = pointed n' p' ↔ n = n' ∧ p = p' := by
  constructor
  · intro h
    have hp : p = p' := by
      have hplaces := congrArg (fun cs => (cs.dropWhile Char.isDigit).length) h
      simp only [length_dropWhile_pointed] at hplaces
      split at hplaces <;> split at hplaces <;> omega
    subst hp
    refine ⟨paddedDigits_injective (p + 1) ?_, rfl⟩
    rw [← filter_isDigit_pointed, ← filter_isDigit_pointed, h]
  · rintro ⟨rfl, rfl⟩
    rfl

theorem minus_mem_signed_pointed (minus : Bool) (n p : ℕ) :
    '-' ∈ (if minus then ['-'] else []) ++ pointed n p ↔ minus = true := by
  have hpointed : '-' ∉ pointed n p := fun h => nomatch isFigure_of_mem_pointed h
  cases minus <;> simp [hpointed]

theorem signed_pointed_inj {minus minus' : Bool} {n p n' p' : ℕ} :
    (if minus then ['-'] else []) ++ pointed n p = (if minus' then ['-'] else []) ++ pointed n' p' ↔
      minus = minus' ∧ n = n' ∧ p = p' := by
  constructor
  · intro h
    have hsign : minus = minus' := by
      rw [Bool.eq_iff_iff, ← minus_mem_signed_pointed minus n p, h, minus_mem_signed_pointed]
    subst hsign
    exact ⟨rfl, pointed_inj.mp (List.append_cancel_left h)⟩
  · rintro ⟨rfl, rfl, rfl⟩
    rfl

theorem text_injective : Function.Injective text := by
  intro a b h
  obtain ⟨hsign, hcoefficient, hscale⟩ := signed_pointed_inj.mp (String.ofList_inj.mp h)
  cases a
  cases b
  congr

end Digits

section Rendered

/-- A number as results show it: rounded to ten places, a half to the even neighbour, and without
trailing zeros. -/
def renderedRat (x : ℚ) : String :=
  let n := halfEven (x * 10 ^ 10)
  let digits := dropZeros n.natAbs 10
  String.ofList ((if n < 0 then ['-'] else []) ++ pointed digits.1 digits.2)

/-- What a decimal is rendered as depends on its number alone. -/
theorem rendered_eq (a : Decimal) : a.rendered = renderedRat a.toRat := by
  have hvalue := toRat_roundPlaces_toEven a (show 10 ≤ 28 by norm_num)
  have hscale := scale_roundPlaces_le .toEven 10 a
  set b := a.roundPlaces .toEven 10 with hb
  set n := halfEven (a.toRat * 10 ^ 10) with hn
  have hplaces : b.scale + (10 - b.scale) = 10 := Nat.add_sub_cancel' hscale
  have hcoefficient : b.coefficient * 10 ^ (10 - b.scale) = n.natAbs := by
    have hpow : (10 : ℚ) ^ 10 = 10 ^ b.scale * 10 ^ (10 - b.scale) := by rw [← pow_add, hplaces]
    have hcast : ((b.coefficient * 10 ^ (10 - b.scale) : ℕ) : ℚ) = n.natAbs := by
      calc ((b.coefficient * 10 ^ (10 - b.scale) : ℕ) : ℚ)
          = b.coefficient / 10 ^ b.scale * 10 ^ 10 := by
            rw [hpow]
            push_cast
            field_simp
        _ = |b.toRat| * 10 ^ 10 := by rw [abs_toRat]
        _ = |(n : ℚ)| := by
            rw [hvalue, abs_div, abs_of_pos (by norm_num : (0 : ℚ) < 10 ^ 10),
              div_mul_cancel₀ _ (by norm_num)]
        _ = n.natAbs := by rw [Nat.cast_natAbs, Int.cast_abs]
    exact_mod_cast hcast
  have hdigits : dropZeros b.coefficient b.scale = dropZeros n.natAbs 10 := by
    rw [← hcoefficient, ← dropZeros_mul_pow _ _ (10 - b.scale), hplaces]
  have hzero : b.isZero = true ↔ n = 0 := by
    rw [isZero_iff, hvalue]
    simp
  have hsign : b.isBelowZero = true ↔ n < 0 := by
    rw [isBelowZero_iff, hvalue, div_neg_iff]
    simp
  show (b.normalize).text = _
  rw [renderedRat, ← hn, Decimal.normalize]
  split
  · next h =>
    rw [hzero.mp h]
    rfl
  · next h =>
    have hminus : b.negative = true ↔ n < 0 := by
      rw [← hsign, isBelowZero, Bool.eq_false_iff.mpr h, Bool.not_false, Bool.and_true]
    simp only [text, hdigits, hminus]

theorem renderedRat_inj {x y : ℚ} :
    renderedRat x = renderedRat y ↔ halfEven (x * 10 ^ 10) = halfEven (y * 10 ^ 10) := by
  constructor
  · intro h
    simp only [renderedRat, String.ofList_inj] at h
    set m := halfEven (x * 10 ^ 10)
    set n := halfEven (y * 10 ^ 10)
    have hminus (k : ℤ) : (if k < 0 then ['-'] else []) = if decide (k < 0) then ['-'] else [] := by
      simp
    rw [hminus, hminus, signed_pointed_inj, decide_eq_decide] at h
    obtain ⟨hsign, hdigits, hplaces⟩ := h
    have hvalue := dropZeros_value m.natAbs 10
    rw [hdigits, hplaces, dropZeros_value, div_left_inj' (by norm_num)] at hvalue
    have habs : n.natAbs = m.natAbs := by exact_mod_cast hvalue
    omega
  · intro h
    rw [renderedRat, renderedRat, h]

end Rendered

end Reckoner.Decimal
