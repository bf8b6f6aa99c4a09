import Reckoner.Proofs.Decimal.SameRounded
import Reckoner.Proofs.Text.Digits
/-!
What the written forms of decimals show. Main statements: decimals that stand for one number are
rendered alike, and with two places they differ in the sign of a zero at most; a number is written
with a digit other than zero exactly if its coefficient is not zero.
-/
namespace Reckoner

/-- Whether a character is part of a number as it is written: a digit or a point. -/
def isFigure (c : Char) : Bool := c.isDigit || c == '.'

namespace Decimal

section Zeros

theorem dropZeros_mul_pow (c s k : ℕ) : dropZeros (c * 10 ^ k) (s + k) = dropZeros c s := by
  induction k with
  | zero => rw [pow_zero, mul_one, Nat.add_zero]
  | succ k ih =>
    rw [pow_succ, ← mul_assoc, ← Nat.add_assoc, dropZeros, if_pos (Nat.mul_mod_left _ _),
      Nat.mul_div_cancel _ (by decide), ih]

/-- The zeros up to the last place that a decimal can have are the first to go. -/
theorem dropZeros_units (a : Decimal) :
    dropZeros a.units 28 = dropZeros a.coefficient a.scale := by
  have hplaces : a.scale + (28 - a.scale) = 28 := Nat.add_sub_cancel' a.scale_le
  rw [← dropZeros_mul_pow a.coefficient a.scale (28 - a.scale), hplaces, units]

variable {a b : Decimal}

theorem Same.normalize_eq (h : a.Same b) : a.normalize = b.normalize := by
  have hdrop : dropZeros a.coefficient a.scale = dropZeros b.coefficient b.scale := by
    rw [← dropZeros_units, ← dropZeros_units, h.units_eq]
  rw [Decimal.normalize, Decimal.normalize, ← h.isZero_eq]
  split
  · rfl
  · next ha =>
    have hsign : a.negative = b.negative := h.negative_eq (by simpa using ha)
    simp only [hsign, hdrop]

end Zeros

section Tenth

variable {a b : Decimal}

/-- The decimal that is written when `a` is rendered. -/
def shown (a : Decimal) : Decimal := (a.roundPlaces .toEven 10).normalize

theorem Same.shown_eq (h : a.Same b) : a.shown = b.shown :=
  (h.roundPlaces .toEven 10).normalize_eq

theorem Same.rendered_eq (h : a.Same b) : a.rendered = b.rendered :=
  congrArg text h.shown_eq

/-- No zero has a sign once its zeros are dropped. -/
theorem coefficient_shown_ne_zero (h : a.shown.negative = true) : a.shown.coefficient ≠ 0 := by
  intro hc
  have hz : (a.roundPlaces .toEven 10).isZero = true := by
    rw [isZero_iff, ← toRat_normalize, ← isZero_iff, isZero, beq_iff_eq]
    exact hc
  rw [shown, Decimal.normalize, if_pos hz] at h
  cases h

theorem toRat_roundPlaces_toEven (a : Decimal) {p : ℕ} (hp : p ≤ 28) :
    (a.roundPlaces .toEven p).toRat = halfEven (a.toRat * 10 ^ p) / 10 ^ p := by
  have hcast := cast_roundQuotient a.units (10 ^ (28 - p)) (by positivity)
  have hsize : (a.units : ℚ) / (10 ^ (28 - p) : ℕ) = a.coefficient / 10 ^ a.scale * 10 ^ p := by
    obtain ⟨j, hj⟩ := Nat.exists_eq_add_of_le hp
    rw [← cast_units, show 28 - p = j by omega, show 28 = p + j from hj, pow_add]
    push_cast
    field_simp
  have hround : (roundQuotient .toEven a.units (10 ^ (28 - p)) : ℚ) =
      halfEven (a.coefficient / 10 ^ a.scale * 10 ^ p) := by
    rw [← hsize]
    exact_mod_cast hcast
  rw [toRat_roundPlaces _ hp, hround, toRat_eq, mul_assoc]
  cases a.negative with
  | true => simp [neg_div]
  | false => simp

/-- Up to half a unit in the last place that is kept, a number is rounded to zero. -/
theorem toRat_roundPlaces_eq_zero_iff {p : ℕ} (hp : p ≤ 28) (a : Decimal) :
    (a.roundPlaces .toEven p).toRat = 0 ↔ |a.toRat| ≤ 1 / 2 / 10 ^ p := by
  have hpow : (0 : ℚ) < 10 ^ p := by positivity
  calc (a.roundPlaces .toEven p).toRat = 0 ↔ halfEven (a.toRat * 10 ^ p) = 0 := by
        rw [toRat_roundPlaces_toEven a hp]
        simp
    _ ↔ |a.toRat * 10 ^ p| ≤ 1 / 2 := by
        rw [le_antisymm_iff, halfEven_le_iff Even.zero, le_halfEven_iff Even.zero, abs_le]
        push_cast
        rw [and_comm, zero_add, zero_sub]
    _ ↔ |a.toRat| ≤ 1 / 2 / 10 ^ p := by
        rw [abs_mul, abs_of_pos hpow, le_div_iff₀ hpow]

theorem coefficient_shown_eq_zero_iff (a : Decimal) :
    a.shown.coefficient = 0 ↔ |a.toRat| ≤ 1 / 2 / 10 ^ 10 := by
  rw [← toRat_roundPlaces_eq_zero_iff (by norm_num), ← toRat_normalize, ← isZero_iff, isZero,
    beq_iff_eq]
  rfl

/-- What is not below zero is written without a sign. -/
theorem negative_shown_of_nonneg (ha : 0 ≤ a.toRat) : a.shown.negative = false := by
  have habs : a.Same a.abs := by rw [Same, toRat_abs, abs_of_nonneg ha]
  have hround : (a.abs.roundPlaces .toEven 10).negative = false := by
    rw [Decimal.roundPlaces]
    split <;> rfl
  rw [habs.shown_eq, shown, Decimal.normalize]
  split
  · rfl
  · exact hround

end Tenth

section Cents

variable {a b : Decimal}

theorem scale_roundPlaces_le (tie : Tie) (p : ℕ) (a : Decimal) :
    (a.roundPlaces tie p).scale ≤ p := by
  unfold roundPlaces
  split
  · next h => exact h
  · exact le_rfl

/-- The coefficient with two places. -/
def cents (a : Decimal) : ℕ := a.coefficient * 10 ^ (2 - a.scale)

theorem cents_mul_pow (ha : a.scale ≤ 2) : a.cents * 10 ^ 26 = a.units := by
  rw [cents, units, mul_assoc, ← pow_add]
  congr 2
  omega

theorem Same.cents_eq (h : a.Same b) (ha : a.scale ≤ 2) (hb : b.scale ≤ 2) :
    a.cents = b.cents := by
  have hunits := h.units_eq
  rw [← cents_mul_pow ha, ← cents_mul_pow hb] at hunits
  exact Nat.mul_right_cancel (by positivity) hunits

theorem cents_eq_zero_iff (a : Decimal) : a.cents = 0 ↔ a.isZero = true := by
  rw [cents, isZero, beq_iff_eq, mul_eq_zero, or_iff_left (by positivity)]

theorem negative_zero_roundPlaces_iff (a : Decimal) :
    ((a.roundPlaces .toEven 2).negative = true ∧ (a.roundPlaces .toEven 2).cents = 0) ↔
      a.isZero = true ∧ a.negative = true ∧ a.scale ≤ 2 := by
  rw [cents_eq_zero_iff]
  by_cases h : a.scale ≤ 2
  · -- There is nothing to round, and a sign stays where it is.
    rw [roundPlaces, dif_pos h, and_comm]
    simp [h]
  · -- What is rounded to zero has lost its sign.
    rw [roundPlaces, dif_neg h]
    simp [isZero, h]

theorem centsText_eq (ha : a.scale ≤ 2) :
    a.centsText = String.ofList ((if a.negative then ['-'] else []) ++ pointed a.cents 2) := by
  rw [centsText, max_eq_left ha, cents]

/-- With one number of cents, only the sign can differ. -/
theorem centsText_eq_iff (h : a.Same b) (ha : a.scale ≤ 2) (hb : b.scale ≤ 2) :
    a.centsText = b.centsText ↔ a.negative = b.negative := by
  rw [centsText_eq ha, centsText_eq hb, h.cents_eq ha hb, String.ofList_inj, List.append_left_inj]
  cases a.negative <;> cases b.negative <;> simp

end Cents

section Digits

theorem isDigit_of_mem_paddedDigits {width n : ℕ} {c : Char} (h : c ∈ paddedDigits width n) :
    c.isDigit = true := by
  rw [paddedDigits, List.mem_append] at h
  rcases h with h | h
  · rw [List.eq_of_mem_replicate h]
    rfl
  · exact isDigit_of_mem_toDigits h

theorem le_length_paddedDigits (width n : ℕ) : width ≤ (paddedDigits width n).length := by
  rw [paddedDigits, List.length_append, List.length_replicate]
  omega

/-- Zeros only are written for zero only, with whatever zeros in front. -/
theorem exists_nonzero_mem_paddedDigits (width n : ℕ) :
    (∃ c ∈ paddedDigits width n, c ≠ '0') ↔ n ≠ 0 := by
  constructor
  · rintro ⟨c, hc, hne⟩ rfl
    rw [paddedDigits, Nat.toDigits_zero, List.mem_append, List.mem_singleton] at hc
    rcases hc with hc | hc
    · exact hne (List.eq_of_mem_replicate hc)
    · exact hne hc
  · intro hn
    by_contra hall
    push Not at hall
    -- The value of a row of zeros is zero.
    have hzeros : Nat.toDigits 10 n = List.replicate (Nat.toDigits 10 n).length '0' :=
      List.eq_replicate_iff.mpr ⟨rfl, fun c hc => hall c (List.mem_append_right _ hc)⟩
    have hvalue := Nat.ofDigitChars_ten_toDigits (n := n)
    rw [hzeros, Nat.ofDigitChars_replicate_zero, mul_zero] at hvalue
    exact hn hvalue.symm

/-- The point takes the place of no digit. -/
theorem mem_pointed {c : Char} (hc : c ≠ '.') (n p : ℕ) :
    c ∈ pointed n p ↔ c ∈ paddedDigits (p + 1) n := by
  rw [pointed]
  split
  · rfl
  · generalize paddedDigits (p + 1) n = ds
    have hsplit := List.mem_append (a := c) (s := ds.take (ds.length - p))
      (t := ds.drop (ds.length - p))
    rw [List.take_append_drop] at hsplit
    simp [hsplit, hc]

/-- A digit stands in front of the point. -/
theorem head?_pointed (n p : ℕ) : (pointed n p).head? = (paddedDigits (p + 1) n).head? := by
  rw [pointed]
  split
  · rfl
  · have hlength := le_length_paddedDigits (p + 1) n
    generalize paddedDigits (p + 1) n = ds at hlength ⊢
    rw [List.head?_append, List.head?_take, if_neg (by omega)]
    cases ds with
    | nil => simp at hlength
    | cons d ds => rfl

theorem exists_head_pointed (n p : ℕ) : ∃ d ds, pointed n p = d :: ds ∧ d.isDigit = true := by
  have hlength := le_length_paddedDigits (p + 1) n
  have hhead := head?_pointed n p
  cases hds : paddedDigits (p + 1) n with
  | nil => simp [hds] at hlength
  | cons d ds =>
    rw [hds, List.head?_cons] at hhead
    have hd : d ∈ paddedDigits (p + 1) n := by
      rw [hds]
      exact List.mem_cons_self
    exact ⟨d, _, List.eq_cons_of_mem_head? hhead, isDigit_of_mem_paddedDigits hd⟩

theorem isFigure_of_mem_pointed {n p : ℕ} {c : Char} (h : c ∈ pointed n p) :
    isFigure c = true := by
  by_cases hc : c = '.'
  · rw [hc]
    rfl
  · rw [isFigure, isDigit_of_mem_paddedDigits ((mem_pointed hc n p).mp h), Bool.true_or]

theorem exists_nonzero_mem_pointed (n p : ℕ) :
    (∃ c ∈ pointed n p, c.isDigit = true ∧ c ≠ '0') ↔ n ≠ 0 := by
  rw [← exists_nonzero_mem_paddedDigits (p + 1)]
  constructor
  · rintro ⟨c, hc, hdigit, hne⟩
    have hpoint : c ≠ '.' := by
      rintro rfl
      cases hdigit
    exact ⟨c, (mem_pointed hpoint n p).mp hc, hne⟩
  · rintro ⟨c, hc, hne⟩
    have hdigit := isDigit_of_mem_paddedDigits hc
    have hpoint : c ≠ '.' := by
      rintro rfl
      cases hdigit
    exact ⟨c, (mem_pointed hpoint n p).mpr hc, hdigit, hne⟩

end Digits

end Decimal

section Shown

open Decimal

/-- What stands in front of the first digit of a text. -/
def front (s : String) : List Char := s.toList.takeWhile fun c => !c.isDigit

/-- The first number in a text: its digits, and a point among them. -/
def firstFigures (s : String) : List Char :=
  (s.toList.dropWhile fun c => !c.isDigit).takeWhile isFigure

/-- Where a minus sign stands in front of the first number in a text, one of the digits of the
number is not zero. -/
def SignEarned (s : String) : Prop :=
  '-' ∈ front s → ∃ c ∈ firstFigures s, c.isDigit = true ∧ c ≠ '0'

instance (s : String) : Decidable (SignEarned s) :=
  decidable_of_iff ('-' ∈ front s → (firstFigures s).any (fun c => c.isDigit && c != '0') = true)
    (by simp [SignEarned])

/-- A text whose first number is written with the coefficient `n`, behind a minus sign or not. -/
inductive Shows (s : String) (minus : Bool) (n : ℕ) : Prop
  | intro (before rest : List Char) (p : ℕ) (h : s.toList = before ++ (pointed n p ++ rest))
      (hbefore : ∀ c ∈ before, c.isDigit = false) (hminus : '-' ∈ before ↔ minus = true)
      (hrest : ∀ c ∈ rest.head?, isFigure c = false)

/-- Units and codes are set off by a blank. -/
theorem not_isFigure_of_mem_head?_word (word : String) :
    ∀ c ∈ (" " ++ word).toList.head?, isFigure c = false := by
  intro c hc
  rw [String.toList_append] at hc
  cases hc
  rfl

namespace Shows

variable {s : String} {minus : Bool} {n : ℕ}

theorem signEarned_iff (h : Shows s minus n) : SignEarned s ↔ (minus = true → n ≠ 0) := by
  obtain ⟨before, rest, p, hs, hbefore, hminus, hrest⟩ := h
  have hskip : ∀ c ∈ before, (!c.isDigit) = true := fun c hc => by rw [hbefore c hc]; rfl
  have hdigit : ∀ c ∈ (pointed n p ++ rest).head?, (!c.isDigit) = false := by
    obtain ⟨d, ds, hhead, hd⟩ := exists_head_pointed n p
    simp [hhead, hd]
  -- The front ends at the first digit, and the number ends where no figure follows.
  have hfront : front s = before := by rw [front, hs, takeWhile_append_of_head hskip hdigit]
  have hfigures : firstFigures s = pointed n p := by
    rw [firstFigures, hs, List.dropWhile_append_of_pos hskip, dropWhile_of_head hdigit,
      takeWhile_append_of_head (fun c hc => isFigure_of_mem_pointed hc) hrest]
  rw [SignEarned, hfront, hfigures, hminus, exists_nonzero_mem_pointed]

/-- Behind the number the text goes on with neither a digit nor a point. -/
theorem append (h : Shows s minus n) {t : String} (ht : ∀ c ∈ t.toList.head?, isFigure c = false) :
    Shows (s ++ t) minus n := by
  obtain ⟨before, rest, p, hs, hbefore, hminus, hrest⟩ := h
  refine .intro before (rest ++ t.toList) p ?_ hbefore hminus ?_
  · rw [String.toList_append, hs, List.append_assoc, List.append_assoc]
  · cases rest with
    | nil => exact ht
    | cons c rest => exact hrest

theorem append_word (h : Shows s minus n) (word : String) : Shows (s ++ " " ++ word) minus n := by
  rw [String.append_assoc]
  apply h.append
  exact not_isFigure_of_mem_head?_word word

/-- A mark in front of the number and its sign. -/
theorem behind (h : Shows s minus n) {mark : String}
    (hmark : ∀ c ∈ mark.toList, c.isDigit = false ∧ c ≠ '-') : Shows (mark ++ s) minus n := by
  obtain ⟨before, rest, p, hs, hbefore, hminus, hrest⟩ := h
  refine .intro (mark.toList ++ before) rest p ?_ ?_ ?_ hrest
  · rw [String.toList_append, hs, List.append_assoc]
  · intro c hc
    rcases List.mem_append.mp hc with hc | hc
    · exact (hmark c hc).1
    · exact hbefore c hc
  · rw [List.mem_append, ← hminus, or_iff_right]
    exact fun hc => (hmark _ hc).2 rfl

/-- A sign in front of a number that has none. -/
theorem signed (h : Shows s false n) (minus : Bool) :
    Shows ((if minus then "-" else "") ++ s) minus n := by
  obtain ⟨before, rest, p, hs, hbefore, hminus, hrest⟩ := h
  cases minus with
  | true =>
    refine .intro ('-' :: before) rest p ?_ ?_ ?_ hrest
    · rw [String.toList_append, hs]
      rfl
    · intro c hc
      rcases List.mem_cons.mp hc with rfl | hc
      · rfl
      · exact hbefore c hc
    · simp
  | false =>
    refine .intro before rest p ?_ hbefore hminus hrest
    rw [String.toList_append, hs]
    rfl

end Shows

theorem shows_signed (minus : Bool) (n p : ℕ) :
    Shows (String.ofList ((if minus then ['-'] else []) ++ pointed n p)) minus n := by
  refine .intro (if minus then ['-'] else []) [] p ?_ ?_ ?_ ?_
  · rw [String.toList_ofList, List.append_nil]
  · cases minus <;> simp
  · cases minus <;> simp
  · simp

theorem shows_rendered (a : Decimal) :
    Shows a.rendered a.shown.negative a.shown.coefficient :=
  shows_signed _ _ _

theorem shows_centsText {a : Decimal} (ha : a.scale ≤ 2) :
    Shows a.centsText a.negative a.cents := by
  rw [centsText_eq ha]
  exact shows_signed _ _ _

end Shown
end Reckoner
