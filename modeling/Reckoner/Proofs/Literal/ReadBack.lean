import Reckoner.Proofs.Decimal.Written
import Reckoner.Proofs.Literal.Denotation
/-!
Decimals read back from their written form. Main statements: the text of a decimal, also with a
letter for a power of a thousand, is read as the number that it shows; and what results show is read
as the number rounded to ten places, whose own text is the same.
-/
namespace Reckoner

namespace Decimal

open NumberLiteral

section Spelled

variable (a : Decimal)

/-- The digits of the written form, without the point. -/
def writtenDigits : List Char := paddedDigits (a.scale + 1) a.coefficient

/-- How many digits are written in front of the point. -/
def wholeLength : ℕ := a.writtenDigits.length - a.scale

/-- The written form as the spelling of a number, with a letter behind it or none. -/
def spelling (letter : Option Char) : Spelling where
  sign := if a.negative then ['-'] else []
  whole := a.writtenDigits.take a.wholeLength
  fraction := a.writtenDigits.drop a.wholeLength
  exponent := none
  gap := []
  suffix := letter
  gapAfter := []
  percent := false

theorem scale_lt_length : a.scale < a.writtenDigits.length :=
  le_length_paddedDigits (a.scale + 1) a.coefficient

theorem isDigit_of_mem_writtenDigits {c : Char} (h : c ∈ a.writtenDigits) : c.isDigit = true :=
  isDigit_of_mem_paddedDigits h

variable {a} {letter : Option Char}

theorem length_fraction_spelling : (a.spelling letter).fraction.length = a.scale := by
  have := a.scale_lt_length
  rw [spelling, List.length_drop, wholeLength]
  omega

theorem coefficient_spelling : (a.spelling letter).coefficient = a.coefficient := by
  rw [Spelling.coefficient, spelling, List.take_append_drop, writtenDigits, ofDigitChars_paddedDigits]

theorem pointedDigits_spelling :
    pointedDigits (a.spelling letter).whole (a.spelling letter).fraction =
      pointed a.coefficient a.scale := by
  have hlength : (a.spelling letter).fraction.length = a.scale := length_fraction_spelling
  rw [pointedDigits, pointed, ← writtenDigits]
  -- A decimal has a point exactly if it has places, that is, digits behind the point.
  by_cases hscale : a.scale = 0
  · rw [hscale, List.length_eq_zero_iff] at hlength
    rw [hlength, if_pos hscale, spelling, wholeLength, hscale]
    simp
  · have hne : (a.spelling letter).fraction.isEmpty = false := by
      rw [List.isEmpty_eq_false_iff, ← List.length_pos_iff]
      omega
    rw [hne, if_neg hscale]
    rfl

theorem over_spelling (hletter : ∀ c ∈ letter, c ∈ suffixLetters) :
    (a.spelling letter).Over Char.isDigit where
  sign := by
    show (if a.negative then ['-'] else []) ∈ signs
    cases a.negative <;> decide
  ne_nil := by
    left
    have := a.scale_lt_length
    rw [spelling, ← List.length_pos_iff, List.length_take, wholeLength]
    omega
  whole d hd := a.isDigit_of_mem_writtenDigits (List.mem_of_mem_take hd)
  fraction d hd := a.isDigit_of_mem_writtenDigits (List.mem_of_mem_drop hd)
  exponent := nofun
  gap := nofun
  suffix := hletter
  gapAfter := nofun

theorem chars_spelling : (a.spelling letter).chars = a.text.toList ++ letter.toList := by
  rw [Spelling.chars, pointedDigits_spelling, text, String.toList_ofList, List.append_assoc]
  simp [spelling, exponentChars, Spelling.tail, percentChars]

theorem scaled_spelling : (a.spelling letter).scaled = a.toRat := by
  have hsign : (a.spelling letter).isNegative = a.negative := by
    show decide ((if a.negative then ['-'] else []) = ['-']) = a.negative
    cases a.negative <;> decide
  rw [Spelling.scaled, hsign, coefficient_spelling, length_fraction_spelling, toRat_eq]
  simp [Spelling.power, spelling]

end Spelled
end Decimal

namespace NumberLiteral

open Decimal

section Clean

/-- Whether a character is left where it is in a number literal. -/
def isPlain (c : Char) : Bool := !Text.isBlank c && !isSeparator c

theorem cleaned_ofList {cs : List Char} (h : ∀ c ∈ cs, isPlain c = true) :
    cleaned (String.ofList cs) = cs := by
  have hplain : ∀ c ∈ cs, Text.isBlank c = false ∧ (!isSeparator c) = true := fun c hc => by
    simpa [isPlain] using h c hc
  have htrim : Text.Trimmed cs :=
    ⟨fun c hc => (hplain c (List.mem_of_mem_head? hc)).1,
      fun c hc => (hplain c (List.mem_of_mem_getLast? hc)).1⟩
  rw [cleaned, String.toList_ofList, htrim.trimChars_eq]
  exact List.filter_eq_self.mpr fun c hc => (hplain c hc).2

theorem ascii_figures :
    ∀ n < 128, isFigure (Char.ofNat n) = true → isPlain (Char.ofNat n) = true := by
  decide +kernel

theorem isPlain_of_isFigure {c : Char} (h : isFigure c = true) : isPlain c = true := by
  have hascii : c.toNat < 128 := by
    rw [isFigure, Bool.or_eq_true, beq_iff_eq] at h
    rcases h with h | rfl
    · have := (isDigit_iff.mp h).2
      omega
    · decide
  exact Text.of_ascii (P := fun c => isFigure c = true → isPlain c = true) ascii_figures hascii h

theorem isPlain_of_mem_chars {a : Decimal} {letter : Option Char}
    (hletter : ∀ c ∈ letter, c ∈ suffixLetters) :
    ∀ c ∈ a.text.toList ++ letter.toList, isPlain c = true := by
  intro c hc
  rw [List.mem_append, text, String.toList_ofList, List.mem_append] at hc
  rcases hc with (hc | hc) | hc
  · have : c = '-' := by
      split at hc
      · exact List.mem_singleton.mp hc
      · cases hc
    rw [this]
    decide
  · exact isPlain_of_isFigure (isFigure_of_mem_pointed hc)
  · have hall : suffixLetters.all isPlain = true := by decide
    exact List.all_eq_true.mp hall c (hletter c (Option.mem_toList.mp hc))

end Clean
end NumberLiteral

namespace Decimal

open NumberLiteral

section ReadBack

variable {a : Decimal} {letter : Option Char}

/-- The text of a decimal, with a letter behind it, is read as the number that it shows. -/
theorem read_text_append (hletter : ∀ c ∈ letter, c ∈ suffixLetters)
    (h : Representable (a.toRat * letterFactor letter)) :
    ∃ d, NumberLiteral.read (String.ofList (a.text.toList ++ letter.toList)) = .ok d ∧
      d.toRat = a.toRat * letterFactor letter := by
  have hover := over_spelling (a := a) hletter
  have hs : (a.spelling letter).chars =
      cleaned (String.ofList (a.text.toList ++ letter.toList)) := by
    rw [chars_spelling, cleaned_ofList (isPlain_of_mem_chars hletter)]
  have hsuffixed : (a.spelling letter).suffixed = a.toRat * letterFactor letter := by
    rw [Spelling.suffixed, scaled_spelling]
    rfl
  have hvalue : (a.spelling letter).value = a.toRat * letterFactor letter := by
    rw [Spelling.value, hsuffixed]
    rfl
  have hplaces : (a.spelling letter).fraction.length ≤ 28 := by
    rw [length_fraction_spelling]
    exact a.scale_le
  have hfits : (a.spelling letter).Fits :=
    { places_le := by
        rw [show (a.spelling letter).power = 0 from rfl]
        omega
      power_le := by
        rw [show (a.spelling letter).power = 0 from rfl]
        decide
      scaled := ⟨a, scaled_spelling.symm⟩
      suffixed := hsuffixed ▸ h
      value := hvalue ▸ h }
  rw [← hvalue]
  refine exists_read hover hs ?_ hplaces hfits
  rw [coefficient_spelling]
  exact a.coefficient_lt

theorem read_text (a : Decimal) : ∃ d, NumberLiteral.read a.text = .ok d ∧ d.toRat = a.toRat := by
  have h := @read_text_append a none nofun ⟨a, by simp [letterFactor]⟩
  simpa [letterFactor] using h

end ReadBack

section Canonical

theorem getLast?_toDigits (n : ℕ) : (Nat.toDigits 10 n).getLast? = some (n % 10).digitChar := by
  rw [Nat.toDigits_eq_if (by decide)]
  split
  · next h => rw [Nat.mod_eq_of_lt h, List.getLast?_singleton]
  · rw [List.getLast?_concat]

/-- The last character of the written form is the last digit of the coefficient. -/
theorem getLast?_pointed (n p : ℕ) : (pointed n p).getLast? = some (n % 10).digitChar := by
  have hpadded : (paddedDigits (p + 1) n).getLast? = some (n % 10).digitChar := by
    rw [paddedDigits, List.getLast?_append, getLast?_toDigits, Option.some_or]
  have hlength := le_length_paddedDigits (p + 1) n
  rw [pointed]
  split
  · exact hpadded
  · rw [List.getLast?_append, List.getLast?_cons, List.getLast?_drop, if_neg (by omega), hpadded]
    rfl

theorem dropZeros_stops (c s : ℕ) : (dropZeros c s).2 = 0 ∨ (dropZeros c s).1 % 10 ≠ 0 := by
  induction s generalizing c with
  | zero => exact Or.inl rfl
  | succ s ih =>
    rw [dropZeros]
    split
    · exact ih (c / 10)
    · next h => exact Or.inr h

variable (x : Decimal)

/-- Behind the point no zero is left at the end. -/
theorem shown_stops : x.shown.scale = 0 ∨ x.shown.coefficient % 10 ≠ 0 := by
  rw [shown, Decimal.normalize]
  split
  · exact Or.inl rfl
  · exact dropZeros_stops _ _

theorem scale_ne_zero_of_point {a : Decimal} (h : '.' ∈ a.text.toList) : a.scale ≠ 0 := by
  intro hscale
  rw [text, String.toList_ofList, List.mem_append, hscale, pointed, if_pos rfl] at h
  rcases h with h | h
  · split at h
    · exact absurd (List.mem_singleton.mp h) (by decide)
    · cases h
  · exact absurd (isDigit_of_mem_paddedDigits h) (by decide)

theorem getLast?_rendered (h : '.' ∈ x.rendered.toList) : x.rendered.toList.getLast? ≠ some '0' := by
  have hdigit : ∀ k < 10, Nat.digitChar k = '0' → k = 0 := by decide
  have hlast := x.shown_stops.resolve_left (scale_ne_zero_of_point h)
  rw [show x.rendered = x.shown.text from rfl, text, String.toList_ofList, List.getLast?_append,
    getLast?_pointed, Option.some_or, Ne, Option.some_inj]
  exact fun hzero => hlast (hdigit _ (Nat.mod_lt _ (by decide)) hzero)

theorem rendered_ne_minus_zero : x.rendered ≠ "-0" := by
  intro h
  have hzero : "-0" = String.ofList ((if true then ['-'] else []) ++ pointed 0 0) := by decide
  rw [hzero] at h
  obtain ⟨hminus, hcoefficient, -⟩ := signed_pointed_inj.mp (String.ofList_inj.mp h)
  exact coefficient_shown_ne_zero hminus hcoefficient

/-- What results show is read as the number rounded to ten places, a half to the even neighbour, and
shown as the same text again. It has no zero at the end behind a point and is never a zero with a
sign. -/
theorem read_rendered :
    (∃ d, NumberLiteral.read x.rendered = .ok d ∧
      d.toRat = halfEven (x.toRat * 10 ^ 10) / 10 ^ 10 ∧ d.rendered = x.rendered) ∧
    ('.' ∈ x.rendered.toList → x.rendered.toList.getLast? ≠ some '0') ∧ x.rendered ≠ "-0" := by
  refine ⟨?_, x.getLast?_rendered, x.rendered_ne_minus_zero⟩
  obtain ⟨d, hd, hvalue⟩ := read_text x.shown
  have hrounded : d.toRat = halfEven (x.toRat * 10 ^ 10) / 10 ^ 10 := by
    rw [hvalue, shown, toRat_normalize, toRat_roundPlaces_toEven x (by norm_num)]
  refine ⟨d, hd, hrounded, ?_⟩
  -- What is rounded already is not changed by being rounded again.
  rw [rendered_eq, rendered_eq, renderedRat_inj, hrounded, div_mul_cancel₀ _ (by positivity),
    halfEven_intCast]

end Canonical
end Decimal
end Reckoner
