import Mathlib
import Reckoner.Text.Blank
import Reckoner.Text.Case
/-!
Texts that are equal up to the case of ASCII letters. Main statement: they have one upper case, with
the blanks at their ends and without them.
-/
namespace Reckoner.Text

/-- What holds of the first 128 characters one by one holds of every ASCII character. -/
theorem of_ascii {P : Char → Prop} (h : ∀ n < 128, P (Char.ofNat n)) {c : Char}
    (hc : c.toNat < 128) : P c := by
  have hn := h c.toNat hc
  rwa [Char.ofNat_toNat] at hn

theorem toNat_lt_of_isUpper {c : Char} (h : c.isUpper = true) : c.toNat < 128 := by
  simp only [Char.isUpper, decide_eq_true_eq, UInt32.le_iff_toNat_le] at h
  exact Nat.lt_of_le_of_lt h.2 (by decide)

/-- A capital letter is as little a blank as its small letter, and both have one upper case. -/
theorem capital_settled {c : Char} (h : c.isUpper = true) :
    isBlank c.toLower = isBlank c ∧ upperChar c.toLower = upperChar c := by
  refine of_ascii (P := fun c => c.isUpper = true → isBlank c.toLower = isBlank c ∧
    upperChar c.toLower = upperChar c) ?_ (toNat_lt_of_isUpper h) h
  decide +kernel

theorem isBlank_toLower (c : Char) : isBlank c.toLower = isBlank c := by
  by_cases h : c.isUpper = true
  · exact (capital_settled h).1
  · rw [Char.toLower_eq_of_not_isUpper h]

theorem upperChar_toLower (c : Char) : upperChar c.toLower = upperChar c := by
  by_cases h : c.isUpper = true
  · exact (capital_settled h).2
  · rw [Char.toLower_eq_of_not_isUpper h]

section List

variable (cs : List Char)

theorem upperChars_map_toLower : upperChars (cs.map Char.toLower) = upperChars cs := by
  rw [upperChars, upperChars, List.flatMap_map]
  exact List.flatMap_congr fun c _ => upperChar_toLower c

theorem trimStart_map_toLower :
    trimStart (cs.map Char.toLower) = (trimStart cs).map Char.toLower := by
  rw [trimStart, trimStart, List.dropWhile_map]
  congr 2
  exact funext isBlank_toLower

theorem trimChars_map_toLower :
    trimChars (cs.map Char.toLower) = (trimChars cs).map Char.toLower := by
  rw [trimChars, trimStart_map_toLower, trimEnd, ← List.map_reverse, trimStart_map_toLower,
    ← List.map_reverse]
  rfl

end List

section Upper

variable {s t : String} (h : sameLetters s t = true)
include h

theorem upper_eq_of_sameLetters : upper s = upper t := by
  rw [upper, ← upperChars_map_toLower, beq_iff_eq.mp h, upperChars_map_toLower, upper]

/-- The case of ASCII letters is lost in upper case, and blanks have no case. -/
theorem upper_trim_eq_of_sameLetters : upper (trim s) = upper (trim t) := by
  apply upper_eq_of_sameLetters
  rw [sameLetters, trim, trim, String.toList_ofList, String.toList_ofList,
    ← trimChars_map_toLower, beq_iff_eq.mp h, trimChars_map_toLower, beq_self_eq_true]

end Upper

end Reckoner.Text
