import Mathlib.Data.List.DropRight
import Reckoner.Text.Blank
/-!
Texts without the blanks at their ends. Main statements: trimming leaves what is trimmed alone, and
it leaves nothing only of a text of blanks.
-/
namespace Reckoner.Text

/-- Neither the first nor the last character is a blank. -/
structure Trimmed (cs : List Char) : Prop where
  head? : ∀ c ∈ cs.head?, isBlank c = false
  getLast? : ∀ c ∈ cs.getLast?, isBlank c = false

theorem trimStart_eq_self {cs : List Char} (h : ∀ c ∈ cs.head?, isBlank c = false) :
    trimStart cs = cs := by
  cases cs with
  | nil => rfl
  | cons c cs => exact List.dropWhile_cons_of_neg (by simpa using h c rfl)

theorem not_isBlank_of_mem_head?_trimStart {cs : List Char} :
    ∀ c ∈ (trimStart cs).head?, isBlank c = false := by
  intro c hc
  have hhead := List.head?_dropWhile_not isBlank cs
  rwa [show (cs.dropWhile isBlank).head? = some c from hc] at hhead

theorem trimEnd_eq_self {cs : List Char} (h : ∀ c ∈ cs.getLast?, isBlank c = false) :
    trimEnd cs = cs := by
  rw [trimEnd, trimStart_eq_self, List.reverse_reverse]
  rwa [List.head?_reverse]

theorem Trimmed.trimChars_eq {cs : List Char} (h : Trimmed cs) : trimChars cs = cs := by
  rw [trimChars, trimStart_eq_self h.head?, trimEnd_eq_self h.getLast?]

theorem trimmed_of_forall {cs : List Char} (h : ∀ c ∈ cs, isBlank c = false) : Trimmed cs :=
  ⟨fun c hc => h c (List.mem_of_mem_head? hc), fun c hc => h c (List.mem_of_getLast? hc)⟩

theorem trimmed_trimChars (cs : List Char) : Trimmed (trimChars cs) := by
  constructor
  · -- What is cut off behind leaves the first character, if it leaves any.
    intro c hc
    have hprefix : trimChars cs <+: trimStart cs := List.rdropWhile_prefix isBlank _
    apply @not_isBlank_of_mem_head?_trimStart cs
    obtain ⟨rest, hrest⟩ := hprefix
    rw [← hrest, List.head?_append, hc]
    rfl
  · intro c hc
    rw [trimChars, trimEnd, List.getLast?_reverse] at hc
    exact not_isBlank_of_mem_head?_trimStart c hc

theorem trimChars_trimChars (cs : List Char) : trimChars (trimChars cs) = trimChars cs :=
  (trimmed_trimChars cs).trimChars_eq

@[simp] theorem trim_trim (s : String) : trim (trim s) = trim s := by
  rw [trim, trim, String.toList_ofList, trimChars_trimChars]

section Append

variable {cs : List Char} {c : Char} (hc : c ∈ cs) (hb : isBlank c = false)
include hc hb

theorem mem_trimStart : c ∈ trimStart cs := by
  rw [← List.takeWhile_append_dropWhile (p := isBlank) (l := cs), List.mem_append] at hc
  refine hc.resolve_left fun hfront => ?_
  rw [List.mem_takeWhile_imp hfront] at hb
  cases hb

theorem mem_trimEnd : c ∈ trimEnd cs :=
  List.mem_reverse.mpr (mem_trimStart (List.mem_reverse.mpr hc) hb)

/-- A character that is not a blank stays. -/
theorem mem_trimChars : c ∈ trimChars cs :=
  mem_trimEnd (mem_trimStart hc hb) hb

/-- Behind a character that is not a blank the end is cut off as it is alone. -/
theorem trimEnd_append (front : List Char) :
    trimEnd (front ++ cs) = front ++ trimEnd cs := by
  have hne : trimStart cs.reverse ≠ [] :=
    List.ne_nil_of_mem (mem_trimStart (List.mem_reverse.mpr hc) hb)
  rw [trimEnd, List.reverse_append, trimStart, List.dropWhile_append,
    if_neg (by simpa [trimStart] using hne), List.reverse_append, List.reverse_reverse]
  rfl

/-- Both ends are cut off in either order. -/
theorem trimChars_trimEnd : trimChars (trimEnd cs) = trimChars cs := by
  have hfront : trimEnd cs = cs.takeWhile isBlank ++ trimChars cs := by
    conv_lhs => rw [← List.takeWhile_append_dropWhile (p := isBlank) (l := cs)]
    exact trimEnd_append (mem_trimStart hc hb) hb _
  have hstart : trimStart (trimEnd cs) = trimStart (trimChars cs) := by
    rw [hfront, trimStart, List.dropWhile_append_of_pos fun d hd => List.mem_takeWhile_imp hd]
    rfl
  rw [trimChars, hstart]
  exact trimChars_trimChars cs

theorem trimChars_ne_nil : trimChars cs ≠ [] :=
  List.ne_nil_of_mem (mem_trimChars hc hb)

end Append

end Reckoner.Text
