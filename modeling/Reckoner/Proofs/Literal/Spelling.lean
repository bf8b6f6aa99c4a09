import Mathlib.Data.List.TakeWhile
import Reckoner.Literal.Number
import Reckoner.Proofs.Text.Digits
import Reckoner.Proofs.Text.Letters
import Reckoner.Proofs.Text.Trim
/-!
How number literals are spelled once the commas and underscores are gone. Main statement: a text is
taken apart exactly if it is the spelling of a number in digits of any script, and then into the
parts that the number is spelled with.
-/
namespace Reckoner

section Letters

namespace Text

/-- Only ASCII letters change their case here. -/
theorem toNat_lt_of_toLower {c : Char} (h : c.toLower.toNat < 128) : c.toNat < 128 := by
  by_cases hc : c.isUpper = true
  · exact toNat_lt_of_isUpper hc
  · rwa [Char.toLower_eq_of_not_isUpper hc] at h

/-- The numbers of the blanks. -/
def blankNumbers : List Nat :=
  [9, 10, 11, 12, 13, 32, 0x85, 0xA0, 0x1680, 0x2000, 0x2001, 0x2002, 0x2003, 0x2004, 0x2005,
    0x2006, 0x2007, 0x2008, 0x2009, 0x200A, 0x2028, 0x2029, 0x202F, 0x205F, 0x3000]

theorem toNat_mem_blankNumbers {c : Char} (h : isBlank c = true) : c.toNat ∈ blankNumbers := by
  simp only [isBlank, Bool.or_eq_true, Bool.and_eq_true, decide_eq_true_eq, beq_iff_eq] at h
  simp only [blankNumbers, List.mem_cons, List.not_mem_nil, or_false]
  omega

theorem digitRanges_miss_blanks :
    (digitRanges.all fun r => blankNumbers.all fun n => Nat.blt n r.1 || Nat.blt r.2 n) = true := by
  decide +kernel

theorem blankNumbers_miss_digits :
    (blankNumbers.all fun n => Nat.blt n 48 || Nat.blt 57 n) = true := by
  decide

/-- No script has a blank among its digits. -/
theorem isScriptDigit_of_isBlank {c : Char} (h : isBlank c = true) : isScriptDigit c = false := by
  have hc := toNat_mem_blankNumbers h
  have hascii := List.all_eq_true.mp blankNumbers_miss_digits _ hc
  rw [← Bool.not_eq_true, isScriptDigit, Bool.or_eq_true, not_or, List.any_eq_true]
  constructor
  · rw [isDigit_iff]
    rintro ⟨hl, hu⟩
    simp only [Bool.or_eq_true, Nat.blt_eq] at hascii
    exact hascii.elim (Nat.not_lt.mpr hl) (Nat.not_lt.mpr hu)
  · rintro ⟨r, hr, hin⟩
    have hmiss := List.all_eq_true.mp (List.all_eq_true.mp digitRanges_miss_blanks r hr) _ hc
    simp only [Bool.or_eq_true, Nat.blt_eq, Bool.and_eq_true, decide_eq_true_eq] at hmiss hin
    omega

end Text

namespace NumberLiteral

theorem ascii_exponent :
    ∀ n < 128, (Char.ofNat n).toLower = 'e' ↔ Char.ofNat n ∈ ['e', 'E'] := by
  decide +kernel

theorem toLower_eq_e_iff (c : Char) : c.toLower = 'e' ↔ c ∈ ['e', 'E'] := by
  rcases Nat.lt_or_ge c.toNat 128 with hc | hc
  · exact Text.of_ascii (P := fun c => c.toLower = 'e' ↔ c ∈ ['e', 'E']) ascii_exponent hc
  · refine iff_of_false (fun h => ?_) (fun h => ?_)
    · exact Nat.not_lt.mpr hc (Text.toNat_lt_of_toLower (h ▸ by decide))
    · rcases List.mem_pair.mp h with rfl | rfl <;> exact absurd hc (by decide)

/-- The letters for the powers of a thousand. -/
def suffixLetters : List Char := ['k', 'K', 'm', 'M', 'b', 'B', 't', 'T']

theorem ascii_suffix :
    ∀ n < 128, isSuffix (Char.ofNat n) = suffixLetters.contains (Char.ofNat n) := by
  decide +kernel

theorem isSuffix_iff (c : Char) : isSuffix c = true ↔ c ∈ suffixLetters := by
  constructor
  · intro h
    have hlower : c.toLower ∈ ['k', 'm', 'b', 't'] := List.contains_iff_mem.mp h
    have hascii : c.toNat < 128 := by
      apply Text.toNat_lt_of_toLower
      have hall : ['k', 'm', 'b', 't'].all (fun l => decide (l.toNat < 128)) = true := by decide
      exact of_decide_eq_true (List.all_eq_true.mp hall _ hlower)
    rwa [Text.of_ascii (P := fun c => isSuffix c = suffixLetters.contains c) ascii_suffix hascii,
      List.contains_iff_mem] at h
  · intro h
    have hall : suffixLetters.all isSuffix = true := by decide
    exact List.all_eq_true.mp hall c h

end NumberLiteral
end Letters

namespace NumberLiteral

/-- How an exponent is spelled. -/
structure Exponent where
  letter : Char
  sign : List Char
  digits : List Char

/-- How a number is spelled. -/
structure Spelling where
  sign : List Char
  whole : List Char
  /-- The digits behind the point. Where there are none, there is no point either. -/
  fraction : List Char
  exponent : Option Exponent
  gap : List Char
  suffix : Option Char
  gapAfter : List Char
  percent : Bool

def signs : List (List Char) := [[], ['+'], ['-']]

/-- Digits of the given kind, with a sign or without, behind a letter e in either case. -/
structure Exponent.Over (digit : Char → Bool) (e : Exponent) : Prop where
  letter : e.letter ∈ ['e', 'E']
  sign : e.sign ∈ signs
  digits_ne_nil : e.digits ≠ []
  digits : ∀ d ∈ e.digits, digit d = true

/-- Digits of the given kind, and around them what is part of a number. -/
structure Spelling.Over (digit : Char → Bool) (w : Spelling) : Prop where
  sign : w.sign ∈ signs
  ne_nil : w.whole ≠ [] ∨ w.fraction ≠ []
  whole : ∀ d ∈ w.whole, digit d = true
  fraction : ∀ d ∈ w.fraction, digit d = true
  exponent : ∀ e ∈ w.exponent, e.Over digit
  gap : ∀ c ∈ w.gap, Text.isBlank c = true
  suffix : ∀ c ∈ w.suffix, c ∈ suffixLetters
  gapAfter : ∀ c ∈ w.gapAfter, Text.isBlank c = true

def Exponent.chars (e : Exponent) : List Char := e.letter :: (e.sign ++ e.digits)

/-- Digits with a point among them, if any stand behind it. -/
def pointedDigits (whole fraction : List Char) : List Char :=
  if fraction.isEmpty then whole else whole ++ '.' :: fraction

def exponentChars (e : Option Exponent) : List Char := (e.map Exponent.chars).getD []

def percentChars (percent : Bool) : List Char := if percent then ['%'] else []

namespace Spelling

/-- The characters behind the exponent. -/
def tail (w : Spelling) : List Char :=
  w.gap ++ (w.suffix.toList ++ (w.gapAfter ++ percentChars w.percent))

/-- The characters that a number is spelled with. -/
def chars (w : Spelling) : List Char :=
  w.sign ++ (pointedDigits w.whole w.fraction ++ (exponentChars w.exponent ++ w.tail))

/-- What is left of a spelling when it is taken apart. -/
def parts (w : Spelling) : Parts where
  sign := w.sign
  digits := pointedDigits w.whole w.fraction
  exponent := w.exponent.map fun e => (e.sign, e.digits)
  suffix := w.suffix
  percent := w.percent

end Spelling

section TakenApart

variable {cs rest : List Char} {w : Spelling}

/-- Digits, with a point among them or none, do not go on with this character. -/
structure Ends (c : Char) : Prop where
  not_digit : Text.isScriptDigit c = false
  ne_point : c ≠ '.'

theorem not_sign_of_isScriptDigit {c : Char} (h : Text.isScriptDigit c = true) :
    c ≠ '+' ∧ c ≠ '-' := by
  constructor <;> rintro rfl <;> exact absurd h (by decide +kernel)

theorem signAtFront_append {sign : List Char} (hsign : sign ∈ signs)
    (hrest : ∀ c ∈ rest.head?, c ≠ '+' ∧ c ≠ '-') : signAtFront (sign ++ rest) = (sign, rest) := by
  simp only [signs, List.mem_cons, List.not_mem_nil, or_false] at hsign
  rcases hsign with rfl | rfl | rfl
  · cases rest with
    | nil => rfl
    | cons c rest =>
      have hc := hrest c rfl
      rw [List.nil_append, signAtFront]
      · simpa using hc.1
      · simpa using hc.2
  · rfl
  · rfl

theorem digitsAtFront_append {whole fraction : List Char} (hne : whole ≠ [] ∨ fraction ≠ [])
    (hwhole : ∀ d ∈ whole, Text.isScriptDigit d = true)
    (hfraction : ∀ d ∈ fraction, Text.isScriptDigit d = true) (hrest : ∀ c ∈ rest.head?, Ends c) :
    digitsAtFront (pointedDigits whole fraction ++ rest) =
      some (pointedDigits whole fraction, rest) := by
  have hend : ∀ c ∈ rest.head?, Text.isScriptDigit c = false := fun c hc => (hrest c hc).not_digit
  rw [digitsAtFront]
  -- The first run of digits ends at the point, or where all digits end if there is none.
  cases fraction with
  | nil =>
    have hempty : whole.isEmpty = false := by simpa using hne
    rw [pointedDigits, List.isEmpty_nil, if_pos rfl, takeWhile_append_of_head hwhole hend]
    dsimp only
    rw [List.drop_left, hempty]
    split
    · next rest => exact absurd rfl (hrest '.' rfl).ne_point
    · rfl
  | cons d fraction =>
    have hpoint : ∀ c ∈ ('.' :: (d :: fraction ++ rest)).head?, Text.isScriptDigit c = false := by
      rintro c ⟨⟩
      decide +kernel
    rw [pointedDigits, List.isEmpty_cons, if_neg Bool.false_ne_true, List.append_assoc,
      List.cons_append, takeWhile_append_of_head hwhole hpoint]
    dsimp only
    rw [List.drop_left]
    split
    · next heq =>
      cases heq
      rw [takeWhile_append_of_head hfraction hend, List.drop_left]
      rfl
    · next hother => exact absurd rfl (hother _)

theorem exponentAtFront_append {e : Exponent} (he : e.Over Text.isScriptDigit)
    (hrest : ∀ c ∈ rest.head?, Text.isScriptDigit c = false) :
    exponentAtFront (e.chars ++ rest) = (some (e.sign, e.digits), rest) := by
  have hempty : e.digits.isEmpty = false := by simpa using he.digits_ne_nil
  have hsign : ∀ c ∈ (e.digits ++ rest).head?, c ≠ '+' ∧ c ≠ '-' := by
    obtain ⟨d, ds, hds⟩ := List.exists_cons_of_ne_nil he.digits_ne_nil
    rw [hds]
    rintro c ⟨⟩
    exact not_sign_of_isScriptDigit (he.digits d (hds ▸ List.mem_cons_self))
  rw [Exponent.chars, List.cons_append, List.append_assoc, exponentAtFront,
    if_pos ((toLower_eq_e_iff _).mpr he.letter), signAtFront_append he.sign hsign]
  dsimp only
  rw [takeWhile_append_of_head he.digits hrest, List.drop_left, hempty]
  rfl

theorem exponentAtFront_eq_none (h : ∀ c ∈ rest.head?, c ∉ ['e', 'E']) :
    exponentAtFront rest = (none, rest) := by
  cases rest with
  | nil => rfl
  | cons c rest =>
    rw [exponentAtFront, if_neg]
    rw [toLower_eq_e_iff]
    exact h c rfl

theorem trimStart_append {gap : List Char} (hgap : ∀ c ∈ gap, Text.isBlank c = true)
    (hrest : ∀ c ∈ rest.head?, Text.isBlank c = false) : Text.trimStart (gap ++ rest) = rest := by
  rw [Text.trimStart, List.dropWhile_append_of_pos hgap, dropWhile_of_head hrest]

/-- Behind the digits stand blanks, the letter and the percent sign. -/
theorem Spelling.Over.mem_tail {digit : Char → Bool} (h : w.Over digit) {c : Char}
    (hc : c ∈ w.tail) : Text.isBlank c = true ∨ c ∈ suffixLetters ∨ c = '%' := by
  rw [tail, List.mem_append, List.mem_append, List.mem_append] at hc
  rcases hc with hc | hc | hc | hc
  · exact Or.inl (h.gap c hc)
  · exact Or.inr (Or.inl (h.suffix c (Option.mem_toList.mp hc)))
  · exact Or.inl (h.gapAfter c hc)
  · rw [percentChars] at hc
    split at hc
    · exact Or.inr (Or.inr (List.mem_singleton.mp hc))
    · cases hc

theorem ends_of_mem_letters {c : Char} (h : c ∈ 'e' :: 'E' :: '%' :: suffixLetters) : Ends c := by
  have hall : ('e' :: 'E' :: '%' :: suffixLetters).all
      (fun c => !Text.isScriptDigit c && c != '.') = true := by decide +kernel
  have hc := List.all_eq_true.mp hall c h
  rw [Bool.and_eq_true, Bool.not_eq_true', bne_iff_ne] at hc
  exact ⟨hc.1, hc.2⟩

theorem ends_of_isBlank {c : Char} (h : Text.isBlank c = true) : Ends c := by
  refine ⟨Text.isScriptDigit_of_isBlank h, ?_⟩
  rintro rfl
  exact absurd h (by decide)

variable {digit : Char → Bool} (hw : w.Over digit)
include hw

theorem Spelling.Over.ends_tail : ∀ c ∈ w.tail.head?, Ends c ∧ c ∉ ['e', 'E'] := by
  intro c hc
  rcases hw.mem_tail (List.mem_of_mem_head? hc) with h | h | rfl
  · refine ⟨ends_of_isBlank h, fun he => ?_⟩
    rcases List.mem_pair.mp he with rfl | rfl <;> exact absurd h (by decide)
  · have hall : suffixLetters.all (fun c => c != 'e' && c != 'E') = true := by decide
    have hletter := List.all_eq_true.mp hall c h
    refine ⟨ends_of_mem_letters (by simp [h]), fun he => ?_⟩
    rcases List.mem_pair.mp he with rfl | rfl <;> exact absurd hletter (by decide)
  · exact ⟨ends_of_mem_letters (by simp), by decide⟩

/-- Blanks, the letter and the percent sign are taken off one after the other. -/
theorem Spelling.Over.suffixAtFront_tail :
    (suffixAtFront (Text.trimStart w.tail)).1 = w.suffix ∧
      Text.trimStart (suffixAtFront (Text.trimStart w.tail)).2 = percentChars w.percent := by
  have hpercent : ∀ c ∈ (percentChars w.percent).head?, Text.isBlank c = false := by
    cases w.percent with
    | true =>
      rintro c ⟨⟩
      decide
    | false => nofun
  have hafter := trimStart_append hw.gapAfter hpercent
  rw [tail]
  cases hsuffix : w.suffix with
  | none =>
    -- Without a letter the two gaps are one, and the second trimming finds nothing to cut off.
    have hgaps : ∀ c ∈ w.gap ++ w.gapAfter, Text.isBlank c = true := fun c hc =>
      (List.mem_append.mp hc).elim (hw.gap c) (hw.gapAfter c)
    rw [Option.toList_none, List.nil_append, ← List.append_assoc, trimStart_append hgaps hpercent]
    cases w.percent <;> decide
  | some c =>
    have hc : c ∈ suffixLetters := hw.suffix c hsuffix
    have hblank : Text.isBlank c = false := by
      have hall : suffixLetters.all (fun c => !Text.isBlank c) = true := by decide
      simpa using List.all_eq_true.mp hall c hc
    rw [Option.toList_some, List.singleton_append,
      trimStart_append hw.gap (by rintro _ ⟨⟩; exact hblank), suffixAtFront,
      if_pos ((isSuffix_iff c).mpr hc)]
    exact ⟨rfl, hafter⟩

end TakenApart

section Split

variable {cs : List Char} {w : Spelling} {p : Parts}

/-- In front stands a digit or the point. -/
theorem Spelling.Over.mem_head?_digits {digit : Char → Bool} (hw : w.Over digit) {c : Char}
    {rest : List Char} (hc : c ∈ (pointedDigits w.whole w.fraction ++ rest).head?) :
    digit c = true ∨ c = '.' := by
  rw [pointedDigits] at hc
  cases hwhole : w.whole with
  | cons d ds =>
    have hd : c = d := by
      rw [hwhole] at hc
      split at hc <;> cases hc <;> rfl
    rw [hd]
    exact Or.inl (hw.whole d (hwhole ▸ List.mem_cons_self))
  | nil =>
    have hne : w.fraction.isEmpty = false := by simpa [hwhole] using hw.ne_nil
    rw [hwhole, hne] at hc
    cases hc
    exact Or.inr rfl

theorem Spelling.Over.split_chars (hw : w.Over Text.isScriptDigit) :
    split w.chars = some w.parts := by
  have htail := hw.ends_tail
  have hexponent : ∀ c ∈ (exponentChars w.exponent ++ w.tail).head?, Ends c := by
    cases he : w.exponent with
    | none => exact fun c hc => (htail c hc).1
    | some e =>
      rintro c ⟨⟩
      exact ends_of_mem_letters (List.mem_append_left _ (hw.exponent e he).letter)
  have hsign : ∀ c ∈ (pointedDigits w.whole w.fraction ++
      (exponentChars w.exponent ++ w.tail)).head?, c ≠ '+' ∧ c ≠ '-' := by
    intro c hc
    rcases hw.mem_head?_digits hc with hc | rfl
    · exact not_sign_of_isScriptDigit hc
    · decide
  have hfront : exponentAtFront (exponentChars w.exponent ++ w.tail) =
      (w.exponent.map fun e => (e.sign, e.digits), w.tail) := by
    cases he : w.exponent with
    | none => exact exponentAtFront_eq_none fun c hc => (htail c hc).2
    | some e =>
      exact exponentAtFront_append (hw.exponent e he) fun c hc => (htail c hc).1.not_digit
  obtain ⟨hsuffix, hpercent⟩ := hw.suffixAtFront_tail
  rw [split, chars, signAtFront_append hw.sign hsign]
  dsimp only
  rw [digitsAtFront_append hw.ne_nil hw.whole hw.fraction hexponent]
  dsimp only [Option.bind_eq_bind, Option.bind_some]
  rw [hfront]
  dsimp only
  rw [hsuffix, hpercent, parts]
  cases w.percent <;> rfl

section Back

variable {rest : List Char}

theorem eq_of_signAtFront {sign : List Char} (h : signAtFront cs = (sign, rest)) :
    sign ∈ signs ∧ cs = sign ++ rest := by
  unfold signAtFront at h
  split at h <;> cases h <;> exact ⟨by decide, rfl⟩

theorem eq_takeWhile_append (digit : Char → Bool) (cs : List Char) :
    cs = cs.takeWhile digit ++ cs.drop (cs.takeWhile digit).length := by
  conv_lhs =>
    rw [← List.take_append_drop (cs.takeWhile digit).length cs,
      ← List.prefix_iff_eq_take.mp (List.takeWhile_prefix digit)]

theorem exists_of_digitsAtFront {digits : List Char} (h : digitsAtFront cs = some (digits, rest)) :
    ∃ whole fraction, (whole ≠ [] ∨ fraction ≠ []) ∧
      (∀ d ∈ whole, Text.isScriptDigit d = true) ∧
      (∀ d ∈ fraction, Text.isScriptDigit d = true) ∧
      digits = pointedDigits whole fraction ∧ cs = digits ++ rest := by
  have hwhole : ∀ d ∈ cs.takeWhile Text.isScriptDigit, Text.isScriptDigit d = true :=
    fun d hd => List.mem_takeWhile_imp hd
  have hcs := eq_takeWhile_append Text.isScriptDigit cs
  rw [digitsAtFront] at h
  dsimp only at h
  split at h
  · next after hafter =>
    -- A point that no digit follows is left where it is.
    rw [hafter] at hcs
    split at h
    · split at h
      · cases h
      · next hne =>
        cases h
        exact ⟨_, [], Or.inl (by simpa using hne), hwhole, nofun, rfl, hcs⟩
    · next hne =>
      cases h
      refine ⟨_, _, Or.inr (by simpa using hne), hwhole, fun d hd => List.mem_takeWhile_imp hd,
        ?_, ?_⟩
      · rw [pointedDigits, if_neg hne]
      · rw [List.append_assoc, List.cons_append, ← eq_takeWhile_append]
        exact hcs
  · split at h
    · cases h
    · next hne =>
      cases h
      exact ⟨_, [], Or.inl (by simpa using hne), hwhole, nofun, rfl, hcs⟩

/-- A letter e that no digits follow is no exponent, and then nothing is taken. -/
theorem exists_of_exponentAtFront {exponent : Option (List Char × List Char)}
    (h : exponentAtFront cs = (exponent, rest)) :
    ∃ e : Option Exponent, (∀ x ∈ e, x.Over Text.isScriptDigit) ∧
      exponent = e.map (fun x => (x.sign, x.digits)) ∧ cs = exponentChars e ++ rest := by
  have hnone : ∀ {cs' : List Char}, (none, cs') = (exponent, rest) → cs' = cs →
      ∃ e : Option Exponent, (∀ x ∈ e, x.Over Text.isScriptDigit) ∧
        exponent = e.map (fun x => (x.sign, x.digits)) ∧ cs = exponentChars e ++ rest := by
    rintro _ ⟨⟩ rfl
    exact ⟨none, nofun, rfl, rfl⟩
  cases cs with
  | nil => exact hnone h rfl
  | cons c after =>
    rw [exponentAtFront] at h
    split at h
    · next hletter =>
      rcases hsign : signAtFront after with ⟨sign, digits⟩
      rw [hsign] at h
      dsimp only at h
      split at h
      · exact hnone h rfl
      · next hne =>
        cases h
        obtain ⟨hmem, rfl⟩ := eq_of_signAtFront hsign
        refine ⟨some ⟨c, sign, digits.takeWhile Text.isScriptDigit⟩, ?_, rfl, ?_⟩
        · rintro _ ⟨⟩
          exact ⟨(toLower_eq_e_iff c).mp hletter, hmem, by simpa using hne,
            fun d hd => List.mem_takeWhile_imp hd⟩
        · rw [exponentChars, Option.map_some, Option.getD_some, Exponent.chars, List.cons_append,
            List.append_assoc, ← eq_takeWhile_append]
    · exact hnone h rfl

theorem eq_of_suffixAtFront {suffix : Option Char} (h : suffixAtFront cs = (suffix, rest)) :
    (∀ c ∈ suffix, c ∈ suffixLetters) ∧ cs = suffix.toList ++ rest := by
  unfold suffixAtFront at h
  split at h
  · split at h
    · next hletter =>
      cases h
      refine ⟨?_, rfl⟩
      rintro c ⟨⟩
      exact (isSuffix_iff _).mp hletter
    · cases h
      exact ⟨nofun, rfl⟩
  · cases h
    exact ⟨nofun, rfl⟩

theorem exists_gap (cs : List Char) :
    ∃ gap : List Char, (∀ c ∈ gap, Text.isBlank c = true) ∧ cs = gap ++ Text.trimStart cs :=
  ⟨cs.takeWhile Text.isBlank, fun _ hc => List.mem_takeWhile_imp hc,
    List.takeWhile_append_dropWhile.symm⟩

theorem percentChars_of_split {sign digits : List Char} {exponent : Option (List Char × List Char)}
    {suffix : Option Char}
    (h : (match cs with
      | [] => some ⟨sign, digits, exponent, suffix, false⟩
      | ['%'] => some ⟨sign, digits, exponent, suffix, true⟩
      | _ => none) = some p) :
    ∃ percent, cs = percentChars percent ∧ p = ⟨sign, digits, exponent, suffix, percent⟩ := by
  split at h
  · cases h
    exact ⟨false, rfl, rfl⟩
  · cases h
    exact ⟨true, rfl, rfl⟩
  · cases h

/-- What is taken apart is a spelling of its parts. -/
theorem exists_spelling_of_split (h : split cs = some p) :
    ∃ w : Spelling, w.Over Text.isScriptDigit ∧ w.chars = cs ∧ w.parts = p := by
  rw [split] at h
  rcases hsign : signAtFront cs with ⟨sign, cs₁⟩
  rw [hsign] at h
  obtain ⟨⟨digits, cs₂⟩, hdigits, htail⟩ := Option.bind_eq_some_iff.mp h
  dsimp only at htail
  rcases hexponent : exponentAtFront cs₂ with ⟨exponent, cs₃⟩
  rw [hexponent] at htail
  dsimp only at htail
  rcases hsuffix : suffixAtFront (Text.trimStart cs₃) with ⟨suffix, cs₄⟩
  rw [hsuffix] at htail
  dsimp only at htail
  -- What every step has taken is one part of the spelling.
  obtain ⟨hs, rfl⟩ := eq_of_signAtFront hsign
  obtain ⟨whole, fraction, hne, hwhole, hfraction, rfl, rfl⟩ := exists_of_digitsAtFront hdigits
  obtain ⟨e, he, rfl, rfl⟩ := exists_of_exponentAtFront hexponent
  obtain ⟨hletter, hcs₄⟩ := eq_of_suffixAtFront hsuffix
  obtain ⟨percent, hpercent, rfl⟩ := percentChars_of_split htail
  obtain ⟨gap, hgap, hcs₃⟩ := exists_gap cs₃
  obtain ⟨gapAfter, hgapAfter, hafter⟩ := exists_gap cs₄
  refine ⟨⟨sign, whole, fraction, e, gap, suffix, gapAfter, percent⟩,
    ⟨hs, hne, hwhole, hfraction, he, hgap, hletter, hgapAfter⟩, ?_, rfl⟩
  rw [Spelling.chars, Spelling.tail, ← hpercent, ← hafter, ← hcs₄, ← hcs₃]

end Back

theorem split_eq_some_iff :
    split cs = some p ↔ ∃ w : Spelling, w.Over Text.isScriptDigit ∧ w.chars = cs ∧ w.parts = p := by
  refine ⟨exists_spelling_of_split, ?_⟩
  rintro ⟨w, hw, rfl, rfl⟩
  exact hw.split_chars

end Split

end NumberLiteral
end Reckoner
