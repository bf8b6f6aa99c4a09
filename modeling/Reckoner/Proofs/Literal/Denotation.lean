import Reckoner.Proofs.Decimal.Divided
import Reckoner.Proofs.Decimal.Reading
import Reckoner.Proofs.Gives
import Reckoner.Proofs.Literal.Spelling
/-!
What number literals stand for. Main statement: a number in ASCII digits for which there is room at
every step is read as the number that it stands for, and a text that is no number in ASCII digits is
refused.
-/
namespace Reckoner

namespace Decimal

/-- Whether a number is that of a decimal. -/
def Representable (x : ℚ) : Prop := ∃ a : Decimal, a.toRat = x

variable {x : ℚ}

theorem Representable.inRange (h : Representable x) : InRange x := by
  obtain ⟨a, rfl⟩ := h
  exact a.inRange_toRat

theorem Representable.nearest_eq (h : Representable x) : nearest x = x := by
  obtain ⟨a, rfl⟩ := h
  exact a.nearest_toRat

theorem representable_div {c : ℤ} {p : ℕ} (hc : |c| < 2 ^ 96) (hp : p ≤ 28) :
    Representable (c / 10 ^ p) := by
  have hlt : c.natAbs < 2 ^ 96 := by
    rw [Int.abs_eq_natAbs] at hc
    exact_mod_cast hc
  refine ⟨⟨decide (c < 0), c.natAbs, p, hlt, hp⟩, ?_⟩
  rw [toRat_eq_signed]
  congr 2
  show (if decide (c < 0) = true then -(c.natAbs : ℤ) else c.natAbs) = c
  split <;> simp only [decide_eq_true_eq] at * <;> omega

theorem scale_of_ofParts? {negative : Bool} {c places : ℕ} {a : Decimal}
    (h : ofParts? negative c places = some a) : a.scale = places := by
  unfold ofParts? at h
  split at h
  · cases h
    rfl
  · cases h

end Decimal

namespace NumberLiteral

open Decimal

/-- The power of ten in an exponent. -/
def Exponent.power (e : Exponent) : ℤ :=
  if e.sign = ['-'] then -(Nat.ofDigitChars 10 e.digits 0 : ℤ) else Nat.ofDigitChars 10 e.digits 0

/-- The power of ten for a letter. -/
def suffixPower (c : Char) : ℕ :=
  if c ∈ ['k', 'K'] then 3 else if c ∈ ['m', 'M'] then 6 else if c ∈ ['b', 'B'] then 9 else 12

/-- What a letter makes of the number in front of it. -/
def letterFactor (letter : Option Char) : ℚ := (letter.map fun c => (10 : ℚ) ^ suffixPower c).getD 1

namespace Spelling

variable (w : Spelling)

def isNegative : Bool := w.sign = ['-']

/-- The digits on either side of the point as one number. -/
def coefficient : ℕ := Nat.ofDigitChars 10 (w.whole ++ w.fraction) 0

def power : ℤ := (w.exponent.map Exponent.power).getD 0

/-- The number up to the exponent. -/
def scaled : ℚ :=
  signFactor w.isNegative * (w.coefficient / 10 ^ w.fraction.length) * 10 ^ w.power

/-- The number up to the letter for a power of a thousand. -/
def suffixed : ℚ := w.scaled * letterFactor w.suffix

/-- The number that is spelled. -/
def value : ℚ := if w.percent then w.suffixed / 100 else w.suffixed

/-- The digits as they are read, with one in front of the point. -/
def readable : List Char :=
  if (pointedDigits w.whole w.fraction).head? = some '.' then
    '0' :: pointedDigits w.whole w.fraction
  else pointedDigits w.whole w.fraction

/-- The digits in front of the point, a zero where there are none. -/
def front : List Char := if w.whole.isEmpty then ['0'] else w.whole

theorem front_ne_nil : w.front ≠ [] := by
  rw [front]
  split
  · exact List.cons_ne_nil _ _
  · next h => simpa using h

/-- A decimal with the point where the exponent puts it. -/
def moved? (a : Decimal) : Option Decimal :=
  match w.exponent with
  | none => some a
  | some e => do
    let n ← readExponent? e.digits
    if e.sign = ['-'] then a.lower n else a.raise n

theorem mantissa?_parts : mantissa? w.parts = (read? (w.sign ++ w.readable)).bind w.moved? := by
  refine congrArg (Option.bind (read? (w.sign ++ w.readable))) (funext fun a => ?_)
  rw [moved?, parts]
  cases w.exponent <;> rfl

end Spelling

section Digits

variable {w : Spelling} {whole fraction : List Char} {negative : Bool}

theorem read?_append {sign ds : List Char} (hsign : sign ∈ signs)
    (hds : ∀ c ∈ ds.head?, c ≠ '+' ∧ c ≠ '-') :
    read? (sign ++ ds) = readDigits (sign = ['-']) ds 0 0 false false := by
  simp only [signs, List.mem_cons, List.not_mem_nil, or_false] at hsign
  rcases hsign with rfl | rfl | rfl
  · rw [List.nil_append]
    unfold read?
    split
    · exact absurd rfl (hds '-' rfl).2
    · exact absurd rfl (hds '+' rfl).1
    · rfl
  · rfl
  · rfl

/-- In front of the point there has to be room for every digit. -/
theorem readDigits_pointedDigits (hne : whole ≠ []) (hpoint : '.' ∉ whole) :
    readDigits negative (pointedDigits whole fraction) 0 0 false false =
      if whole.all Char.isDigit = true ∧ Nat.ofDigitChars 10 whole 0 < 2 ^ 96 then
        readDigits negative fraction (Nat.ofDigitChars 10 whole 0) 0 true true
      else none := by
  have hseen : (false || !whole.isEmpty) = true := by simpa using hne
  -- Whether the point was read makes no difference where no digit is behind it.
  cases fraction with
  | nil =>
    rw [pointedDigits, List.isEmpty_nil, if_pos rfl]
    conv_lhs => rw [← List.append_nil whole]
    rw [readDigits_whole hpoint (by positivity), hseen]
    rfl
  | cons d fraction =>
    rw [pointedDigits, List.isEmpty_cons, if_neg Bool.false_ne_true,
      readDigits_whole hpoint (by positivity), hseen, readDigits_point]

section Script

variable (hw : w.Over Text.isScriptDigit)
include hw

theorem Spelling.Over.front : ∀ d ∈ w.front, Text.isScriptDigit d = true := by
  rw [Spelling.front]
  split
  · exact List.forall_mem_singleton.mpr (by decide +kernel)
  · exact hw.whole

theorem Spelling.Over.point_notMem_front : '.' ∉ w.front := fun h =>
  absurd (hw.front '.' h) (by decide +kernel)

theorem Spelling.Over.readable_eq : w.readable = pointedDigits w.front w.fraction := by
  have hpoint := hw.point_notMem_front
  rw [readable, Spelling.front] at *
  cases hwhole : w.whole with
  | nil =>
    have hne : w.fraction.isEmpty = false := by simpa [hwhole] using hw.ne_nil
    rw [pointedDigits, pointedDigits, hne]
    rfl
  | cons d ds =>
    have hd : d ≠ '.' := by
      rintro rfl
      exact hpoint (by simp [hwhole])
    rw [List.isEmpty_cons, if_neg Bool.false_ne_true, if_neg]
    rw [pointedDigits]
    split <;> simpa using hd

theorem Spelling.Over.not_sign_readable : ∀ c ∈ w.readable.head?, c ≠ '+' ∧ c ≠ '-' := by
  obtain ⟨d, ds, hfront⟩ := List.exists_cons_of_ne_nil w.front_ne_nil
  have hd := hw.front d (hfront ▸ List.mem_cons_self)
  rw [hw.readable_eq, hfront, pointedDigits]
  split <;> rintro c ⟨⟩ <;> exact not_sign_of_isScriptDigit hd

theorem Spelling.Over.read?_eq :
    read? (w.sign ++ w.readable) =
      if w.whole.all Char.isDigit = true ∧ Nat.ofDigitChars 10 w.whole 0 < 2 ^ 96 then
        readDigits w.isNegative w.fraction (Nat.ofDigitChars 10 w.whole 0) 0 true true
      else none := by
  rw [read?_append hw.sign hw.not_sign_readable, hw.readable_eq,
    readDigits_pointedDigits w.front_ne_nil hw.point_notMem_front, isNegative, Spelling.front]
  cases w.whole <;> rfl

end Script
end Digits

section Moved

/-- Whether a decimal stays one when its point is moved by so many places to the right. -/
structure Movable (a : Decimal) (power : ℤ) : Prop where
  places_le : a.scale - power ≤ 28
  power_le : power ≤ 28
  inRange : InRange (a.toRat * 10 ^ power)

variable {a : Decimal} {n : ℕ}

/-- To the left, a decimal only needs the places. -/
theorem movable_neg_iff : Movable a (-n) ↔ a.scale + n ≤ 28 := by
  refine ⟨fun h => ?_, fun h => ⟨by omega, by omega, ?_⟩⟩
  · have := h.places_le
    omega
  · have ha := a.inRange_toRat
    rw [InRange] at ha ⊢
    rw [zpow_neg, zpow_natCast, ← div_eq_mul_inv, abs_div]
    refine (div_le_self (abs_nonneg _) ?_).trans_lt ha
    rw [abs_of_pos (by positivity)]
    exact one_le_pow₀ (by norm_num)

/-- To the right, it needs to stay in range. -/
theorem movable_natCast_iff : Movable a n ↔ n ≤ 28 ∧ InRange (a.toRat * 10 ^ n) := by
  have hscale := a.scale_le
  constructor
  · rintro ⟨-, hpower, hrange⟩
    rw [zpow_natCast] at hrange
    exact ⟨by omega, hrange⟩
  · rintro ⟨hpower, hrange⟩
    refine ⟨by omega, by omega, ?_⟩
    rwa [zpow_natCast]

/-- The digits of the exponent are ASCII digits, if there is one. -/
def Spelling.PlainExponent (w : Spelling) : Prop :=
  ∀ e ∈ w.exponent, ∀ d ∈ e.digits, d.isDigit = true

variable {w : Spelling}

theorem map_toRat_moved?_iff (hw : ∀ e ∈ w.exponent, e.digits ≠ []) {x : ℚ} :
    (w.moved? a).map toRat = some x ↔
      w.PlainExponent ∧ Movable a w.power ∧ a.toRat * 10 ^ w.power = x := by
  rw [Spelling.moved?, Spelling.PlainExponent, Spelling.power]
  cases he : w.exponent with
  | none =>
    have hmovable : Movable a 0 := movable_natCast_iff.mpr ⟨by decide, by simp [a.inRange_toRat]⟩
    simp [hmovable]
  | some e =>
    rw [Option.map_some, Option.getD_some, Exponent.power]
    dsimp only [Option.bind_eq_bind]
    rw [readExponent?_eq (hw e he)]
    generalize Nat.ofDigitChars 10 e.digits 0 = n
    by_cases hread : e.digits.all Char.isDigit = true ∧ n < 2 ^ 32
    · have hplain : ∀ x ∈ some e, ∀ d ∈ x.digits, d.isDigit = true := by
        rintro _ ⟨⟩
        exact List.all_eq_true.mp hread.1
      rw [if_pos hread, Option.bind_some, and_iff_right hplain]
      split
      · rw [map_toRat_lower, Option.ite_none_right_eq_some, Option.some_inj, movable_neg_iff,
          zpow_neg, zpow_natCast, div_eq_mul_inv]
      · rw [map_toRat_raise, Option.ite_none_right_eq_some, Option.some_inj, movable_natCast_iff,
          zpow_natCast]
    · -- An exponent of that size leaves no room.
      rw [if_neg hread]
      refine iff_of_false nofun ?_
      rintro ⟨hplain, hmovable, -⟩
      refine hread ⟨List.all_eq_true.mpr (hplain e rfl), ?_⟩
      split at hmovable
      · have := movable_neg_iff.mp hmovable
        omega
      · have := movable_natCast_iff.mp hmovable
        omega

end Moved

section Mantissa

variable {w : Spelling}

theorem Spelling.Over.digits_ne_nil {digit : Char → Bool} (hw : w.Over digit) :
    ∀ e ∈ w.exponent, e.digits ≠ [] := fun e he => (hw.exponent e he).digits_ne_nil

/-- Which characters are digits matters only for those that stand in the places of digits. -/
theorem Spelling.Over.of_digits {p q : Char → Bool} (hw : w.Over p)
    (hwhole : ∀ d ∈ w.whole, q d = true) (hfraction : ∀ d ∈ w.fraction, q d = true)
    (hexponent : ∀ e ∈ w.exponent, ∀ d ∈ e.digits, q d = true) : w.Over q where
  sign := hw.sign
  ne_nil := hw.ne_nil
  whole := hwhole
  fraction := hfraction
  exponent e he :=
    { letter := (hw.exponent e he).letter
      sign := (hw.exponent e he).sign
      digits_ne_nil := (hw.exponent e he).digits_ne_nil
      digits := hexponent e he }
  gap := hw.gap
  suffix := hw.suffix
  gapAfter := hw.gapAfter

theorem ofDigitChars_le_append (ds es : List Char) :
    Nat.ofDigitChars 10 ds 0 ≤ Nat.ofDigitChars 10 (ds ++ es) 0 := by
  rw [Nat.ofDigitChars_append]
  exact le_ofDigitChars _ _

/-- A number that is read has ASCII digits, in its exponent as well. -/
theorem Spelling.Over.isDigit_of_mantissa {n : Decimal} (hw : w.Over Text.isScriptDigit)
    (h : mantissa? w.parts = some n) : w.Over Char.isDigit := by
  rw [Spelling.mantissa?_parts, hw.read?_eq] at h
  obtain ⟨a, ha, hmoved⟩ := Option.bind_eq_some_iff.mp h
  obtain ⟨hplain, -, -⟩ :=
    (map_toRat_moved?_iff hw.digits_ne_nil).mp (congrArg (Option.map toRat) hmoved)
  obtain ⟨⟨hwhole, -⟩, ha⟩ := Option.ite_none_right_eq_some.mp ha
  exact hw.of_digits (List.all_eq_true.mp hwhole) (isDigit_of_readDigits ha) hplain

end Mantissa

section Read

variable {w : Spelling} {s : String}

/-- Whether there is room for the number after every step in which it is read. The places do not let
an exponent go below -28 either. -/
structure Spelling.Fits (w : Spelling) : Prop where
  places_le : w.fraction.length - w.power ≤ 28
  power_le : w.power ≤ 28
  scaled : Representable w.scaled
  suffixed : Representable w.suffixed
  value : Representable w.value

theorem Spelling.Over.script (hw : w.Over Char.isDigit) : w.Over Text.isScriptDigit :=
  hw.of_digits (fun d hd => Text.isScriptDigit_of_isDigit d (hw.whole d hd))
    (fun d hd => Text.isScriptDigit_of_isDigit d (hw.fraction d hd))
    fun e he d hd => Text.isScriptDigit_of_isDigit d ((hw.exponent e he).digits d hd)

theorem exists_mantissa (hw : w.Over Char.isDigit) (hcoefficient : w.coefficient < 2 ^ 96)
    (hlength : w.fraction.length ≤ 28) (h : w.Fits) :
    ∃ n, mantissa? w.parts = some n ∧ n.toRat = w.scaled := by
  have hwhole := (ofDigitChars_le_append w.whole w.fraction).trans_lt hcoefficient
  -- There is room for every digit, so the reader comes to the end of them.
  have hread : read? (w.sign ++ w.readable) =
      ofParts? w.isNegative w.coefficient w.fraction.length := by
    have hvalue := hcoefficient
    rw [Spelling.coefficient, Nat.ofDigitChars_append] at hvalue
    rw [hw.script.read?_eq, if_pos ⟨List.all_eq_true.mpr hw.whole, hwhole⟩,
      ← List.append_nil w.fraction, readDigits_fraction hw.fraction (by simpa using hlength) hvalue,
      List.append_nil, ← Nat.ofDigitChars_append, Nat.zero_add]
    rfl
  obtain ⟨a, ha, hvalue⟩ :=
    Option.map_eq_some_iff.mp (map_toRat_ofParts? w.isNegative hcoefficient hlength)
  have hscaled : a.toRat * 10 ^ w.power = w.scaled := by rw [hvalue, Spelling.scaled]
  have hmovable : Movable a w.power := by
    refine ⟨?_, h.power_le, hscaled ▸ h.scaled.inRange⟩
    rw [scale_of_ofParts? ha]
    exact h.places_le
  have hmoved := (map_toRat_moved?_iff hw.digits_ne_nil).mpr
    ⟨fun e he => (hw.exponent e he).digits, hmovable, hscaled⟩
  rw [Spelling.mantissa?_parts, hread, ha]
  exact Option.map_eq_some_iff.mp hmoved

theorem suffixPower_le (c : Char) : suffixPower c ≤ 12 := by
  rw [suffixPower]
  split_ifs <;> decide

theorem multiplier_eq {c : Char} (hc : c ∈ suffixLetters) : multiplier c = 10 ^ suffixPower c := by
  have hall : suffixLetters.all (fun c => multiplier c == 10 ^ suffixPower c) = true := by decide
  exact beq_iff_eq.mp (List.all_eq_true.mp hall c hc)

/-- The text without the blanks at its ends, the commas and the underscores. -/
def cleaned (s : String) : List Char :=
  (Text.trimChars s.toList).filter fun c => !isSeparator c

/-- The step that a letter for a power of a thousand asks for. -/
def scaledUp (s : String) (suffix : Option Char) (n : Decimal) : Except Error Decimal :=
  match suffix with
  | none => .ok n
  | some c =>
    orError ((Decimal.ofNat? (multiplier c)).bind n.mul) (.overflow ("number literal '" ++ s ++ "'"))

theorem read_eq (s : String) : read s = (do
    let p ← orError (split (cleaned s)) (.invalidLiteral .number s)
    let n ← orError (mantissa? p) (.invalidLiteral .number s)
    (scaledUp s p.suffix n).map fun m => if p.percent then m.dividedBy hundred else m) := by
  refine congrArg (bind _) (funext fun p => congrArg (bind _) (funext fun n => ?_))
  cases p.suffix <;> rfl

theorem read_of_split {p : Parts} {n : Decimal} (hp : split (cleaned s) = some p)
    (hn : mantissa? p = some n) :
    read s = (scaledUp s p.suffix n).map fun m => if p.percent then m.dividedBy hundred else m := by
  rw [read_eq, hp, orError, ok_bind, hn, orError, ok_bind]

theorem scaledUp_ne_refused (suffix : Option Char) (n : Decimal) :
    scaledUp s suffix n ≠ .error (.invalidLiteral .number s) := by
  intro h
  cases suffix with
  | none => cases h
  | some c =>
    rw [scaledUp] at h
    cases hproduct : (ofNat? (multiplier c)).bind n.mul <;> rw [hproduct] at h <;> cases h

theorem exists_scaledUp (hw : w.Over Char.isDigit) {n : Decimal} (hn : n.toRat = w.scaled)
    (h : Representable w.suffixed) : ∃ m, scaledUp s w.suffix n = .ok m ∧ m.toRat = w.suffixed := by
  rw [Spelling.suffixed] at h ⊢
  cases hsuffix : w.suffix with
  | none => exact ⟨n, rfl, by simp [hn, letterFactor]⟩
  | some c =>
    rw [hsuffix] at h
    have hlt : multiplier c < 2 ^ 96 := by
      rw [multiplier_eq (hw.suffix c hsuffix)]
      exact (Nat.pow_le_pow_right (by decide) (suffixPower_le c)).trans_lt (by decide)
    obtain ⟨power, hpower, hvalue⟩ := exists_ofNat? hlt
    rw [multiplier_eq (hw.suffix c hsuffix)] at hvalue
    push_cast at hvalue
    have hproduct := map_toRat_mul n power
    rw [hn, hvalue] at hproduct
    obtain ⟨m, hm, hresult⟩ := exists_of_map_toRat hproduct h.inRange
    refine ⟨m, ?_, hresult.trans h.nearest_eq⟩
    rw [scaledUp, hpower, Option.bind_some, hm]
    rfl

theorem toRat_hundred : hundred.toRat = (100 : ℕ) := by
  obtain ⟨a, ha, hvalue⟩ := exists_ofNat? (n := 100) (by norm_num)
  rw [← hvalue, hundred, ofLiteral, show ofParts? false 100 0 = some a from ha, Option.getD_some]

theorem toRat_dividedBy_hundred {m : Decimal} (h : Representable (m.toRat / 100)) :
    (m.dividedBy hundred).toRat = m.toRat / 100 := by
  have hhundred : hundred.toRat = 100 := by exact_mod_cast toRat_hundred
  have hquotient : HasQuotient m hundred := hasQuotient_of_one_le m (by norm_num [hhundred])
  rw [hquotient.toRat_dividedBy, hhundred, h.nearest_eq]

theorem exists_read (hw : w.Over Char.isDigit) (hs : w.chars = cleaned s)
    (hcoefficient : w.coefficient < 2 ^ 96) (hlength : w.fraction.length ≤ 28) (h : w.Fits) :
    ∃ d, read s = .ok d ∧ d.toRat = w.value := by
  obtain ⟨n, hn, hscaled⟩ := exists_mantissa hw hcoefficient hlength h
  obtain ⟨m, hm, hsuffixed⟩ := exists_scaledUp (s := s) hw hscaled h.suffixed
  have hsplit := hs ▸ hw.script.split_chars
  have hvalue := h.value
  refine ⟨_, by rw [read_of_split hsplit hn, Spelling.parts, hm]; rfl, ?_⟩
  rw [Spelling.value, ← hsuffixed] at hvalue ⊢
  split
  · next hpercent =>
    rw [if_pos hpercent] at hvalue
    exact toRat_dividedBy_hundred hvalue
  · rfl

/-- A text is refused if it cannot be taken apart or its digits and exponent are not a decimal. -/
theorem read_eq_refused_iff (s : String) :
    read s = .error (.invalidLiteral .number s) ↔
      ∀ p, split (cleaned s) = some p → mantissa? p = none := by
  constructor
  · intro h p hp
    by_contra hread
    obtain ⟨n, hn⟩ := Option.ne_none_iff_exists'.mp hread
    rw [read_of_split hp hn] at h
    cases hscaled : scaledUp s p.suffix n with
    | ok m =>
      rw [hscaled] at h
      cases h
    | error e =>
      rw [hscaled] at h
      exact scaledUp_ne_refused p.suffix n (hscaled.trans (by cases h; rfl))
  · intro h
    rw [read_eq]
    cases hp : split (cleaned s) with
    | none => rfl
    | some p =>
      simp only [orError, ok_bind, h p hp]
      rfl

/-- Numbers in ASCII digits are read as the numbers that they stand for, as long as there is room
for them, and any text that is no number in ASCII digits is refused. -/
theorem read_spelled_or_refused (s : String) :
    (∀ w : Spelling, w.Over Char.isDigit → w.chars = cleaned s →
      (w.whole ++ w.fraction).length ≤ 28 → w.Fits → ∃ d, read s = .ok d ∧ d.toRat = w.value) ∧
    ((¬∃ w : Spelling, w.Over Char.isDigit ∧ w.chars = cleaned s) →
      read s = .error (.invalidLiteral .number s)) := by
  constructor
  · intro w hw hs hlength h
    -- Twenty-eight digits always have room.
    have hdigits : ∀ d ∈ w.whole ++ w.fraction, d.isDigit = true := fun d hd =>
      (List.mem_append.mp hd).elim (hw.whole d) (hw.fraction d)
    have hcoefficient : w.coefficient < 2 ^ 96 :=
      calc w.coefficient < 10 ^ (w.whole ++ w.fraction).length := ofDigitChars_lt hdigits
        _ ≤ 10 ^ 28 := Nat.pow_le_pow_right (by decide) hlength
        _ < 2 ^ 96 := by decide
    rw [List.length_append] at hlength
    exact exists_read hw hs hcoefficient (by omega) h
  · -- What can be taken apart is spelled in the digits of some scripts, and read in ASCII only.
    intro hforeign
    rw [read_eq_refused_iff]
    intro p hp
    obtain ⟨w, hw, hs, rfl⟩ := split_eq_some_iff.mp hp
    by_contra hread
    obtain ⟨n, hn⟩ := Option.ne_none_iff_exists'.mp hread
    exact hforeign ⟨w, hw.isDigit_of_mantissa hn, hs⟩

/-- A number with everything that a number can have. -/
theorem read_negative_percent :
    ∃ w : Spelling, w.Over Char.isDigit ∧ w.chars = cleaned " -1,234.5E-1 k %" ∧
      (w.whole ++ w.fraction).length ≤ 28 ∧ w.Fits ∧
        ∃ d, read " -1,234.5E-1 k %" = .ok d ∧ d.toRat = -1234.5 := by
  let w : Spelling := ⟨['-'], ['1', '2', '3', '4'], ['5'], some ⟨'E', ['-'], ['1']⟩, [' '],
    some 'k', [' '], true⟩
  have hw : w.Over Char.isDigit :=
    { sign := by decide
      ne_nil := Or.inl (by decide)
      whole := by simp [w]
      fraction := by simp [w]
      exponent := by
        rintro e ⟨⟩
        exact ⟨by decide, by decide, by decide, by simp⟩
      gap := by simp [w]; decide
      suffix := by
        rintro c ⟨⟩
        decide
      gapAfter := by simp [w]; decide }
  have hs : w.chars = cleaned " -1,234.5E-1 k %" := by decide
  have hscaled : w.scaled = -123.45 := by
    rw [Spelling.scaled, show w.isNegative = true by decide, show w.coefficient = 12345 by decide,
      show w.power = -1 by decide]
    norm_num [w]
  have hsuffixed : w.suffixed = -123450 := by
    rw [Spelling.suffixed, hscaled]
    norm_num [w, letterFactor, suffixPower]
  have hvalue : w.value = -1234.5 := by
    rw [Spelling.value, hsuffixed]
    norm_num [w]
  have hfits : w.Fits :=
    { places_le := by decide
      power_le := by decide
      scaled := ⟨⟨true, 12345, 2, by decide, by decide⟩, by rw [hscaled, toRat_eq]; norm_num⟩
      suffixed := ⟨⟨true, 123450, 0, by decide, by decide⟩, by rw [hsuffixed, toRat_eq]; norm_num⟩
      value := ⟨⟨true, 12345, 1, by decide, by decide⟩, by rw [hvalue, toRat_eq]; norm_num⟩ }
  have hlength : (w.whole ++ w.fraction).length ≤ 28 := by decide
  refine ⟨w, hw, hs, hlength, hfits, ?_⟩
  rw [← hvalue]
  exact (read_spelled_or_refused _).1 w hw hs hlength hfits

end Read

end NumberLiteral
end Reckoner
