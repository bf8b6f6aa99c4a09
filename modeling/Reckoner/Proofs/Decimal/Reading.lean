import Reckoner.Proofs.Decimal.Product
import Reckoner.Proofs.Text.Digits
/-!
Decimals as they are read from their digits. Main statements: digits for which there is room are
read as the number that they stand for; behind the point, nothing but digits is read; and an
exponent moves the point without rounding.
-/
namespace Reckoner.Decimal

section Digits

/-- The digit of a number that a character is. -/
def digitOf (c : Char) : ℕ := c.toNat - '0'.toNat

theorem digit?_of_isDigit {c : Char} (h : c.isDigit = true) : digit? c = some (digitOf c) :=
  if_pos h

theorem digit?_of_not_isDigit {c : Char} (h : ¬c.isDigit = true) : digit? c = none := if_neg h

theorem ofDigitChars_cons (d : Char) (ds : List Char) (c : ℕ) :
    Nat.ofDigitChars 10 (d :: ds) c = Nat.ofDigitChars 10 ds (c * 10 + digitOf d) := by
  rw [Nat.ofDigitChars_cons, mul_comm 10 c, digitOf]

theorem le_ofDigitChars (ds : List Char) (c : ℕ) : c ≤ Nat.ofDigitChars 10 ds c := by
  rw [Nat.ofDigitChars_eq_ofDigitChars_zero]
  exact (Nat.le_mul_of_pos_left c (by positivity)).trans (Nat.le_add_right _ _)

theorem ofDigitChars_lt {ds : List Char} (hds : ∀ d ∈ ds, d.isDigit = true) :
    Nat.ofDigitChars 10 ds 0 < 10 ^ ds.length := by
  induction ds with
  | nil => exact Nat.one_pos
  | cons d ds ih =>
    have hd : digitOf d ≤ 9 :=
      Nat.sub_le_of_le_add (isDigit_iff.mp (hds d List.mem_cons_self)).2
    have hrest := ih fun e he => hds e (List.mem_cons_of_mem _ he)
    rw [ofDigitChars_cons, Nat.ofDigitChars_eq_ofDigitChars_zero, List.length_cons, pow_succ]
    nlinarith

variable {negative seen : Bool} {c s : ℕ} {d : Char} {ds rest : List Char}

theorem readDigits_digit_whole (hd : d.isDigit = true) :
    readDigits negative (d :: rest) c s false seen =
      if c * 10 + digitOf d < 2 ^ 96 then
        readDigits negative rest (c * 10 + digitOf d) s false true
      else none := by
  rw [readDigits, digit?_of_isDigit hd]
  rfl

theorem readDigits_digit_fraction (hd : d.isDigit = true) :
    readDigits negative (d :: rest) c s true seen =
      if s = 28 ∨ 2 ^ 96 ≤ c * 10 + digitOf d then readRounded negative c s (digitOf d) rest
      else readDigits negative rest (c * 10 + digitOf d) (s + 1) true true := by
  rw [readDigits, digit?_of_isDigit hd]
  simp only [Bool.true_and, beq_iff_eq, if_true]
  split_ifs
  · rfl
  · omega
  · omega
  · rfl
  · rfl
  · omega

theorem readDigits_point :
    readDigits negative ('.' :: rest) c s false seen = readDigits negative rest c s true seen := by
  rw [readDigits, digit?_of_not_isDigit (by decide)]
  exact if_pos ⟨rfl, rfl⟩

/-- In front of the point there has to be room for every digit. -/
theorem readDigits_whole (hpoint : '.' ∉ ds) (hc : c < 2 ^ 96) :
    readDigits negative (ds ++ rest) c s false seen =
      if ds.all Char.isDigit = true ∧ Nat.ofDigitChars 10 ds c < 2 ^ 96 then
        readDigits negative rest (Nat.ofDigitChars 10 ds c) s false (seen || !ds.isEmpty)
      else none := by
  induction ds generalizing c seen with
  | nil =>
    rw [List.nil_append, Nat.ofDigitChars_nil, if_pos ⟨rfl, hc⟩, List.isEmpty_nil, Bool.not_true,
      Bool.or_false]
  | cons d ds ih =>
    rw [List.mem_cons, not_or] at hpoint
    rw [List.cons_append]
    by_cases hd : d.isDigit = true
    · rw [readDigits_digit_whole hd, ofDigitChars_cons]
      rcases Nat.lt_or_ge (c * 10 + digitOf d) (2 ^ 96) with hlt | hle
      · rw [if_pos hlt, ih hpoint.2 hlt]
        simp [hd]
      · have hvalue := hle.trans (le_ofDigitChars ds (c * 10 + digitOf d))
        rw [if_neg (Nat.not_lt.mpr hle), if_neg fun h => Nat.not_lt.mpr hvalue h.2]
    · have hall : ¬(d :: ds).all Char.isDigit = true := by simp [hd]
      have hnone : ¬(d = '.' ∧ false = false) := fun h => hpoint.1 h.1.symm
      rw [readDigits, digit?_of_not_isDigit hd]
      exact (if_neg hnone).trans (if_neg fun h => hall h.1).symm

/-- Behind the point, digits are read as long as there is room. -/
theorem readDigits_fraction (hds : ∀ d ∈ ds, d.isDigit = true) (hs : s + ds.length ≤ 28)
    (hvalue : Nat.ofDigitChars 10 ds c < 2 ^ 96) :
    readDigits negative (ds ++ rest) c s true seen =
      readDigits negative rest (Nat.ofDigitChars 10 ds c) (s + ds.length) true
        (seen || !ds.isEmpty) := by
  induction ds generalizing c s seen with
  | nil => simp
  | cons d ds ih =>
    rw [List.length_cons] at hs
    rw [ofDigitChars_cons] at hvalue
    have hroom := (le_ofDigitChars ds (c * 10 + digitOf d)).trans_lt hvalue
    rw [List.cons_append, readDigits_digit_fraction (hds d List.mem_cons_self), if_neg (by omega),
      ih (fun e he => hds e (List.mem_cons_of_mem _ he)) (by omega) hvalue, ofDigitChars_cons,
      List.length_cons, Nat.add_right_comm, ← Nat.add_assoc]
    simp

theorem isDigit_of_readRounded {n : ℕ} {a : Decimal}
    (h : readRounded negative c s n rest = some a) : ∀ d ∈ rest, d.isDigit = true := by
  obtain ⟨hrest, -⟩ := Option.ite_none_right_eq_some.mp h
  exact List.all_eq_true.mp hrest

/-- Behind the point, only digits are read. -/
theorem isDigit_of_readDigits {a : Decimal} (h : readDigits negative ds c s true seen = some a) :
    ∀ d ∈ ds, d.isDigit = true := by
  induction ds generalizing c s seen with
  | nil => exact nofun
  | cons d ds ih =>
    by_cases hd : d.isDigit = true
    · rw [readDigits_digit_fraction hd] at h
      refine List.forall_mem_cons.mpr ⟨hd, ?_⟩
      split at h
      · -- The number is rounded at `d`, and the rest is looked at all at once.
        exact isDigit_of_readRounded h
      · exact ih h
    · rw [readDigits, digit?_of_not_isDigit hd] at h
      simp at h

end Digits

section Exponent

/-- The digits of an exponent have to be ASCII digits. -/
theorem mapM_digit? (ds : List Char) :
    ds.mapM digit? = if ds.all Char.isDigit = true then some (ds.map digitOf) else none := by
  induction ds with
  | nil => rfl
  | cons d ds ih =>
    rw [List.mapM_cons, ih]
    by_cases hd : d.isDigit = true
    · rw [digit?_of_isDigit hd, List.all_cons, hd, Bool.true_and]
      split <;> rfl
    · have hall : ¬(d :: ds).all Char.isDigit = true := by simp [hd]
      rw [digit?_of_not_isDigit hd, if_neg hall]
      rfl

theorem readExponent?_eq {ds : List Char} (hne : ds ≠ []) :
    readExponent? ds =
      if ds.all Char.isDigit = true ∧ Nat.ofDigitChars 10 ds 0 < 2 ^ 32 then
        some (Nat.ofDigitChars 10 ds 0)
      else none := by
  have hvalue : (ds.map digitOf).foldl (fun n d => n * 10 + d) 0 = Nat.ofDigitChars 10 ds 0 := by
    rw [List.foldl_map, Nat.ofDigitChars_eq_foldl]
    simp only [mul_comm 10, digitOf]
  rw [readExponent?, mapM_digit?]
  by_cases hds : ds.all Char.isDigit = true
  · rw [if_pos hds]
    cases hmap : ds.map digitOf with
    | nil => exact absurd (List.map_eq_nil_iff.mp hmap) hne
    | cons v vs =>
      rw [hmap] at hvalue
      simp only [hds, hvalue, true_and]
  · rw [if_neg hds, if_neg fun h => hds h.1]

variable (a : Decimal) {n : ℕ}

theorem map_toRat_withPlaces? (n : ℕ) : (a.withPlaces? n).map toRat =
    if n ≤ 28 then some (signFactor a.negative * (a.coefficient / 10 ^ n)) else none := by
  rw [withPlaces?]
  split
  · rw [Option.map_some, toRat_eq]
  · rfl

theorem map_toRat_lower (n : ℕ) : (a.lower n).map toRat =
    if a.scale + n ≤ 28 then some (a.toRat / 10 ^ n) else none := by
  rw [lower, map_toRat_withPlaces?, toRat_eq, pow_add]
  congr 2
  field_simp

/-- As long as it stays in range, a decimal stays one when its point is moved to the right. -/
theorem nearest_mul_pow (h : InRange (a.toRat * 10 ^ n)) :
    nearest (a.toRat * 10 ^ n) = a.toRat * 10 ^ n := by
  rcases Nat.le_total n a.scale with hle | hle
  · obtain ⟨k, hk⟩ := Nat.exists_eq_add_of_le hle
    have hscaled : a.toRat * 10 ^ n * 10 ^ k = a.signed := by
      rw [mul_assoc, ← pow_add, ← hk, toRat_mul_pow]
    have hplaces : k ≤ 28 := by
      have := a.scale_le
      omega
    apply nearest_eq_self hplaces hscaled
    rw [abs_signed]
    exact_mod_cast a.coefficient_lt
  · obtain ⟨k, rfl⟩ := Nat.exists_eq_add_of_le hle
    have hwhole : a.toRat * 10 ^ (a.scale + k) = ((a.signed * 10 ^ k : ℤ) : ℚ) := by
      rw [pow_add, ← mul_assoc, toRat_mul_pow]
      push_cast
      rfl
    rw [hwhole] at h ⊢
    exact nearest_intCast (intCast_lt_limit.mp h)

theorem nearest?_mul_pow (n : ℕ) : nearest? (a.toRat * 10 ^ n) =
    if InRange (a.toRat * 10 ^ n) then some (a.toRat * 10 ^ n) else none := by
  rw [nearest?]
  split
  · next h => rw [nearest_mul_pow a h]
  · rfl

theorem InRange.mul_pow_of_le {x : ℚ} {m n : ℕ} (h : InRange (x * 10 ^ n)) (hmn : m ≤ n) :
    InRange (x * 10 ^ m) := by
  rw [InRange, abs_mul, abs_of_pos (show (0 : ℚ) < 10 ^ _ by positivity)] at h ⊢
  exact (scaled_mono hmn).trans_lt h

theorem toRat_tenTo (n : ℕ) : (tenTo n).toRat = 10 ^ min n 19 := by
  have hlt : 10 ^ min n 19 < 2 ^ 96 :=
    (Nat.pow_le_pow_right (by decide) (Nat.min_le_right n 19)).trans_lt (by decide)
  obtain ⟨b, hb, hvalue⟩ := exists_ofNat? hlt
  rw [tenTo, hb, Option.getD_some, hvalue]
  push_cast
  rfl

/-- A product with a power of ten goes by way of the nineteenth power, and neither step rounds. -/
theorem map_toRat_timesTenTo (hn : n ≤ 28) :
    (a.timesTenTo n).map toRat = nearest? (a.toRat * 10 ^ n) := by
  have hfirst := map_toRat_mul a (tenTo n)
  rw [toRat_tenTo, nearest?_mul_pow] at hfirst
  rw [timesTenTo, if_neg (Nat.not_lt.mpr hn), nearest?_mul_pow]
  by_cases hrange : InRange (a.toRat * 10 ^ min n 19)
  · rw [if_pos hrange] at hfirst
    obtain ⟨b, hb, hvalue⟩ := Option.map_eq_some_iff.mp hfirst
    rw [hb]
    dsimp only
    rcases le_or_gt n 19 with hle | hlt
    · rw [Nat.min_eq_left hle] at hrange hvalue
      rw [if_pos hle, if_pos hrange, Option.map_some, toRat_normalize, hvalue]
    · rw [Nat.min_eq_right hlt.le] at hvalue
      have hpow : b.toRat * 10 ^ (n - 19) = a.toRat * 10 ^ n := by
        rw [hvalue, mul_assoc, ← pow_add, Nat.add_sub_cancel' hlt.le]
      have hsecond := map_toRat_mul b (tenTo (n - 19))
      rw [toRat_tenTo, Nat.min_eq_left (by omega), nearest?_mul_pow, hpow] at hsecond
      rw [if_neg (Nat.not_le.mpr hlt), map_toRat_map_normalize, hsecond]
  · rw [if_neg hrange, Option.map_eq_none_iff] at hfirst
    rw [hfirst, if_neg fun h => hrange (h.mul_pow_of_le (Nat.min_le_left n 19))]
    rfl

/-- An exponent of up to 28 moves the point wherever the number stays in range. -/
theorem map_toRat_raise (n : ℕ) : (a.raise n).map toRat =
    if n ≤ 28 ∧ InRange (a.toRat * 10 ^ n) then some (a.toRat * 10 ^ n) else none := by
  rw [raise]
  split
  · next hle =>
    have hplaces := a.scale_le
    have hrange : InRange (a.toRat * 10 ^ n) := by
      refine InRange.mul_pow_of_le (n := a.scale) ?_ hle
      rw [toRat_mul_pow, InRange, intCast_lt_limit, abs_signed]
      exact_mod_cast a.coefficient_lt
    obtain ⟨k, hk⟩ := Nat.exists_eq_add_of_le hle
    rw [map_toRat_withPlaces?, if_pos (by omega), if_pos ⟨by omega, hrange⟩, toRat_eq, hk,
      Nat.add_sub_cancel_left, pow_add]
    congr 1
    field_simp
  · rcases le_or_gt n 28 with hle | hlt
    · rw [map_toRat_timesTenTo a hle, nearest?_mul_pow]
      simp [hle]
    · rw [timesTenTo, if_pos hlt, if_neg fun h => Nat.not_le.mpr hlt h.1]
      rfl

end Exponent
end Reckoner.Decimal
