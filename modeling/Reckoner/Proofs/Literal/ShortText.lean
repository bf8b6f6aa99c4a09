import Reckoner.Proofs.Literal.ReadBack
import Reckoner.Proofs.Napkin
/-!
Short texts read back. A number with few figures keeps them when it is divided by a power of a
thousand, so that neither the division nor the second rounding changes it. Main statement: the short
text of a number is read as the rounded number, and in front of its letter stands a number from 1 up
and below 1000, or from 1 up in front of the last letter.
-/
namespace Reckoner.Napkin

open Decimal NumberLiteral

section Figures

/-- Whether a number has at most `n` figures, whatever zeros are before or behind them. -/
def HasFigures (n : ℕ) (x : ℚ) : Prop := ∃ c k : ℤ, |c| < 10 ^ n ∧ x = c * 10 ^ k

variable {n : ℕ} {x : ℚ} {a r : Decimal}

theorem HasFigures.div_pow (h : HasFigures n x) (p : ℕ) : HasFigures n (x / 10 ^ p) := by
  obtain ⟨c, k, hc, rfl⟩ := h
  refine ⟨c, k - p, hc, ?_⟩
  rw [zpow_sub₀ (by norm_num), zpow_natCast, mul_div_assoc]

theorem HasFigures.signFactor_mul (h : HasFigures n x) (negative : Bool) :
    HasFigures n (signFactor negative * x) := by
  obtain ⟨c, k, hc, rfl⟩ := h
  cases negative with
  | true =>
    refine ⟨-c, k, by rwa [abs_neg], ?_⟩
    push_cast
    rw [signFactor_true]
    ring
  | false => exact ⟨c, k, hc, by rw [signFactor_false, one_mul]⟩

theorem lt_pow_digitCount {m u : ℕ} (hm : 1 ≤ m) (h : digitCount u ≤ m) : u < 10 ^ m :=
  (Nat.length_toDigits_le_iff (by decide) hm).mp h

/-- Rounding may carry into one more digit, but then zeros are behind it. -/
theorem hasFigures_figuresSize (hn : 1 ≤ n) (u : ℕ) : HasFigures n (figuresSize n u) := by
  set lost := lostDigits n u with hlost
  set q := roundQuotient .awayFromZero u (10 ^ lost) with hq
  have hsize : figuresSize n u = q * 10 ^ ((lost : ℤ) - 28) := by
    rw [figuresSize, zpow_sub₀ (by norm_num), zpow_natCast, mul_div_assoc]
    norm_cast
  have hu : u < 10 ^ (n + lost) := by
    apply lt_pow_digitCount (by omega)
    rw [hlost, lostDigits]
    omega
  have hle : q ≤ 10 ^ n := by
    have hquotient : u / 10 ^ lost < 10 ^ n := by
      rwa [Nat.div_lt_iff_lt_mul (by positivity), ← pow_add]
    have hround := roundQuotient_le .awayFromZero u (10 ^ lost)
    omega
  rw [hsize]
  -- The carry leaves a one and zeros.
  rcases hle.lt_or_eq with hlt | heq
  · exact ⟨q, _, by rw [Nat.abs_cast]; exact_mod_cast hlt, rfl⟩
  · refine ⟨1, n + (lost - 28), ?_, ?_⟩
    · rw [abs_one]
      exact one_lt_pow₀ (by norm_num) (by omega)
    · rw [heq, zpow_add₀ (by norm_num), zpow_natCast]
      push_cast
      ring

theorem hasFigures_of_round (hn : 1 ≤ n) (h : round a n = .ok r) : HasFigures n r.toRat := by
  rw [round, if_neg (by omega)] at h
  split at h
  · cases h
    exact ⟨0, 0, by positivity, by simp⟩
  · next hzero =>
    have ha : a.isZero = false := by simpa using hzero
    have hvalue := map_toRat_roundFigures n ha
    cases hrounded : a.roundFigures n with
    | none =>
      rw [hrounded] at h
      cases h
    | some b =>
      rw [hrounded] at h hvalue
      cases h
      obtain ⟨-, hvalue⟩ := Option.ite_none_right_eq_some.mp hvalue.symm
      rw [toRat_normalize, ← Option.some_inj.mp hvalue]
      exact (hasFigures_figuresSize hn _).signFactor_mul _

/-- From 1 up, a number of up to ten figures has nine places at most. -/
theorem HasFigures.exists_ninth (h : HasFigures n x) (hn : n ≤ 10) (hx : 1 ≤ |x|) :
    ∃ (c : ℤ) (m : ℕ), |c| < 10 ^ n ∧ x * 10 ^ 9 = c * 10 ^ m := by
  obtain ⟨c, k, hc, rfl⟩ := h
  have hk : -9 ≤ k := by
    -- With ten places all of the figures would be behind the point.
    by_contra hlt
    have hpow : (10 : ℚ) ^ k ≤ 10 ^ (-10 : ℤ) := zpow_le_zpow_right₀ (by norm_num) (by omega)
    have hsize : |(c : ℚ)| < 10 ^ 10 := by
      calc |(c : ℚ)| < 10 ^ n := by exact_mod_cast hc
        _ ≤ 10 ^ 10 := pow_le_pow_right₀ (by norm_num) hn
    have hsmall : |(c : ℚ) * 10 ^ k| < 1 :=
      calc |(c : ℚ) * 10 ^ k| = |(c : ℚ)| * 10 ^ k := by
            rw [abs_mul, abs_of_pos (show (0 : ℚ) < 10 ^ k by positivity)]
        _ ≤ |(c : ℚ)| * 10 ^ (-10 : ℤ) := by gcongr
        _ < 10 ^ 10 * 10 ^ (-10 : ℤ) := by gcongr
        _ = 1 := by norm_num
    exact absurd hx (not_le.mpr hsmall)
  obtain ⟨m, hm⟩ := Int.eq_ofNat_of_zero_le (show 0 ≤ k + 9 by omega)
  refine ⟨c, m, hc, ?_⟩
  rw [mul_assoc, ← zpow_natCast (10 : ℚ) m, ← hm, zpow_add₀ (by norm_num)]
  norm_num

theorem exists_scaled_ten (h : HasFigures n x) (hn : n ≤ 10) (hx : 1 ≤ |x|) :
    ∃ i : ℤ, x * 10 ^ 10 = i := by
  obtain ⟨c, m, -, hscaled⟩ := h.exists_ninth hn hx
  refine ⟨c * 10 ^ (m + 1), ?_⟩
  rw [pow_succ, ← mul_assoc, hscaled]
  push_cast
  ring

/-- A number of up to ten figures that is in range is that of a decimal. -/
theorem nearest_of_hasFigures (h : HasFigures n x) (hn : n ≤ 10) (hx : 1 ≤ |x|)
    (hrange : InRange x) : nearest x = x := by
  obtain ⟨c, m, hc, hscaled⟩ := h.exists_ninth hn hx
  have hlt : |c| < 2 ^ 96 :=
    calc |c| < 10 ^ n := hc
      _ ≤ 10 ^ 10 := pow_le_pow_right₀ (by norm_num) hn
      _ < 2 ^ 96 := by norm_num
  obtain ⟨b, hb⟩ := representable_div hlt (show 9 ≤ 28 by decide)
  have hvalue : b.toRat * 10 ^ m = x := by
    rw [hb, div_mul_eq_mul_div, ← hscaled, mul_div_cancel_right₀ _ (by norm_num)]
  rw [← hvalue] at hrange ⊢
  exact nearest_mul_pow b hrange

/-- The units of such a number are its figures and zeros. -/
theorem HasFigures.units_eq (h : HasFigures n a.toRat) (hn : n ≤ 10) (ha : 1 ≤ |a.toRat|) :
    ∃ c m : ℕ, 0 < c ∧ c < 10 ^ n ∧ a.units = c * 10 ^ m := by
  obtain ⟨c, m, hc, hscaled⟩ := h.exists_ninth hn ha
  have hne : c ≠ 0 := by
    rintro rfl
    have hzero : a.toRat = 0 := by simpa using hscaled
    rw [hzero] at ha
    norm_num at ha
  refine ⟨c.natAbs, m + 19, by omega, by zify; exact hc, ?_⟩
  have hunits : (a.units : ℚ) = |a.toRat * 10 ^ 9| * 10 ^ 19 := by
    have hcast := a.cast_units
    rw [← abs_toRat, div_eq_iff (by positivity)] at hcast
    rw [hcast, abs_mul, abs_of_pos (show (0 : ℚ) < 10 ^ 9 by positivity)]
    ring
  have hsize : (a.units : ℚ) = ((c.natAbs * 10 ^ (m + 19) : ℕ) : ℚ) := by
    rw [hunits, hscaled, abs_mul, abs_of_pos (show (0 : ℚ) < 10 ^ m by positivity)]
    push_cast
    rw [Nat.cast_natAbs, Int.cast_abs]
    ring
  exact_mod_cast hsize

theorem figuresSize_of_lt {c : ℕ} (hn : 1 ≤ n) (hpos : 0 < c) (hc : c < 10 ^ n) (m : ℕ) :
    figuresSize n (c * 10 ^ m) = (c * 10 ^ m : ℕ) / 10 ^ 28 := by
  have hdigits : digitCount c ≤ n := (Nat.length_toDigits_le_iff (by decide) hn).mpr hc
  have hlost : lostDigits n (c * 10 ^ m) ≤ m := by
    rw [lostDigits, digitCount_mul_pow hpos]
    omega
  have hdvd : 10 ^ lostDigits n (c * 10 ^ m) ∣ c * 10 ^ m := (pow_dvd_pow 10 hlost).mul_left c
  rw [figuresSize, roundQuotient_of_dvd _ _ _ (by positivity) (Nat.mod_eq_zero_of_dvd hdvd)]
  congr 1
  exact_mod_cast Nat.div_mul_cancel hdvd

/-- A number that has no more figures already is not changed by rounding. -/
theorem round_of_hasFigures (h : HasFigures n a.toRat) (hn : 1 ≤ n) (hn' : n ≤ 10)
    (ha : 1 ≤ |a.toRat|) : ∃ r, round a n = .ok r ∧ r.toRat = a.toRat := by
  have hzero : a.isZero = false := by
    rw [isZero_eq_false_iff]
    rintro hz
    rw [hz] at ha
    norm_num at ha
  obtain ⟨c, m, hpos, hc, hunits⟩ := h.units_eq hn' ha
  have hsize : figuresSize n a.units = |a.toRat| := by
    rw [hunits, figuresSize_of_lt hn hpos hc, ← hunits, a.cast_units, abs_toRat]
  have hlt : figuresSize n a.units < 2 ^ 96 := by
    rw [hsize]
    have hrange := a.inRange_toRat
    rw [InRange, limit] at hrange
    linarith
  have hrounded := map_toRat_roundFigures n hzero
  rw [if_pos hlt, hsize, abs_toRat, ← toRat_eq] at hrounded
  obtain ⟨b, hb, hvalue⟩ := Option.map_eq_some_iff.mp hrounded
  refine ⟨b.normalize, ?_, by rw [toRat_normalize, hvalue]⟩
  rw [round, if_neg (by omega), hzero, if_neg Bool.false_ne_true, hb]
  rfl

end Figures

section Ladder

/-- Whether a text is read as this number. -/
def ReadsBack (s : String) (x : ℚ) : Prop := ∃ d, NumberLiteral.read s = .ok d ∧ d.toRat = x

/-- A short text: a number from 1 up, and a letter behind it or none. The number is below 1000
unless the letter is the last one. -/
structure IsShort (s : String) (q : Decimal) (letter : String) : Prop where
  text_eq : s = q.rendered ++ letter
  readsBack : ReadsBack q.rendered q.toRat
  one_le : 1 ≤ |q.toRat|
  letter_mem : letter ∈ ["", "K", "M", "B"] ∧ |q.toRat| < 1000 ∨ letter = "T"

/-- The powers of a thousand by their letters. -/
def powers (letters : List Char) : List (ℕ × String) :=
  letters.map fun c => (10 ^ suffixPower c, String.singleton c)

/-- The first power of some letters, or one where there are none. -/
def firstPower : List Char → ℕ
  | [] => 1
  | c :: _ => 10 ^ suffixPower c

/-- Letters of powers that are each a thousand times the next. -/
inductive Ladder : List Char → Prop
  | nil : Ladder []
  | cons {c : Char} {letters : List Char} (hc : c ∈ ['K', 'M', 'B', 'T'])
      (hpower : 10 ^ suffixPower c = 1000 * firstPower letters) (hrest : Ladder letters) :
      Ladder (c :: letters)

theorem suffixes_eq : suffixes = powers ['T', 'B', 'M', 'K'] := by decide

theorem ladder_suffixes : Ladder ['T', 'B', 'M', 'K'] :=
  .cons (by decide) (by decide) <| .cons (by decide) (by decide) <|
    .cons (by decide) (by decide) <| .cons (by decide) (by decide) .nil

variable {n : ℕ} {r q : Decimal} {c : Char} {letters : List Char}

theorem mem_suffixLetters (hc : c ∈ ['K', 'M', 'B', 'T']) : c ∈ suffixLetters := by
  have hall : ['K', 'M', 'B', 'T'].all suffixLetters.contains = true := by decide
  exact List.contains_iff_mem.mp (List.all_eq_true.mp hall c hc)

/-- Ten places are enough to show such a number as it is. -/
theorem toRat_shown (h : HasFigures n r.toRat) (hn : n ≤ 10) (hr : 1 ≤ |r.toRat|) :
    r.shown.toRat = r.toRat := by
  obtain ⟨i, hi⟩ := exists_scaled_ten h hn hr
  rw [shown, toRat_normalize, toRat_roundPlaces_toEven r (by norm_num), hi, halfEven_intCast, ← hi,
    mul_div_cancel_right₀ _ (by positivity)]

theorem readsBack_rendered (h : HasFigures n r.toRat) (hn : n ≤ 10) (hr : 1 ≤ |r.toRat|) :
    ReadsBack r.rendered r.toRat := by
  have hread := read_text r.shown
  rwa [toRat_shown h hn hr] at hread

/-- The letter brings back the power that the number was divided by. -/
theorem readsBack_letter (h : HasFigures n q.toRat) (hn : n ≤ 10) (hq : 1 ≤ |q.toRat|)
    (hc : c ∈ suffixLetters) (hvalue : q.toRat = r.toRat / 10 ^ suffixPower c) :
    ReadsBack (q.rendered ++ String.singleton c) r.toRat := by
  have hproduct : q.shown.toRat * letterFactor (some c) = r.toRat := by
    rw [toRat_shown h hn hq, hvalue]
    exact div_mul_cancel₀ _ (by positivity)
  have hletter : ∀ d ∈ some c, d ∈ suffixLetters := by
    rintro _ ⟨⟩
    exact hc
  have hresult : Representable (q.shown.toRat * letterFactor (some c)) := ⟨r, hproduct.symm⟩
  have hread := read_text_append hletter hresult
  rw [hproduct, Option.toList_some, ← String.toList_singleton, ← String.toList_append,
    String.ofList_toList] at hread
  exact hread

theorem exists_scaledText_powers (c : Char) (letters : List Char) :
    ∃ power : Decimal, power.toRat = 10 ^ suffixPower c ∧ ∀ (r : Decimal) (n : ℕ),
      scaledText r n (powers (c :: letters)) =
        if 10 ^ suffixPower c ≤ |r.toRat| then
          (round (r.dividedBy power) n).map (·.rendered ++ String.singleton c)
        else scaledText r n (powers letters) := by
  have hlt : 10 ^ suffixPower c < 2 ^ 96 :=
    (Nat.pow_le_pow_right (by decide) (suffixPower_le c)).trans_lt (by decide)
  obtain ⟨power, hpower, hvalue⟩ := exists_ofNat? hlt
  push_cast at hvalue
  refine ⟨power, hvalue, fun r n => ?_⟩
  rw [powers, List.map_cons, scaledText_cons hpower]
  exact if_congr (by rw [le_iff, toRat_abs, hvalue]) rfl rfl

/-- In front of the letter of the first power that is not above it, a number is short: neither the
division nor the rounding changes its figures. -/
theorem scaledText_of_le (h : HasFigures n r.toRat) (hn : 1 ≤ n) (hn' : n ≤ 10)
    (hc : c ∈ ['K', 'M', 'B', 'T']) (hle : 10 ^ suffixPower c ≤ |r.toRat|)
    (hbound : c = 'T' ∨ |r.toRat| < 1000 * 10 ^ suffixPower c) :
    ∃ q, scaledText r n (powers (c :: letters)) = .ok (q.rendered ++ String.singleton c) ∧
      ReadsBack (q.rendered ++ String.singleton c) r.toRat ∧
      IsShort (q.rendered ++ String.singleton c) q (String.singleton c) := by
  have hpos : (0 : ℚ) < 10 ^ suffixPower c := by positivity
  obtain ⟨power, hvalue, htext⟩ := exists_scaledText_powers c letters
  have hquotient : HasQuotient r power := hasQuotient_of_one_le r (by
    rw [hvalue, abs_of_pos hpos]
    exact one_le_pow₀ (by norm_num))
  have hone : 1 ≤ |r.toRat / 10 ^ suffixPower c| := by
    rwa [abs_div, abs_of_pos hpos, one_le_div hpos]
  have hdivided : (r.dividedBy power).toRat = r.toRat / 10 ^ suffixPower c := by
    have hrange := hquotient.inRange
    rw [hvalue] at hrange
    rw [hquotient.toRat_dividedBy, hvalue, nearest_of_hasFigures (h.div_pow _) hn' hone hrange]
  obtain ⟨q, hq, hrounded⟩ := round_of_hasFigures (hdivided ▸ h.div_pow _) hn hn'
    (hdivided ▸ hone)
  rw [hdivided] at hrounded
  have hfigures : HasFigures n q.toRat := hrounded ▸ h.div_pow _
  have hsize : 1 ≤ |q.toRat| := hrounded ▸ hone
  refine ⟨q, ?_, readsBack_letter hfigures hn' hsize (mem_suffixLetters hc) hrounded, rfl,
    readsBack_rendered hfigures hn' hsize, hsize, ?_⟩
  · rw [htext, if_pos hle, hq]
    rfl
  · by_cases hlast : c = 'T'
    · rw [hlast]
      exact Or.inr rfl
    · left
      have hlt := hbound.resolve_left hlast
      rw [hrounded, abs_div, abs_of_pos hpos, div_lt_iff₀ hpos]
      refine ⟨?_, hlt⟩
      simp only [List.mem_cons, List.not_mem_nil, or_false] at hc
      rcases hc with rfl | rfl | rfl | rfl
      · decide
      · decide
      · decide
      · exact absurd rfl hlast

/-- Down the ladder, the first power that is not above a number makes its text short. -/
theorem scaledText_of_ladder (hletters : Ladder letters) (h : HasFigures n r.toRat) (hn : 1 ≤ n)
    (hn' : n ≤ 10) (hr : 1 ≤ |r.toRat|)
    (hbound : letters.head? = some 'T' ∨ |r.toRat| < 1000 * firstPower letters) :
    ∃ s, scaledText r n (powers letters) = .ok s ∧ ReadsBack s r.toRat ∧
      ∃ q letter, IsShort s q letter := by
  -- Below a power, a number is below a thousand times the next.
  induction hletters with
  | nil =>
    have hlt : |r.toRat| < 1000 := by simpa [firstPower] using hbound
    have hread := readsBack_rendered h hn' hr
    exact ⟨_, rfl, hread, r, "", by simp, hread, hr, Or.inl ⟨by decide, hlt⟩⟩
  | @cons c letters hc hpower _ ih =>
    rcases le_or_gt (10 ^ suffixPower c) |r.toRat| with hle | hlt
    · rw [List.head?_cons, Option.some_inj, firstPower] at hbound
      push_cast at hbound
      obtain ⟨q, htext, hread, hshort⟩ := scaledText_of_le h hn hn' hc hle hbound
      exact ⟨_, htext, hread, q, _, hshort⟩
    · obtain ⟨power, -, htext⟩ := exists_scaledText_powers c letters
      rw [htext, if_neg (not_le.mpr hlt)]
      apply ih
      right
      have hcast : (10 : ℚ) ^ suffixPower c = 1000 * firstPower letters := by exact_mod_cast hpower
      rwa [← hcast]

end Ladder

/-- The short text of a number from 1 up is read as the rounded number. -/
theorem read_numberText (x : Decimal) {n : ℕ} {r : Decimal} (hn : 1 ≤ n) (hn' : n ≤ 10)
    (hr : round x n = .ok r) (hone : 1 ≤ |r.toRat|) :
    ∃ s, numberText x n = .ok s ∧ ReadsBack s r.toRat ∧ ∃ q letter, IsShort s q letter := by
  rw [numberText, hr, ok_bind, suffixes_eq]
  exact scaledText_of_ladder ladder_suffixes (hasFigures_of_round hn hr) hn hn' hone (Or.inl rfl)

/-- Rounding to three figures carries this number over to the next letter. -/
theorem read_numberText_carried :
    round (.ofLiteral 999950 0) 3 = .ok (.ofLiteral 1000000 0) ∧
      1 ≤ |(ofLiteral 1000000 0).toRat| ∧
      ∃ s, numberText (.ofLiteral 999950 0) 3 = .ok s ∧
        ReadsBack s (ofLiteral 1000000 0).toRat ∧ ∃ q letter, IsShort s q letter := by
  have hround : round (.ofLiteral 999950 0) 3 = .ok (.ofLiteral 1000000 0) :=
    eq_ok_of_toOption (by decide +kernel)
  have hone : 1 ≤ |(ofLiteral 1000000 0).toRat| := by
    rw [abs_toRat]
    norm_num [ofLiteral, ofParts?]
  exact ⟨hround, hone, read_numberText _ (by decide) (by decide) hround hone⟩

end Reckoner.Napkin
