import Mathlib.Data.Rat.Lemmas
import Reckoner.Proofs.Decimal.Nearest
import Reckoner.Decimal.Places
/-!
The number that a decimal stands for. Main statements: it is its own nearest decimal, comparisons
compare it, and cutting a decimal at the point cuts the number.
-/
namespace Reckoner.Decimal

/-- The factor that a sign stands for. -/
def signFactor (negative : Bool) : ℚ := if negative then -1 else 1

@[simp] theorem signFactor_true : signFactor true = -1 := rfl

@[simp] theorem signFactor_false : signFactor false = 1 := rfl

@[simp] theorem abs_signFactor (negative : Bool) : |signFactor negative| = 1 := by
  cases negative <;> simp

theorem signFactor_bne (s t : Bool) : signFactor (s != t) = signFactor s * signFactor t := by
  cases s <;> cases t <;> norm_num [signFactor]

theorem cast_signed (a : Decimal) : (a.signed : ℚ) = signFactor a.negative * a.coefficient := by
  unfold signed signFactor
  split <;> push_cast <;> ring

theorem toRat_eq_signed (a : Decimal) : a.toRat = a.signed / 10 ^ a.scale := by
  rw [toRat, Rat.mkRat_eq_div]
  push_cast
  rfl

theorem toRat_eq (a : Decimal) :
    a.toRat = signFactor a.negative * (a.coefficient / 10 ^ a.scale) := by
  rw [toRat_eq_signed, cast_signed, mul_div_assoc]

theorem toRat_mul_pow (a : Decimal) : a.toRat * 10 ^ a.scale = a.signed := by
  rw [toRat_eq_signed, div_mul_cancel₀ _ (by positivity)]

theorem abs_toRat (a : Decimal) : |a.toRat| = a.coefficient / 10 ^ a.scale := by
  rw [toRat_eq, abs_mul, abs_signFactor, one_mul, abs_of_nonneg (by positivity)]

theorem toRat_abs (a : Decimal) : a.abs.toRat = |a.toRat| := by
  rw [abs_toRat, toRat_eq, Decimal.abs, signFactor_false, one_mul]

theorem abs_signed (a : Decimal) : |a.signed| = a.coefficient := by
  unfold signed
  split
  · rw [abs_neg, Nat.abs_cast]
  · rw [Nat.abs_cast]

@[simp] theorem nearest_toRat (a : Decimal) : nearest a.toRat = a.toRat := by
  apply nearest_eq_self a.scale_le a.toRat_mul_pow
  rw [abs_signed]
  exact_mod_cast a.coefficient_lt

theorem inRange_toRat (a : Decimal) : InRange a.toRat := by
  have hc : |((a.signed : ℤ) : ℚ)| < limit := by
    rw [intCast_lt_limit, abs_signed]
    exact_mod_cast a.coefficient_lt
  rw [InRange, toRat_eq_signed, abs_div, abs_of_pos (show (0 : ℚ) < 10 ^ a.scale by positivity)]
  apply lt_of_le_of_lt _ hc
  apply div_le_self (abs_nonneg _)
  exact one_le_pow₀ (by norm_num)

@[simp] theorem toRat_zero : zero.toRat = 0 := by
  rw [toRat_eq]
  simp [zero]

@[simp] theorem toRat_one : one.toRat = 1 := by
  rw [toRat_eq]
  simp [one]

@[simp] theorem toRat_neg (a : Decimal) : a.neg.toRat = -a.toRat := by
  rw [toRat_eq, toRat_eq, neg]
  cases a.negative <;> simp

theorem isZero_iff (a : Decimal) : a.isZero = true ↔ a.toRat = 0 := by
  have hs : a.toRat = 0 ↔ |a.toRat| = 0 := abs_eq_zero.symm
  rw [hs, abs_toRat, div_eq_zero_iff, isZero, beq_iff_eq]
  simp

theorem isZero_eq_false_iff (a : Decimal) : a.isZero = false ↔ a.toRat ≠ 0 := by
  rw [Ne, ← isZero_iff, Bool.not_eq_true]

theorem isBelowZero_iff (a : Decimal) : a.isBelowZero = true ↔ a.toRat < 0 := by
  have hc : (0 : ℚ) ≤ a.coefficient / 10 ^ a.scale := by positivity
  rw [isBelowZero, Bool.and_eq_true, Bool.not_eq_true', isZero_eq_false_iff]
  have ht := toRat_eq a
  cases hn : a.negative
  · rw [hn, signFactor_false, one_mul] at ht
    rw [ht]
    simp only [Bool.false_eq_true, false_and, false_iff, not_lt]
    exact hc
  · rw [hn, signFactor_true, neg_one_mul] at ht
    rw [ht]
    simp only [true_and, neg_ne_zero, neg_lt_zero]
    exact ⟨fun h => lt_of_le_of_ne hc (Ne.symm h), fun h => h.ne'⟩

theorem isBelowZero_eq_false_iff (a : Decimal) : a.isBelowZero = false ↔ 0 ≤ a.toRat := by
  rw [← not_lt, ← isBelowZero_iff, Bool.not_eq_true]

/-- Comparing decimals compares the numbers that they stand for. -/
theorem compare_eq (a b : Decimal) : a.compare b = Ord.compare a.toRat b.toRat := by
  have hpa : (0 : ℚ) < 10 ^ a.scale := by positivity
  have hpb : (0 : ℚ) < 10 ^ b.scale := by positivity
  have hlt : a.toRat < b.toRat ↔
      a.signed * (10 ^ b.scale : ℕ) < b.signed * (10 ^ a.scale : ℕ) := by
    rw [toRat_eq_signed, toRat_eq_signed, div_lt_div_iff₀ hpa hpb]
    exact_mod_cast Iff.rfl
  have hgt : b.toRat < a.toRat ↔
      b.signed * (10 ^ a.scale : ℕ) < a.signed * (10 ^ b.scale : ℕ) := by
    rw [toRat_eq_signed, toRat_eq_signed, div_lt_div_iff₀ hpb hpa]
    exact_mod_cast Iff.rfl
  rw [compare]
  rcases lt_trichotomy a.toRat b.toRat with h | h | h
  · rw [compare_lt_iff_lt.mpr h, compare_lt_iff_lt.mpr (hlt.mp h)]
  · rw [compare_eq_iff_eq.mpr h, compare_eq_iff_eq]
    exact le_antisymm (not_lt.mp (fun hh => (hgt.mpr hh).ne h.symm))
      (not_lt.mp (fun hh => (hlt.mpr hh).ne h))
  · rw [compare_gt_iff_gt.mpr h, compare_gt_iff_gt.mpr (hgt.mp h)]

theorem le_iff (a b : Decimal) : a.le b = true ↔ a.toRat ≤ b.toRat := by
  rw [le, compare_eq, bne_iff_ne, compare_le_iff_le]

/-- What is left of a number when the digits after its point are cut off. -/
def towardZero (x : ℚ) : ℤ := if 0 ≤ x then ⌊x⌋ else ⌈x⌉

theorem towardZero_of_nonneg {x : ℚ} (h : 0 ≤ x) : towardZero x = ⌊x⌋ := if_pos h

@[simp] theorem towardZero_neg (x : ℚ) : towardZero (-x) = -towardZero x := by
  rcases lt_trichotomy x 0 with h | rfl | h
  · rw [towardZero, towardZero, if_pos (by linarith), if_neg (by linarith), Int.floor_neg]
  · simp [towardZero]
  · rw [towardZero, towardZero, if_neg (by linarith), if_pos h.le, Int.ceil_neg]

/-- A number beside a whole one is cut to the whole one if it does not fall short of it, and to the
whole number before it otherwise. -/
theorem towardZero_of_near {x : ℚ} {n : ℕ} (h : |x - n| < 1) (h0 : n = 0 → x = 0) :
    towardZero x = if (n : ℚ) ≤ x then (n : ℤ) else (n : ℤ) - 1 := by
  obtain ⟨hl, hu⟩ := abs_lt.mp h
  have hx : 0 ≤ x := by
    rcases Nat.eq_zero_or_pos n with hz | hp
    · rw [h0 hz]
    · have : (1 : ℚ) ≤ n := by exact_mod_cast hp
      linarith
  rw [towardZero_of_nonneg hx, Int.floor_eq_iff]
  split
  · push_cast
    constructor <;> linarith
  · next hn =>
    push_cast
    constructor <;> linarith

theorem floor_coefficient (a : Decimal) :
    ⌊(a.coefficient : ℚ) / 10 ^ a.scale⌋ = a.wholePart := by
  have h := Rat.floor_natCast_div_natCast a.coefficient (10 ^ a.scale)
  push_cast at h
  rw [h, wholePart]
  push_cast
  rfl

theorem towardZero_toRat (a : Decimal) :
    towardZero a.toRat = if a.negative then -(a.wholePart : ℤ) else a.wholePart := by
  have hw : towardZero ((a.coefficient : ℚ) / 10 ^ a.scale) = a.wholePart := by
    rw [towardZero_of_nonneg (by positivity), floor_coefficient]
  rw [toRat_eq]
  cases a.negative
  · simpa using hw
  · simpa using congrArg Neg.neg hw

/-- The digits before the point are a signed number of 64 bits whenever they fit. -/
theorem toInt64?_eq (a : Decimal) :
    a.toInt64? = if -2 ^ 63 ≤ towardZero a.toRat ∧ towardZero a.toRat < 2 ^ 63 then
      some (towardZero a.toRat) else none := by
  rw [towardZero_toRat, toInt64?]
  cases a.negative
  · by_cases h : a.wholePart < 2 ^ 63
    · simp only [h, if_true, Bool.false_eq_true, if_false]
      rw [if_pos (by omega)]
    · simp only [h, if_false, Bool.false_eq_true, Bool.false_and]
      rw [if_neg (by omega)]
  · by_cases h : a.wholePart < 2 ^ 63
    · simp only [h, if_true]
      rw [if_pos (by omega)]
    · by_cases he : a.wholePart = 2 ^ 63
      · simp only [he, Bool.true_and, beq_self_eq_true, if_true]
        norm_num
      · simp only [h, if_false, if_true, Bool.true_and, beq_iff_eq, he]
        rw [if_neg (by omega)]

theorem isWhole_iff (a : Decimal) :
    a.isWhole = true ↔ (a.coefficient : ℚ) / 10 ^ a.scale = a.wholePart := by
  have h : a.coefficient = 10 ^ a.scale * a.wholePart + a.fraction :=
    (Nat.div_add_mod a.coefficient (10 ^ a.scale)).symm
  have hq : (a.coefficient : ℚ) = 10 ^ a.scale * a.wholePart + a.fraction := by exact_mod_cast h
  rw [isWhole, beq_iff_eq, div_eq_iff (by positivity), hq]
  constructor
  · intro hf
    rw [hf]
    push_cast
    ring
  · intro hf
    have : (a.fraction : ℚ) = 0 := by linarith
    exact_mod_cast this

section Natural

variable {a : Decimal} {n : ℕ}

theorem coefficient_div_of_toRat (ha : a.toRat = n) : (a.coefficient : ℚ) / 10 ^ a.scale = n := by
  rw [← abs_toRat, ha, Nat.abs_cast]

theorem wholePart_of_toRat (ha : a.toRat = n) : a.wholePart = n := by
  have hfloor := a.floor_coefficient
  rw [coefficient_div_of_toRat ha, Int.floor_natCast, Nat.cast_inj] at hfloor
  exact hfloor.symm

theorem isWhole_of_toRat (ha : a.toRat = n) : a.isWhole = true := by
  rw [isWhole_iff, coefficient_div_of_toRat ha, wholePart_of_toRat ha]

theorem toInt64?_of_toRat (ha : a.toRat = n) :
    a.toInt64? = if n < 2 ^ 63 then some (n : ℤ) else none := by
  have htoward : towardZero (n : ℚ) = n := by
    rw [towardZero_of_nonneg (by positivity), Int.floor_natCast]
  have hsmall : -2 ^ 63 ≤ (n : ℤ) ∧ (n : ℤ) < 2 ^ 63 ↔ n < 2 ^ 63 := by omega
  rw [toInt64?_eq, ha, htoward]
  exact if_congr hsmall rfl rfl

/-- What is written with a minus sign is no natural number but zero. -/
theorem eq_zero_of_negative (ha : a.toRat = n) (h : a.negative = true) : n = 0 := by
  have hle : a.toRat ≤ 0 := by
    rw [toRat_eq, h, signFactor_true, neg_one_mul, neg_nonpos]
    positivity
  rw [ha] at hle
  exact Nat.le_zero.mp (by exact_mod_cast hle)

/-- A count is a natural number below `2 ^ 32` that is written without a sign. -/
theorem toCount?_eq_some_iff :
    a.toCount? = some n ↔ a.negative = false ∧ a.toRat = n ∧ n < 2 ^ 32 := by
  rw [toCount?]
  constructor
  · intro h
    split at h
    · next hc =>
      obtain rfl := Option.some.inj h
      simp only [Bool.and_eq_true, Bool.not_eq_true', decide_eq_true_eq] at hc
      obtain ⟨⟨hwhole, hsign⟩, hlt⟩ := hc
      refine ⟨hsign, ?_, hlt⟩
      rw [toRat_eq, hsign, signFactor_false, one_mul, (isWhole_iff a).mp hwhole]
    · cases h
  · rintro ⟨hsign, ha, hlt⟩
    rw [isWhole_of_toRat ha, hsign, wholePart_of_toRat ha]
    simpa using hlt

/-- A minus sign makes no difference to a natural number but zero. -/
theorem toCount?_of_pos (ha : a.toRat = n) (hpos : 0 < n) (hlt : n < 2 ^ 32) :
    a.toCount? = some n := by
  refine toCount?_eq_some_iff.mpr ⟨?_, ha, hlt⟩
  cases hsign : a.negative with
  | false => rfl
  | true => exact absurd (eq_zero_of_negative ha hsign) hpos.ne'

end Natural

theorem toRat_trunc (a : Decimal) : a.trunc.toRat = signFactor a.negative * a.wholePart := by
  rw [toRat_eq]
  simp [trunc]

/-- The least whole number that is not below a decimal. -/
theorem toRat_ceil (a : Decimal) : a.ceil.toRat = ⌈a.toRat⌉ := by
  have hpos : (0 : ℚ) ≤ (a.coefficient : ℚ) / 10 ^ a.scale := by positivity
  have hfloor := floor_coefficient a
  have hl := Int.floor_le ((a.coefficient : ℚ) / 10 ^ a.scale)
  have hu := Int.lt_floor_add_one ((a.coefficient : ℚ) / 10 ^ a.scale)
  rw [hfloor] at hl hu
  push_cast at hl hu
  unfold ceil
  rw [toRat_eq a]
  cases hn : a.negative
  · simp only [Bool.false_eq_true, if_false, signFactor_false, one_mul]
    unfold awayFromZero
    split
    · next hw =>
      have hne : (a.coefficient : ℚ) / 10 ^ a.scale ≠ a.wholePart := by
        intro he
        rw [(isWhole_iff a).mpr he] at hw
        exact Bool.noConfusion hw
      have hc : ⌈(a.coefficient : ℚ) / 10 ^ a.scale⌉ = a.wholePart + 1 := by
        rw [Int.ceil_eq_iff]
        push_cast
        constructor
        · have := lt_of_le_of_ne hl (Ne.symm hne)
          linarith
        · exact hu.le
      rw [hc, toRat_eq]
      simp [hn]
    · next hw =>
      have he := (isWhole_iff a).mp (by simpa using hw)
      rw [toRat_trunc, hn, he]
      simp
  · simp only [if_true, signFactor_true, neg_one_mul]
    rw [Int.ceil_neg, hfloor, toRat_trunc, hn]
    simp

theorem dropZeros_value (c s : ℕ) :
    ((dropZeros c s).1 : ℚ) / 10 ^ (dropZeros c s).2 = c / 10 ^ s := by
  induction s generalizing c with
  | zero => rfl
  | succ s ih =>
    unfold dropZeros
    split
    · next h =>
      rw [ih]
      have hc : (c : ℚ) = (c / 10 : ℕ) * 10 := by
        exact_mod_cast (Nat.div_mul_cancel (Nat.dvd_of_mod_eq_zero h)).symm
      rw [hc, pow_succ, mul_div_mul_right _ _ (by norm_num)]
    · rfl

@[simp] theorem toRat_normalize (a : Decimal) : a.normalize.toRat = a.toRat := by
  unfold normalize
  split
  · next h => rw [toRat_zero, (isZero_iff a).mp h]
  · rw [toRat_eq, toRat_eq, dropZeros_value]

theorem map_toRat_map_normalize (o : Option Decimal) :
    (o.map normalize).map toRat = o.map toRat := by
  rw [Option.map_map]
  exact congrArg (o.map ·) (funext toRat_normalize)

end Reckoner.Decimal
