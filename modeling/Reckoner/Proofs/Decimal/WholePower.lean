import Mathlib.Tactic.Ring
import Reckoner.Proofs.Decimal.SamePower
import Reckoner.Value.Arithmetic
/-!
Powers of whole numbers with whole exponents. Main statement: a power is exact if it is below
`2 ^ 96` in size and out of range otherwise, but for exponents from `2 ^ 63` on, which are taken for
out of range whatever the base is, and for a zero whose exponent is a zero with a minus sign.
-/
namespace Reckoner

/-- Half of the digits of the exponent go to the square of the base. -/
theorem mul_pow_mod_two_mul_pow {M : Type} [CommMonoid M] (b c : M) (n : ℕ) :
    c * b ^ (n % 2) * (b * b) ^ (n / 2) = c * b ^ n := by
  rw [← pow_two, ← pow_mul, mul_assoc, ← pow_add, Nat.mod_add_div]

theorem two_le_of_pow_le {k n : ℕ} (h : 2 ^ (k + 1) ≤ n) : 2 ≤ n :=
  (Nat.le_self_pow (Nat.succ_ne_zero k) 2).trans h

namespace Decimal

section WholeNumber

variable {i j : ℤ}

theorem inRange_intCast_iff : InRange (i : ℚ) ↔ |i| < 2 ^ 96 := intCast_lt_limit

theorem not_inRange_of_abs_le (h : |i| ≤ |j|) (hi : ¬InRange (i : ℚ)) : ¬InRange (j : ℚ) := by
  rw [inRange_intCast_iff] at hi ⊢
  omega

/-- A result that is rounded to a whole number is that number, or it is out of range. -/
theorem cases_of_map_toRat {o : Option Decimal} (h : o.map toRat = nearest? (i : ℚ)) :
    (InRange (i : ℚ) ∧ ∃ a, o = some a ∧ a.toRat = i) ∨ ¬InRange (i : ℚ) ∧ o = none := by
  by_cases hi : InRange (i : ℚ)
  · obtain ⟨a, ha, hvalue⟩ := exists_of_map_toRat h hi
    rw [nearest_intCast (inRange_intCast_iff.mp hi)] at hvalue
    exact Or.inl ⟨hi, a, ha, hvalue⟩
  · exact Or.inr ⟨hi, eq_none_of_map_toRat h hi⟩

theorem map_toRat_mul_intCast {a b : Decimal} (ha : a.toRat = i) (hb : b.toRat = j) :
    (a.mul b).map toRat = nearest? ((i * j : ℤ) : ℚ) := by
  rw [map_toRat_mul, ha, hb, Int.cast_mul]

/-- The powers of a whole number other than zero do not fall in size. -/
theorem abs_mul_pow_le (hi : i ≠ 0) {m n : ℕ} (h : m ≤ n) : |j * i ^ m| ≤ |j * i ^ n| := by
  have hone : 1 ≤ |i| := Int.one_le_abs hi
  rw [abs_mul, abs_mul, abs_pow, abs_pow]
  gcongr

/-- The square of the base is part of every power with an exponent of two binary digits or more. -/
theorem abs_mul_self_le (hi : i ≠ 0) (hj : j ≠ 0) {n : ℕ} (h : 2 ≤ n) : |i * i| ≤ |j * i ^ n| :=
  calc |i * i| = 1 * |i ^ 2| := by rw [one_mul, pow_two]
    _ ≤ |j| * |i ^ 2| := by gcongr; exact Int.one_le_abs hj
    _ = |j * i ^ 2| := (abs_mul j (i ^ 2)).symm
    _ ≤ |j * i ^ n| := abs_mul_pow_le hi h

end WholeNumber

section Squaring

variable {base acc : Decimal} {i j : ℤ}

/-- A step takes one binary digit off the exponent. -/
theorem powFrom_succ (digits n : ℕ) (base acc : Decimal) :
    powFrom (digits + 1) n base acc =
      (if n % 2 = 1 then acc.mul base else some acc).bind fun acc =>
        if digits = 0 then some acc
        else (base.mul base).bind fun base => powFrom digits (n / 2) base acc := by
  rw [powFrom]
  split <;> rfl

theorem map_toRat_digit (hbase : base.toRat = i) (hacc : acc.toRat = j) (n : ℕ) :
    (if n % 2 = 1 then acc.mul base else some acc).map toRat =
      nearest? ((j * i ^ (n % 2) : ℤ) : ℚ) := by
  rcases Nat.mod_two_eq_zero_or_one n with hn | hn
  · rw [hn, if_neg Nat.zero_ne_one, pow_zero, mul_one, ← hacc, nearest?_toRat, Option.map_some]
  · rw [hn, if_pos rfl, pow_one, map_toRat_mul_intCast hacc hbase]

/-- Squaring gives the exact product with the power. It overflows only if the product does, since
the last of the squares is part of it. -/
theorem map_toRat_powFrom {k n : ℕ} (hbase : base.toRat = i)
    (hacc : acc.toRat = j) (hi : i ≠ 0) (hj : j ≠ 0) (hlow : 2 ^ k ≤ n) (hhigh : n < 2 ^ (k + 1)) :
    (powFrom (k + 1) n base acc).map toRat = nearest? ((j * i ^ n : ℤ) : ℚ) := by
  induction k generalizing n base acc i j with
  | zero =>
    obtain rfl : n = 1 := by omega
    have hmul := map_toRat_mul_intCast hacc hbase
    rw [pow_one, ← hmul, powFrom_succ]
    simp
  | succ k ih =>
    have hnone (h : ¬InRange ((j * i ^ n : ℤ) : ℚ)) : nearest? ((j * i ^ n : ℤ) : ℚ) = none :=
      if_neg h
    rw [powFrom_succ]
    rcases cases_of_map_toRat (map_toRat_digit hbase hacc n) with
      ⟨-, acc', hsome, hacc'⟩ | ⟨hout, hstop⟩
    · rw [hsome, Option.bind_some, if_neg (Nat.succ_ne_zero k)]
      rcases cases_of_map_toRat (map_toRat_mul_intCast hbase hbase) with
        ⟨-, base', hsquare, hbase'⟩ | ⟨hout, hstop⟩
      · rw [hsquare, Option.bind_some, ← mul_pow_mod_two_mul_pow i j n]
        have hj' : j * i ^ (n % 2) ≠ 0 := mul_ne_zero hj (pow_ne_zero _ hi)
        rw [pow_succ] at hlow hhigh
        exact ih hbase' hacc' (mul_ne_zero hi hi) hj' (by omega) (by omega)
      · -- The square is no larger than the power, whose exponent is two at least.
        rw [hstop, Option.bind_none, Option.map_none, hnone]
        exact not_inRange_of_abs_le (abs_mul_self_le hi hj (two_le_of_pow_le hlow)) hout
    · rw [hstop]
      exact (hnone (not_inRange_of_abs_le (abs_mul_pow_le hi (Nat.mod_le n 2)) hout)).symm

end Squaring

end Decimal

namespace FixedPoint

theorem unit_pos : 0 < unit := by decide

theorem mul_unit (k l : ℕ) : mul (k * unit) (l * unit) = k * l * unit := by
  rw [mul, ← mul_assoc, Nat.mul_div_cancel _ unit_pos, mul_right_comm]

theorem digit_unit (k l n : ℕ) :
    (if n % 2 = 1 then mul (l * unit) (k * unit) else l * unit) = l * k ^ (n % 2) * unit := by
  rcases Nat.mod_two_eq_zero_or_one n with hn | hn
  · rw [hn, if_neg Nat.zero_ne_one, pow_zero, mul_one]
  · rw [hn, if_pos rfl, pow_one, mul_unit]

/-- Squaring whole numbers of units loses nothing, and stops only if the product is too large. -/
theorem powFrom_unit {k l d n : ℕ} (hk : 0 < k) (hl : 0 < l) (hlow : 2 ^ d ≤ n)
    (hhigh : n < 2 ^ (d + 1)) :
    powFrom (2 ^ 96 * unit) (d + 1) n (k * unit) (l * unit) =
      if 2 ^ 96 ≤ l * k ^ n then none else some (l * k ^ n * unit) := by
  have hlimit (m : ℕ) : 2 ^ 96 * unit ≤ m * unit ↔ 2 ^ 96 ≤ m := Nat.mul_le_mul_right_iff unit_pos
  induction d generalizing n k l with
  | zero =>
    obtain rfl : n = 1 := by omega
    rw [powFrom, digit_unit]
    simp only [hlimit, if_true, Nat.one_mod]
  | succ d ih =>
    have htwo : 2 ≤ n := two_le_of_pow_le hlow
    -- Neither the product so far nor the next square exceeds the product that is asked for.
    have hacc : l * k ^ (n % 2) ≤ l * k ^ n := by gcongr; exact Nat.mod_le n 2
    have hbase : k * k ≤ l * k ^ n :=
      calc k * k = 1 * k ^ 2 := by rw [one_mul, pow_two]
        _ ≤ l * k ^ n := by gcongr; exact hl
    rw [pow_succ] at hlow hhigh
    rw [powFrom, digit_unit]
    simp only [hlimit, mul_unit, Nat.succ_ne_zero, if_false]
    rw [ih (Nat.mul_pos hk hk) (Nat.mul_pos hl (Nat.pow_pos hk)) (by omega) (by omega),
      mul_pow_mod_two_mul_pow]
    split_ifs <;> first | rfl | omega

theorem pow_unit {k n : ℕ} (hk : 0 < k) (hn : n ≠ 0) :
    pow (2 ^ 96 * unit) (k * unit) n = if 2 ^ 96 ≤ k ^ n then none else some (k ^ n * unit) := by
  have h := powFrom_unit hk Nat.one_pos (Nat.log2_self_le hn) Nat.lt_log2_self
  rwa [one_mul, one_mul] at h

end FixedPoint

namespace Decimal

section Long

/-- Cutting and rounding up leave a whole number as it is. -/
theorem cut_unit (v : ℕ) : FixedPoint.cut 30 (v * FixedPoint.unit) = v * FixedPoint.unit := by
  rw [FixedPoint.cut, Nat.mod_eq_zero_of_dvd, Nat.sub_zero]
  exact Dvd.dvd.mul_left (by decide) v

theorem roundUpQuotient_mul (v : ℕ) {d : ℕ} (hd : 0 < d) : roundUpQuotient (v * d) d = v := by
  rw [roundUpQuotient, Nat.add_sub_assoc hd, mul_comm, Nat.mul_add_div hd,
    Nat.div_eq_of_lt (Nat.sub_lt hd Nat.one_pos), Nat.add_zero]

theorem unit_eq {places : ℕ} (h : places ≤ 28) :
    FixedPoint.unit = 10 ^ places * 10 ^ (FixedPoint.places - places) := by
  have hp : places + (FixedPoint.places - places) = FixedPoint.places :=
    Nat.add_sub_cancel' (h.trans (by decide))
  rw [FixedPoint.unit, ← pow_add, hp]

theorem fitUpFrom_succ (s : Bool) {n c places : ℕ}
    (h : roundUpQuotient n (10 ^ (FixedPoint.places - (places + 1))) = c) :
    fitUpFrom s n (places + 1) = (ofParts? s c (places + 1)).or (fitUpFrom s n places) := by
  rw [fitUpFrom, ← h]
  cases ofParts? s _ (places + 1) <;> rfl

/-- Whichever number of places a whole number is given, the number stays as it is. -/
theorem map_toRat_fitUpFrom (s : Bool) {v places : ℕ} (hv : v < 2 ^ 96) (h : places ≤ 28) :
    (fitUpFrom s (v * FixedPoint.unit) places).map toRat = some (signFactor s * v) := by
  induction places with
  | zero =>
    rw [fitUpFrom, roundUpQuotient_mul v FixedPoint.unit_pos,
      map_toRat_ofParts? s hv (Nat.zero_le 28), pow_zero, div_one]
  | succ places ih =>
    have hq : roundUpQuotient (v * FixedPoint.unit) (10 ^ (FixedPoint.places - (places + 1))) =
        v * 10 ^ (places + 1) := by
      rw [unit_eq h, ← mul_assoc, roundUpQuotient_mul _ (by positivity)]
    rw [fitUpFrom_succ s hq]
    by_cases hfit : v * 10 ^ (places + 1) < 2 ^ 96
    · have hvalue := map_toRat_ofParts? s hfit h
      obtain ⟨a, ha, hx⟩ := Option.map_eq_some_iff.mp hvalue
      rw [ha, Option.some_or, Option.map_some, hx, Nat.cast_mul, Nat.cast_pow, Nat.cast_ofNat,
        mul_div_cancel_right₀ _ (by positivity)]
    · rw [ofParts?_eq_none hfit, Option.none_or]
      exact ih (Nat.le_of_succ_le h)

theorem map_toRat_fitUp (s : Bool) {v : ℕ} (hv : v < 2 ^ 96) :
    (fitUp s (v * FixedPoint.unit)).map toRat = some (signFactor s * v) := by
  rw [fitUp, cut_unit]
  exact map_toRat_fitUpFrom s hv le_rfl

/-- The places of a whole number are zeros. -/
theorem coefficient_mul_of_toRat {a : Decimal} {i : ℤ} (ha : a.toRat = i) :
    a.coefficient * 10 ^ (FixedPoint.places - a.scale) = i.natAbs * FixedPoint.unit := by
  have habs : (a.coefficient : ℚ) / 10 ^ a.scale = (i.natAbs : ℚ) := by
    rw [← abs_toRat, ha, Nat.cast_natAbs, Int.cast_abs]
  rw [div_eq_iff (by positivity)] at habs
  have hc : a.coefficient = i.natAbs * 10 ^ a.scale := by exact_mod_cast habs
  rw [hc, unit_eq a.scale_le, mul_assoc]

theorem signFactor_pow (s : Bool) (n : ℕ) : signFactor (s && n % 2 == 1) = signFactor s ^ n := by
  cases s with
  | false => rw [Bool.false_and, signFactor_false, one_pow]
  | true =>
    rw [signFactor_true, Bool.true_and]
    rcases Nat.even_or_odd n with hn | hn
    · rw [hn.neg_one_pow, Nat.even_iff.mp hn]
      rfl
    · rw [hn.neg_one_pow, Nat.odd_iff.mp hn]
      rfl

theorem intCast_eq_signFactor_mul {a : Decimal} {i : ℤ} (ha : a.toRat = i) :
    (i : ℚ) = signFactor a.negative * i.natAbs := by
  rw [← ha, toRat_eq, ← abs_toRat, ha, Nat.cast_natAbs, Int.cast_abs]

theorem map_toRat_powLong {a : Decimal} {i : ℤ} {n : ℕ} (ha : a.toRat = i) (hi : i ≠ 0)
    (hn : n ≠ 0) : (a.powLong n).map toRat = nearest? ((i ^ n : ℤ) : ℚ) := by
  have habs : |i ^ n| = ((i.natAbs ^ n : ℕ) : ℤ) := by rw [abs_pow, Int.abs_eq_natAbs, Nat.cast_pow]
  have hrange : InRange ((i ^ n : ℤ) : ℚ) ↔ ¬2 ^ 96 ≤ i.natAbs ^ n := by
    rw [inRange_intCast_iff, habs, not_le]
    exact_mod_cast Iff.rfl
  have hpow := FixedPoint.pow_unit (Int.natAbs_pos.mpr hi) hn
  rw [powLong, coefficient_mul_of_toRat ha, hpow]
  by_cases hout : 2 ^ 96 ≤ i.natAbs ^ n
  · rw [nearest?, if_neg (mt hrange.mp (not_not.mpr hout)), if_pos hout, Option.bind_eq_bind,
      Option.bind_none, Option.map_none]
  · have hin := hrange.mpr hout
    have hvalue : signFactor (a.negative && n % 2 == 1) * ((i.natAbs ^ n : ℕ) : ℚ) =
        ((i ^ n : ℤ) : ℚ) := by
      rw [signFactor_pow, Nat.cast_pow, ← mul_pow, ← intCast_eq_signFactor_mul ha, Int.cast_pow]
    rw [nearest?, if_pos hin, nearest_intCast (inRange_intCast_iff.mp hin), if_neg hout,
      Option.bind_eq_bind, Option.bind_some, map_toRat_map_normalize,
      map_toRat_fitUp _ (not_le.mp hout), hvalue]

end Long

/-- The power of a whole number is exact, or out of range. -/
theorem map_toRat_powNat {a : Decimal} {i : ℤ} (ha : a.toRat = i) (n : ℕ) :
    (a.powNat n).map toRat = nearest? ((i ^ n : ℤ) : ℚ) := by
  have hexact (b : Decimal) (h : b.toRat = ((i ^ n : ℤ) : ℚ)) :
      (some b).map toRat = nearest? ((i ^ n : ℤ) : ℚ) := by
    rw [← h, nearest?_toRat, Option.map_some]
  have hzero : a.isZero = true ↔ i = 0 := by rw [isZero_iff, ha, Int.cast_eq_zero]
  have hone : a.same one = true ↔ i = 1 := by rw [same_iff, ha, toRat_one, Int.cast_eq_one]
  rw [powNat]
  split
  · next hn => exact hexact one (by rw [hn, toRat_one, pow_zero, Int.cast_one])
  next hn =>
  split
  · next hz =>
    exact hexact zero (by rw [hzero.mp hz, toRat_zero, zero_pow hn, Int.cast_zero])
  next hz =>
  have hi : i ≠ 0 := mt hzero.mpr hz
  split
  · next h => exact hexact one (by rw [hone.mp h, toRat_one, one_pow, Int.cast_one])
  split
  · next h => exact hexact a (by rw [h, ha, pow_one])
  split
  · next h => rw [h, pow_two, map_toRat_mul_intCast ha ha]
  split
  · have hsquaring := map_toRat_powFrom ha (j := 1) (by rw [toRat_one, Int.cast_one]) hi one_ne_zero
      (Nat.log2_self_le hn) Nat.lt_log2_self
    rw [map_toRat_map_normalize, hsquaring, one_mul]
  · exact map_toRat_powLong ha hi hn

/-- A whole power is worked out by multiplication, if its exponent is a signed number of 64 bits. -/
theorem power_of_whole {a e : Decimal} {n : ℕ} (he : e.toRat = n)
    (hstop : ¬(a.isZero = true ∧ e.negative = true)) :
    a.power e = orError (if n < 2 ^ 63 then a.powNat n else none)
      (.overflow ArithmeticOperator.power.name) := by
  rw [← Bool.and_eq_true] at hstop
  rw [power, if_neg hstop, if_pos (isWhole_of_toRat he), toInt64?_of_toRat he]
  split
  · rw [Option.bind_some, powInt, if_pos (Int.natCast_nonneg n), Int.toNat_natCast]
  · rfl

/-- The powers of the other whole numbers grow beyond every decimal. -/
theorem abs_pow_lt_iff {i : ℤ} {n : ℕ} (hn : 2 ^ 63 ≤ n) : |i ^ n| < 2 ^ 96 ↔ |i| < 2 := by
  rw [abs_pow]
  constructor
  · intro h
    by_contra hi
    have hgrow : (2 : ℤ) ^ 96 ≤ |i| ^ n :=
      calc (2 : ℤ) ^ 96 ≤ |i| ^ 96 := by gcongr; exact not_lt.mp hi
        _ ≤ |i| ^ n := pow_le_pow_right₀ (by omega) (by omega)
    omega
  · intro h
    calc |i| ^ n ≤ 1 := pow_le_one₀ (abs_nonneg i) (by omega)
      _ < 2 ^ 96 := by norm_num

end Decimal

namespace Value

theorem combine_power (a e : Decimal) (env : Environment) :
    (number a).combine .power (number e) env = (a.power e).map number := by
  show (a.power e >>= fun r => (number a).withMagnitude r) = _
  cases a.power e <;> rfl

/-- The power of two numbers is exact if it is a decimal at all, and out of range otherwise. -/
def PowerExact (a e : Decimal) (i : ℤ) (n : ℕ) (env : Environment) : Prop :=
  if |i ^ n| < 2 ^ 96 then
    ∃ r, (number a).combine .power (number e) env = .ok (number r) ∧ r.toRat = (i ^ n : ℤ)
  else (number a).combine .power (number e) env = .error (.overflow ArithmeticOperator.power.name)

theorem not_powerExact_of_error {a e : Decimal} {i : ℤ} {n : ℕ} {env : Environment} {x : Error}
    (h : |i ^ n| < 2 ^ 96) (hx : (number a).combine .power (number e) env = .error x) :
    ¬PowerExact a e i n env := by
  rw [PowerExact, if_pos h, hx]
  rintro ⟨_, hr, _⟩
  cases hr

/-- A zero to the power of what is written with a minus sign. -/
def ZeroToMinus (a e : Decimal) : Prop := a.isZero = true ∧ e.negative = true

section WholePower

variable {a e : Decimal} {i : ℤ} {n : ℕ}

theorem combine_power_zero (h : ZeroToMinus a e) (env : Environment) :
    (number a).combine .power (number e) env = .error (.divisionByZero .power) := by
  rw [combine_power, Decimal.power_of_zero_of_negative h.1 h.2]
  rfl

theorem powerExact_of_lt (ha : a.toRat = i) (he : e.toRat = n) (h : ¬ZeroToMinus a e)
    (hn : n < 2 ^ 63) (env : Environment) : PowerExact a e i n env := by
  rw [PowerExact, combine_power, Decimal.power_of_whole he h, if_pos hn]
  rcases Decimal.cases_of_map_toRat (Decimal.map_toRat_powNat ha n) with
    ⟨hin, r, hr, hvalue⟩ | ⟨hout, hnone⟩
  · rw [if_pos (Decimal.inRange_intCast_iff.mp hin), hr]
    exact ⟨r, rfl, hvalue⟩
  · rw [if_neg (mt Decimal.inRange_intCast_iff.mpr hout), hnone]
    rfl

/-- An exponent that is no signed number of 64 bits is taken for an overflow. -/
theorem combine_power_of_le (he : e.toRat = n) (h : ¬ZeroToMinus a e) (hn : 2 ^ 63 ≤ n)
    (env : Environment) :
    (number a).combine .power (number e) env =
      .error (.overflow ArithmeticOperator.power.name) := by
  rw [combine_power, Decimal.power_of_whole he h, if_neg hn.not_gt]
  rfl

/-- Whole powers are exact and overflow only when they must, unless the exponent is no signed number
of 64 bits and the base is one whose powers do not grow, or a zero meets a zero with a minus sign.
-/
theorem power_exact_iff (ha : a.toRat = i) (he : e.toRat = n) (env : Environment) :
    (PowerExact a e i n env ↔ ¬ZeroToMinus a e ∧ (2 ^ 63 ≤ n → 2 ≤ |i|)) ∧
      (ZeroToMinus a e →
        (number a).combine .power (number e) env = .error (.divisionByZero .power)) ∧
      (¬ZeroToMinus a e → 2 ^ 63 ≤ n → (number a).combine .power (number e) env =
        .error (.overflow ArithmeticOperator.power.name)) := by
  refine ⟨?_, fun h => combine_power_zero h env, fun h hn => combine_power_of_le he h hn env⟩
  by_cases hstop : ZeroToMinus a e
  · have hn : n = 0 := Decimal.eq_zero_of_negative he hstop.2
    have hsmall : |i ^ n| < 2 ^ 96 := by rw [hn, pow_zero, abs_one]; norm_num
    have hnot := not_powerExact_of_error hsmall (combine_power_zero hstop env)
    exact iff_of_false hnot fun h => h.1 hstop
  · rcases lt_or_ge n (2 ^ 63) with hn | hn
    · exact iff_of_true (powerExact_of_lt ha he hstop hn env) ⟨hstop, fun h => absurd hn h.not_gt⟩
    · have hgrow := Decimal.abs_pow_lt_iff (i := i) hn
      have hoverflow := combine_power_of_le he hstop hn env
      rcases lt_or_ge |i| 2 with hi | hi
      · exact iff_of_false (not_powerExact_of_error (hgrow.mpr hi) hoverflow)
          fun h => absurd hi (h.2 hn).not_gt
      · rw [PowerExact, if_neg (mt hgrow.mp hi.not_gt)]
        exact iff_of_true hoverflow ⟨hstop, fun _ => hi⟩

end WholePower

/-- The fifth power of minus three is a number, to which the places of zeros make no difference. -/
theorem power_exact_odd :
    let a : Decimal := ⟨true, 300, 2, by decide, by decide⟩
    let e : Decimal := ⟨false, 50, 1, by decide, by decide⟩
    a.toRat = (-3 : ℤ) ∧ e.toRat = (5 : ℕ) ∧ PowerExact a e (-3) 5 .initial := by
  intro a e
  have ha : a.toRat = (-3 : ℤ) := by rw [Decimal.toRat_eq]; norm_num [a]
  have he : e.toRat = (5 : ℕ) := by rw [Decimal.toRat_eq]; norm_num [e]
  exact ⟨ha, he, (power_exact_iff ha he .initial).1.mpr
    ⟨fun h => absurd h.2 (by decide), fun h => absurd h (by norm_num)⟩⟩

/-- One to the power of `2 ^ 63` is one, and reported as an overflow; a zero to the power of a zero
is one, and a division by zero if there is a minus sign before the exponent. -/
theorem power_not_exact :
    let e : Decimal := .ofLiteral 9223372036854775808 0
    ((e.toRat = (2 ^ 63 : ℕ) ∧ ¬PowerExact .one e 1 (2 ^ 63) .initial) ∧
      (number .one).combine .power (number e) .initial =
        .error (.overflow ArithmeticOperator.power.name)) ∧
    (Decimal.zero.neg.toRat = (0 : ℕ) ∧ ¬PowerExact .zero Decimal.zero.neg 0 0 .initial) ∧
      (number .zero).combine .power (number Decimal.zero.neg) .initial =
        .error (.divisionByZero .power) := by
  intro e
  have he : e.toRat = (2 ^ 63 : ℕ) := by
    rw [Decimal.toRat_eq]
    have : e.coefficient = 2 ^ 63 ∧ e.scale = 0 ∧ e.negative = false := by decide
    norm_num [this]
  have hlong : (number .one).combine .power (number e) .initial =
      .error (.overflow ArithmeticOperator.power.name) := by decide
  have hminus : (number .zero).combine .power (number Decimal.zero.neg) .initial =
      .error (.divisionByZero .power) := by decide
  refine ⟨⟨⟨he, ?_⟩, hlong⟩, ⟨by simp, ?_⟩, hminus⟩
  · exact not_powerExact_of_error (by rw [one_pow]; norm_num) hlong
  · exact not_powerExact_of_error (by norm_num) hminus

end Value

end Reckoner
