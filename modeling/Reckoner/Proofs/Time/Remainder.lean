import Mathlib.Tactic.FieldSimp
import Mathlib.Tactic.Positivity
import Reckoner.Proofs.Decimal.Written
import Reckoner.Proofs.Time.Additive
/-!
Remainders of durations. The divisor is counted in the unit of the dividend, which rounds it, before
the remainder is taken. Main statement: the remainder is rendered as the exact one exactly if the
divisor does not divide the dividend, or is not rounded up.
-/
namespace Reckoner

open Decimal

namespace Decimal

/-- The remainder of sizes is what is left when the divisor is taken away as often as it goes. -/
theorem exists_rem {a b : Decimal} {k : ℕ} {x : ℚ} (h : |a.toRat| = k * |b.toRat| + x)
    (hx : 0 ≤ x) (hlt : x < |b.toRat|) :
    ∃ c, a.rem b = some c ∧ c.toRat = signFactor a.negative * x := by
  have hb : b.isZero = false := by
    rw [Bool.eq_false_iff, Ne, isZero_iff, ← abs_eq_zero]
    linarith
  have hunits (c : Decimal) : (c.units : ℚ) = |c.toRat| * 10 ^ 28 := by
    rw [abs_toRat, ← cast_units, div_mul_cancel₀ _ (by positivity)]
  have hsplit : (a.units : ℚ) = k * b.units + x * 10 ^ 28 := by
    rw [hunits, hunits, h]
    ring
  have hle : k * b.units ≤ a.units := by
    have hcast : ((k * b.units : ℕ) : ℚ) ≤ a.units := by
      rw [hsplit]
      push_cast
      have : 0 ≤ x * 10 ^ 28 := by positivity
      linarith
    exact_mod_cast hcast
  obtain ⟨r, hr⟩ := Nat.exists_eq_add_of_le hle
  have hrest : (r : ℚ) = x * 10 ^ 28 := by
    rw [hr] at hsplit
    push_cast at hsplit
    linarith
  have hrlt : r < b.units := by
    have hcast : (r : ℚ) < b.units := by
      rw [hrest, hunits]
      gcongr
    exact_mod_cast hcast
  have hmod : a.units % b.units = r := by
    rw [hr, mul_comm, Nat.mul_add_mod, Nat.mod_eq_of_lt hrlt]
  have hrem := map_toRat_rem a hb
  rw [hmod, hrest, mul_div_cancel_right₀ _ (by positivity)] at hrem
  exact Option.map_eq_some_iff.mp hrem

end Decimal

namespace TimeUnit

/-- The step between the ties at the tenth place, in halves of it and in seconds. -/
def tieStep (u : TimeUnit) : ℕ := Nat.gcd (2 * 10 ^ 10) u.seconds

theorem tieStep_spec (u : TimeUnit) :
    2 * 10 ^ 10 = u.tieStep * (2 * (10 ^ 10 / u.tieStep)) ∧
      u.seconds = u.tieStep * (2 * (u.seconds / u.tieStep / 2) + 1) := by
  cases u <;> decide +kernel

/-- A whole number of seconds counted in a unit is no tie at the tenth place. -/
theorem tieStep_le (u : TimeUnit) (r j : ℤ) :
    (u.tieStep : ℤ) ≤ |2 * 10 ^ 10 * r - (2 * j + 1) * u.seconds| := by
  obtain ⟨ha, hb⟩ := u.tieStep_spec
  generalize 10 ^ 10 / u.tieStep = a at ha
  generalize u.seconds / u.tieStep / 2 = b at hb
  have ha' : (2 * 10 ^ 10 : ℤ) = u.tieStep * (2 * a) := by exact_mod_cast ha
  have hb' : (u.seconds : ℤ) = u.tieStep * (2 * b + 1) := by exact_mod_cast hb
  have hodd : 2 * 10 ^ 10 * r - (2 * j + 1) * (u.seconds : ℤ) =
      u.tieStep * (2 * (a * r - j * (2 * b + 1) - b) - 1) := by
    rw [ha', hb']
    ring
  have hone : 1 ≤ |2 * (a * r - j * (2 * b + 1) - b) - 1| := by
    generalize (a : ℤ) * r - j * (2 * b + 1) - b = i
    rw [le_abs]
    omega
  rw [hodd, abs_mul, Nat.abs_cast]
  exact le_mul_of_one_le_right (by positivity) hone

/-- In years, few seconds are far from a tie: sixty-four steps if they are weighed by one more than
their number. -/
theorem sixtyFour_le_of_lt : ∀ r : ℕ, r < 63 → 0 < r →
    (64 : ℤ) ≤ |1250000 * (r : ℤ) % 3942 - 1971| * (r + 1) := by
  decide +kernel

theorem year_ties {r D : ℕ} (hr : 0 < r) (hrD : r < D) (j : ℤ) :
    (64 * 16000 : ℤ) ≤ |2 * 10 ^ 10 * (r : ℤ) - (2 * j + 1) * 31536000| * (D : ℤ) := by
  set t : ℤ := |1250000 * (r : ℤ) - (2 * j + 1) * 1971| with ht
  have hT : |2 * 10 ^ 10 * (r : ℤ) - (2 * j + 1) * 31536000| = 16000 * t := by
    rw [ht, ← abs_of_pos (show (0 : ℤ) < 16000 by norm_num), ← abs_mul]
    congr 1
    ring
  have hone : 1 ≤ t := by
    rw [ht, le_abs]
    omega
  have hD : (r : ℤ) + 1 ≤ D := by exact_mod_cast hrD
  have hweighed : 64 ≤ t * D := by
    rcases Nat.lt_or_ge r 63 with h | h
    · -- The nearest tie is the one in the same run of steps.
      have hnear : |1250000 * (r : ℤ) % 3942 - 1971| ≤ t := by
        rw [ht, abs_le, le_abs, neg_le, le_abs]
        omega
      calc (64 : ℤ) ≤ |1250000 * (r : ℤ) % 3942 - 1971| * (r + 1) := sixtyFour_le_of_lt r h hr
        _ ≤ t * D := by gcongr
    · have h63 : (64 : ℤ) ≤ D := by omega
      calc (64 : ℤ) ≤ 1 * D := by rwa [one_mul]
        _ ≤ t * D := by gcongr
  rw [hT]
  linarith

/-- How far the ties at the tenth place are from the remainder of a division by `D` seconds: far
enough for the places of a decimal, with a fiftieth to spare. -/
theorem ties_far (u : TimeUnit) {r D : ℕ} (hr : 0 < r) (hrD : r < D) (j : ℤ) :
    102 * (u.seconds : ℤ) ^ 2 ≤
        10 ^ 11 * (|2 * 10 ^ 10 * (r : ℤ) - (2 * j + 1) * u.seconds| * D) ∧
      (u.seconds : ℤ) ≤ 2000 * |2 * 10 ^ 10 * (r : ℤ) - (2 * j + 1) * u.seconds| := by
  have hstep := u.tieStep_le r j
  have hsmall : (u.seconds : ℤ) ≤ 2000 * u.tieStep := by
    cases u <;> decide +kernel
  refine ⟨?_, hsmall.trans (by gcongr)⟩
  by_cases hyear : u = .year
  · -- One step is too little in years, but then a divisor of few seconds leaves few of them.
    have hfar := year_ties hr hrD j
    rw [hyear, show (year.seconds : ℤ) = 31536000 from rfl]
    linarith
  · have hlarge : 102 * (u.seconds : ℤ) ^ 2 ≤ 10 ^ 11 * (u.tieStep * 2) := by
      cases u <;> first | decide +kernel | exact absurd rfl hyear
    have hD : (2 : ℤ) ≤ D := by exact_mod_cast (show 2 ≤ D by omega)
    refine hlarge.trans ?_
    gcongr

/-- What a number of seconds gains by being counted in the unit. -/
def countError (u : TimeUnit) (D : ℕ) : ℚ := nearest ((D : ℚ) / u.seconds) - D / u.seconds

section Remainder

variable {u : TimeUnit} {M D : ℕ}

/-- Every unit is longer than the seconds that a count of this size can lose. -/
theorem one_div_seconds_le (u : TimeUnit) : 1 / 31536000 ≤ 1 / (u.seconds : ℚ) := by
  have hpos := u.cast_seconds_pos
  gcongr
  exact u.cast_seconds_le

theorem one_div_le_length (u : TimeUnit) (hD : 0 < D) : 1 / (u.seconds : ℚ) ≤ D / u.seconds := by
  have hpos := u.cast_seconds_pos
  gcongr
  exact_mod_cast hD

/-- The division with remainder, in seconds, read in the unit. -/
theorem quotient_add_rest (u : TimeUnit) (M D : ℕ) :
    (M * u.seconds / D : ℕ) * ((D : ℚ) / u.seconds) + (M * u.seconds % D : ℕ) / u.seconds = M := by
  have hdiv : (D : ℚ) * (M * u.seconds / D : ℕ) + (M * u.seconds % D : ℕ) = M * u.seconds := by
    exact_mod_cast Nat.div_add_mod (M * u.seconds) D
  have hpos := u.cast_seconds_pos
  field_simp
  linarith

theorem quotient_mul_le (u : TimeUnit) (M D : ℕ) :
    (M * u.seconds / D : ℕ) * ((D : ℚ) / u.seconds) ≤ M := by
  have hsplit := u.quotient_add_rest M D
  have hrest : (0 : ℚ) ≤ (M * u.seconds % D : ℕ) / u.seconds := by positivity
  linarith

/-- How often `D` seconds go into the dividend is nothing against the places of the divisor. -/
theorem abs_quotient_mul_countError_lt (hM : M < 10 ^ 9) (hD : 0 < D)
    (hD' : D ≤ 10 ^ 9 * 31536000) :
    |(M * u.seconds / D : ℕ) * u.countError D| + |u.countError D| < 1 / 10 ^ 11 := by
  have herr : |u.countError D| ≤ _ := abs_nearest_sub_le_size ((D : ℚ) / u.seconds)
  have hle := u.quotient_mul_le M D
  have hpos := u.cast_seconds_pos
  set k := M * u.seconds / D with hk
  have hkle : (k : ℚ) ≤ 10 ^ 9 * 31536000 := by
    have hkM : k ≤ M * u.seconds := Nat.div_le_self _ _
    have hmul : M * u.seconds ≤ 10 ^ 9 * 31536000 := Nat.mul_le_mul hM.le u.seconds_le
    exact_mod_cast hkM.trans hmul
  have hDle : (D : ℚ) / u.seconds ≤ 10 ^ 9 * 31536000 := by
    have hcast : (D : ℚ) ≤ 10 ^ 9 * 31536000 := by exact_mod_cast hD'
    exact (div_le_self (by positivity) u.one_le_seconds).trans hcast
  have hMlt : (M : ℚ) < 10 ^ 9 := by exact_mod_cast hM
  rw [abs_of_nonneg (by positivity : (0 : ℚ) ≤ D / u.seconds)] at herr
  calc |(k : ℚ) * u.countError D| + |u.countError D|
      = (k + 1) * |u.countError D| := by rw [abs_mul, Nat.abs_cast, add_mul, one_mul]
    _ ≤ (k + 1) * ((1 / 2 + 2 / 3 * (D / u.seconds)) / 10 ^ 28) := by gcongr
    _ = ((k + 1) / 2 + 2 / 3 * (k * (D / u.seconds) + D / u.seconds)) / 10 ^ 28 := by ring
    _ < 1 / 10 ^ 11 := by
        rw [div_lt_div_iff₀ (by positivity) (by positivity)]
        linarith

/-- What the divisor has gained, as often as it is taken away, carries no rest over a tie. -/
theorem halfEven_rest_sub (hM : M < 10 ^ 9) (hD : 0 < D) (hr : 0 < M * u.seconds % D) :
    halfEven (((M * u.seconds % D : ℕ) / u.seconds -
        (M * u.seconds / D : ℕ) * u.countError D) * 10 ^ 10) =
      halfEven ((M * u.seconds % D : ℕ) / u.seconds * 10 ^ 10) := by
  have hrD := Nat.mod_lt (M * u.seconds) hD
  have herr : |u.countError D| ≤ _ := abs_nearest_sub_le_size ((D : ℚ) / u.seconds)
  have hle := u.quotient_mul_le M D
  have hkD : ((M * u.seconds / D : ℕ) : ℚ) * D ≤ 10 ^ 9 * u.seconds := by
    have hdiv : M * u.seconds / D * D ≤ 10 ^ 9 * u.seconds :=
      (Nat.div_mul_le_self _ _).trans (Nat.mul_le_mul_right _ hM.le)
    exact_mod_cast hdiv
  set k := M * u.seconds / D with hk
  set r := M * u.seconds % D with hr'
  have hpos := u.cast_seconds_pos
  have hMlt : (M : ℚ) < 10 ^ 9 := by exact_mod_cast hM
  have hDpos : (0 : ℚ) < D := by exact_mod_cast hD
  rw [sub_mul]
  apply halfEven_sub_eq
  intro j
  obtain ⟨hfar, hsmall⟩ := ties_far u hr hrD j
  set T := |2 * 10 ^ 10 * (r : ℤ) - (2 * j + 1) * u.seconds| with hT
  have hfar' : 102 * (u.seconds : ℚ) ^ 2 ≤ 10 ^ 11 * (T * D) := by exact_mod_cast hfar
  have hsmall' : (u.seconds : ℚ) ≤ 2000 * T := by exact_mod_cast hsmall
  -- In halves of the tenth place and in seconds, the way to the tie is the whole number `T`.
  have hway : |(r : ℚ) / u.seconds * 10 ^ 10 - (j + 1 / 2)| = (T : ℚ) / (2 * u.seconds) := by
    rw [hT, eq_div_iff (by positivity), ← abs_of_pos (by positivity : (0 : ℚ) < 2 * u.seconds),
      ← abs_mul, Int.cast_abs]
    congr 1
    push_cast
    field_simp
    ring
  have hcount : 102 * (k * u.seconds) ≤ 10 ^ 20 * (T : ℚ) := by
    refine le_of_mul_le_mul_right ?_ hDpos
    calc 102 * (k * u.seconds) * (D : ℚ)
        = 102 * u.seconds * (k * D) := by ring
      _ ≤ 102 * u.seconds * (10 ^ 9 * u.seconds) := by gcongr
      _ = 10 ^ 9 * (102 * (u.seconds : ℚ) ^ 2) := by ring
      _ ≤ 10 ^ 9 * (10 ^ 11 * (T * D)) := by gcongr
      _ = 10 ^ 20 * (T : ℚ) * D := by ring
  have hlength : (k : ℚ) * (D / u.seconds) * u.seconds ≤ 10 ^ 9 * (2000 * T) := by
    gcongr
    exact hle.trans hMlt.le
  rw [hway, lt_div_iff₀ (by positivity), abs_mul, abs_mul, Nat.abs_cast,
    abs_of_pos (by positivity : (0 : ℚ) < 10 ^ 10)]
  rw [abs_of_nonneg (by positivity : (0 : ℚ) ≤ D / u.seconds)] at herr
  -- The error has a part for the 28th place and one for the size of the divisor.
  calc (k : ℚ) * |u.countError D| * 10 ^ 10 * (2 * u.seconds)
      ≤ k * ((1 / 2 + 2 / 3 * (D / u.seconds)) / 10 ^ 28) * 10 ^ 10 * (2 * u.seconds) := by gcongr
    _ = ((k : ℚ) * u.seconds + 4 / 3 * (k * (D / u.seconds) * u.seconds)) / 10 ^ 18 := by ring
    _ < T := by
        rw [div_lt_iff₀ (by positivity)]
        linarith

/-- What is left of `M` units when `D` seconds, counted in the unit, are taken away as often as they
go. -/
def Leaves (u : TimeUnit) (M D : ℕ) (R : ℚ) : Prop :=
  ∃ k : ℕ, (M : ℚ) = k * nearest (D / u.seconds) + R ∧ 0 ≤ R ∧ R < nearest (D / u.seconds)

theorem nearest_eq_add_countError (u : TimeUnit) (D : ℕ) :
    nearest ((D : ℚ) / u.seconds) = D / u.seconds + u.countError D :=
  (add_sub_cancel _ _).symm

/-- The counted divisor goes as often as the exact one, if there is enough for what it has
gained. -/
theorem leaves_of_le (hM : M < 10 ^ 9) (hD : 0 < D) (hD' : D ≤ 10 ^ 9 * 31536000)
    (hle : (M * u.seconds / D : ℕ) * u.countError D ≤ (M * u.seconds % D : ℕ) / u.seconds) :
    u.Leaves M D ((M * u.seconds % D : ℕ) / u.seconds -
      (M * u.seconds / D : ℕ) * u.countError D) := by
  have hsplit := u.quotient_add_rest M D
  have herr := abs_quotient_mul_countError_lt (u := u) hM hD hD'
  have hsecond := u.one_div_seconds_le
  -- At least a second of the exact divisor is not left.
  have hlast : (M * u.seconds % D : ℕ) / (u.seconds : ℚ) + 1 / u.seconds ≤ D / u.seconds := by
    rw [← add_div]
    have hpos := u.cast_seconds_pos
    gcongr
    exact_mod_cast Nat.mod_lt (M * u.seconds) hD
  set e := u.countError D with he
  set k := M * u.seconds / D with hk
  have hlow := neg_abs_le (k * e)
  have hlow' := neg_abs_le e
  rw [Leaves, nearest_eq_add_countError, ← he]
  refine ⟨k, ?_, ?_, ?_⟩
  · rw [mul_add]
    linarith
  · linarith
  · linarith

/-- The counted divisor goes once less than the exact one, if nothing is left and it has gained
anything. -/
theorem leaves_of_gain (hM : M < 10 ^ 9) (hD : 0 < D) (hD' : D ≤ 10 ^ 9 * 31536000)
    (hr : M * u.seconds % D = 0) (hk0 : 0 < M * u.seconds / D) (hlt : 0 < u.countError D) :
    u.Leaves M D (nearest (D / u.seconds) - (M * u.seconds / D : ℕ) * u.countError D) := by
  have hsplit := u.quotient_add_rest M D
  have herr := abs_quotient_mul_countError_lt (u := u) hM hD hD'
  have hsecond := u.one_div_seconds_le
  have hlength := u.one_div_le_length hD
  rw [hr, Nat.cast_zero, zero_div, add_zero] at hsplit
  rw [Leaves, nearest_eq_add_countError]
  set e := u.countError D with he
  obtain ⟨k, hk⟩ := Nat.exists_eq_add_of_le' hk0
  rw [hk] at hsplit herr ⊢
  push_cast at hsplit herr ⊢
  have hhigh := le_abs_self ((k + 1) * e)
  have hmul : 0 < ((k : ℚ) + 1) * e := by positivity
  rw [abs_of_pos hlt] at herr
  refine ⟨k, ?_, ?_, ?_⟩
  · rw [← hsplit]
    ring
  · linarith
  · linarith

/-- What is left then is almost a whole divisor, which the tenth place shows. -/
theorem two_le_halfEven_gain (hM : M < 10 ^ 9) (hD : 0 < D) (hD' : D ≤ 10 ^ 9 * 31536000)
    (hlt : 0 < u.countError D) :
    2 ≤ halfEven ((nearest (D / u.seconds) -
      (M * u.seconds / D : ℕ) * u.countError D) * 10 ^ 10) := by
  have herr := abs_quotient_mul_countError_lt (u := u) hM hD hD'
  have hsecond := u.one_div_seconds_le
  have hlength := u.one_div_le_length hD
  have hhigh := le_abs_self ((M * u.seconds / D : ℕ) * u.countError D)
  rw [le_halfEven_iff even_two, nearest_eq_add_countError]
  push_cast
  linarith [abs_nonneg (u.countError D)]

/-- The counted divisor leaves what the exact one leaves, as far as the tenth place can tell, unless
that is nothing and it has gained anything. -/
theorem exists_leaves (hM : M < 10 ^ 9) (hD : 0 < D) (hD' : D ≤ 10 ^ 9 * 31536000) :
    ∃ R, u.Leaves M D R ∧
      (halfEven (R * 10 ^ 10) = halfEven ((M * u.seconds % D : ℕ) / u.seconds * 10 ^ 10) ↔
        ¬(D ∣ M * u.seconds ∧ M ≠ 0 ∧ (D : ℚ) / u.seconds < nearest (D / u.seconds))) := by
  have herr := abs_quotient_mul_countError_lt (u := u) hM hD hD'
  have hgain : (D : ℚ) / u.seconds < nearest (D / u.seconds) ↔ 0 < u.countError D := by
    rw [countError, sub_pos]
  rw [hgain, Nat.dvd_iff_mod_eq_zero]
  rcases Nat.eq_zero_or_pos (M * u.seconds % D) with hr | hr
  · rw [hr, Nat.cast_zero, zero_div, zero_mul, halfEven_zero]
    by_cases hlost : M ≠ 0 ∧ 0 < u.countError D
    · -- Almost a whole divisor is left.
      have hk0 : 0 < M * u.seconds / D :=
        Nat.div_pos (Nat.le_of_dvd (Nat.mul_pos (Nat.pos_of_ne_zero hlost.1) u.seconds_pos)
          (Nat.dvd_of_mod_eq_zero hr)) hD
      have hsize := two_le_halfEven_gain (u := u) hM hD hD' hlost.2
      exact ⟨_, leaves_of_gain hM hD hD' hr hk0 hlost.2,
        iff_of_false (by omega) (not_not.mpr ⟨rfl, hlost⟩)⟩
    · have hle : (M * u.seconds / D : ℕ) * u.countError D ≤ 0 := by
        rcases Nat.eq_zero_or_pos M with rfl | h0
        · simp
        · exact mul_nonpos_of_nonneg_of_nonpos (Nat.cast_nonneg _)
            (not_lt.mp fun h => hlost ⟨h0.ne', h⟩)
      have hleaves := leaves_of_le hM hD hD' (by rwa [hr, Nat.cast_zero, zero_div])
      rw [hr, Nat.cast_zero, zero_div, zero_sub] at hleaves
      refine ⟨_, hleaves, iff_of_true (halfEven_eq_of_lt ?_) fun h => hlost h.2⟩
      rw [Int.cast_zero, sub_zero, neg_mul, abs_neg, abs_mul,
        abs_of_pos (by positivity : (0 : ℚ) < 10 ^ 10)]
      linarith [abs_nonneg (u.countError D)]
  · -- A whole second is left, and that is enough.
    have hsecond := u.one_div_seconds_le
    have hrest : 1 / (u.seconds : ℚ) ≤ (M * u.seconds % D : ℕ) / u.seconds :=
      u.one_div_le_length hr
    have hhigh := le_abs_self ((M * u.seconds / D : ℕ) * u.countError D)
    exact ⟨_, leaves_of_le hM hD hD' (by linarith [abs_nonneg (u.countError D)]),
      iff_of_true (halfEven_rest_sub hM hD hr) fun h => hr.ne' h.1⟩

end Remainder

end TimeUnit

/-- Both the remainder of whole numbers and that of decimals have the sign of the dividend. -/
theorem cast_tmod {a b : ℤ} {k : ℕ} {s : Bool} (h : (a : ℚ) = signFactor s * k) :
    ((a.tmod b : ℤ) : ℚ) = signFactor s * (k % b.natAbs : ℕ) := by
  have habs : (k : ℤ).tmod b = (k % b.natAbs : ℕ) := by
    rcases Int.natAbs_eq b with hb | hb
    · rw [hb, Int.natAbs_natCast, Int.ofNat_tmod]
    · rw [hb, Int.tmod_neg, Int.natAbs_neg, Int.natAbs_natCast, Int.ofNat_tmod]
  cases s with
  | true =>
    have ha : a = -(k : ℤ) := by
      rw [signFactor_true, neg_one_mul] at h
      exact_mod_cast h
    rw [ha, Int.neg_tmod, habs, signFactor_true, neg_one_mul, Int.cast_neg, Int.cast_natCast]
  | false =>
    have ha : a = (k : ℤ) := by
      rw [signFactor_false, one_mul] at h
      exact_mod_cast h
    rw [ha, habs, signFactor_false, one_mul, Int.cast_natCast]

namespace TimeUnit

/-- What `s` seconds are shown as in the unit when nothing is rounded before. -/
def exactText (u : TimeUnit) (s : ℤ) : String := renderedRat (s / u.seconds) ++ " " ++ u.name

/-- Counting `s` seconds in the unit rounds their number up. -/
def RoundsUp (u : TimeUnit) (s : ℤ) : Prop :=
  |(s : ℚ)| / u.seconds < nearest (|(s : ℚ)| / u.seconds)

instance (u : TimeUnit) (s : ℤ) : Decidable (u.RoundsUp s) := inferInstanceAs (Decidable (_ < _))

end TimeUnit

namespace Value

theorem halfEven_signFactor_mul_inj {s : Bool} {x y : ℚ} :
    halfEven (signFactor s * x) = halfEven (signFactor s * y) ↔ halfEven x = halfEven y := by
  cases s <;> simp

theorem combine_modulo {p q r : Duration} {c : Decimal} (env : Environment)
    (hr : q.inUnit p.unit = .ok r) (h0 : r.value.isZero = false)
    (hc : p.value.rem r.value = some c) :
    combine (duration p) .modulo (duration q) env = .ok (duration ⟨c, p.unit⟩) := by
  have hn : p.value.combine .modulo r.value = .ok c := by
    rw [Decimal.combine, h0, hc]
    rfl
  have hcombine : p.combine .modulo q = (do
      let other ← q.inUnit p.unit
      let n ← p.value.combine .modulo other.value
      pure (duration ⟨n, p.unit⟩)) := rfl
  show p.combine .modulo q = _
  rw [hcombine, hr]
  show (do let n ← p.value.combine .modulo r.value; pure (duration ⟨n, p.unit⟩)) = _
  rw [hn]
  rfl

/-- The remainder of two durations of whole numbers of units is counted in the unit of the first.
It is rendered as the remainder of the seconds is, exactly if the second does not divide the first,
or is not rounded up when it is counted in that unit. -/
theorem durations_modulo_iff (p q : Duration) (env : Environment) {m n : ℤ}
    (hp : p.value.toRat = m) (hq : q.value.toRat = n) (hm : |m| < 10 ^ 9) (hn : |n| < 10 ^ 9)
    (hn0 : n ≠ 0) :
    ∃ r : Duration, combine (duration p) .modulo (duration q) env = .ok (duration r) ∧
      r.unit = p.unit ∧
      (r.text = p.unit.exactText ((m * p.unit.seconds).tmod (n * q.unit.seconds)) ↔
        ¬(n * q.unit.seconds ∣ m * (p.unit.seconds : ℤ) ∧ m ≠ 0 ∧
          p.unit.RoundsUp (n * q.unit.seconds))) := by
  have hM : m.natAbs < 10 ^ 9 := by
    rw [Int.abs_eq_natAbs] at hm
    exact_mod_cast hm
  have hN : n.natAbs < 10 ^ 9 := by
    rw [Int.abs_eq_natAbs] at hn
    exact_mod_cast hn
  set u := p.unit with hu
  set D := (n * q.unit.seconds : ℤ).natAbs with hD
  have hDcast : (D : ℚ) = |((n * q.unit.seconds : ℤ) : ℚ)| := by
    rw [hD, Nat.cast_natAbs, Int.cast_abs]
  have hDpos : 0 < D :=
    Int.natAbs_pos.mpr (mul_ne_zero hn0 (by exact_mod_cast q.unit.seconds_pos.ne'))
  have hDle : D ≤ 10 ^ 9 * 31536000 := by
    rw [hD, Int.natAbs_mul, Int.natAbs_natCast]
    exact Nat.mul_le_mul hN.le q.unit.seconds_le
  have hmcast : (m.natAbs : ℚ) = |(m : ℚ)| := by rw [Nat.cast_natAbs, Int.cast_abs]
  -- The divisor is counted in the unit of the dividend.
  obtain ⟨r, hr, hunit, hcounts⟩ := Duration.exists_inUnit hq hn u
  have hsize : |r.value.toRat| = nearest (D / u.seconds) := by
    rw [hcounts, hunit, abs_nearest, abs_div, Nat.abs_cast, hDcast]
  obtain ⟨R, ⟨k, hsplit, hR, hlt⟩, hiff⟩ :=
    TimeUnit.exists_leaves (u := u) hM hDpos hDle
  have h0 : r.value.isZero = false := by
    rw [isZero_eq_false_iff, ← abs_pos, hsize]
    exact hR.trans_lt hlt
  rw [← hsize, hmcast, ← hp] at hsplit
  obtain ⟨c, hc, hval⟩ := exists_rem hsplit hR (by rwa [hsize])
  refine ⟨⟨c, u⟩, combine_modulo env hr h0 hc, rfl, ?_⟩
  -- The sign is the same on both sides, so only the sizes matter.
  have hsign : (m : ℚ) = signFactor p.value.negative * m.natAbs := by
    rw [hmcast, ← hp, abs_toRat, toRat_eq]
  have htmod := cast_tmod (b := n * q.unit.seconds) (k := m.natAbs * u.seconds)
    (a := m * u.seconds) (s := p.value.negative) (by push_cast; rw [hsign]; ring)
  have hdvd : D ∣ m.natAbs * u.seconds ↔ n * q.unit.seconds ∣ m * (u.seconds : ℤ) := by
    rw [← Int.natAbs_dvd_natAbs, Int.natAbs_mul m, Int.natAbs_natCast]
  rw [hdvd, Int.natAbs_ne_zero, hDcast] at hiff
  rw [← hD] at htmod
  rw [Duration.text, TimeUnit.exactText, String.append_left_inj, String.append_left_inj,
    rendered_eq, renderedRat_inj, hval, htmod, mul_div_assoc, mul_assoc, mul_assoc, halfEven_signFactor_mul_inj]
  exact hiff

/-- Forty minutes go into an hour once, and the twenty that are left are a third of it. -/
theorem durations_modulo_third :
    ∃ r : Duration, combine (duration ⟨.one, .hour⟩) .modulo (duration ⟨.ofUInt64 40, .minute⟩)
        .initial = .ok (duration r) ∧
      r.unit = .hour ∧ r.text = "0.3333333333 hour" := by
  obtain ⟨r, hr, hunit, htext⟩ :=
    durations_modulo_iff ⟨.one, .hour⟩ ⟨.ofUInt64 40, .minute⟩ .initial (m := 1) (n := 40)
      (by decide +kernel) (by decide +kernel) (by decide) (by decide) (by decide)
  refine ⟨r, hr, hunit, (htext.mpr ?_).trans (by decide +kernel)⟩
  exact fun h => absurd h.1 (by decide)

/-- They go into two hours three times, but two thirds of an hour are left, since what is taken away
is rounded up. -/
theorem durations_modulo_leaves_divisor :
    (combine (duration ⟨.two, .hour⟩) .modulo (duration ⟨.ofUInt64 40, .minute⟩) .initial).map
        text = .ok "0.6666666667 hour" ∧
      TimeUnit.hour.exactText ((2 * TimeUnit.hour.seconds : ℤ).tmod
        (40 * TimeUnit.minute.seconds)) = "0 hour" :=
  ⟨by decide +kernel, by decide +kernel⟩

end Value

end Reckoner
