import Mathlib.Algebra.Order.Floor.Ring
import Mathlib.Tactic.FieldSimp
import Reckoner.Proofs.Decimal.Quotient
import Reckoner.Proofs.Gives
import Reckoner.Planning.Capacity
/-!
Counting the units that carry a load. Main statement: of operands whose numbers stand side by side
as they are, the count is the least whole number whose capacity carries the load with its buffer, as
long as neither has more than 27 digits.
-/
namespace Reckoner

open Decimal

namespace Decimal

theorem scale_ceil (a : Decimal) : a.ceil.scale = 0 := by
  unfold ceil awayFromZero
  split_ifs <;> rfl

/-- Taking trailing zeros off a whole number leaves its digits and takes the sign off a zero. -/
theorem ofInt?_signed {a : Decimal} (h : a.scale = 0) : ofInt? a.signed = some a.normalize := by
  obtain ⟨negative, c, scale, hc, hs⟩ := a
  subst h
  by_cases hz : c = 0
  · subst hz
    cases negative <;> rfl
  · have hpos : 0 < c := Nat.pos_of_ne_zero hz
    cases negative <;> simp [ofInt?, ofParts?, signed, normalize, isZero, dropZeros, hz, hc, hpos]

theorem ofInt?_ceil (a : Decimal) : ofInt? ⌈a.toRat⌉ = some a.ceil.normalize := by
  have hsigned : ⌈a.toRat⌉ = a.ceil.signed := by
    have hceil := a.toRat_ceil
    rw [toRat_eq_signed, a.scale_ceil, pow_zero, div_one] at hceil
    exact_mod_cast hceil.symm
  rw [hsigned, ofInt?_signed a.scale_ceil]

/-- No whole number lies between the quotient of two numbers of at most 27 digits and the decimal
nearest to it. -/
theorem ceil_nearest_div {n d : ℕ} (hn : n < 10 ^ 27) (hd : d < 10 ^ 27) (hpos : 0 < d) :
    ⌈nearest ((n : ℚ) / d)⌉ = ⌈(n : ℚ) / d⌉ := by
  have hdq : (0 : ℚ) < d := by exact_mod_cast hpos
  by_cases hdvd : d ∣ n
  · obtain ⟨m, rfl⟩ := hdvd
    have hm : m < 2 ^ 96 :=
      (Nat.le_mul_of_pos_left m hpos).trans_lt (hn.trans (by norm_num))
    have hwhole : ((d * m : ℕ) : ℚ) / d = m := by
      push_cast
      field_simp
    rw [hwhole, nearest_natCast hm]
  · -- The quotient is at least one part of the divisor above the whole number `m` before it.
    have hsplit : (n : ℚ) = d * (n / d : ℕ) + (n % d : ℕ) := by
      exact_mod_cast (Nat.div_add_mod n d).symm
    have hrest : (1 : ℚ) ≤ (n % d : ℕ) := by
      exact_mod_cast Nat.pos_of_ne_zero fun h => hdvd (Nat.dvd_of_mod_eq_zero h)
    have hrest' : ((n % d : ℕ) : ℚ) < d := by exact_mod_cast Nat.mod_lt n hpos
    have hm : n / d + 1 < 2 ^ 96 := by
      have := (Nat.div_le_self n d).trans_lt hn
      omega
    have hmd : (d : ℚ) * (n / d : ℕ) < 10 ^ 27 := by
      exact_mod_cast (Nat.mul_div_le n d).trans_lt hn
    have hdlt : (d : ℚ) < 10 ^ 27 := by exact_mod_cast hd
    generalize n / d = m at *
    generalize n % d = r at *
    have hquotient : (n : ℚ) / d = m + r / d := by
      rw [hsplit]
      field_simp
    have hfrac : (0 : ℚ) < r / d := div_pos (by linarith) hdq
    have hfrac' : (r : ℚ) / d ≤ 1 := ((div_lt_one hdq).mpr hrest').le
    have hupper : nearest ((n : ℚ) / d) ≤ m + 1 := by
      have hself := nearest_natCast hm
      have hmono := nearest_mono (x := (n : ℚ) / d) (y := ((m + 1 : ℕ) : ℚ))
        (by push_cast; linarith)
      rw [hself] at hmono
      exact_mod_cast hmono
    have hlower : (m : ℚ) < nearest ((n : ℚ) / d) := by
      have hfit : (m : ℚ) * 10 < limit := by
        have hone : (1 : ℚ) ≤ d := by exact_mod_cast hpos
        have hle : (m : ℚ) ≤ d * m := le_mul_of_one_le_left (Nat.cast_nonneg m) hone
        rw [limit]
        linarith
      -- Half a unit in the last digit of `m` is less than a part of the divisor.
      apply natCast_lt_nearest hfit
      rw [hquotient, add_sub_cancel_left, div_lt_div_iff₀ (by positivity) hdq]
      linarith
    have hceil : ⌈(n : ℚ) / d⌉ = m + 1 := by
      rw [Int.ceil_eq_iff, hquotient]
      push_cast
      constructor <;> linarith
    rw [hceil, Int.ceil_eq_iff]
    push_cast
    exact ⟨by linarith, hupper⟩

end Decimal

namespace Capacity

variable {load capacity : Value} {l c : Decimal} {buffer : Option Decimal}

/-- The count is worked out in three steps, each rounded to the nearest decimal, and rounded up to a
whole number in the end. -/
theorem exists_count {b : Decimal} (hfactor : InRange (1 + b.toRat))
    (hload : InRange (l.toRat * nearest (1 + b.toRat))) (hc : c.toRat ≠ 0)
    (hratio : InRange (nearest (l.toRat * nearest (1 + b.toRat)) / c.toRat)) :
    ∃ n, count l c b = some n ∧
      ofInt? ⌈nearest (nearest (l.toRat * nearest (1 + b.toRat)) / c.toRat)⌉ = some n := by
  have hadd := map_toRat_add one b
  rw [toRat_one] at hadd
  obtain ⟨f, hf, hfval⟩ := exists_of_map_toRat hadd hfactor
  have hmul := map_toRat_mul l f
  rw [hfval] at hmul
  obtain ⟨p, hp, hpval⟩ := exists_of_map_toRat hmul hload
  have hdiv := map_toRat_div p c hc
  rw [hpval] at hdiv
  obtain ⟨q, hq, hqval⟩ := exists_of_map_toRat hdiv hratio
  refine ⟨q.ceil.normalize, ?_, by rw [← hqval, ofInt?_ceil]⟩
  simp only [count, hf, hp, hq, Option.bind_eq_bind, Option.bind_some, Option.pure_def]

/-- Operands that can be compared are counted when the buffer and the load are not below zero and
the capacity is above it. -/
theorem requires_of_comparable (h : comparable load capacity = .ok (l, c))
    (hb : 0 ≤ (buffer.getD .zero).toRat) (hl : 0 ≤ l.toRat) (hc : 0 < c.toRat) :
    requires load capacity buffer =
      orError (count l c (buffer.getD .zero)) (.overflow "capacity planning") := by
  have hbuffer := (isBelowZero_eq_false_iff _).mpr hb
  have hload := (isBelowZero_eq_false_iff _).mpr hl
  have hcapacity : c.le zero = false := by
    rwa [← Bool.not_eq_true, le_iff, toRat_zero, not_le]
  rw [requires]
  simp only [hbuffer, h, ok_bind, hcapacity, hload, Bool.false_eq_true, if_false]

/-- A load and a capacity that are numbers, quantities in one unit or money in one currency, and the
numbers in them. -/
inductive Alongside : Value → Value → Decimal → Decimal → Prop
  | number (l c : Decimal) : Alongside (.number l) (.number c) l c
  | quantity (l c : Decimal) (unit : String) :
    Alongside (.quantity ⟨l, unit⟩) (.quantity ⟨c, unit⟩) l c
  | money {l c : Money} (hcode : l.code = c.code) :
    Alongside (.money l) (.money c) l.amount c.amount

theorem Alongside.comparable_eq (h : Alongside load capacity l c) :
    comparable load capacity = .ok (l, c) := by
  cases h with
  | number => rfl
  | quantity =>
    rw [comparable, convertUnit, if_pos rfl]
    rfl
  | money hcode => exact if_pos hcode

/-- The load with its buffer, before any rounding. -/
def buffered (load : Decimal) (buffer : Option Decimal) : ℚ :=
  load.toRat * (1 + (buffer.getD .zero).toRat)

/-- Numbers, quantities in one unit or money in one currency: both functions give the exact count if
adding the buffer needs no rounding, and the load with it and the capacity, both counted in one power
of ten, have at most 27 digits. It is the least whole number whose capacity carries that load. -/
theorem requires_exact (h : Alongside load capacity l c) (buffer : Option Decimal) (unit : String)
    {n d : ℕ} {k : ℤ} (hl : 0 ≤ l.toRat) (hc : 0 < c.toRat) (hb : 0 ≤ (buffer.getD .zero).toRat)
    (hfactor : ∃ f : Decimal, f.toRat = 1 + (buffer.getD .zero).toRat)
    (hload : ∃ p : Decimal, p.toRat = buffered l buffer) (hn : buffered l buffer = n / 10 ^ k)
    (hd : c.toRat = d / 10 ^ k) (hn27 : n < 10 ^ 27) (hd27 : d < 10 ^ 27) :
    ∃ (j : ℕ) (a : Decimal), requires load capacity buffer = .ok a ∧
      capacityAt load capacity unit buffer = .ok ⟨a, Text.trim unit⟩ ∧
      ofNat? j = some a ∧ (j : ℤ) = ⌈(n : ℚ) / d⌉ ∧
      buffered l buffer ≤ j * c.toRat ∧ ((j : ℚ) - 1) * c.toRat < buffered l buffer := by
  obtain ⟨f, hf⟩ := hfactor
  obtain ⟨p, hp⟩ := hload
  have hpow : (0 : ℚ) < 10 ^ k := zpow_pos (by norm_num) k
  have hdpos : 0 < d := by
    rw [hd, div_pos_iff_of_pos_right hpow] at hc
    exact_mod_cast hc
  have hratio : buffered l buffer / c.toRat = n / d := by
    rw [hn, hd, div_div_div_cancel_right₀ hpow.ne']
  -- Neither step before the quotient is rounded.
  have hfnear : nearest (1 + (buffer.getD .zero).toRat) = 1 + (buffer.getD .zero).toRat := by
    rw [← hf, nearest_toRat]
  have hpnear : nearest (buffered l buffer) = buffered l buffer := by rw [← hp, nearest_toRat]
  have hrange : InRange ((n : ℚ) / d) := by
    have hnq : (n : ℚ) < 10 ^ 27 := by exact_mod_cast hn27
    have hle : (n : ℚ) / d ≤ n := div_le_self (Nat.cast_nonneg n) (by exact_mod_cast hdpos)
    rw [InRange, abs_of_nonneg (by positivity), limit]
    linarith
  have hcount := exists_count (l := l) (c := c) (b := buffer.getD .zero)
  rw [hfnear, ← buffered, hpnear, hratio, ceil_nearest_div hn27 hd27 hdpos] at hcount
  obtain ⟨a, ha, hval⟩ := hcount (by rw [← hf]; exact f.inRange_toRat)
    (by rw [← hp]; exact p.inRange_toRat) hc.ne' hrange
  have hrequires : requires load capacity buffer = .ok a := by
    rw [requires_of_comparable h.comparable_eq hb hl hc, ha, orError]
  have hj : ((⌈(n : ℚ) / d⌉.toNat : ℕ) : ℤ) = ⌈(n : ℚ) / d⌉ :=
    Int.toNat_of_nonneg (Int.ceil_nonneg (by positivity))
  generalize ⌈(n : ℚ) / d⌉.toNat = j at hj
  rw [← hj] at hval
  obtain ⟨hlow, hhigh⟩ := Int.ceil_eq_iff.mp hj.symm
  rw [← hratio, div_le_iff₀ hc] at hhigh
  rw [← hratio, lt_div_iff₀ hc] at hlow
  exact ⟨j, a, hrequires, by rw [capacityAt, hrequires]; rfl, hval, hj, by exact_mod_cast hhigh,
    by exact_mod_cast hlow⟩

/-- A load that exceeds the capacity in the last of 27 digits takes a second unit. -/
theorem requires_exact_last_digit :
    requires (.money (.ofCode (ofLiteral (10 ^ 27 - 1) 3) "EUR"))
        (.money (.ofCode (ofLiteral (10 ^ 27 - 2) 3) "EUR")) (some .zero) = .ok .two ∧
      buffered (ofLiteral (10 ^ 27 - 1) 3) (some .zero) ≤
        (2 : ℕ) * (ofLiteral (10 ^ 27 - 2) 3).toRat := by
  have hload : (ofLiteral (10 ^ 27 - 1) 3).toRat = (10 ^ 27 - 1 : ℕ) / 10 ^ (3 : ℤ) := by
    decide +kernel
  have hcapacity : (ofLiteral (10 ^ 27 - 2) 3).toRat = (10 ^ 27 - 2 : ℕ) / 10 ^ (3 : ℤ) := by
    decide +kernel
  have hbuffered : buffered (ofLiteral (10 ^ 27 - 1) 3) (some .zero) =
      (ofLiteral (10 ^ 27 - 1) 3).toRat := by simp [buffered]
  have halongside : Alongside (.money (.ofCode (ofLiteral (10 ^ 27 - 1) 3) "EUR"))
      (.money (.ofCode (ofLiteral (10 ^ 27 - 2) 3) "EUR")) (ofLiteral (10 ^ 27 - 1) 3)
      (ofLiteral (10 ^ 27 - 2) 3) := .money rfl
  obtain ⟨j, a, hrequires, -, ha, hj, hcarries, -⟩ :=
    requires_exact halongside (some .zero) "account" (by rw [hload]; positivity)
      (by rw [hcapacity]; norm_num) (by simp) ⟨.one, by simp⟩ ⟨_, hbuffered.symm⟩
      (hbuffered.trans hload) hcapacity (by norm_num) (by norm_num)
  have htwo : ⌈((10 ^ 27 - 1 : ℕ) : ℚ) / (10 ^ 27 - 2 : ℕ)⌉ = 2 := by
    rw [Int.ceil_eq_iff]
    norm_num
  rw [htwo] at hj
  obtain rfl : j = 2 := by exact_mod_cast hj
  cases ha
  exact ⟨hrequires, hcarries⟩

end Capacity
end Reckoner
