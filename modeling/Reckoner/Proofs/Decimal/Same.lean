import Mathlib.Data.Option.Basic
import Reckoner.Decimal.FixedPoint
import Reckoner.Proofs.Decimal.Quotient
/-!
Decimals that stand for one number, with whatever places and, for zero, with whatever sign. Main
statements: comparing them, cutting them at the point and putting them into sums, products,
quotients and remainders tells them apart as little as the numbers are.
-/
namespace Reckoner.Decimal

theorem same_iff (a b : Decimal) : a.same b = true ↔ a.toRat = b.toRat := by
  have hcompare : a.same b = true ↔ a.compare b = .eq := by
    rw [same, compare, beq_iff_eq, compare_eq_iff_eq]
  rw [hcompare, compare_eq, compare_eq_iff_eq]

theorem lt_iff (a b : Decimal) : a.lt b = true ↔ a.toRat < b.toRat := by
  rw [lt, compare_eq, beq_iff_eq, compare_lt_iff_lt]

@[simp] theorem same_self (a : Decimal) : a.same a = true := (same_iff a a).mpr rfl

/-- Two decimals stand for one number. -/
def Same (a b : Decimal) : Prop := a.toRat = b.toRat

theorem Same.refl (a : Decimal) : Same a a := rfl

/-- Two results stand for one number, or neither is there. -/
theorem rel_same_iff {o p : Option Decimal} :
    Option.Rel Same o p ↔ o.map toRat = p.map toRat := by
  cases o <;> cases p <;> simp [Same]

theorem rel_same_refl (o : Option Decimal) : Option.Rel Same o o := rel_same_iff.mpr rfl

theorem rel_bind {α β γ δ : Type} {V : α → β → Prop} {W : γ → δ → Prop} {o : Option α}
    {p : Option β} {f : α → Option γ} {g : β → Option δ} (h : Option.Rel V o p)
    (hf : ∀ a b, V a b → Option.Rel W (f a) (g b)) : Option.Rel W (o >>= f) (p >>= g) := by
  cases h with
  | some h => exact hf _ _ h
  | none => exact .none

theorem rel_map {α β γ δ : Type} {V : α → β → Prop} {W : γ → δ → Prop} {o : Option α}
    {p : Option β} {f : α → γ} {g : β → δ} (h : Option.Rel V o p)
    (hf : ∀ a b, V a b → W (f a) (g b)) : Option.Rel W (o.map f) (p.map g) := by
  cases h with
  | some h => exact .some (hf _ _ h)
  | none => exact .none

theorem neg_neg (a : Decimal) : a.neg.neg = a := by simp [neg]

theorem neg_awayFromZero (a : Decimal) : a.neg.awayFromZero = a.awayFromZero.neg := by
  by_cases h : a.isWhole = false
  · rw [awayFromZero, awayFromZero, dif_pos h, dif_pos (show a.neg.isWhole = false from h)]
    rfl
  · rw [awayFromZero, awayFromZero, dif_neg h, dif_neg (show ¬a.neg.isWhole = false from h)]
    rfl

theorem floor_eq_neg_ceil (a : Decimal) : a.floor = a.neg.ceil.neg := by
  rw [floor, ceil, neg_awayFromZero, show a.neg.negative = !a.negative from rfl]
  cases a.negative
  · exact (neg_neg a.trunc).symm
  · exact (neg_neg a.awayFromZero).symm

namespace Same

variable {a a' b b' : Decimal}

section Compare

theorem isZero_eq (h : Same a a') : a.isZero = a'.isZero := by
  rw [Bool.eq_iff_iff, isZero_iff, isZero_iff, h]

theorem isBelowZero_eq (h : Same a a') : a.isBelowZero = a'.isBelowZero := by
  rw [Bool.eq_iff_iff, isBelowZero_iff, isBelowZero_iff, h]

theorem compare_eq (h : Same a a') (h' : Same b b') : a.compare b = a'.compare b' := by
  rw [Decimal.compare_eq, Decimal.compare_eq, h, h']

theorem lt_eq (h : Same a a') (h' : Same b b') : a.lt b = a'.lt b' := by
  rw [lt, lt, h.compare_eq h']

theorem le_eq (h : Same a a') (h' : Same b b') : a.le b = a'.le b' := by
  rw [le, le, h.compare_eq h']

theorem same_eq (h : Same a a') (h' : Same b b') : a.same b = a'.same b' := by
  rw [Bool.eq_iff_iff, same_iff, same_iff, h, h']

/-- Only zeros are written with either sign. -/
theorem negative_eq (h : Same a a') (hz : a.isZero = false) : a.negative = a'.negative := by
  have hbelow := h.isBelowZero_eq
  rwa [isBelowZero, isBelowZero, ← h.isZero_eq, hz, Bool.not_false, Bool.and_true, Bool.and_true]
    at hbelow

theorem abs_eq (h : Same a a') :
    (a.coefficient : ℚ) / 10 ^ a.scale = a'.coefficient / 10 ^ a'.scale := by
  rw [← abs_toRat, ← abs_toRat, h]

end Compare

section Parts

/-- Written with one number of places, enough for both, the coefficients are one. -/
theorem coefficient_eq (h : Same a a') {k : ℕ} (hk : 28 ≤ k) :
    a.coefficient * 10 ^ (k - a.scale) = a'.coefficient * 10 ^ (k - a'.scale) := by
  have hscaled (c : Decimal) :
      ((c.coefficient * 10 ^ (k - c.scale) : ℕ) : ℚ) =
        (c.coefficient : ℚ) / 10 ^ c.scale * 10 ^ k := by
    obtain ⟨j, hj⟩ := Nat.exists_eq_add_of_le (c.scale_le.trans hk)
    rw [hj, Nat.add_sub_cancel_left, pow_add]
    push_cast
    field_simp
  have hcast := (hscaled a).trans ((congrArg (· * 10 ^ k) h.abs_eq).trans (hscaled a').symm)
  exact_mod_cast hcast

theorem wholePart_eq (h : Same a a') : a.wholePart = a'.wholePart := by
  -- The whole part is the floor of the size.
  have hfloor := congrArg Int.floor h.abs_eq
  rw [floor_coefficient, floor_coefficient] at hfloor
  exact_mod_cast hfloor

theorem isWhole_eq (h : Same a a') : a.isWhole = a'.isWhole := by
  rw [Bool.eq_iff_iff, isWhole_iff, isWhole_iff, h.abs_eq, h.wholePart_eq]

theorem toInt64?_eq (h : Same a a') : a.toInt64? = a'.toInt64? := by
  rw [Decimal.toInt64?_eq, Decimal.toInt64?_eq, h]

theorem toCount?_eq (h : Same a a') (hn : a.negative = a'.negative) : a.toCount? = a'.toCount? := by
  rw [toCount?, toCount?, h.isWhole_eq, h.wholePart_eq, hn]

/-- The digits after the point, with sixty places. -/
theorem fraction_eq (h : Same a a') :
    a.fraction * 10 ^ (FixedPoint.places - a.scale) =
      a'.fraction * 10 ^ (FixedPoint.places - a'.scale) := by
  have hscaled (c : Decimal) : c.fraction * 10 ^ (FixedPoint.places - c.scale) =
      c.coefficient * 10 ^ (FixedPoint.places - c.scale) % 10 ^ FixedPoint.places := by
    have hle : c.scale ≤ FixedPoint.places := c.scale_le.trans (by decide)
    rw [fraction, ← Nat.mul_mod_mul_right, ← pow_add, Nat.add_sub_cancel' hle]
  rw [hscaled, hscaled, h.coefficient_eq (by decide)]

end Parts

section Signs

theorem neg (h : Same a a') : Same a.neg a'.neg := by
  rw [Same, toRat_neg, toRat_neg, h]

theorem abs (h : Same a a') : Same a.abs a'.abs := by
  rw [Same, toRat_abs, toRat_abs, h]

theorem normalize (h : Same a a') : Same a.normalize a'.normalize := by
  rw [Same, toRat_normalize, toRat_normalize, h]

theorem ceil (h : Same a a') : Same a.ceil a'.ceil := by
  rw [Same, toRat_ceil, toRat_ceil, h]

theorem floor (h : Same a a') : Same a.floor a'.floor := by
  rw [Same, floor_eq_neg_ceil, floor_eq_neg_ceil, toRat_neg, toRat_neg, h.neg.ceil]

end Signs

section Arithmetic

theorem add (h : Same a a') (h' : Same b b') : Option.Rel Same (a.add b) (a'.add b') := by
  rw [rel_same_iff, map_toRat_add, map_toRat_add, h, h']

theorem sub (h : Same a a') (h' : Same b b') : Option.Rel Same (a.sub b) (a'.sub b') := by
  rw [rel_same_iff, map_toRat_sub, map_toRat_sub, h, h']

theorem mul (h : Same a a') (h' : Same b b') : Option.Rel Same (a.mul b) (a'.mul b') := by
  rw [rel_same_iff, map_toRat_mul, map_toRat_mul, h, h']

theorem div (h : Same a a') (h' : Same b b') : Option.Rel Same (a.div b) (a'.div b') := by
  -- Division by zero is not defined, with whatever sign the zero is written.
  by_cases hb : b.toRat = 0
  · have hnone (c d : Decimal) (hd : d.toRat = 0) : c.div d = none := by
      rw [Decimal.div, if_pos ((isZero_iff d).mpr hd)]
    rw [hnone a b hb, hnone a' b' (h' ▸ hb)]
    exact .none
  · have hb' : b'.toRat ≠ 0 := fun hz => hb (Eq.trans h' hz)
    rw [rel_same_iff, map_toRat_div _ _ hb, map_toRat_div _ _ hb', h, h']

theorem dividedBy (h : Same a a') (h' : Same b b') : Same (a.dividedBy b) (a'.dividedBy b') := by
  have hdiv := rel_same_iff.mp (h.div h')
  have hget (o : Option Decimal) : (o.getD zero).toRat = (o.map toRat).getD 0 := by
    cases o <;> simp
  rw [Same, Decimal.dividedBy, Decimal.dividedBy, hget, hget, hdiv]

end Arithmetic

end Same
end Reckoner.Decimal
