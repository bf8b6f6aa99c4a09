import Reckoner.Proofs.Decimal.Product
import Reckoner.Value.Arithmetic
/-!
A fraction of a value. Main statement: the fraction is the product of the two, from either side, for
all values that have a number in them.
-/
namespace Reckoner

open Decimal

/-- The product does not depend on the order of its factors, not even in how it is written. -/
theorem Decimal.product_comm (a b : Decimal) : a.mul b = b.mul a := by
  have hsign : (a.negative != b.negative) = (b.negative != a.negative) := by
    cases a.negative <;> cases b.negative <;> rfl
  have hzero : (a.isZero || b.isZero) = (b.isZero || a.isZero) := Bool.or_comm _ _
  unfold mul
  simp only [hsign, hzero, Nat.mul_comm a.coefficient, Nat.add_comm a.scale,
    and_comm (a := a.coefficient < 2 ^ 32)]

namespace Value

variable {x w : Value} {m n : Decimal}

theorem exists_withMagnitude (hm : x.magnitude? = some m) (n : Decimal) :
    ∃ w, x.withMagnitude? n = some w := by
  rw [← Option.isSome_iff_exists, isSome_withMagnitude, hm]
  rfl

/-- The number that was taken out of a value, put back, restores the value. -/
theorem withMagnitude_back (hm : x.magnitude? = some m) (hw : x.withMagnitude? n = some w) :
    w.withMagnitude? m = some x := by
  cases x <;> cases hm <;> cases hw <;> rfl

theorem withMagnitude_eq_ok (hw : x.withMagnitude? n = some w) : x.withMagnitude n = .ok w := by
  rw [withMagnitude, hw, orError]

section Number

variable (hm : x.magnitude? = some m) (env : Environment)
include hm

/-- Beside a bare number on its right, only the number in a value is combined. -/
theorem combine_number_eq {op : ArithmeticOperator} (hop : x.takesNumber op = true) (n : Decimal) :
    x.combine op (number n) env = m.combine op n >>= x.withMagnitude := by
  have hcombine : x.combine op (number n) env = x.combineNumber op n := by
    -- Only the kinds with a number in them reach the arm for numbers.
    cases x <;> first | rfl | cases hm
  rw [hcombine, combineNumber, if_pos hop, hm]

theorem number_combine_eq {op : ArithmeticOperator} (hop : takesNumberBefore op x = true)
    (n : Decimal) : (number n).combine op x env = n.combine op m >>= x.withMagnitude := by
  have hcombine : (number n).combine op x env = combineNumberBefore n op x := by
    cases x <;> rfl
  rw [hcombine, combineNumberBefore, if_pos hop, hm]

variable (p : Decimal)

omit env in
theorem portion_eq :
    portion (number p) x = orError (m.mul p) (.overflow "percentage") >>= x.withMagnitude := by
  unfold portion
  rw [hm]

theorem multiply_number_eq :
    x.combine .multiply (number p) env =
      orError (m.mul p) (.overflow "multiplication") >>= x.withMagnitude := by
  have htakes : x.takesNumber .multiply = true := by
    cases x <;> first | rfl | cases hm
  exact combine_number_eq hm env htakes p

theorem number_multiply_eq :
    (number p).combine .multiply x env =
      orError (m.mul p) (.overflow "multiplication") >>= x.withMagnitude := by
  have htakes : takesNumberBefore .multiply x = true := by
    cases x <;> first | rfl | cases hm
  -- In front of a value the number is the first factor.
  rw [product_comm]
  exact number_combine_eq hm env htakes p

end Number

/-- A fraction of a value with a number in it is the product of the two, whichever of them is the
left factor: all three are the value with the nearest decimal of the product in place of its number,
or all three are out of range. -/
theorem portion_eq_multiply (hm : x.magnitude? = some m) (p : Decimal) (env : Environment) :
    (InRange (m.toRat * p.toRat) ∧
      ∃ w n, w.magnitude? = some n ∧ n.toRat = nearest (m.toRat * p.toRat) ∧
        w.withMagnitude? m = some x ∧
        portion (number p) x = .ok w ∧
        x.combine .multiply (number p) env = .ok w ∧
        (number p).combine .multiply x env = .ok w) ∨
    (¬InRange (m.toRat * p.toRat) ∧
      portion (number p) x = .error (.overflow "percentage") ∧
      x.combine .multiply (number p) env = .error (.overflow "multiplication") ∧
      (number p).combine .multiply x env = .error (.overflow "multiplication")) := by
  have hmul := map_toRat_mul m p
  rw [portion_eq hm, multiply_number_eq hm, number_multiply_eq hm]
  by_cases hrange : InRange (m.toRat * p.toRat)
  · obtain ⟨n, hn, hval⟩ := exists_of_map_toRat hmul hrange
    obtain ⟨w, hw⟩ := exists_withMagnitude hm n
    have hok : x.withMagnitude n = .ok w := withMagnitude_eq_ok hw
    left
    refine ⟨hrange, w, n, magnitude_withMagnitude x w n hw, hval, withMagnitude_back hm hw, ?_⟩
    rw [hn]
    exact ⟨hok, hok, hok⟩
  · right
    rw [eq_none_of_map_toRat hmul hrange]
    exact ⟨hrange, rfl, rfl, rfl⟩

/-- A third of five requests a second, to 28 places. -/
theorem portion_eq_multiply_third :
    let x : Value := .rate ⟨⟨.ofLiteral 5 0, "req"⟩, "s"⟩
    let p : Decimal := .ofLiteral 3333333333333333333333333333 28
    let w : Value := .rate ⟨⟨.ofLiteral 16666666666666666666666666665 28, "req"⟩, "s"⟩
    portion (number p) x = .ok w ∧ x.combine .multiply (number p) .initial = .ok w ∧
      (number p).combine .multiply x .initial = .ok w := by
  intro x p w
  have hw : portion (number p) x = .ok w := by decide +kernel
  obtain ⟨-, v, -, -, -, -, hv, hright, hleft⟩ | ⟨-, hover, -⟩ :=
    portion_eq_multiply (x := x) rfl p .initial
  · cases hv.symm.trans hw
    exact ⟨hv, hright, hleft⟩
  · cases hover.symm.trans hw

end Value
end Reckoner
