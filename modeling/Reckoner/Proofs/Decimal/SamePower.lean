import Reckoner.Decimal.Exponential
import Reckoner.Proofs.Alike
import Reckoner.Proofs.Decimal.SameRounded
import Reckoner.Value.Number
/-!
Powers, logarithms and roots of decimals that stand for one number. Main statements: a power is told
by the numbers of its base and its exponent, but for the sign of a zero, which counts in front of an
exponent and in front of the base of a power whose exponent is not whole; a root is told by the
number, but for the sign of a zero.
-/
namespace Reckoner.Decimal

/-- Two numbers with a count beside them, which is the same. -/
def SameCounted (p q : Decimal × Int) : Prop := Same p.1 q.1 ∧ p.2 = q.2

namespace Same

variable {a a' b b' : Decimal}

section Whole

theorem powFrom {acc acc' : Decimal} (h : Same a a') (hacc : Same acc acc') (digits n : ℕ) :
    Option.Rel Same (Decimal.powFrom digits n a acc) (Decimal.powFrom digits n a' acc') := by
  induction digits generalizing n a a' acc acc' with
  | zero => exact .some hacc
  | succ digits ih =>
    rw [Decimal.powFrom, Decimal.powFrom]
    -- What is left to do is the same whether this digit calls for the base or not.
    have hrest (c c' : Decimal) (hc : Same c c') :
        Option.Rel Same
          (if digits = 0 then some c else a.mul a >>= fun d => Decimal.powFrom digits (n / 2) d c)
          (if digits = 0 then some c'
            else a'.mul a' >>= fun d => Decimal.powFrom digits (n / 2) d c') := by
      split
      · exact .some hc
      · exact rel_bind (h.mul h) fun d d' hd => ih hd hc _
    split
    · exact rel_bind (hacc.mul h) hrest
    · exact hrest _ _ hacc

theorem powLong (h : Same a a') (ha : a.isZero = false) (n : ℕ) :
    Option.Rel Same (a.powLong n) (a'.powLong n) := by
  have hbase := h.coefficient_eq (k := FixedPoint.places) (by decide)
  rw [Decimal.powLong, Decimal.powLong, ← hbase, ← h.negative_eq ha]
  exact rel_same_iff.mpr rfl

theorem powNat (h : Same a a') (n : ℕ) : Option.Rel Same (a.powNat n) (a'.powNat n) := by
  rw [Decimal.powNat, Decimal.powNat, ← h.isZero_eq, ← h.same_eq (.refl one)]
  split
  · exact rel_same_refl _
  · split
    · exact rel_same_refl _
    · next ha =>
      split
      · exact rel_same_refl _
      · -- A zero base has been dealt with, so the sign of the base is that of its number.
        split
        · exact .some h
        · split
          · exact h.mul h
          · split
            · exact rel_map (h.powFrom (.refl one) _ _) fun _ _ hc => hc.normalize
            · exact h.powLong (by simpa using ha) n

theorem powInt (h : Same a a') (n : ℤ) : Option.Rel Same (a.powInt n) (a'.powInt n) := by
  rw [Decimal.powInt, Decimal.powInt]
  split
  · exact h.powNat _
  · exact rel_bind (h.powNat _) fun p p' hp => Same.div (.refl one) hp

end Whole

section Logarithm

theorem reduceTens (h : Same a a') (fuel : ℕ) (n : ℤ) :
    Option.Rel SameCounted (Decimal.reduceTens fuel a n) (Decimal.reduceTens fuel a' n) := by
  induction fuel generalizing a a' n with
  | zero => exact .none
  | succ fuel ih =>
    rw [Decimal.reduceTens, Decimal.reduceTens, ← Same.le_eq (.refl ten) h,
      ← h.lt_eq (.refl one)]
    split
    · exact rel_bind (h.div (.refl ten)) fun c c' hc => ih hc _
    · split
      · exact rel_bind (h.mul (.refl ten)) fun c c' hc => ih hc _
      · exact .some ⟨h, rfl⟩

theorem reduceDown (h : Same a a') (fuel : ℕ) (n : ℤ) :
    Option.Rel SameCounted (Decimal.reduceDown fuel a n) (Decimal.reduceDown fuel a' n) := by
  induction fuel generalizing a a' n with
  | zero => exact .none
  | succ fuel ih =>
    rw [Decimal.reduceDown, Decimal.reduceDown, ← h.lt_eq (.refl one)]
    split
    · exact .some ⟨h, rfl⟩
    · exact rel_bind (h.mul (.refl inverseE)) fun c c' hc => ih hc _

theorem reduceUp (h : Same a a') (n : ℤ) :
    Option.Rel SameCounted (Decimal.reduceUp a n) (Decimal.reduceUp a' n) := by
  rw [Decimal.reduceUp, Decimal.reduceUp, ← h.le_eq (.refl inverseE)]
  split
  · exact rel_bind (h.mul (.refl e)) fun c c' hc => .some ⟨hc, rfl⟩
  · exact .some ⟨h, rfl⟩

theorem logInverse (h : Same a a') : Option.Rel Same a.logInverse a'.logInverse := by
  refine rel_bind (Same.sub (.refl one) h) fun d d' hd => ?_
  refine rel_bind (Same.add (.refl one) h) fun s s' hs => ?_
  refine rel_bind (hd.div hs) fun z z' hz => ?_
  rw [hz.coefficient_eq (k := FixedPoint.places) (by decide)]
  exact rel_same_refl _

theorem log (h : Same a a') : Option.Rel Same a.log a'.log := by
  -- The counts of tens and of `e` hang on comparisons only, so they are the same.
  refine rel_bind (h.reduceTens 64 0) ?_
  rintro ⟨x, tens⟩ ⟨x', _⟩ ⟨hx, rfl⟩
  refine rel_bind (hx.reduceDown 8 0) ?_
  rintro ⟨x, n⟩ ⟨x', _⟩ ⟨hx, rfl⟩
  refine rel_bind (hx.reduceUp n) ?_
  rintro ⟨x, n⟩ ⟨x', _⟩ ⟨hx, rfl⟩
  refine rel_bind (rel_same_refl (ofInt? n)) fun whole whole' hwhole => ?_
  refine rel_bind hx.logInverse fun rest rest' hrest => ?_
  refine rel_bind (hwhole.sub hrest) fun l l' hl => ?_
  dsimp only
  split
  · exact .some hl
  · refine rel_bind (rel_same_refl (ofInt? tens)) fun count count' hcount => ?_
    exact rel_bind (hcount.mul (.refl logTen)) fun shift shift' hshift => hshift.add hl

end Logarithm

section Exponential

theorem expPositive (h : Same a a') : a.expPositive = a'.expPositive := by
  rw [Decimal.expPositive, Decimal.expPositive, h.wholePart_eq, h.fraction_eq]

theorem exp (h : Same a a') : Option.Rel Same a.exp a'.exp := by
  rw [Decimal.exp, Decimal.exp, ← h.isZero_eq]
  split
  · exact rel_same_refl _
  · next ha =>
    rw [← h.negative_eq (by simpa using ha), ← h.abs.expPositive, ← h.expPositive]
    split
    · exact rel_same_refl _
    · exact rel_same_refl _

theorem powReal (h : Same a a') (h' : Same b b') :
    Option.Rel Same (a.powReal b) (a'.powReal b') := by
  rw [Decimal.powReal, Decimal.powReal, ← h.isZero_eq, ← h.same_eq (.refl one)]
  split
  · exact rel_same_refl _
  · split
    · exact rel_same_refl _
    · refine rel_bind h.log fun l l' hl => ?_
      refine rel_bind (hl.mul h') fun m m' hm => ?_
      exact rel_map hm.exp fun _ _ hc => hc.normalize

end Exponential

section Root

theorem average (h : Same a a') (h' : Same b b') :
    Option.Rel Same (a.average b) (a'.average b') := by
  refine rel_bind (h.div h') fun q q' hq => ?_
  exact rel_bind (h'.add hq) fun s s' hs => hs.div (.refl two)

theorem rootFrom (h : Same a a') (h' : Same b b') (n : ℕ) :
    Option.Rel Same (a.rootFrom n b) (a'.rootFrom n b') := by
  -- Both stop at the same step, since what they stop at is a comparison of approximations.
  induction n generalizing b b' with
  | zero => exact .none
  | succ n ih =>
    refine rel_bind (h.average h') fun r r' hr => ?_
    rw [← hr.same_eq h']
    split
    · exact .some hr
    · exact ih hr

theorem sqrt (h : Same a a') (hn : a.negative = a'.negative) :
    Option.Rel Same a.sqrt a'.sqrt := by
  rw [Decimal.sqrt, Decimal.sqrt, ← hn, ← h.isZero_eq]
  split
  · exact .none
  · split
    · exact rel_same_refl _
    · refine rel_bind (h.div (.refl two)) fun half half' hhalf => ?_
      rw [← hhalf.isZero_eq]
      split
      · exact h.rootFrom h _
      · exact h.rootFrom hhalf _

end Root

end Same

section Operators

variable {a a' b b' : Decimal}

/-- The powers of two bases that are one number to two exponents that are one number do not hang on
the sign of a zero: neither on that of the exponent, nor on that of the base where the exponent is a
fraction above zero. -/
structure PowersAlike (a b a' b' : Decimal) : Prop where
  exponent : a.isZero = true → b.negative = b'.negative
  base : a.isZero = true → b.isWhole = false → b.negative = false → a.negative = a'.negative

/-- The sign does not matter, unless both are zeros with different signs. -/
def SignsAlike (a a' : Decimal) : Prop := a.isZero = true → a.negative = a'.negative

theorem PowersAlike.refl (a b : Decimal) : PowersAlike a b a b := ⟨fun _ => rfl, fun _ _ _ => rfl⟩

theorem SignsAlike.refl (a : Decimal) : SignsAlike a a := fun _ => rfl

theorem SignsAlike.negative_eq (hs : SignsAlike a a') (h : Same a a') :
    a.negative = a'.negative := by
  cases hz : a.isZero with
  | true => exact hs hz
  | false => exact h.negative_eq hz

theorem Same.power (h : Same a a') (h' : Same b b') (hp : PowersAlike a b a' b') :
    SameResult Same (a.power b) (a'.power b') := by
  rw [Decimal.power, Decimal.power]
  -- A zero is not raised to what is written below zero, be it a zero itself.
  have hstop : (a.isZero && b.negative) = (a'.isZero && b'.negative) := by
    rw [← h.isZero_eq]
    cases hz : a.isZero with
    | true => rw [hp.exponent hz]
    | false => rfl
  refine alike_ite (by rw [hstop]) (fun _ => .error ⟨rfl, rfl⟩) fun hgo => ?_
  refine alike_ite (by rw [h'.isWhole_eq]) (fun _ => ?_) fun hfraction => ?_
  · rw [← h'.toInt64?_eq]
    exact alike_orError (rel_bind (V := Eq) (by cases b.toInt64? <;> constructor; rfl)
      (by rintro n _ rfl; exact h.powInt n)) ⟨rfl, rfl⟩
  · -- The base of such a power must not be written below zero.
    have hsign : a.negative = a'.negative := by
      cases hz : a.isZero with
      | true =>
        rw [hz, Bool.true_and, Bool.not_eq_true] at hgo
        exact hp.base hz (by simpa using hfraction) hgo
      | false => exact h.negative_eq hz
    refine alike_ite (by rw [hsign]) (fun _ => .error ⟨rfl, rfl⟩) fun _ => ?_
    exact alike_orError (h.powReal h') ⟨rfl, rfl⟩

/-- A power that is a division by zero has a zero for its base and an exponent that is written below
zero, be it a zero itself. -/
theorem zero_of_power {x : Error} {op : ArithmeticOperator} (hx : a.power b = .error x)
    (h : x.ctorIdx = (Error.divisionByZero op).ctorIdx) :
    a.isZero = true ∧ b.negative = true := by
  rw [power] at hx
  split at hx
  · next hstop => exact Bool.and_eq_true_iff.mp hstop
  · split at hx
    · generalize b.toInt64?.bind a.powInt = o at hx
      cases o <;> cases hx
      cases h
    · split at hx
      · cases hx
        cases h
      · generalize a.powReal b = o at hx
        cases o <;> cases hx
        cases h

theorem power_of_zero_of_negative (hz : a.isZero = true) (hn : b.negative = true) :
    a.power b = .error (.divisionByZero .power) := by
  rw [power, hz, hn]
  rfl

theorem power_of_zero_of_fraction (hz : a.isZero = true) (hb : b.isWhole = false)
    (hn : b.negative = false) :
    a.power b = if a.negative then .error (.outOfRange "fractional exponent base" a .nonNegative)
      else .ok zero := by
  rw [power, powReal, hz, hb, hn]
  rfl

/-- Where the signs of zeros differ, one power fails and the other one does not, or fails for
another cause. -/
theorem Same.power_iff (h : Same a a') (h' : Same b b') :
    SameResult Same (a.power b) (a'.power b') ↔ PowersAlike a b a' b' := by
  refine ⟨fun hr => ?_, h.power h'⟩
  have hexponent (hz : a.isZero = true) : b.negative = b'.negative := by
    have hz' : a'.isZero = true := h.isZero_eq ▸ hz
    cases hn : b.negative <;> cases hn' : b'.negative
    · rfl
    · rw [power_of_zero_of_negative hz' hn'] at hr
      generalize ho : a.power b = o at hr
      cases hr with
      | error hx => exact hn.symm.trans (zero_of_power ho hx.ctorIdx_eq).2
    · rw [power_of_zero_of_negative hz hn] at hr
      generalize ho : a'.power b' = o at hr
      cases hr with
      | error hx => exact (zero_of_power ho hx.ctorIdx_eq.symm).2.symm.trans hn'
    · rfl
  refine ⟨hexponent, fun hz hb hn => ?_⟩
  rw [power_of_zero_of_fraction hz hb hn, power_of_zero_of_fraction (h.isZero_eq ▸ hz)
    (h'.isWhole_eq ▸ hb) (hexponent hz ▸ hn)] at hr
  cases hs : a.negative <;> cases hs' : a'.negative
  · rfl
  · rw [hs, hs'] at hr
    cases hr
  · rw [hs, hs'] at hr
    cases hr
  · rfl

theorem Same.root (h : Same a a') (hs : SignsAlike a a') :
    SameResult Same a.root a'.root := by
  rw [Decimal.root, Decimal.root]
  refine alike_ite (by rw [h.isBelowZero_eq]) (fun _ => .error ⟨rfl, rfl⟩) fun _ => ?_
  exact alike_orError (rel_map (h.sqrt (hs.negative_eq h)) fun _ _ hr => hr.normalize) ⟨rfl, rfl⟩

/-- A zero with a sign has no root. -/
theorem root_of_isZero (h : a.isZero = true) :
    a.root = if a.negative then .error (.overflow "square root") else .ok zero := by
  have hbelow : a.isBelowZero = false := by rw [isBelowZero, h, Bool.not_true, Bool.and_false]
  rw [root, hbelow, sqrt, h]
  cases a.negative <;> rfl

/-- The root of a zero fails just if it is written below zero. -/
theorem Same.root_iff (h : Same a a') : SameResult Same a.root a'.root ↔ SignsAlike a a' := by
  refine ⟨fun hr hz => ?_, h.root⟩
  rw [root_of_isZero hz, root_of_isZero (h.isZero_eq ▸ hz)] at hr
  cases hn : a.negative <;> cases hn' : a'.negative
  · rfl
  · rw [hn, hn'] at hr
    cases hr
  · rw [hn, hn'] at hr
    cases hr
  · rfl

theorem Same.combine (h : Same a a') (h' : Same b b') (op : ArithmeticOperator)
    (hp : op = .power → PowersAlike a b a' b') :
    SameResult Same (a.combine op b) (a'.combine op b') := by
  cases op with
  | add => exact alike_orError (h.add h') ⟨rfl, rfl⟩
  | subtract => exact alike_orError (h.sub h') ⟨rfl, rfl⟩
  | multiply => exact alike_orError (h.mul h') ⟨rfl, rfl⟩
  | divide =>
    exact alike_ite (by rw [h'.isZero_eq]) (fun _ => .error ⟨rfl, rfl⟩)
      fun _ => alike_orError (h.div h') ⟨rfl, rfl⟩
  | modulo =>
    exact alike_ite (by rw [h'.isZero_eq]) (fun _ => .error ⟨rfl, rfl⟩)
      fun _ => alike_orError (h.rem h') ⟨rfl, rfl⟩
  | power => exact h.power h' (hp rfl)

end Operators
end Reckoner.Decimal
