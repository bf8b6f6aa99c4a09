import Reckoner.Proofs.Decimal.SameRounded
import Reckoner.Proofs.Value.ConvertFirst
import Reckoner.Proofs.Value.Portion
/-!
Divisions by zero. A divisor that is counted in another unit of time is rescaled to the unit of the
dividend, which rounds it, before it is looked at. Main statement: a division by zero is reported
for a divisor other than zero exactly if nothing is left of it in the unit of the dividend.
-/
namespace Reckoner

open Decimal

namespace Decimal

theorem nearest_eq_zero_iff (x : ℚ) : nearest x = 0 ↔ |x| ≤ 1 / 2 / 10 ^ 28 := by
  rw [← abs_eq_zero, abs_nearest, ← not_lt, ← nearest_pos_iff (abs_nonneg x), not_lt]
  exact ⟨le_of_eq, fun h => le_antisymm h (nearest_nonneg (abs_nonneg x))⟩

/-- Nothing is left of a number of which there are `k` to one. -/
def RoundsAway (n : Decimal) (k : ℚ) : Prop := |n.toRat| * k ≤ 1 / 2 / 10 ^ 28

variable {n : Decimal}

theorem roundsAway_of_zero (h : n.toRat = 0) (k : ℚ) : n.RoundsAway k := by
  rw [RoundsAway, h, abs_zero, zero_mul]
  positivity

/-- What is not made smaller does not vanish. -/
theorem roundsAway_iff_of_one_le {k : ℚ} (hk : 1 ≤ k) : n.RoundsAway k ↔ n.toRat = 0 := by
  refine ⟨fun h => ?_, fun h => roundsAway_of_zero h k⟩
  by_contra hne
  have hunit := unit_le_abs hne
  have hle : |n.toRat| ≤ 1 / 2 / 10 ^ 28 :=
    (le_mul_of_one_le_right (abs_nonneg _) hk).trans h
  norm_num at hunit hle
  linarith

section Rescaled

variable (n) (u v : TimeUnit)

theorem roundsAway_units_iff :
    n.RoundsAway (u.seconds / v.seconds) ↔ |n.toRat| * u.seconds ≤ v.seconds * (1 / 2 / 10 ^ 28) := by
  rw [RoundsAway, ← mul_div_assoc, div_le_iff₀' v.cast_seconds_pos]

theorem tiny_lt_one : (v.seconds : ℚ) * (1 / 2 / 10 ^ 28) < 1 := by
  have hv := v.cast_seconds_le
  norm_num
  linarith

/-- A product with a length in seconds is exact where it is small, so only the division by the other
length can make it vanish. -/
theorem nearest_rescaled_eq_zero_iff :
    nearest (nearest (n.toRat * u.seconds) / v.seconds) = 0 ↔
      n.RoundsAway (u.seconds / v.seconds) := by
  have htiny := tiny_lt_one v
  rw [nearest_eq_zero_iff, abs_div, Nat.abs_cast, div_le_iff₀' v.cast_seconds_pos, abs_nearest,
    abs_mul, Nat.abs_cast, roundsAway_units_iff]
  by_cases hsmall : (n.units : ℤ) * u.seconds < 2 ^ 96
  · -- Less than `2 ^ 96` units of the last place: the product is exact.
    have hunits : |n.toRat| * 10 ^ 28 = (n.units : ℤ) := by
      rw [abs_toRat, ← cast_units, div_mul_cancel₀ _ (by positivity)]
      rfl
    rw [(nearest_mul_natCast_of_lt le_rfl hunits (by rwa [Nat.abs_cast])).2]
  · -- Otherwise it is at least one, and neither side can be as small as half a unit.
    have hlarge : 1 ≤ |n.toRat| * u.seconds := by
      have hcast : (2 : ℚ) ^ 96 ≤ n.units * u.seconds := by exact_mod_cast not_lt.mp hsmall
      rw [abs_toRat, ← cast_units, div_mul_eq_mul_div, le_div_iff₀ (by positivity)]
      norm_num at hcast ⊢
      linarith
    have hnearest := nearest_mono hlarge
    rw [show nearest 1 = 1 by simpa using nearest_natCast (n := 1) (by norm_num)] at hnearest
    exact iff_of_false (by linarith) (by linarith)

theorem inRange_of_roundsAway (h : n.RoundsAway (u.seconds / v.seconds)) :
    InRange (n.toRat * u.seconds) := by
  rw [roundsAway_units_iff] at h
  rw [InRange, abs_mul, Nat.abs_cast]
  refine h.trans_lt ((tiny_lt_one v).trans ?_)
  norm_num [limit]

end Rescaled
end Decimal

/-- A division by zero where `C` holds, and a result or an overflow where it does not. -/
inductive Divided (op : ArithmeticOperator) (C : Prop) {α : Type} : Except Error α → Prop
  | zero (hc : C) : Divided op C (.error (.divisionByZero op))
  | ok (hc : ¬C) (a : α) : Divided op C (.ok a)
  | overflow (hc : ¬C) (operation : String) : Divided op C (.error (.overflow operation))

namespace Divided

variable {op : ArithmeticOperator} {C D : Prop} {α β : Type} {x : Except Error α}

theorem divisionByZero_iff (h : Divided op C x) : x = .error (.divisionByZero op) ↔ C := by
  cases h with
  | zero hc => exact iff_of_true rfl hc
  | ok hc a => exact iff_of_false nofun hc
  | overflow hc operation => exact iff_of_false nofun hc

theorem congr_iff (h : C ↔ D) : Divided op C x ↔ Divided op D x := by rw [propext h]

/-- A computation is a division by zero under one condition only. -/
theorem divided_iff (h : Divided op C x) : Divided op D x ↔ (C ↔ D) := by
  constructor
  · intro h'
    rw [← h.divisionByZero_iff, h'.divisionByZero_iff]
  · intro hCD
    exact (congr_iff hCD).mp h

/-- A step that always succeeds comes after it. -/
theorem bind_ok {f : α → Except Error β} (h : Divided op C x) (hf : ∀ a, ∃ b, f a = .ok b) :
    Divided op C (x >>= f) := by
  cases h with
  | zero hc => exact .zero hc
  | ok hc a =>
    obtain ⟨b, hb⟩ := hf a
    rw [ok_bind, hb]
    exact .ok hc b
  | overflow hc operation => exact .overflow hc operation

theorem map (h : Divided op C x) (f : α → β) : Divided op C (x.map f) := by
  cases h with
  | zero hc => exact .zero hc
  | ok hc a => exact .ok hc (f a)
  | overflow hc operation => exact .overflow hc operation

end Divided

/-- The operators that divide. -/
def ArithmeticOperator.Divides (op : ArithmeticOperator) : Prop := op = .divide ∨ op = .modulo

/-- A division by the number `n`, of which there are `k` to one in the units of the dividend. -/
inductive Value.DividesBy : ArithmeticOperator → Value → Value → Decimal → ℚ → Prop
  | numbers {op : ArithmeticOperator} (hop : op.Divides) (l n : Decimal) :
    DividesBy op (.number l) (.number n) n 1
  | moneyNumber {op : ArithmeticOperator} (hop : op.Divides) (l : Money) (n : Decimal) :
    DividesBy op (.money l) (.number n) n 1
  | quantityNumber (l : Quantity) (n : Decimal) : DividesBy .divide (.quantity l) (.number n) n 1
  | durationNumber (l : Duration) (n : Decimal) : DividesBy .divide (.duration l) (.number n) n 1
  | rateNumber (l : Rate) (n : Decimal) : DividesBy .divide (.rate l) (.number n) n 1
  | money {op : ArithmeticOperator} (hop : op.Divides) {l r : Money} (h : l.code = r.code) :
    DividesBy op (.money l) (.money r) r.amount 1
  | durations {op : ArithmeticOperator} (hop : op.Divides) (l r : Duration) :
    DividesBy op (.duration l) (.duration r) r.value (r.unit.seconds / l.unit.seconds)
  | rates {l r : Rate} {u v : TimeUnit} (hunit : l.amount.unit = r.amount.unit)
    (hl : l.perUnit = .ok u) (hr : r.perUnit = .ok v) :
    DividesBy .divide (.rate l) (.rate r) r.amount.value (u.seconds / v.seconds)

variable {op : ArithmeticOperator} {n : Decimal} {C D : Prop} {z : ℚ}

theorem Decimal.divided_combine (hop : op.Divides) (a b : Decimal) :
    Divided op (b.toRat = 0) (a.combine op b) := by
  -- Both operators look at the divisor before they compute.
  have hcombine : ∃ o operation, a.combine op b =
      if b.isZero then .error (.divisionByZero op) else orError o (.overflow operation) := by
    rcases hop with rfl | rfl <;> exact ⟨_, _, rfl⟩
  obtain ⟨o, operation, hcombine⟩ := hcombine
  rw [hcombine]
  split
  · next h => exact .zero ((isZero_iff b).mp h)
  · next h =>
    have hne : b.toRat ≠ 0 := fun hz => h ((isZero_iff b).mpr hz)
    cases o with
    | none => exact .overflow hne operation
    | some q => exact .ok hne q

/-- A division by a number that is computed first. -/
theorem Decimal.Yields.divided {x : Except Error Decimal} (h : Yields D z x) (hop : op.Divides)
    (hz : z = 0 ↔ C) (hD : C → D) (a : Decimal) (label : Decimal → Value) :
    Divided op C (x >>= fun b => (a.combine op b).map label) := by
  cases h with
  | @ok b hd hb =>
    have hC : b.toRat = 0 ↔ C := by rw [hb, hz]
    exact (Divided.congr_iff hC).mp ((divided_combine hop a b).map label)
  | overflow hd => exact .overflow (fun hc => hd (hD hc)) _

namespace Value

theorem divided_number {l : Value} {m : Decimal} (hm : l.magnitude? = some m)
    (htakes : l.takesNumber op = true) (hop : op.Divides) (n : Decimal) (env : Environment) :
    Divided op (n.RoundsAway 1) (l.combine op (number n) env) := by
  rw [combine_number_eq hm env htakes, Divided.congr_iff (roundsAway_iff_of_one_le le_rfl)]
  refine (divided_combine hop m n).bind_ok fun a => ?_
  obtain ⟨w, hw⟩ := exists_withMagnitude hm a
  exact ⟨w, withMagnitude_eq_ok hw⟩

theorem divided_money (hop : op.Divides) {l r : Money} (h : l.code = r.code) (env : Environment) :
    Divided op (r.amount.RoundsAway 1) (combine (money l) op (money r) env) := by
  have hne : op ≠ .multiply ∧ op ≠ .power := by
    rcases hop with rfl | rfl <;> decide
  have hcombine : combine (money l) op (money r) env = l.combine op r env := rfl
  rw [hcombine, Money.combine_of_code_eq h hne, Divided.congr_iff (roundsAway_iff_of_one_le le_rfl)]
  exact (divided_combine hop _ _).map _

theorem divided_durations (hop : op.Divides) (l r : Duration) (env : Environment) :
    Divided op (r.value.RoundsAway (r.unit.seconds / l.unit.seconds))
      (combine (duration l) op (duration r) env) := by
  have hop' : op = .multiply ∨ op = .divide ∨ op = .modulo := .inr hop
  have hcombine : combine (duration l) op (duration r) env = l.combine op r := rfl
  rw [hcombine]
  by_cases hunit : l.unit = r.unit
  · have hone : (1 : ℚ) ≤ r.unit.seconds / l.unit.seconds := by
      rw [hunit, div_self r.unit.cast_seconds_pos.ne']
    rw [Duration.combine_of_unit_eq hunit hop', Divided.congr_iff (roundsAway_iff_of_one_le hone)]
    exact (divided_combine hop _ _).map _
  · have hrescaled : Yields (InRange (r.value.toRat * r.unit.seconds))
        (nearest (nearest (r.value.toRat * r.unit.seconds) / l.unit.seconds))
        ((r.inUnit l.unit).map Duration.value) := by
      have hinUnit : (r.inUnit l.unit).map Duration.value =
          r.seconds.map fun s => s.dividedBy l.unit.length := by
        rw [Duration.inUnit, if_neg hunit]
        cases r.seconds <;> rfl
      rw [hinUnit]
      exact r.yields_seconds.map fun s hs => by rw [TimeUnit.toRat_dividedBy_length, hs]
    rw [Duration.combine_eq hop']
    exact hrescaled.divided hop (nearest_rescaled_eq_zero_iff _ _ _)
      (inRange_of_roundsAway _ _ _) l.value _

theorem divided_rates {l r : Rate} {u v : TimeUnit} (hunit : l.amount.unit = r.amount.unit)
    (hl : l.perUnit = .ok u) (hr : r.perUnit = .ok v) (env : Environment) :
    Divided .divide (r.amount.value.RoundsAway (u.seconds / v.seconds))
      (combine (rate l) .divide (rate r) env) := by
  have hcombine : combine (rate l) .divide (rate r) env =
      r.inUnitsOf l >>= fun b => (l.amount.value.combine .divide b).map number := rfl
  have hinUnitsOf : r.inUnitsOf l =
      orError (Rate.scaled r.amount.value u.length v.length) (.overflow "rate normalisation") := by
    rw [Rate.inUnitsOf, Decimal.convertUnit, if_pos hunit.symm, ok_bind, Rate.perSeconds, hl,
      Rate.perSeconds, hr]
    rfl
  have hrescaled : Yields (InRange (r.amount.value.toRat * u.seconds))
      (nearest (nearest (r.amount.value.toRat * u.seconds) / v.seconds)) (r.inUnitsOf l) := by
    have hscaled := Rate.map_toRat_scaled r.amount.value u v
    rw [hinUnitsOf]
    split at hscaled
    · next hrange =>
      obtain ⟨b, hb, hval⟩ := Option.map_eq_some_iff.mp hscaled
      rw [hb]
      exact .ok hrange hval
    · next hrange =>
      rw [Option.map_eq_none_iff.mp hscaled]
      exact .overflow hrange
  rw [hcombine]
  exact hrescaled.divided (.inl rfl) (nearest_rescaled_eq_zero_iff _ _ _)
    (inRange_of_roundsAway _ _ _) _ _

/-- What a division looks at is what is left of the divisor in the units of the dividend. -/
theorem DividesBy.divided {l r : Value} {k : ℚ} (h : DividesBy op l r n k) (env : Environment) :
    Divided op (n.RoundsAway k) (l.combine op r env) := by
  cases h with
  | numbers hop l n => exact divided_number rfl rfl hop n env
  | moneyNumber hop l n =>
    refine divided_number rfl ?_ hop n env
    rcases hop with rfl | rfl <;> rfl
  | quantityNumber l n => exact divided_number rfl rfl (.inl rfl) n env
  | durationNumber l n => exact divided_number rfl rfl (.inl rfl) n env
  | rateNumber l n => exact divided_number rfl rfl (.inl rfl) n env
  | money hop h => exact divided_money hop h env
  | durations hop l r => exact divided_durations hop l r env
  | rates hunit hl hr => exact divided_rates hunit hl hr env

/-- A division by zero is reported exactly for a divisor that is zero, with whatever sign, and any
other divisor gives a result or an overflow, if and only if no other divisor vanishes in the units
of the dividend. None does that is not made smaller by them, as between bare numbers, amounts of one
currency, a value and a number, and where the dividend's unit of time is not the longer one or, for
rates, not the shorter one. -/
theorem divided_iff_not_roundsAway {l r : Value} {k : ℚ} (h : DividesBy op l r n k)
    (env : Environment) :
    (Divided op (n.toRat = 0) (l.combine op r env) ↔ (n.RoundsAway k → n.toRat = 0)) ∧
      (n.RoundsAway k → l.combine op r env = .error (.divisionByZero op)) ∧
      (1 ≤ k → n.RoundsAway k → n.toRat = 0) := by
  refine ⟨?_, (h.divided env).divisionByZero_iff.mpr, fun hk => (roundsAway_iff_of_one_le hk).mp⟩
  rw [(h.divided env).divided_iff]
  exact ⟨Iff.mp, fun himp => ⟨himp, fun hz => roundsAway_of_zero hz k⟩⟩

/-- Half a second goes into ninety minutes. -/
theorem divided_iff_not_roundsAway_minutes :
    let l : Duration := ⟨.ofLiteral 90 0, .minute⟩
    let r : Duration := ⟨.ofLiteral 5 1, .second⟩
    DividesBy .divide (duration l) (duration r) r.value (1 / 60) ∧
      Divided .divide (r.value.toRat = 0) (combine (duration l) .divide (duration r) .initial) := by
  intro l r
  have hdivides : DividesBy .divide (duration l) (duration r) r.value (1 / 60) := by
    simpa [l, r, TimeUnit.seconds] using DividesBy.durations (.inl rfl) l r
  have hlarge : ¬r.value.RoundsAway (1 / 60) := by
    rw [RoundsAway, show r.value.toRat = 1 / 2 by decide +kernel]
    norm_num [abs_of_pos]
  exact ⟨hdivides, (divided_iff_not_roundsAway hdivides .initial).1.mpr fun h => absurd h hlarge⟩

/-- A part of a second so small that nothing is left of it in years, and a rate so small that
nothing is left of it when it is counted by the second. -/
theorem divided_by_roundedAway :
    let tiny : Decimal := .ofLiteral 1 28
    let l : Value := duration ⟨.ofLiteral 1 10, .year⟩
    let r : Value := duration ⟨tiny, .second⟩
    tiny.toRat ≠ 0 ∧
      l.combine .divide r .initial = .error (.divisionByZero .divide) ∧
      l.combine .modulo r .initial = .error (.divisionByZero .modulo) ∧
      combine (rate ⟨⟨.one, "req"⟩, "s"⟩) .divide (rate ⟨⟨tiny, "req"⟩, "year"⟩) .initial =
        .error (.divisionByZero .divide) := by
  decide +kernel

end Value
end Reckoner
