import Reckoner.Proofs.Value.Congruence
import Reckoner.Proofs.Value.Reconvert
/-!
Two values that share their unit. Main statement: an operator combines their numbers and nothing
else, except that durations are added and subtracted through their seconds, which gives the sum of
the numbers exactly if the seconds keep it, and that rates are combined through the length of their
unit of time, which does no harm to a number that is restored.
-/
namespace Reckoner

open Decimal

namespace Decimal

/-- A computation gives the number `z` where `C` holds, and is out of range where it does not. -/
inductive Yields (C : Prop) (z : ℚ) : Except Error Decimal → Prop
  | ok {a : Decimal} (hc : C) (ha : a.toRat = z) : Yields C z (.ok a)
  | overflow {operation : String} (hc : ¬C) : Yields C z (.error (.overflow operation))

variable {C D : Prop} {z w : ℚ} {x y : Except Error Decimal}

theorem yields_orError {o : Option Decimal} {q : ℚ} (h : o.map toRat = nearest? q)
    (operation : String) : Yields (InRange q) (nearest q) (orError o (.overflow operation)) := by
  by_cases hq : InRange q
  · obtain ⟨a, rfl, ha⟩ := exists_of_map_toRat h hq
    exact .ok hq ha
  · rw [eq_none_of_map_toRat h hq]
    exact .overflow hq

theorem Yields.bind {f : Decimal → Except Error Decimal} (h : Yields C z x)
    (hf : ∀ a, a.toRat = z → Yields D w (f a)) : Yields (C ∧ D) w (x >>= f) := by
  cases h with
  | overflow hc => exact .overflow fun hcd => hc hcd.1
  | ok hc ha =>
    rw [ok_bind]
    generalize hr : f _ = r
    cases hr ▸ hf _ ha with
    | ok hd hb => exact .ok ⟨hc, hd⟩ hb
    | overflow hd => exact .overflow fun hcd => hd hcd.2

theorem Yields.map {f : Decimal → Decimal} (h : Yields C z x)
    (hf : ∀ a, a.toRat = z → (f a).toRat = w) : Yields C w (x.map f) := by
  cases h with
  | ok hc ha => exact .ok hc (hf _ ha)
  | overflow hc => exact .overflow hc

/-- Two such computations agree if they are in range together, with one number. -/
theorem Yields.sameResult_iff (hx : Yields C z x) (hy : Yields D w y) :
    SameResult Same x y ↔ (C ↔ D) ∧ (D → z = w) := by
  cases hx with
  | ok hc ha =>
    cases hy with
    | ok hd hb =>
      constructor
      · rintro (h | h)
        exact ⟨iff_of_true hc hd, fun _ => ha.symm.trans (Eq.trans h hb)⟩
      · rintro ⟨-, h⟩
        exact .ok (ha.trans ((h hd).trans hb.symm))
    | overflow hd => exact iff_of_false nofun fun h => hd (h.1.mp hc)
  | overflow hc =>
    cases hy with
    | ok hd hb => exact iff_of_false nofun fun h => hc (h.1.mpr hd)
    | overflow hd =>
      exact iff_of_true (.error ⟨rfl, rfl⟩) ⟨iff_of_false hc hd, fun h => absurd h hd⟩

end Decimal

namespace ArithmeticOperator

/-- What a right operand adds to the left one: where it is taken away, its opposite. -/
def addend (op : ArithmeticOperator) (y : ℚ) : ℚ := if op = .subtract then -y else y

variable (op : ArithmeticOperator) (y : ℚ)

theorem nearest_addend : nearest (op.addend y) = op.addend (nearest y) := by
  unfold addend
  split <;> simp

theorem inRange_addend : InRange (op.addend y) ↔ InRange y := by
  unfold addend
  split <;> simp [InRange]

theorem addend_mul (k : ℚ) : op.addend (y * k) = op.addend y * k := by
  unfold addend
  split <;> ring

end ArithmeticOperator

theorem Decimal.yields_combine {op : ArithmeticOperator} (hop : op = .add ∨ op = .subtract)
    (a b : Decimal) :
    Yields (InRange (a.toRat + op.addend b.toRat)) (nearest (a.toRat + op.addend b.toRat))
      (a.combine op b) := by
  rcases hop with rfl | rfl
  · exact yields_orError (map_toRat_add a b) _
  · have hsub := map_toRat_sub a b
    rw [sub_eq_add_neg] at hsub
    exact yields_orError hsub _

namespace TimeUnit

variable (u : TimeUnit) {x y : ℚ}

/-- Two numbers of the unit and their sum are in range as seconds, and the sum of the seconds,
counted in the unit again, is the sum of the numbers. -/
structure KeepsSum (x y : ℚ) : Prop where
  left : InRange (x * u.seconds)
  right : InRange (y * u.seconds)
  sum : InRange (nearest (x * u.seconds) + nearest (y * u.seconds))
  number : nearest (nearest (nearest (x * u.seconds) + nearest (y * u.seconds)) / u.seconds) =
    nearest (x + y)

theorem eq_second_or_le_seconds : u = second ∨ 60 ≤ u.seconds := by
  cases u <;> decide

/-- Numbers that are in range as seconds have a sum in range. -/
theorem inRange_add_of_seconds (hx : nearest x = x) (hy : nearest y = y)
    (hleft : InRange (x * u.seconds)) (hright : InRange (y * u.seconds))
    (hsum : InRange (nearest (x * u.seconds) + nearest (y * u.seconds))) : InRange (x + y) := by
  rcases u.eq_second_or_le_seconds with rfl | h
  · rwa [seconds, Nat.cast_one, mul_one, mul_one, hx, hy] at hsum
  · -- There is so much room that nothing depends on the roundings.
    have hu : (60 : ℚ) ≤ u.seconds := by exact_mod_cast h
    rw [InRange, abs_mul, Nat.abs_cast] at hleft hright
    have hx60 : |x| * 60 ≤ |x| * u.seconds := by gcongr
    have hy60 : |y| * 60 ≤ |y| * u.seconds := by gcongr
    have hadd := abs_add_le x y
    rw [InRange]
    linarith [abs_nonneg x, abs_nonneg y]

/-- Numbers with a common number of places, small enough to keep all of them as seconds. -/
theorem keepsSum_of_lt {m n : ℤ} {k : ℕ} (hk : k ≤ 28) (hx : x * 10 ^ k = m) (hy : y * 10 ^ k = n)
    (h : (|m| + |n|) * u.seconds < 2 ^ 96) : u.KeepsSum x y := by
  have hexact {z : ℚ} {i : ℤ} (hz : z * 10 ^ k = i) (hi : |i| ≤ |m| + |n|) :
      InRange (z * u.seconds) ∧ nearest (z * u.seconds) = z * u.seconds :=
    nearest_mul_natCast_of_lt hk hz
      ((mul_le_mul_of_nonneg_right hi (Nat.cast_nonneg _)).trans_lt h)
  have hxy : (x + y) * 10 ^ k = (m + n : ℤ) := by
    rw [add_mul, hx, hy]
    push_cast
    rfl
  obtain ⟨hleft, hX⟩ := hexact hx (le_add_of_nonneg_right (abs_nonneg n))
  obtain ⟨hright, hY⟩ := hexact hy (le_add_of_nonneg_left (abs_nonneg m))
  obtain ⟨hsum, hZ⟩ := hexact hxy (abs_add_le m n)
  refine ⟨hleft, hright, ?_, ?_⟩
  · rwa [hX, hY, ← add_mul]
  · rw [hX, hY, ← add_mul, hZ, mul_div_cancel_right₀ _ u.cast_seconds_pos.ne']

end TimeUnit

namespace Duration

variable {l r : Duration} {op : ArithmeticOperator}

/-- The number of a sum or difference that is made of the seconds. -/
def throughSeconds (l : Duration) (op : ArithmeticOperator) (r : Duration) :
    Except Error Decimal := do
  let a ← l.seconds
  let b ← r.seconds
  let n ← a.combine op b
  pure (n.dividedBy l.unit.length)

theorem combine_eq_throughSeconds (hop : op = .add ∨ op = .subtract) (l r : Duration) :
    l.combine op r = (l.throughSeconds op r).map fun n => .duration ⟨n, l.unit⟩ := by
  have hinSeconds : l.combine op r = combine.inSeconds l op r := by
    rcases hop with rfl | rfl <;> rfl
  rw [hinSeconds, combine.inSeconds, throughSeconds]
  cases l.seconds with
  | error e => rfl
  | ok a =>
    cases r.seconds with
    | error e => rfl
    | ok b =>
      simp only [ok_bind]
      cases a.combine op b <;> rfl

theorem yields_seconds (d : Duration) :
    Yields (InRange (d.value.toRat * d.unit.seconds)) (nearest (d.value.toRat * d.unit.seconds))
      d.seconds :=
  yields_orError d.map_toRat_seconds _

theorem yields_throughSeconds (hop : op = .add ∨ op = .subtract) (h : l.unit = r.unit) :
    Yields
      (InRange (l.value.toRat * l.unit.seconds) ∧
        InRange (op.addend r.value.toRat * l.unit.seconds) ∧
        InRange (nearest (l.value.toRat * l.unit.seconds) +
          nearest (op.addend r.value.toRat * l.unit.seconds)))
      (nearest (nearest (nearest (l.value.toRat * l.unit.seconds) +
        nearest (op.addend r.value.toRat * l.unit.seconds)) / l.unit.seconds))
      (l.throughSeconds op r) := by
  have hright := r.yields_seconds
  rw [← op.addend_mul, op.inRange_addend, op.nearest_addend]
  rw [← h] at hright
  refine l.yields_seconds.bind fun a ha => hright.bind fun b hb => ?_
  have hsum := yields_combine hop a b
  rw [ha, hb] at hsum
  exact hsum.map fun n hn => by rw [TimeUnit.toRat_dividedBy_length, hn]

/-- A sum or difference of durations of one unit is that of their numbers exactly if the seconds
keep it, as far as it is in range at all. -/
theorem sameResult_throughSeconds_iff (hop : op = .add ∨ op = .subtract) (h : l.unit = r.unit) :
    SameResult Decimal.Same (l.throughSeconds op r) (l.value.combine op r.value) ↔
      (InRange (l.value.toRat + op.addend r.value.toRat) →
        l.unit.KeepsSum l.value.toRat (op.addend r.value.toRat)) := by
  rw [(yields_throughSeconds hop h).sameResult_iff (yields_combine hop _ _)]
  have hy : nearest (op.addend r.value.toRat) = op.addend r.value.toRat := by
    rw [op.nearest_addend, nearest_toRat]
  constructor
  · rintro ⟨hrange, hnumber⟩ hsum
    obtain ⟨hl, hr, hs⟩ := hrange.mpr hsum
    exact ⟨hl, hr, hs, hnumber hsum⟩
  · intro hkeeps
    refine ⟨⟨fun ⟨hl, hr, hs⟩ => l.unit.inRange_add_of_seconds (nearest_toRat _) hy hl hr hs,
      fun hsum => ⟨(hkeeps hsum).left, (hkeeps hsum).right, (hkeeps hsum).sum⟩⟩,
      fun hsum => (hkeeps hsum).number⟩

end Duration

/-- A label is the same just on the same numbers. -/
theorem Duration.sameResult_label_iff {x y : Except Error Decimal} (u : TimeUnit) :
    SameResult Value.Same (x.map fun n => .duration ⟨n, u⟩) (y.map fun n => .duration ⟨n, u⟩) ↔
      SameResult Decimal.Same x y := by
  constructor
  · intro h
    cases x with
    | ok a =>
      cases y with
      | ok b =>
        cases h with
        | ok h => cases h with | duration h => cases h with | intro h => exact .ok h
      | error e => cases h
    | error e =>
      cases y with
      | ok b => cases h
      | error e' => cases h with | error h => exact .error h
  · intro h
    exact h.map fun a b hab => .duration (.intro hab)

theorem Quantity.combine_of_unit_eq {l r : Quantity} {op : ArithmeticOperator}
    (h : l.unit = r.unit) (hop : op ≠ .power) :
    l.combine op r = (l.value.combine op r.value).map fun n => .quantity { l with value := n } := by
  rw [combine, if_neg hop, Decimal.convertUnit, if_pos h.symm, ok_bind]
  cases l.value.combine op r.value <;> rfl

theorem Money.combine_of_code_eq {l r : Money} {op : ArithmeticOperator} (h : l.code = r.code)
    (hop : op ≠ .multiply ∧ op ≠ .power) (env : Environment) :
    l.combine op r env = (l.amount.combine op r.amount).map fun n =>
      if op = .divide then .number n else .money { l with amount := n } := by
  rw [combine, if_neg (by simp [hop]), inCurrencyOf, if_pos h, ok_bind]
  cases l.amount.combine op r.amount <;> rfl

theorem Duration.combine_of_unit_eq {l r : Duration} {op : ArithmeticOperator}
    (h : l.unit = r.unit) (hop : op = .multiply ∨ op = .divide ∨ op = .modulo) :
    l.combine op r = (l.value.combine op r.value).map fun n => .duration { l with value := n } := by
  have hcombine : l.combine op r = (do
      let other ← r.inUnit l.unit
      let n ← l.value.combine op other.value
      pure (.duration ⟨n, l.unit⟩)) := by
    rcases hop with rfl | rfl | rfl <;> rfl
  rw [hcombine, inUnit, if_pos h, ok_bind]
  cases l.value.combine op r.value <;> rfl

namespace Rate

variable {l r : Rate} {u : TimeUnit} {op : ArithmeticOperator}

/-- Nothing but its places changes a restored number of one unit for each unit of time. -/
theorem exists_inUnitsOf (hunit : l.amount.unit = r.amount.unit) (hper : l.per = r.per)
    (hu : l.perUnit = .ok u) (hr : r.Restored) :
    ∃ n, r.inUnitsOf l = .ok n ∧ n.Same r.amount.value := by
  have hru : r.perUnit = .ok u := by rwa [perUnit, ← hper]
  obtain ⟨hrange, hrestored⟩ := hr u hru
  have hscaled := map_toRat_scaled_length r.amount.value u
  rw [if_pos hrange, hrestored, Option.map_eq_some_iff] at hscaled
  obtain ⟨n, hn, hval⟩ := hscaled
  refine ⟨n, ?_, hval⟩
  rw [inUnitsOf, Decimal.convertUnit, if_pos hunit.symm, ok_bind, perSeconds, hu, perSeconds, hru]
  show orError (scaled r.amount.value u.length u.length) _ = _
  rw [hn]
  rfl

theorem sameResult_combine (hunit : l.amount.unit = r.amount.unit) (hper : l.per = r.per)
    (hu : l.perUnit = .ok u) (hr : r.Restored) (hop : op = .add ∨ op = .subtract ∨ op = .divide) :
    SameResult Value.Same (l.combine op r)
      ((l.amount.value.combine op r.amount.value).map fun n =>
        if op = .divide then .number n else .rate (l.withValue n)) := by
  obtain ⟨n, hn, hsame⟩ := exists_inUnitsOf hunit hper hu hr
  have hpower : op ≠ .power := by rintro rfl; simp at hop
  have hnumbers := (Decimal.Same.refl l.amount.value).combine hsame op fun h => absurd h hpower
  have hcombine : l.combine op r = (l.amount.value.combine op n).map fun n =>
      if op = .divide then .number n else .rate (l.withValue n) := by
    rw [combine, if_pos hop, hn, ok_bind]
    cases l.amount.value.combine op n <;> rfl
  rw [hcombine]
  refine hnumbers.map fun a b hab => ?_
  split
  · exact .number hab
  · exact .rate (.intro (.intro hab))

end Rate

namespace Value

/-- Quantities of one unit, amounts of one currency and, where an operator is not a sum or
difference, durations of one unit are combined as their numbers are, and the result has the unit of
the left one. A quotient of money is a number. Durations of one unit are added and subtracted as
their numbers are exactly if the sum of these is out of range or the seconds keep it. Rates of one
unit of the amount and one unit of time that there is are combined as their numbers are, if the
right one is restored. -/
theorem combine_shared_unit (op : ArithmeticOperator) (env : Environment) :
    (∀ l r : Quantity, l.unit = r.unit → op ≠ .power →
      combine (quantity l) op (quantity r) env =
        (l.value.combine op r.value).map fun n => quantity { l with value := n }) ∧
    (∀ l r : Money, l.code = r.code → op ≠ .multiply ∧ op ≠ .power →
      combine (money l) op (money r) env =
        (l.amount.combine op r.amount).map fun n =>
          if op = .divide then number n else money { l with amount := n }) ∧
    (∀ l r : Duration, l.unit = r.unit →
      (op = .multiply ∨ op = .divide ∨ op = .modulo →
        combine (duration l) op (duration r) env =
          (l.value.combine op r.value).map fun n => duration { l with value := n }) ∧
      (op = .add ∨ op = .subtract →
        (SameResult Same (combine (duration l) op (duration r) env)
            ((l.value.combine op r.value).map fun n => duration { l with value := n }) ↔
          (InRange (l.value.toRat + op.addend r.value.toRat) →
            l.unit.KeepsSum l.value.toRat (op.addend r.value.toRat))))) ∧
    ∀ (l r : Rate) (u : TimeUnit), l.amount.unit = r.amount.unit → l.per = r.per →
      l.perUnit = .ok u → r.Restored → op = .add ∨ op = .subtract ∨ op = .divide →
      SameResult Same (combine (rate l) op (rate r) env)
        ((l.amount.value.combine op r.amount.value).map fun n =>
          if op = .divide then number n else rate (l.withValue n)) := by
  refine ⟨fun l r h hop => Quantity.combine_of_unit_eq h hop,
    fun l r h hop => Money.combine_of_code_eq h hop env,
    fun l r h => ⟨Duration.combine_of_unit_eq h, fun hop => ?_⟩,
    fun l r u hunit hper hu hr hop => Rate.sameResult_combine hunit hper hu hr hop⟩
  have hcombine : combine (duration l) op (duration r) env = l.combine op r := rfl
  rw [hcombine, Duration.combine_eq_throughSeconds hop, Duration.sameResult_label_iff,
    Duration.sameResult_throughSeconds_iff hop h]

/-- Numbers of one unit that the program does not know, a remainder of hours, a sum of them, and one
number of a rate in another. -/
theorem combine_shared_unit_small :
    combine (quantity ⟨.ofLiteral 12 0, "parsec"⟩) .add (quantity ⟨.ofLiteral 305 1, "parsec"⟩)
        .initial = .ok (quantity ⟨.ofLiteral 425 1, "parsec"⟩) ∧
      combine (money (.ofCode (.ofLiteral 12 0) "EUR")) .subtract
        (money (.ofCode (.ofLiteral 305 1) "EUR")) .initial =
          .ok (money (.ofCode (Decimal.ofLiteral 185 1).neg "EUR")) ∧
      combine (duration ⟨.ofLiteral 75 1, .hour⟩) .modulo (duration ⟨.two, .hour⟩) .initial =
        .ok (duration ⟨.ofLiteral 15 1, .hour⟩) ∧
      SameResult Same
        (combine (duration ⟨.ofLiteral 75 1, .hour⟩) .add (duration ⟨.two, .hour⟩) .initial)
        (.ok (duration ⟨.ofLiteral 95 1, .hour⟩)) ∧
      SameResult Same
        (combine (rate ⟨⟨.ofLiteral 75 1, "req"⟩, "min"⟩) .divide
          (rate ⟨⟨.ofLiteral 25 1, "req"⟩, "min"⟩) .initial)
        (.ok (number (.ofLiteral 3 0))) := by
  have hmodulo := (combine_shared_unit .modulo .initial).2.2.1 ⟨.ofLiteral 75 1, .hour⟩
    ⟨.two, .hour⟩ rfl
  have hadd := (combine_shared_unit .add .initial).2.2.1 ⟨.ofLiteral 75 1, .hour⟩ ⟨.two, .hour⟩ rfl
  have hkeeps : TimeUnit.hour.KeepsSum (Decimal.ofLiteral 75 1).toRat
      (ArithmeticOperator.add.addend Decimal.two.toRat) :=
    TimeUnit.keepsSum_of_lt (m := 75) (n := 20) (k := 1) _ (by decide) (by decide +kernel)
      (by decide +kernel) (by decide)
  have hminute : TimeUnit.read "min" = .ok .minute := eq_ok_of_toOption (by decide +kernel)
  have hrestored : (⟨⟨.ofLiteral 25 1, "req"⟩, "min"⟩ : Rate).Restored :=
    Rate.restored_of_lt fun u hu => by
      cases hminute.symm.trans hu
      decide
  refine ⟨?_, ?_, ?_, ?_, ?_⟩
  · exact ((combine_shared_unit .add .initial).1 ⟨.ofLiteral 12 0, "parsec"⟩
      ⟨.ofLiteral 305 1, "parsec"⟩ rfl (by decide)).trans (eq_ok_of_toOption (by decide +kernel))
  · exact ((combine_shared_unit .subtract .initial).2.1 (.ofCode (.ofLiteral 12 0) "EUR")
      (.ofCode (.ofLiteral 305 1) "EUR") rfl (by decide)).trans
        (eq_ok_of_toOption (by decide +kernel))
  · exact (hmodulo.1 (by decide)).trans (eq_ok_of_toOption (by decide +kernel))
  · have hsum : ((Decimal.ofLiteral 75 1).combine .add .two).map
        (fun n => duration ⟨n, .hour⟩) = .ok (duration ⟨.ofLiteral 95 1, .hour⟩) :=
      eq_ok_of_toOption (by decide +kernel)
    exact hsum ▸ (hadd.2 (by decide)).mpr fun _ => hkeeps
  · have hquotient : ((Decimal.ofLiteral 75 1).combine .divide (.ofLiteral 25 1)).map number =
        .ok (number (.ofLiteral 3 0)) := eq_ok_of_toOption (by decide +kernel)
    exact hquotient ▸ (combine_shared_unit .divide .initial).2.2.2 ⟨⟨.ofLiteral 75 1, "req"⟩, "min"⟩
      ⟨⟨.ofLiteral 25 1, "req"⟩, "min"⟩ .minute rfl rfl hminute hrestored (by decide)

/-- Ten billion trillion years are too many seconds, a number of hours with many places loses the
last one when nothing is taken away, and rates for a unit of time that there is not are not
added. -/
theorem combine_shared_unit_detour :
    (combine (duration ⟨.ofLiteral (10 ^ 22) 0, .year⟩) .add
        (duration ⟨.ofLiteral (10 ^ 22) 0, .year⟩) .initial =
          .error (.overflow "duration 10000000000000000000000 year in seconds") ∧
      (Decimal.ofLiteral (10 ^ 22) 0).combine .add (.ofLiteral (10 ^ 22) 0) =
        .ok (.ofLiteral (2 * 10 ^ 22) 0)) ∧
    (combine (duration ⟨.ofLiteral 23000000000000000000000000001 28, .hour⟩) .subtract
        (duration ⟨.zero, .hour⟩) .initial =
          .ok (duration ⟨.ofLiteral 2300000000000000000000000 24, .hour⟩) ∧
      (Decimal.ofLiteral 23000000000000000000000000001 28).combine .subtract .zero =
        .ok (.ofLiteral 23000000000000000000000000001 28)) ∧
    combine (rate ⟨⟨.one, "req"⟩, "fortnight"⟩) .add (rate ⟨⟨.one, "req"⟩, "fortnight"⟩) .initial =
        .error (.unknownKeyword "time unit" "fortnight" (TimeUnit.all.map TimeUnit.name)) ∧
      Decimal.one.combine .add .one = .ok .two := by
  refine ⟨⟨?_, ?_⟩, ⟨?_, ?_⟩, ?_, ?_⟩ <;> decide +kernel

end Value
end Reckoner
