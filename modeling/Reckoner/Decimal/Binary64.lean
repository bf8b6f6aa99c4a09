import Reckoner.Decimal.Places
/-!
Between decimals and binary floating-point numbers of 64 bits. Reading a decimal as a float is
exact up to the float's precision; writing a float as a decimal keeps the digits that the precision
of a float vouches for, fifteen or sixteen of them.
-/
namespace Reckoner

-- Powers are those of the core library, also where another library knows powers of its own.
attribute [local instance (high)] instPowNat

/-- The whole number nearest to a float that is not below zero, a half going up. From `2 ^ 52` on all
floats are whole. -/
def roundFloat (x : Float) : Float :=
  if x < (2 ^ (52 : Nat) : Nat).toFloat then
    let whole := x.toUInt64.toFloat
    if x - whole < 0.5 then whole else whole + 1
  else x

namespace Decimal

/-- The float for a decimal: whole part and fraction are read apart, and their sum is rounded to
the decimal's own number of places. -/
def toFloat (a : Decimal) : Float :=
  if a.scale = 0 then
    let f := a.coefficient.toFloat
    if a.negative && a.coefficient != 0 then -f else f
  else
    let ten := (10 ^ a.scale : Nat).toFloat
    let whole := a.wholePart.toFloat
    let frac := a.fraction.toFloat / ten
    let f := if frac == 0 then whole else roundFloat ((whole + frac) * ten) / ten
    if a.negative then -f else f

/-- A coefficient on its way from base two to base ten, with its places, below zero for a number
that is still short of trailing zeros. -/
structure Approach where
  coefficient : Nat
  places : Int

namespace Approach

/-- Divides by two `n` times: by halving an even coefficient, else by five more in the next place,
else, in a full coefficient, by giving up its last bit. -/
def halve : Nat → Approach → Approach
  | 0, s => s
  | n + 1, s =>
    if s.coefficient % 2 = 0 then halve n ⟨s.coefficient / 2, s.places - 1⟩
    else if s.coefficient * 5 < 2 ^ (96 : Nat) then halve n ⟨s.coefficient * 5, s.places⟩
    else halve n ⟨s.coefficient / 2, s.places - 1⟩

/-- Multiplies by two `n` times: by doubling, else, in a full coefficient, by dividing by five and
moving the point. -/
def double : Nat → Approach → Approach
  | 0, s => s
  | n + 1, s =>
    if s.coefficient < 2 ^ (95 : Nat) then double n ⟨s.coefficient * 2, s.places + 1⟩
    else double n ⟨s.coefficient / 5, s.places⟩

/-- Drops the last digit, a five or more counting one up. -/
def dropDigit (n : Nat) : Nat := n / 10 + (if 5 ≤ n % 10 then 1 else 0)

/-- Drops `n` digits one after another; a coefficient with no digit left is zero without places. -/
def dropPlaces : Nat → Approach → Approach
  | 0, s => s
  | n + 1, s =>
    if s.coefficient / 10 = 0 then ⟨0, 0⟩
    else dropPlaces n ⟨dropDigit s.coefficient, s.places - 1⟩

/-- Drops digits after the point, at most `n`, while the coefficient has more than 52 bits. -/
def dropExcess : Nat → Nat → Nat × Nat
  | 0, c => (c, 0)
  | n + 1, c => if c < 2 ^ (52 : Nat) then (c, n + 1) else dropExcess n (dropDigit c)

/-- The decimal of a coefficient that has all its places. -/
def close (negative : Bool) (s : Approach) : Option Decimal :=
  let s := dropPlaces (s.places - 28).toNat s
  let r := dropExcess s.places.toNat s.coefficient
  let q := dropZeros r.1 r.2
  if h : q.1 < 2 ^ (96 : Nat) ∧ q.2 ≤ 28 then some ⟨negative, q.1, q.2, h.1, h.2⟩ else none

/-- Trailing zeros are written out first, if they fit. -/
def toDecimal? (negative : Bool) (s : Approach) : Option Decimal :=
  if 0 ≤ s.places then close negative s
  else
    let c := s.coefficient * 10 ^ (-s.places).toNat
    if c < 2 ^ (96 : Nat) then close negative ⟨c, 0⟩ else none

end Approach

/-- The decimal for a finite float, none for one that is out of range. The sign is kept, also that
of a zero. -/
def ofFloat? (f : Float) : Option Decimal :=
  if !f.isFinite then none
  else
    let bits : Nat := f.toBits.toNat
    let negative := decide (2 ^ (63 : Nat) ≤ bits)
    let exponent : Nat := bits / 2 ^ (52 : Nat) % 2 ^ (11 : Nat)
    let fraction := bits % 2 ^ (52 : Nat)
    if exponent = 0 ∧ fraction = 0 then some { zero with negative := negative }
    else
      let mantissa := if exponent = 0 then fraction else fraction + 2 ^ (52 : Nat)
      let power : Int := (if exponent = 0 then 1 else (exponent : Int)) - 1075
      let s :=
        if power < 0 then Approach.halve (-power).toNat ⟨mantissa, -power⟩
        else Approach.double power.toNat ⟨mantissa, -power⟩
      s.toDecimal? negative

end Decimal
end Reckoner
