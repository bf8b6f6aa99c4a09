import Reckoner.Decimal.FixedPoint
import Reckoner.Decimal.Places
/-!
Powers with a whole exponent, by squaring.
-/
namespace Reckoner.Decimal

-- Powers are those of the core library, also where another library knows powers of its own.
attribute [local instance (high)] instPowNat

/-- The product of `acc` with those repeated squares of `base` that the binary digits of `n` call
for; the first argument is the number of those digits. -/
def powFrom : Nat → (n : Nat) → (base acc : Decimal) → Option Decimal
  | 0, _, _, acc => some acc
  | digits + 1, n, base, acc => do
    let acc ← if n % 2 = 1 then acc.mul base else some acc
    if digits = 0 then some acc
    else
      let base ← base.mul base
      powFrom digits (n / 2) base acc

/-- Tries `places` decimal places for `± n` units of a fixed-point number, then fewer, and takes the
first that fits; what lies beyond is rounded up. -/
def fitUpFrom (negative : Bool) (n : Nat) : Nat → Option Decimal
  | 0 => ofParts? negative (roundUpQuotient n FixedPoint.unit) 0
  | places + 1 =>
    match ofParts? negative (roundUpQuotient n (10 ^ (FixedPoint.places - (places + 1))))
        (places + 1) with
    | some a => some a
    | none => fitUpFrom negative n places

/-- The decimal for `± n` units of a fixed-point number: cut at 30 places, so that the noise of its
last digits does not count, and then rounded away from zero. -/
def fitUp (negative : Bool) (n : Nat) : Option Decimal :=
  fitUpFrom negative (FixedPoint.cut 30 n) 28

/-- A long power is rounded once, at its end, since so many rounded squarings would spoil its last
digits. -/
def powLong (a : Decimal) (n : Nat) : Option Decimal := do
  let base := a.coefficient * 10 ^ (FixedPoint.places - a.scale)
  let p ← FixedPoint.pow (2 ^ (96 : Nat) * FixedPoint.unit) base n
  (fitUp (a.negative && n % 2 == 1) p).map normalize

/-- The power with a natural exponent. The first two keep the places that they come with, and all
others have no trailing zeros. An exponent of more than ten binary digits makes a long power. -/
def powNat (a : Decimal) (n : Nat) : Option Decimal :=
  if n = 0 then some one
  else if a.isZero then some zero
  else if a.same one then some one
  else if n = 1 then some a
  else if n = 2 then a.mul a
  else if n < 2 ^ (10 : Nat) then (powFrom (n.log2 + 1) n a one).map normalize
  else a.powLong n

/-- The power with a whole exponent; below zero it is the quotient of one by the power. -/
def powInt (a : Decimal) (n : Int) : Option Decimal :=
  if 0 ≤ n then a.powNat n.toNat
  else do
    let p ← a.powNat n.natAbs
    one.div p

end Reckoner.Decimal
