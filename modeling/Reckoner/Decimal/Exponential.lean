import Reckoner.Decimal.Power
/-!
Logarithms and exponentials, and with them powers with any exponent. A logarithm is brought into the
range of its series by whole powers of ten and of `e`; an exponential has its whole part as a power
of `e`. Both series end at their first term that is below a tenth of the last place, and the result
is rounded away from zero.
-/
namespace Reckoner.Decimal

-- Powers are those of the core library, also where another library knows powers of its own.
attribute [local instance (high)] instPowNat

def ten : Decimal := .ofLiteral 10 0

/-- The inverse of `e`, to 28 places. -/
def inverseE : Decimal :=
  .ofLiteral 3678794411714423215955237702 28

/-- The natural logarithm of ten, cut at 27 places. -/
def logTen : Decimal :=
  .ofLiteral 2302585092994045684017991454 27

/-- Divides or multiplies by ten until the number has one digit before the point that is not zero,
and counts how often it was divided. -/
def reduceTens : Nat → Decimal → Int → Option (Decimal × Int)
  | 0, _, _ => none
  | fuel + 1, x, n =>
    if ten.le x then do
      let x' ← x.div ten
      reduceTens fuel x' (n + 1)
    else if x.lt one then do
      let x' ← x.mul ten
      reduceTens fuel x' (n - 1)
    else some (x, n)

/-- Divides by `e` until the number is below one, and counts how often. -/
def reduceDown : Nat → Decimal → Int → Option (Decimal × Int)
  | 0, _, _ => none
  | fuel + 1, x, n =>
    if x.lt one then some (x, n)
    else do
      let x' ← x.mul inverseE
      reduceDown fuel x' (n + 1)

/-- A number that went down to the inverse of `e` came from one itself, and goes back up. -/
def reduceUp (x : Decimal) (n : Int) : Option (Decimal × Int) :=
  if x.le inverseE then do
    let x' ← x.mul e
    some (x', n - 1)
  else some (x, n)

/-- The opposite of the natural logarithm of a decimal between the inverse of `e` and one, rounded
up at 28 places. It is twice the inverse hyperbolic tangent of `(1 - x) / (1 + x)`. -/
def logInverse (x : Decimal) : Option Decimal := do
  let difference ← one.sub x
  let sum ← one.add x
  let z ← difference.div sum
  let half := FixedPoint.artanh (z.coefficient * 10 ^ (FixedPoint.places - z.scale))
  fitUp false (2 * half)

/-- The natural logarithm of a decimal above zero. -/
def log (a : Decimal) : Option Decimal := do
  let (x, tens) ← reduceTens 64 a 0
  let (x, n) ← reduceDown 8 x 0
  let (x, n) ← reduceUp x n
  let whole ← ofInt? n
  let rest ← x.logInverse
  let l ← whole.sub rest
  if tens = 0 then some l
  else do
    let count ← ofInt? tens
    let shift ← count.mul logTen
    shift.add l

/-- The exponential of a decimal from zero up: the power of `e` for the whole part times the series
for the rest, rounded up in its last place. The whole part has six binary digits at most; one of 64
or more counts as out of range. -/
def expPositive (x : Decimal) : Option Decimal :=
  let n := x.wholePart
  if 2 ^ (6 : Nat) ≤ n then none
  else
    let rest := FixedPoint.exp (x.fraction * 10 ^ (FixedPoint.places - x.scale))
    fitUp false (e.coefficient ^ n * rest / 10 ^ (e.scale * n))

/-- The exponential; below zero it is the inverse of that of the opposite number. -/
def exp (x : Decimal) : Option Decimal :=
  if x.isZero then some one
  else if x.negative then do
    let p ← expPositive x.abs
    one.div p
  else expPositive x

/-- The power of a decimal from zero up with any exponent, without trailing zeros. -/
def powReal (a exponent : Decimal) : Option Decimal :=
  if a.isZero then some zero
  else if a.same one then some one
  else do
    let l ← a.log
    let m ← l.mul exponent
    m.exp.map normalize

end Reckoner.Decimal
