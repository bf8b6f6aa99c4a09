import Reckoner.Decimal.Arithmetic
/-!
Square roots by repeated averaging of a guess with the quotient by it.
-/
namespace Reckoner.Decimal

/-- The average of the guess `r` and `a / r`. -/
def average (a r : Decimal) : Option Decimal := do
  let q ← a.div r
  let s ← r.add q
  s.div two

/-- Averages until the guess no longer changes. -/
def rootFrom (a : Decimal) : Nat → Decimal → Option Decimal
  | 0, _ => none
  | n + 1, r => do
    let r' ← average a r
    if r'.same r then some r' else rootFrom a n r'

/-- The square root, from half of `a` as the first guess (or `a`, if that half is zero). There is
none for a decimal with a minus sign, even for `-0`. -/
def sqrt (a : Decimal) : Option Decimal :=
  if a.negative then none
  else if a.isZero then some zero
  else do
    let half ← a.div two
    rootFrom a 1000 (if half.isZero then a else half)

end Reckoner.Decimal
