import Reckoner.Error
import Reckoner.Decimal.Root
import Reckoner.Decimal.Exponential
/-!
Arithmetic on decimals that tells why there is no result: a division by zero, a result out of
range, or a power that is not a number.
-/
namespace Reckoner.Decimal

/-- The power, whole exponents by multiplication and others by logarithms. -/
def power (a exponent : Decimal) : Except Error Decimal :=
  if a.isZero && exponent.negative then .error (.divisionByZero .power)
  else if exponent.isWhole then
    orError (exponent.toInt64?.bind a.powInt) (.overflow ArithmeticOperator.power.name)
  else if a.negative then .error (.outOfRange "fractional exponent base" a .nonNegative)
  else orError (a.powReal exponent) (.overflow ArithmeticOperator.power.name)

/-- The result of an operator. -/
def combine (op : ArithmeticOperator) (a b : Decimal) : Except Error Decimal :=
  match op with
  | .add => orError (a.add b) (.overflow op.name)
  | .subtract => orError (a.sub b) (.overflow op.name)
  | .multiply => orError (a.mul b) (.overflow op.name)
  | .divide =>
    if b.isZero then .error (.divisionByZero op) else orError (a.div b) (.overflow op.name)
  | .modulo =>
    if b.isZero then .error (.divisionByZero op) else orError (a.rem b) (.overflow op.name)
  | .power => a.power b

/-- The square root, without trailing zeros. -/
def root (a : Decimal) : Except Error Decimal :=
  if a.isBelowZero then .error (.negativeValue "sqrt" a)
  else orError (a.sqrt.map normalize) (.overflow "square root")

end Reckoner.Decimal
