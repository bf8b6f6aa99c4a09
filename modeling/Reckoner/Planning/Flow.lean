import Reckoner.Value.Quantity
import Reckoner.Value.Number
/-!
What a rate yields over a time, and rates for another unit of time.
-/
namespace Reckoner.Rate

/-- The number of a rate for a time of `seconds` instead of one of `perSeconds`. -/
def scaled (value seconds perSeconds : Decimal) : Option Decimal := do
  let n ← value.mul seconds
  n.div perSeconds

/-- What a rate yields over a time. -/
def accumulate (r : Rate) (period : Duration) : Except Error Quantity := do
  let perSeconds ← r.perSeconds
  let seconds ← period.seconds
  let total ← orError (scaled r.amount.value seconds perSeconds) (.overflow "rate accumulation")
  pure { r.amount with value := total }

/-- The same rate for the unit of time spelled `target`. -/
def retime (r : Rate) (target : String) : Except Error Rate := do
  let unit ← TimeUnit.read target
  let perSeconds ← r.perSeconds
  let value ← orError (scaled r.amount.value unit.length perSeconds) (.overflow "rate conversion")
  Rate.make { r.amount with value } target

end Reckoner.Rate
