import Reckoner.Time.Duration
/-!
Quantities with a unit, and rates, which are quantities for each unit of time.
-/
namespace Reckoner

/-- So many of a unit. The unit is any text; whether it is a known unit is looked up where it
matters. -/
structure Quantity where
  value : Decimal
  unit : String
deriving DecidableEq, Repr

/-- A quantity for each unit of time. The unit of time is kept as it was spelled. -/
structure Rate where
  amount : Quantity
  per : String
deriving DecidableEq, Repr

namespace Quantity

def text (q : Quantity) : String := q.value.rendered ++ " " ++ q.unit

/-- Equality of unit and of the number. -/
def same (p q : Quantity) : Bool := p.value.same q.value && p.unit == q.unit

end Quantity

namespace Rate

/-- The rate of `amount` for each unit of time spelled `per`, or an error if there is no such
unit. -/
def make (amount : Quantity) (per : String) : Except Error Rate := do
  let per := Text.trim per
  let _ ← TimeUnit.read per
  pure ⟨amount, per⟩

/-- The unit of time of a rate. -/
def perUnit (r : Rate) : Except Error TimeUnit := TimeUnit.read r.per

/-- The length of the unit of time in seconds. -/
def perSeconds (r : Rate) : Except Error Decimal := do
  let u ← r.perUnit
  pure u.length

/-- The same rate with another number in it. -/
def withValue (r : Rate) (value : Decimal) : Rate := { r with amount := { r.amount with value } }

/-- The units of a rate, as they are written behind its number. -/
def unitText (r : Rate) : String := r.amount.unit ++ "/" ++ r.per

def text (r : Rate) : String := r.amount.value.rendered ++ " " ++ r.unitText

/-- Equality of the units and of the number. -/
def same (r s : Rate) : Bool := r.amount.same s.amount && r.per == s.per

end Rate
end Reckoner
