import Reckoner.Calendar.Text
import Reckoner.Value.Money
import Reckoner.Value.Quantity
/-!
The values that expressions have, their rendered form, and the number inside those that have one.
Main statement: putting a number into a value and taking it out again gives the number.
-/
namespace Reckoner

inductive Value where
  | number (n : Decimal)
  | money (m : Money)
  | quantity (q : Quantity)
  | rate (r : Rate)
  | duration (d : Duration)
  | date (d : Date)
  | time (t : TimeOfDay)
  | boolean (b : Bool)
deriving DecidableEq, Repr

namespace Value

/-- The name of the kind of a value. -/
def typeName : Value → String
  | number _ => "number"
  | money _ => "currency"
  | quantity _ => "quantity"
  | rate _ => "rate"
  | duration _ => "duration"
  | date _ => "date"
  | time _ => "time"
  | boolean _ => "boolean"

/-- The rendered form of a value. -/
def text : Value → String
  | number n => n.rendered
  | money m => m.text
  | quantity q => q.text
  | rate r => r.text
  | duration d => d.text
  | date d => d.text
  | time t => t.text
  | boolean b => if b then "true" else "false"

/-- The kind and the rendered form of a value, as errors tell it. -/
def describe (v : Value) : String := v.typeName ++ " " ++ v.text

/-- The descriptions of two operands. -/
def describeBoth (v w : Value) : String := v.describe ++ " and " ++ w.describe

/-- The number in a value; dates, times and truth values have none. -/
def magnitude? : Value → Option Decimal
  | number n => some n
  | money m => some m.amount
  | quantity q => some q.value
  | rate r => some r.amount.value
  | duration d => some d.value
  | date _ => none
  | time _ => none
  | boolean _ => none

/-- The same value with another number in it, if it has one. -/
def withMagnitude? (v : Value) (n : Decimal) : Option Value :=
  match v with
  | number _ => some (number n)
  | money m => some (money (m.withAmount n))
  | quantity q => some (quantity { q with value := n })
  | rate r => some (rate (r.withValue n))
  | duration d => some (duration { d with value := n })
  | date _ => none
  | time _ => none
  | boolean _ => none

/-- Like `withMagnitude?`, for a value that is known to have a number in it. -/
def withMagnitude (v : Value) (n : Decimal) : Except Error Value :=
  orError (v.withMagnitude? n) (.internal (v.typeName ++ " has no magnitude"))

theorem isSome_withMagnitude (v : Value) (n : Decimal) :
    (v.withMagnitude? n).isSome = v.magnitude?.isSome := by
  cases v <;> rfl

theorem magnitude_withMagnitude (v w : Value) (n : Decimal) (h : v.withMagnitude? n = some w) :
    w.magnitude? = some n := by
  cases v <;> simp [withMagnitude?] at h <;> subst h <;> rfl

/-- Equality of kind, units and numbers; how many places a number has and the sign of a zero do not
count. -/
def same : Value → Value → Bool
  | number a, number b => a.same b
  | money a, money b => a.same b
  | quantity a, quantity b => a.same b
  | rate a, rate b => a.same b
  | duration a, duration b => a.same b
  | date a, date b => a == b
  | time a, time b => a == b
  | boolean a, boolean b => a == b
  | _, _ => false

end Value
end Reckoner
