import Reckoner.Value.Basic
import Reckoner.Value.Number
/-!
Sums, means and extremes of lists of values, and functions applied to the number in a value.
-/
namespace Reckoner

namespace Decimal

/-- The sum of a list, added up from the left. -/
def sumFrom (acc : Decimal) : List Decimal → Except Error Decimal
  | [] => .ok acc
  | a :: rest => do
    let s ← orError (acc.add a) (.overflow "sum")
    sumFrom s rest

def sum (as : List Decimal) : Except Error Decimal := sumFrom zero as

/-- The sum divided by the count. -/
def mean (as : List Decimal) : Except Error Decimal := do
  let total ← sum as
  orError ((ofNat? as.length).bind total.div) (.overflow "average")

/-- The least of a list; of several that are the same number, the first. -/
def least (as : List Decimal) : Except Error Decimal :=
  match as with
  | [] => .error (.internal "min of no values")
  | a :: rest => .ok (rest.foldl (fun m b => if b.lt m then b else m) a)

/-- The greatest of a list; of several that are the same number, the last. -/
def greatest (as : List Decimal) : Except Error Decimal :=
  match as with
  | [] => .error (.internal "max of no values")
  | a :: rest => .ok (rest.foldl (fun m b => if b.lt m then m else b) a)

end Decimal

namespace Value

/-- The numbers of values that must all be numbers; `position` is that of the first. -/
def numbers (function : String) (position : Nat) : List Value → Except Error (List Decimal)
  | [] => .ok []
  | number n :: rest => do
    let ns ← numbers function (position + 1) rest
    pure (n :: ns)
  | v :: _ => .error (.wrongArgumentType function position "a number" v.describe)

/-- The amounts of values that must all be money of one currency. -/
def amounts (function code : String) (position : Nat) : List Value → Except Error (List Decimal)
  | [] => .ok []
  | money m :: rest =>
    if m.code = code then do
      let ns ← amounts function code (position + 1) rest
      pure (m.amount :: ns)
    else .error (.incompatibleCurrencies m.code code)
  | v :: _ => .error (.wrongArgumentType function position "a currency amount" v.describe)

/-- Folds numbers to a number, or money of one currency to money of that currency. -/
def aggregate (function : String) (fold : List Decimal → Except Error Decimal) (vs : List Value) :
    Except Error Value :=
  match vs with
  | [] => .error (.wrongArgumentCount function ⟨1, none⟩ 0)
  | number _ :: _ => do
    let ns ← numbers function 1 vs
    let n ← fold ns
    pure (number n)
  | money m :: _ => do
    let ns ← amounts function m.code 1 vs
    let n ← fold ns
    pure (money (Money.ofCode n m.code))
  | v :: _ => .error (.wrongArgumentType function 1 "a number or currency amount" v.describe)

/-- Applies a function to the number in a value. -/
def mapMagnitude (function : String) (f : Decimal → Decimal) (v : Value) : Except Error Value := do
  let n ← orError v.magnitude? (.wrongArgumentType function 1 "a numeric value" v.describe)
  v.withMagnitude (f n)

/-- Rounds the number in a value to so many places, halves away from zero. -/
def round (function : String) (places : Nat) (v : Value) : Except Error Value :=
  v.mapMagnitude function (Decimal.roundPlaces .awayFromZero places)

end Value
end Reckoner
