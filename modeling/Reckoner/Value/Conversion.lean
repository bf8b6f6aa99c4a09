import Reckoner.Environment
import Reckoner.Planning.Flow
import Reckoner.Unit.Convert
/-!
Values in another unit, another unit of time or another currency.
-/
namespace Reckoner

/-- The text in front of the last occurrence of `mark` and the text behind it. -/
def splitLast (mark : List Char) (cs : List Char) : Option (List Char × List Char) :=
  match cs with
  | [] => none
  | c :: rest =>
    match splitLast mark rest with
    | some (l, r) => some (c :: l, r)
    | none => if mark.isPrefixOf (c :: rest) then some ([], (c :: rest).drop mark.length) else none

/-- The unit and the unit of time that a target such as `MB/s` or `MB per second` names. -/
def Rate.splitTarget (target : String) : Option (String × String) := do
  let cs := target.toList
  let (l, r) ← (splitLast ['/'] cs).orElse fun _ => splitLast " per ".toList cs
  let unit := String.ofList (Text.trimChars l)
  let per := String.ofList (Text.trimChars r)
  if unit.isEmpty || (TimeUnit.ofString? per).isNone then none else some (unit, per)

/-- The rate for another unit of time, or with both of its units changed. -/
def Rate.convert (r : Rate) (target : String) : Except Error Rate :=
  if (TimeUnit.ofString? target).isSome then r.retime target
  else do
    let (unit, per) ← orError (Rate.splitTarget target) (.incompatibleUnits r.unitText target)
    let retimed ← r.retime per
    let amount ← retimed.amount.convert unit
    Rate.make amount per

/-- The currency that a target of a bare number names, by its symbol or by its code in upper
case. -/
def Money.targetCode? (target : String) : Option String :=
  match Money.code? target with
  | some code => if code = target || !target.toList.any Char.isAlpha then some code else none
  | none => none

/-- The amount in another currency. -/
def Money.exchange (m : Money) (target : String) (env : Environment) : Except Error Money := do
  let code ← orError (Money.code? target) (.incompatibleUnits m.code target)
  let rate ← orError (env.exchangeRate? m.code code) (.incompatibleCurrencies m.code code)
  let amount ← orError (m.amount.mul rate) (.overflow "currency exchange")
  pure (Money.ofCode amount code)

namespace Value

/-- A bare number as a duration, an amount of money or a quantity. -/
def ofNumber (n : Decimal) (target : String) : Value :=
  match TimeUnit.ofString? target with
  | some unit => duration ⟨n, unit⟩
  | none =>
    match Money.targetCode? target with
    | some code =>
      if KnownUnit.isKnown target then quantity ⟨n, target⟩ else money (Money.ofCode n code)
    | none => quantity ⟨n, target⟩

/-- The value in the unit, unit of time or currency that `target` names. -/
def convert (v : Value) (target : String) (env : Environment) : Except Error Value :=
  let target := Text.trim target
  match v with
  | number n => .ok (ofNumber n target)
  | quantity q => (q.convert target).map quantity
  | duration d =>
    match TimeUnit.ofString? target with
    | some unit => (d.inUnit unit).map duration
    | none => .error (.incompatibleUnits d.unit.name target)
  | rate r => (r.convert target).map rate
  | money m => (m.exchange target env).map money
  | v => .error (.unsupportedOperation "in" (v.describe ++ " to '" ++ target ++ "'"))

end Value
end Reckoner
