import Reckoner.Unit.Table
import Reckoner.Decimal.Binary64
import Reckoner.Value.Quantity
/-!
Looking units up and converting numbers between them. A conversion goes through the base unit in
binary floating point; a number stays as it is when both units are one.
-/
namespace Reckoner

namespace KnownUnit

/-- The unit spelled `name`, in any case and with any blanks around it. -/
def lookup (name : String) : Option KnownUnit :=
  let word := Text.lower (Text.trim name)
  (spellings.find? fun p => p.1 == word).map Prod.snd

def isKnown (name : String) : Bool := (lookup name).isSome

/-- The name of the category of a unit; all units that are not known are of one. -/
def categoryName (name : String) : String :=
  match lookup name with
  | some u => u.category.name
  | none => "unknown"

/-- How many spellings are known. -/
def spellingCount : Nat := spellings.length

/-- Whether a unit spelled like this is one of data a second. -/
def isThroughput (name : String) : Bool :=
  match lookup name with
  | some u => u.category == .dataSize && (Text.lower (Text.trim name)).endsWith "ps"
  | none => false

end KnownUnit

namespace Decimal

/-- The decimal for the result of a computation on floats. -/
def ofResult (x : Float) (operation : String) : Except Error Decimal :=
  orError (ofFloat? x) (.overflow operation)

/-- A number of a known unit as a number of the base unit of its category. -/
def toBaseUnit (value : Decimal) (unit : String) : Except Error Decimal :=
  match KnownUnit.lookup unit with
  | none => .error (.incompatibleUnits unit "a known unit")
  | some u =>
    ofResult (u.conversion.toBase value.toFloat) ("conversion of " ++ unit ++ " to base unit")

/-- A number of one unit as a number of another. An unknown unit converts to itself only. -/
def convertUnit (value : Decimal) (source target : String) : Except Error Decimal :=
  if source = target then .ok value
  else
    match KnownUnit.lookup source, KnownUnit.lookup target with
    | some u, some v =>
      if u.category ≠ v.category then .error (.incompatibleUnits source target)
      else if u.canonical = v.canonical then .ok value
      else
        ofResult (v.conversion.ofBase (u.conversion.toBase value.toFloat))
          ("conversion from " ++ source ++ " to " ++ target)
    | _, _ => .error (.incompatibleUnits source target)

end Decimal

/-- The same quantity in another unit. -/
def Quantity.convert (q : Quantity) (target : String) : Except Error Quantity := do
  let value ← q.value.convertUnit q.unit target
  pure ⟨value, target⟩

end Reckoner
