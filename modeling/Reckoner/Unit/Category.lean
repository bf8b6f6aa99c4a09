import Reckoner.Decimal.Basic
/-!
The categories of units, and how a unit relates to the base unit of its category.
-/
namespace Reckoner

/-- Units of one category convert into each other. -/
inductive Category where
  | length
  | mass
  | volume
  | temperature
  | speed
  | energy
  | power
  | area
  | dataSize
deriving DecidableEq, Repr

namespace Category

def name : Category → String
  | length => "length"
  | mass => "mass"
  | volume => "volume"
  | temperature => "temperature"
  | speed => "speed"
  | energy => "energy"
  | power => "power"
  | area => "area"
  | dataSize => "data size"

/-- The unit that the others of the category are multiples of. -/
def baseUnit : Category → String
  | length => "meter"
  | mass => "kilogram"
  | volume => "liter"
  | temperature => "celsius"
  | speed => "m/s"
  | energy => "joule"
  | power => "watt"
  | area => "m²"
  | dataSize => "bit"

end Category

/-- How a number of a unit becomes one of the base unit. -/
inductive Conversion where
  /-- Multiply by a factor. -/
  | linear (factor : Float)
  /-- Multiply by a scale, then add an offset. -/
  | affine (scale offset : Float)

namespace Conversion

def toBase (c : Conversion) (x : Float) : Float :=
  match c with
  | linear factor => x * factor
  | affine scale offset => x * scale + offset

def ofBase (c : Conversion) (x : Float) : Float :=
  match c with
  | linear factor => x / factor
  | affine scale offset => (x - offset) / scale

end Conversion

/-- A unit: the spelling it is known by, its category and its size. -/
structure KnownUnit where
  canonical : String
  category : Category
  conversion : Conversion

end Reckoner
