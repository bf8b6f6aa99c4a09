import Reckoner.Unit.Category
/-!
The known units of each category, with their spellings in lower case. Sizes of data count in powers
of 1024 when they are in bytes and in powers of 1000 when they are in bits.
-/
namespace Reckoner.KnownUnit

/-- Units of length, in meters. -/
def lengthUnits : List (Conversion × List String) :=
  [(.linear 1, ["meter", "m", "meters", "metre", "metres"]),
   (.linear 1000, ["kilometer", "km", "kilometers", "kilometre", "kilometres"]),
   (.linear 0.01, ["centimeter", "cm", "centimeters", "centimetre", "centimetres"]),
   (.linear 0.001, ["millimeter", "mm", "millimeters", "millimetre", "millimetres"]),
   (.linear 1e-6, ["micrometer", "um", "micrometers", "micrometre", "micrometres"]),
   (.linear 1609.344, ["mile", "mi", "miles"]),
   (.linear 0.9144, ["yard", "yd", "yards"]),
   (.linear 0.3048, ["foot", "ft", "feet"]),
   (.linear 0.0254, ["inch", "inches"]),
   (.linear 1852, ["nautical_mile", "nmi", "nautical_miles"])]

/-- Units of mass, in kilograms. -/
def massUnits : List (Conversion × List String) :=
  [(.linear 1, ["kilogram", "kg", "kilograms"]),
   (.linear 0.001, ["gram", "g", "grams"]),
   (.linear 1e-6, ["milligram", "mg", "milligrams"]),
   (.linear 1000, ["tonne", "t", "tonnes", "ton", "tons"]),
   (.linear 0.45359237, ["pound", "lb", "lbs", "pounds"]),
   (.linear 0.028349523125, ["ounce", "oz", "ounces"]),
   (.linear 6.35029318, ["stone", "st"])]

/-- Units of volume, in liters. -/
def volumeUnits : List (Conversion × List String) :=
  [(.linear 1, ["liter", "l", "liters", "litre", "litres"]),
   (.linear 0.001, ["milliliter", "ml", "milliliters", "millilitre", "millilitres"]),
   (.linear 0.01, ["centiliter", "cl"]),
   (.linear 0.1, ["deciliter", "dl"]),
   (.linear 1000, ["cubic_meter", "m3", "cubic_meters"]),
   (.linear 3.785411784, ["gallon", "gal", "gallons"]),
   (.linear 0.946352946, ["quart", "qt", "quarts"]),
   (.linear 0.473176473, ["pint", "pt", "pints"]),
   (.linear 0.2365882365, ["cup", "cups"]),
   (.linear 0.0295735295625, ["fluid_ounce", "floz", "fluid_ounces"])]

/-- Units of temperature, in degrees Celsius. -/
def temperatureUnits : List (Conversion × List String) :=
  [(.affine 1 0, ["celsius", "c", "degc", "°c"]),
   (.affine (5 / 9) (-32 * 5 / 9), ["fahrenheit", "f", "degf", "°f"]),
   (.affine 1 (-273.15), ["kelvin", "k"])]

/-- Units of speed, in meters a second. -/
def speedUnits : List (Conversion × List String) :=
  [(.linear 1, ["m/s", "mps"]),
   (.linear (1 / 3.6), ["km/h", "kph", "kmh"]),
   (.linear 0.44704, ["mph"]),
   (.linear (1852 / 3600), ["knot", "kn", "knots"]),
   (.linear 0.3048, ["ft/s", "fps"])]

/-- Units of energy, in joules. -/
def energyUnits : List (Conversion × List String) :=
  [(.linear 1, ["joule", "j", "joules"]),
   (.linear 1e3, ["kilojoule", "kj", "kilojoules"]),
   (.linear 1e6, ["megajoule", "mj", "megajoules"]),
   (.linear 3600, ["watthour", "wh", "watthours"]),
   (.linear 3.6e6, ["kilowatthour", "kwh", "kilowatthours"]),
   (.linear 3.6e9, ["megawatthour", "mwh"]),
   (.linear 4.184, ["calorie", "cal", "calories"]),
   (.linear 4184, ["kilocalorie", "kcal", "kilocalories"]),
   (.linear 1055.05585262, ["btu"])]

/-- Units of power, in watts. -/
def powerUnits : List (Conversion × List String) :=
  [(.linear 1, ["watt", "w", "watts"]),
   (.linear 1e3, ["kilowatt", "kw", "kilowatts"]),
   (.linear 1e6, ["megawatt", "mw", "megawatts"]),
   (.linear 1e-3, ["milliwatt", "milliwatts"]),
   (.linear 1e9, ["gigawatt", "gw", "gigawatts"]),
   (.linear 745.699872, ["horsepower", "hp"])]

/-- Units of area, in square meters. -/
def areaUnits : List (Conversion × List String) :=
  [(.linear 1, ["m²", "m2", "sq_m", "square_meter", "square_meters"]),
   (.linear 1e6, ["km2", "square_kilometer", "square_kilometers"]),
   (.linear 1e-4, ["cm2"]),
   (.linear 0.09290304, ["ft2", "sq_ft", "square_foot", "square_feet"]),
   (.linear 4046.8564224, ["acre", "acres"]),
   (.linear 1e4, ["hectare", "ha", "hectares"])]

/-- Units of data and of data a second, in bits. -/
def dataSizeUnits : List (Conversion × List String) :=
  [(.linear 1, ["bit", "bits", "bps"]),
   (.linear (8), ["byte", "b", "bytes"]),
   (.linear (8 * 1024), ["kib", "kibibyte", "kibibytes", "kb", "kilobyte", "kilobytes"]),
   (.linear (8 * 1024 * 1024), ["mib", "mebibyte", "mebibytes", "mb", "megabyte", "megabytes"]),
   (.linear (8 * 1024 * 1024 * 1024), ["gib", "gibibyte", "gibibytes", "gb", "gigabyte",
     "gigabytes"]),
   (.linear (8 * 1024 * 1024 * 1024 * 1024), ["tib", "tebibyte", "tebibytes", "tb", "terabyte",
     "terabytes"]),
   (.linear (8 * 1024 * 1024 * 1024 * 1024 * 1024), ["pib", "pebibyte", "pebibytes", "pb",
     "petabyte", "petabytes"]),
   (.linear 1e3, ["kbit", "kbits", "kilobit", "kilobits", "kbps"]),
   (.linear 1e6, ["mbit", "mbits", "megabit", "megabits", "mbps"]),
   (.linear 1e9, ["gbit", "gbits", "gigabit", "gigabits", "gbps"]),
   (.linear 1e12, ["tbit", "tbits", "terabit", "terabits", "tbps"])]

/-- The units of each category. -/
def table : List (Category × List (Conversion × List String)) :=
  [(.length, lengthUnits),
   (.mass, massUnits),
   (.volume, volumeUnits),
   (.temperature, temperatureUnits),
   (.speed, speedUnits),
   (.energy, energyUnits),
   (.power, powerUnits),
   (.area, areaUnits),
   (.dataSize, dataSizeUnits)]

/-- The spellings of all known units, each with its unit; a unit is known by the first of its
spellings. -/
def spellings : List (String × KnownUnit) :=
  table.flatMap fun (category, units) =>
    units.flatMap fun (conversion, names) =>
      names.map fun name => (name, ⟨names.headD name, category, conversion⟩)

end Reckoner.KnownUnit
