import Reckoner.Time.Unit
/-!
Lengths of time, counted in one unit.
-/
namespace Reckoner

/-- `value` times the length of `unit`. -/
structure Duration where
  value : Decimal
  unit : TimeUnit
deriving DecidableEq, Repr

namespace Duration

def text (d : Duration) : String := d.value.rendered ++ " " ++ d.unit.name

/-- The length in seconds. -/
def seconds (d : Duration) : Except Error Decimal :=
  orError (d.value.mul d.unit.length) (.overflow ("duration " ++ d.text ++ " in seconds"))

/-- The duration of so many seconds, counted in `unit`. -/
def ofSeconds (seconds : Decimal) (unit : TimeUnit) : Duration :=
  ⟨seconds.dividedBy unit.length, unit⟩

/-- The same length counted in another unit. -/
def inUnit (d : Duration) (unit : TimeUnit) : Except Error Duration :=
  if unit = d.unit then .ok d
  else do
    let s ← d.seconds
    pure (ofSeconds s unit)

/-- Equality of unit and of the number counted. -/
def same (d e : Duration) : Bool := d.value.same e.value && d.unit == e.unit

end Duration
end Reckoner
