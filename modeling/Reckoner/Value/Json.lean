import Reckoner.Json.Basic
import Reckoner.Value.Basic
/-!
Values as JSON: the kind, the rendered form and the parts. Numbers are texts with every decimal
place, and the fields of an object are in alphabetical order.
-/
namespace Reckoner

def Decimal.toJson (a : Decimal) : Json := .string a.text

def Money.toJson (m : Money) : Json :=
  .object [("amount", m.amount.toJson), ("code", .string m.code),
    ("symbol", Json.ofOption .string m.symbol)]

def Quantity.toJson (q : Quantity) : Json :=
  .object [("unit", .string q.unit), ("value", q.value.toJson)]

def Rate.toJson (r : Rate) : Json :=
  .object [("amount", r.amount.toJson), ("per_unit", .string r.per)]

def Duration.toJson (d : Duration) : Json :=
  .object [("unit", .string d.unit.name), ("value", d.value.toJson)]

def TimeOfDay.toJson (t : TimeOfDay) : Json :=
  .object [("hour", .integer t.hour), ("minute", .integer t.minute),
    ("offset_minutes", Json.ofOption .integer t.offset),
    ("second", Json.ofOption (fun s : Nat => .integer s) t.second)]

namespace Value

/-- The parts of a value. -/
def payload : Value → Json
  | number n => n.toJson
  | money m => m.toJson
  | quantity q => q.toJson
  | rate r => r.toJson
  | duration d => d.toJson
  | date d => .string d.text
  | time t => t.toJson
  | boolean b => .boolean b

/-- The entry for a value in a list of results. -/
def toJson (v : Value) : Json :=
  .object [("display", .string v.text), ("type", .string v.typeName), ("value", v.payload)]

/-- A list of results, each part on a line of its own. -/
def listing (vs : List Value) : String := (Json.array (vs.map toJson)).pretty

end Value
end Reckoner
