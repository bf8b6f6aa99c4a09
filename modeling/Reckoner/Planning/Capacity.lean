import Reckoner.Unit.Convert
import Reckoner.Value.Basic
import Reckoner.Value.Number
/-!
How many units of some capacity a load requires.
-/
namespace Reckoner.Capacity

/-- The bits a second of a rate of data. -/
def bitsPerSecond (r : Rate) : Except Error Decimal := do
  let bits ← r.amount.value.toBaseUnit r.amount.unit
  let seconds ← r.perSeconds
  pure (bits.dividedBy seconds)

/-- The number of an operand beside a bare number. -/
def bareNumber (v : Value) (position : Nat) : Except Error Decimal :=
  match v with
  | .quantity q => .ok q.value
  | .rate r => .ok r.amount.value
  | .money m => .ok m.amount
  | v =>
    .error (.wrongArgumentType "requires" position "a number, quantity, rate or currency"
      v.describe)

/-- The error for a load and a capacity that cannot be compared. -/
def mismatch (load capacity : Value) : Error :=
  let expected (v : Value) := "a value comparable with " ++ v.describe
  match load with
  | .quantity _ => .wrongArgumentType "requires" 2 (expected load) capacity.describe
  | .rate _ => .wrongArgumentType "requires" 2 (expected load) capacity.describe
  | _ => .wrongArgumentType "requires" 1 (expected capacity) load.describe

/-- The numbers of load and capacity in one unit. -/
def comparable (load capacity : Value) : Except Error (Decimal × Decimal) :=
  match load, capacity with
  | .number l, .number c => .ok (l, c)
  | .number l, c => do
    let n ← bareNumber c 2
    pure (l, n)
  | l, .number c => do
    let n ← bareNumber l 1
    pure (n, c)
  | .quantity l, .quantity c => do
    let n ← c.value.convertUnit c.unit l.unit
    pure (l.value, n)
  | .rate l, .rate c => do
    let n ← c.amount.value.convertUnit c.amount.unit l.amount.unit
    let loadSeconds ← l.perSeconds
    let capacitySeconds ← c.perSeconds
    pure (l.amount.value.dividedBy loadSeconds, n.dividedBy capacitySeconds)
  | .rate r, .quantity q =>
    if KnownUnit.isThroughput q.unit then do
      let load ← bitsPerSecond r
      let capacity ← q.value.toBaseUnit q.unit
      pure (load, capacity)
    else .error (.incompatibleUnits r.unitText q.unit)
  | .quantity q, .rate r =>
    if KnownUnit.isThroughput q.unit then do
      let load ← q.value.toBaseUnit q.unit
      let capacity ← bitsPerSecond r
      pure (load, capacity)
    else .error (.incompatibleUnits q.unit r.unitText)
  | .money l, .money c =>
    if l.code = c.code then .ok (l.amount, c.amount)
    else .error (.incompatibleCurrencies c.code l.code)
  | l, c => .error (mismatch l c)

/-- The count for a load, a capacity and a buffer in one unit. -/
def count (load capacity buffer : Decimal) : Option Decimal := do
  let factor ← Decimal.one.add buffer
  let buffered ← load.mul factor
  let needed ← buffered.div capacity
  pure needed.ceil.normalize

/-- How many units of `capacity` carry `load` with a fraction `buffer` to spare. -/
def requires (load capacity : Value) (buffer : Option Decimal) : Except Error Decimal :=
  let buffer := buffer.getD .zero
  if buffer.isBelowZero then .error (.negativeValue "capacity buffer" buffer)
  else do
    let (load, capacity) ← comparable load capacity
    if capacity.le .zero then .error (.outOfRange "capacity" capacity .positive)
    else if load.isBelowZero then .error (.negativeValue "load" load)
    else orError (count load capacity buffer) (.overflow "capacity planning")

/-- The same count as a quantity of the units that are counted. -/
def capacityAt (load capacity : Value) (unit : String) (buffer : Option Decimal) :
    Except Error Quantity := do
  let n ← requires load capacity buffer
  pure ⟨n, Text.trim unit⟩

end Reckoner.Capacity
