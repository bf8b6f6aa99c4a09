import Reckoner.Evaluation.Context
import Reckoner.Expression.Basic
import Reckoner.Napkin
import Reckoner.Planning.Capacity
import Reckoner.Planning.Estimate
import Reckoner.Planning.Flow
import Reckoner.Value.Aggregate
/-!
The functions of the language: their names, what each of their arguments means, and what they
compute. Some arguments are bare words, which are never looked up as names.
-/
namespace Reckoner

/-- What an argument of a function means. -/
inductive Parameter where
  | value
  | number
  | quantity
  | rate
  /-- The spelling of a unit of time, for one of it, or an expression for a duration. -/
  | period
  /-- A word, or an expression for a duration, for its unit. -/
  | target
  | word
  | scope
  | link
  | drive
  | compression
  /-- A whole number below `2 ^ 32`, with what it counts and the range that errors name. -/
  | count (what : String) (range : Range)

namespace Parameter

/-- What an argument is once it is read. -/
def Meaning : Parameter → Type
  | value => Value
  | number => Decimal
  | quantity => Quantity
  | rate => Rate
  | period => Duration
  | target => String
  | word => String
  | scope => Scope
  | link => Link
  | drive => Drive
  | compression => Compression
  | count _ _ => Nat

/-- The error for an argument of another kind. -/
def wrongType (function : String) (position : Nat) (expected : String) (found : Value) : Error :=
  .wrongArgumentType function position expected found.describe

/-- The bare word that an argument is. -/
def wordOf (function : String) (position : Nat) (e : Expression) : Except Error String :=
  orError e.word? (.wrongArgumentType function position "a keyword" e.text)

/-- The number that a value is. -/
def numberOf (function : String) (position : Nat) : Value → Except Error Decimal
  | .number n => .ok n
  | v => .error (wrongType function position "a number" v)

def quantityOf (function : String) (position : Nat) : Value → Except Error Quantity
  | .quantity q => .ok q
  | v => .error (wrongType function position "a quantity" v)

def rateOf (function : String) (position : Nat) : Value → Except Error Rate
  | .rate r => .ok r
  | v => .error (wrongType function position "a rate" v)

def durationOf (function : String) (position : Nat) : Value → Except Error Duration
  | .duration d => .ok d
  | v => .error (wrongType function position "a time period" v)

/-- One of the unit of time that a bare word spells. -/
def unitWord? (e : Expression) : Option Duration :=
  (e.word?.bind TimeUnit.ofString?).map fun u => ⟨.one, u⟩

/-- Reads an argument; `value` evaluates it, and is not run for a bare word. -/
def read (function : String) (position : Nat) (e : Expression) (value : Evaluation Value) :
    (p : Parameter) → Evaluation p.Meaning
  | .value => value
  | .number => do
    let v ← value
    Evaluation.result (numberOf function position v)
  | .quantity => do
    let v ← value
    Evaluation.result (quantityOf function position v)
  | .rate => do
    let v ← value
    Evaluation.result (rateOf function position v)
  | .period =>
    match unitWord? e with
    | some d => Evaluation.result (.ok d)
    | none => do
      let v ← value
      Evaluation.result (durationOf function position v)
  | .target =>
    match e.word? with
    | some w => Evaluation.result (.ok w)
    | none => do
      let v ← value
      Evaluation.result ((durationOf function position v).map fun d => d.unit.name)
  | .word => Evaluation.result (wordOf function position e)
  | .scope => Evaluation.result (wordOf function position e >>= Scope.read)
  | .link => Evaluation.result (wordOf function position e >>= Link.read)
  | .drive => Evaluation.result (wordOf function position e >>= Drive.read)
  | .compression => Evaluation.result (wordOf function position e >>= Compression.read)
  | .count what range => do
    let v ← value
    let n ← Evaluation.result (numberOf function position v)
    Evaluation.result (orError n.toCount? (.outOfRange what n range))

end Parameter

/-- A place in a list of arguments. -/
inductive Slot where
  | one (p : Parameter)
  | optional (p : Parameter)
  /-- All arguments that are left, one at least. -/
  | values

def Slot.Meaning : Slot → Type
  | one p => p.Meaning
  | optional p => Option p.Meaning
  | values => List Value

/-- What the arguments of a function are once they are read. -/
def Arguments : List Slot → Type
  | [] => Unit
  | s :: slots => s.Meaning × Arguments slots

namespace Arguments

/-- The arguments where none are left, unless one is missing. -/
def absent? : (slots : List Slot) → Option (Arguments slots)
  | [] => some ()
  | .one _ :: _ => none
  | .optional _ :: slots => (absent? slots).map fun rest => (none, rest)
  | .values :: slots => (absent? slots).map fun rest => ([], rest)

/-- How many arguments fill the places. -/
def arity : List Slot → Arity
  | [] => ⟨0, some 0⟩
  | .one _ :: slots =>
    let a := arity slots
    ⟨a.least + 1, a.most.map (· + 1)⟩
  | .optional _ :: slots =>
    let a := arity slots
    ⟨a.least, a.most.map (· + 1)⟩
  | .values :: slots => ⟨(arity slots).least + 1, none⟩

end Arguments

inductive Function where
  | requires
  | capacityAt
  | downtime
  | accumulate
  | convertRate
  | roundTrip
  | throughput
  | transferTime
  | read
  | seek
  | compress
  | napkin
  | average
  | sum
  | least
  | greatest
  | root
  | abs
  | floor
  | ceil
  | round
deriving DecidableEq, Repr

namespace Function

def all : List Function :=
  [requires, capacityAt, downtime, accumulate, convertRate, roundTrip, throughput, transferTime,
   read, seek, compress, napkin, average, sum, least, greatest, root, abs, floor, ceil, round]

def names : Function → List String
  | requires => ["requires"]
  | capacityAt => ["capacity_at"]
  | downtime => ["downtime"]
  | accumulate => ["accumulate"]
  | convertRate => ["convert_rate"]
  | roundTrip => ["rtt"]
  | throughput => ["throughput"]
  | transferTime => ["transfer_time"]
  | read => ["read"]
  | seek => ["seek"]
  | compress => ["compress"]
  | napkin => ["napkin"]
  | average => ["avg", "average"]
  | sum => ["sum"]
  | least => ["min"]
  | greatest => ["max"]
  | root => ["sqrt"]
  | abs => ["abs"]
  | floor => ["floor"]
  | ceil => ["ceil"]
  | round => ["round"]

/-- The function called by a word. -/
def named? (word : String) : Option Function := all.find? fun f => f.names.contains word

/-- The places of a function's arguments. -/
def slots : Function → List Slot
  | requires => [.one .value, .one .value, .optional .number]
  | capacityAt => [.one .value, .one .value, .one .word, .optional .number]
  | downtime => [.one .number, .one .period]
  | accumulate => [.one .rate, .one .period]
  | convertRate => [.one .rate, .one .target]
  | roundTrip => [.one .scope]
  | throughput => [.one .link]
  | transferTime => [.one .quantity, .one .scope, .one .link]
  | read => [.one .quantity, .one .drive]
  | seek => [.one .drive]
  | compress => [.one .value, .one .compression]
  | napkin => [.one .value, .optional (.count "napkin significant figures" .figures)]
  | average => [.values]
  | sum => [.values]
  | least => [.values]
  | greatest => [.values]
  | root => [.one .number]
  | abs => [.one .value]
  | floor => [.one .value]
  | ceil => [.one .value]
  | round => [.one .value, .optional (.count "round decimal places" .places)]

/-- The number of arguments that a function takes. -/
def arity (f : Function) : Arity := Arguments.arity f.slots

/-- The value of a function that was called by `word`. -/
def apply (limits : Limits) (word : String) :
    (f : Function) → Arguments f.slots → Except Error Value
  | requires, (load, capacity, buffer, ()) =>
    (Capacity.requires load capacity buffer).map .number
  | capacityAt, (load, capacity, unit, buffer, ()) =>
    (Capacity.capacityAt load capacity unit buffer).map .quantity
  | downtime, (availability, period, ()) => (Estimate.downtime availability period).map .duration
  | accumulate, (rate, period, ()) => (Rate.accumulate rate period).map .quantity
  | convertRate, (rate, target, ()) => (Rate.retime rate target).map .rate
  | roundTrip, (scope, ()) => .ok (.duration (Estimate.roundTrip scope))
  | throughput, (link, ()) => (Estimate.linkThroughput link).map .rate
  | transferTime, (size, scope, link, ()) => (Estimate.transferTime size scope link).map .duration
  | read, (size, drive, ()) => (Estimate.readTime size drive).map .duration
  | seek, (drive, ()) => .ok (.duration (Estimate.seekTime drive))
  | compress, (size, compression, ()) => Estimate.compress size compression
  | napkin, (value, figures, ()) => Napkin.roundValue value (Option.getD figures limits.figures)
  | average, (values, ()) => Value.aggregate word Decimal.mean values
  | sum, (values, ()) => Value.aggregate word Decimal.sum values
  | least, (values, ()) => Value.aggregate word Decimal.least values
  | greatest, (values, ()) => Value.aggregate word Decimal.greatest values
  | root, (n, ()) => (Decimal.root n).map .number
  | abs, (value, ()) => Value.mapMagnitude word Decimal.abs value
  | floor, (value, ()) => Value.mapMagnitude word Decimal.floor value
  | ceil, (value, ()) => Value.mapMagnitude word Decimal.ceil value
  | round, (value, places, ()) => Value.round word (Option.getD places 0) value

end Function
end Reckoner
