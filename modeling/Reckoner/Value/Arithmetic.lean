import Reckoner.Environment
import Reckoner.Planning.Flow
import Reckoner.Unit.Convert
/-!
Arithmetic, comparison and signs on values. A result of two units has the unit of the left operand,
and the right one is converted to it first.
-/
namespace Reckoner

/-- Operands for which an operator has no meaning. -/
def unsupported (op : ArithmeticOperator) (operands : String) : Error :=
  .unsupportedOperation op.symbol operands

/-- A currency's amount in the currency of the left operand. -/
def Money.inCurrencyOf (right left : Money) (env : Environment) : Except Error Decimal :=
  if left.code = right.code then .ok right.amount
  else do
    let rate ←
      orError (env.exchangeRate? right.code left.code)
        (.incompatibleCurrencies right.code left.code)
    orError (right.amount.mul rate) (.overflow "currency exchange")

/-- Amounts of money combine in the currency of the left one; their quotient is a number. -/
def Money.combine (left : Money) (op : ArithmeticOperator) (right : Money) (env : Environment) :
    Except Error Value :=
  if op = .multiply ∨ op = .power then
    .error (unsupported op ("currency " ++ left.text ++ " and currency " ++ right.text))
  else do
    let amount ← right.inCurrencyOf left env
    let n ← left.amount.combine op amount
    pure (if op = .divide then .number n else .money (left.withAmount n))

/-- Quantities combine in the unit of the left one. -/
def Quantity.combine (left : Quantity) (op : ArithmeticOperator) (right : Quantity) :
    Except Error Value :=
  if op = .power then
    .error (unsupported op ("quantity " ++ left.text ++ " and quantity " ++ right.text))
  else do
    let value ← right.value.convertUnit right.unit left.unit
    let n ← left.value.combine op value
    pure (.quantity { left with value := n })

/-- The number of a rate in the units of another. -/
def Rate.inUnitsOf (right left : Rate) : Except Error Decimal := do
  let amount ← right.amount.value.convertUnit right.amount.unit left.amount.unit
  let leftSeconds ← left.perSeconds
  let rightSeconds ← right.perSeconds
  orError (Rate.scaled amount leftSeconds rightSeconds) (.overflow "rate normalisation")

/-- Rates combine in the units of the left one; their quotient is a number. -/
def Rate.combine (left : Rate) (op : ArithmeticOperator) (right : Rate) : Except Error Value :=
  if op = .add ∨ op = .subtract ∨ op = .divide then do
    let value ← right.inUnitsOf left
    let n ← left.amount.value.combine op value
    pure (if op = .divide then .number n else .rate (left.withValue n))
  else .error (unsupported op ("rate " ++ left.text ++ " and rate " ++ right.text))

/-- Durations are added and subtracted in seconds, and otherwise combine in the unit of the left
one. -/
def Duration.combine (left : Duration) (op : ArithmeticOperator) (right : Duration) :
    Except Error Value :=
  match op with
  | .power => .error (unsupported op ("duration " ++ left.text ++ " and duration " ++ right.text))
  | .add => inSeconds
  | .subtract => inSeconds
  | _ => do
    let other ← right.inUnit left.unit
    let n ← left.value.combine op other.value
    pure (.duration ⟨n, left.unit⟩)
where
  /-- The sum or difference of the lengths in seconds. -/
  inSeconds : Except Error Value := do
    let l ← left.seconds
    let r ← right.seconds
    let n ← l.combine op r
    pure (.duration (Duration.ofSeconds n left.unit))

namespace Value

/-- Arithmetic with a date on at least one side. -/
def combineDates (left : Value) (op : ArithmeticOperator) (right : Value) : Except Error Value :=
  match left, op, right with
  | date d, .add, duration p => (d.after p).map date
  | duration p, .add, date d => (d.after p).map date
  | date d, .subtract, duration p => (d.before p).map date
  | date d, .subtract, date e => .ok (duration (d.since e))
  | left, op, right => .error (unsupported op (left.describeBoth right))

/-- Arithmetic with a time of day on at least one side, and no date. -/
def combineTimes (left : Value) (op : ArithmeticOperator) (right : Value) : Except Error Value :=
  match left, op, right with
  | time t, .add, duration p => (t.after p).map time
  | duration p, .add, time t => (t.after p).map time
  | time t, .subtract, duration p => (t.before p).map time
  | time t, .subtract, time u => .ok (duration (t.since u))
  | left, op, right => .error (unsupported op (left.describeBoth right))

/-- The operators that a bare number may stand on the right of, by the kind of the left operand. -/
def takesNumber (left : Value) (op : ArithmeticOperator) : Bool :=
  match left with
  | number _ => true
  | money _ => op != .power
  | quantity _ => op != .modulo && op != .power
  | rate _ => op == .multiply || op == .divide
  | duration _ => op == .multiply || op == .divide
  | _ => false

/-- The operators that a bare number may stand on the left of, by the kind of the right operand. -/
def takesNumberBefore (op : ArithmeticOperator) (right : Value) : Bool :=
  match right with
  | number _ => true
  | money _ => op == .multiply
  | quantity _ => op == .add || op == .subtract || op == .multiply
  | rate _ => op == .multiply
  | duration _ => op == .multiply
  | _ => false

/-- A value with a bare number on its right. -/
def combineNumber (left : Value) (op : ArithmeticOperator) (n : Decimal) : Except Error Value :=
  if left.takesNumber op then
    match left.magnitude? with
    | some m => do
      let r ← m.combine op n
      left.withMagnitude r
    | none => .error (unsupported op (left.describeBoth (number n)))
  else .error (unsupported op (left.describeBoth (number n)))

/-- A value with a bare number on its left. -/
def combineNumberBefore (n : Decimal) (op : ArithmeticOperator) (right : Value) :
    Except Error Value :=
  if takesNumberBefore op right then
    match right.magnitude? with
    | some m => do
      let r ← n.combine op m
      right.withMagnitude r
    | none => .error (unsupported op ((number n).describeBoth right))
  else .error (unsupported op ((number n).describeBoth right))

/-- The result of an operator on two values. -/
def combine (left : Value) (op : ArithmeticOperator) (right : Value) (env : Environment) :
    Except Error Value :=
  match left, right with
  | date d, right => combineDates (date d) op right
  | left, date d => combineDates left op (date d)
  | time t, right => combineTimes (time t) op right
  | left, time t => combineTimes left op (time t)
  | left, number n => left.combineNumber op n
  | number n, right => combineNumberBefore n op right
  | money l, money r => l.combine op r env
  | quantity l, quantity r => l.combine op r
  | rate l, rate r => l.combine op r
  | duration l, duration r => l.combine op r
  | rate r, duration p =>
    if op = .multiply then (r.accumulate p).map quantity
    else .error (unsupported op ((rate r).describeBoth (duration p)))
  | duration p, rate r =>
    if op = .multiply then (r.accumulate p).map quantity
    else .error (unsupported op ((duration p).describeBoth (rate r)))
  | duration d, quantity q => .error (.incompatibleUnits d.unit.name q.unit)
  | quantity q, duration d => .error (.incompatibleUnits q.unit d.unit.name)
  | left, right => .error (unsupported op (left.describeBoth right))

/-- Whether a comparison holds: of numbers, of money in one currency, and of truth values for
equality only. -/
def compare (left : Value) (op : ComparisonOperator) (right : Value) : Except Error Bool :=
  match left, right with
  | number l, number r => .ok (op.holds (l.compare r))
  | money l, money r =>
    if l.code = r.code then .ok (op.holds (l.amount.compare r.amount))
    else .error (.incompatibleCurrencies r.code l.code)
  | boolean l, boolean r =>
    match op with
    | .equal => .ok (l == r)
    | .notEqual => .ok (l != r)
    | op => .error (.unsupportedOperation op.symbol ((boolean l).describeBoth (boolean r)))
  | left, right => .error (.unsupportedOperation op.symbol (left.describeBoth right))

/-- The sign in front of a number or an amount of money. -/
def signed (op : UnaryOperator) (v : Value) : Except Error Value :=
  match op, v with
  | .negate, number n => .ok (number n.neg)
  | .negate, money m => .ok (money (m.withAmount m.amount.neg))
  | .plus, number n => .ok (number n)
  | .plus, money m => .ok (money m)
  | op, v => .error (.unsupportedOperation op.symbol v.describe)

/-- A fraction of a value, which keeps the kind of the value. -/
def portion (fraction base : Value) : Except Error Value :=
  match fraction, base.magnitude? with
  | number p, some m => do
    let n ← orError (m.mul p) (.overflow "percentage")
    base.withMagnitude n
  | fraction, _ => .error (.unsupportedOperation "of" (fraction.describeBoth base))

end Value
end Reckoner
