import Reckoner.Operator
import Reckoner.Decimal.Text
/-!
What can go wrong, one constructor for each cause, and the sentence that tells it.
-/
namespace Reckoner

/-- How many arguments a function takes: at least `least`, and at most `most` if there is a most. -/
structure Arity where
  least : Nat
  most : Option Nat
deriving DecidableEq, Repr

namespace Arity

def allows (a : Arity) (n : Nat) : Bool :=
  decide (a.least ≤ n) && (match a.most with | some m => decide (n ≤ m) | none => true)

def text (a : Arity) : String :=
  match a.most with
  | none => "at least " ++ toString a.least
  | some m =>
    if m = a.least then toString a.least else toString a.least ++ " to " ++ toString m

end Arity

/-- The ranges that a number can be required to lie in. -/
inductive Range where
  /-- The numbers of significant figures. -/
  | figures
  /-- The numbers of decimal places. -/
  | places
  /-- Everything above zero. -/
  | positive
  /-- Everything from zero up. -/
  | nonNegative
  /-- The fractions of a whole. -/
  | fraction
deriving DecidableEq, Repr

def Range.text : Range → String
  | figures => "[1, 28]"
  | places => "[0, 28]"
  | positive => "(0, ∞)"
  | nonNegative => "[0, ∞)"
  | fraction => "[0, 1]"

/-- The kinds of literal that can be unreadable. -/
inductive LiteralKind where
  | number
  | boolean
  | currency
  | date
  | time
  | quantity
  | rate
deriving DecidableEq, Repr

def LiteralKind.name : LiteralKind → String
  | number => "number"
  | boolean => "boolean"
  | currency => "currency"
  | date => "date"
  | time => "time"
  | quantity => "quantity"
  | rate => "rate"

/-- The limits that an evaluation can run into. -/
inductive Limit where
  | depth
  | batch
deriving DecidableEq, Repr

def Limit.name : Limit → String
  | depth => "max_expression_depth"
  | batch => "max_batch_size"

/-- The causes of failure. -/
inductive Error where
  /-- The name is neither bound nor a truth value. -/
  | undefinedIdentifier (name : String)
  | unknownFunction (name : String)
  | wrongArgumentCount (function : String) (arity : Arity) (found : Nat)
  /-- The argument at `position`, counted from one, is not of the expected type. -/
  | wrongArgumentType (function : String) (position : Nat) (expected found : String)
  | divisionByZero (operator : ArithmeticOperator)
  | negativeValue (what : String) (value : Decimal)
  | outOfRange (what : String) (value : Decimal) (range : Range)
  /-- There is no way from one unit to the other. -/
  | incompatibleUnits (source target : String)
  /-- There is no exchange rate between two currencies. -/
  | incompatibleCurrencies (source target : String)
  /-- A word that is none of those its place allows. -/
  | unknownKeyword (kind word : String) (expected : List String)
  | unsupportedOperation (operator operands : String)
  | malformedExchangeKey (key : String)
  | invalidLiteral (kind : LiteralKind) (text : String)
  /-- A result beyond the range of numbers or of dates. -/
  | overflow (operation : String)
  | limitExceeded (limit : Limit) (allowed actual : Nat)
  /-- A state that no input leads to. -/
  | internal (what : String)
deriving DecidableEq, Repr

namespace Error

/-- The sentence that tells the error. -/
def message : Error → String
  | undefinedIdentifier name => "Undefined identifier: '" ++ name ++ "'"
  | unknownFunction name => "Unknown function: '" ++ name ++ "'"
  | wrongArgumentCount function arity found =>
    "Function '" ++ function ++ "' expects " ++ arity.text ++ " argument(s), got " ++ toString found
  | wrongArgumentType function position expected found =>
    "Function '" ++ function ++ "' argument " ++ toString position ++ ": expected " ++ expected ++
      ", got " ++ found
  | divisionByZero operator => "Division by zero in '" ++ operator.symbol ++ "'"
  | negativeValue what value => what ++ " requires a non-negative value, got " ++ value.text
  | outOfRange what value range =>
    what ++ ": " ++ value.text ++ " is outside the allowed range " ++ range.text
  | incompatibleUnits source target =>
    "Incompatible units: cannot convert '" ++ source ++ "' to '" ++ target ++ "'"
  | incompatibleCurrencies source target =>
    "Incompatible currencies: no exchange rate between " ++ source ++ " and " ++ target
  | unknownKeyword kind word expected =>
    "Unknown " ++ kind ++ " '" ++ word ++ "' (expected one of: " ++ ", ".intercalate expected ++ ")"
  | unsupportedOperation operator operands =>
    "Unsupported operation: '" ++ operator ++ "' is not defined for " ++ operands
  | malformedExchangeKey key =>
    "Malformed exchange key '" ++ key ++ "': expected FROM_TO, e.g. USD_EUR"
  | invalidLiteral kind text => "Invalid " ++ kind.name ++ " literal: '" ++ text ++ "'"
  | overflow operation => "Arithmetic overflow in " ++ operation
  | limitExceeded limit allowed actual =>
    "Resource limit exceeded: " ++ limit.name ++ " (limit: " ++ toString allowed ++ ", actual: " ++
      toString actual ++ ")"
  | internal what => "Internal error: " ++ what

end Error

/-- The value, or the error if there is none. -/
def orError {α : Type} (o : Option α) (e : Error) : Except Error α :=
  match o with
  | some a => .ok a
  | none => .error e

end Reckoner
