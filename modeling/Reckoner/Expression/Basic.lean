import Reckoner.Operator
/-!
Expressions as they come out of a parser, with literals by their text, and how they are written.
-/
namespace Reckoner

inductive Expression where
  | number (text : String)
  | boolean (text : String)
  | date (text : String)
  | time (text : String)
  | currency (amount currency : String)
  | duration (amount unit : String)
  | quantity (amount unit : String)
  | rate (amount unit per : String)
  | identifier (name : String)
  | assignment (name : String) (value : Expression)
  | arithmetic (left : Expression) (op : ArithmeticOperator) (right : Expression)
  | comparison (left : Expression) (op : ComparisonOperator) (right : Expression)
  | unary (op : UnaryOperator) (operand : Expression)
  /-- The value in another unit. -/
  | conversion (value : Expression) (target : String)
  /-- A fraction of a value. -/
  | percentage (fraction base : Expression)
  /-- The value rounded to a few significant figures. -/
  | napkin (value : Expression) (figures : Option Nat)
  | call (function : String) (arguments : List Expression)
  /-- A setting declared at the head of a document. -/
  | declaration (space key : String) (value : Expression)
deriving Inhabited, Repr

/-- The place of an expression in a document. -/
structure Span where
  start : Nat
  stop : Nat
  line : Nat
  column : Nat
deriving DecidableEq, Repr

/-- An expression with its place, if that is known. -/
structure Located where
  expression : Expression
  span : Option Span

namespace Expression

/-- The word of an expression that is a bare word. -/
def word? : Expression → Option String
  | identifier name => some name
  | _ => none

mutual

/-- The written form. Operands are not put into brackets. -/
def text : Expression → String
  | number text => text
  | boolean text => text
  | date text => text
  | time text => text
  | currency amount code => amount ++ " " ++ code
  | duration amount unit => amount ++ " " ++ unit
  | quantity amount unit => amount ++ " " ++ unit
  | rate amount unit per => amount ++ " " ++ unit ++ "/" ++ per
  | identifier name => name
  | assignment name value => name ++ " = " ++ text value
  | arithmetic left op right => text left ++ " " ++ op.symbol ++ " " ++ text right
  | comparison left op right => text left ++ " " ++ op.symbol ++ " " ++ text right
  | unary op operand => op.symbol ++ text operand
  | conversion value target => text value ++ " in " ++ target
  | percentage fraction base => text fraction ++ " of " ++ text base
  | napkin value _ => text value ++ " in napkin"
  | call function arguments => function ++ "(" ++ textList arguments ++ ")"
  | declaration space key value => space ++ "." ++ key ++ ": " ++ text value

/-- The written forms of arguments, with commas between them. -/
def textList : List Expression → String
  | [] => ""
  | [e] => text e
  | e :: f :: rest => text e ++ ", " ++ textList (f :: rest)

end

end Expression

namespace Located

/-- An expression whose place is not known. -/
def ofExpression (e : Expression) : Located := ⟨e, none⟩

def withSpan (l : Located) (s : Span) : Located := { l with span := some s }

end Located
end Reckoner
