/-!
The operators of the language and how they are written.
-/
namespace Reckoner

inductive ArithmeticOperator where
  | add
  | subtract
  | multiply
  | divide
  | modulo
  | power
deriving DecidableEq, Repr

inductive ComparisonOperator where
  | greater
  | less
  | greaterOrEqual
  | lessOrEqual
  | equal
  | notEqual
deriving DecidableEq, Repr

inductive UnaryOperator where
  | negate
  | plus
deriving DecidableEq, Repr

namespace ArithmeticOperator

def symbol : ArithmeticOperator → String
  | add => "+"
  | subtract => "-"
  | multiply => "*"
  | divide => "/"
  | modulo => "%"
  | power => "^"

/-- The name of the operation in words. -/
def name : ArithmeticOperator → String
  | add => "addition"
  | subtract => "subtraction"
  | multiply => "multiplication"
  | divide => "division"
  | modulo => "modulo"
  | power => "exponentiation"

def all : List ArithmeticOperator := [add, subtract, multiply, divide, modulo, power]

/-- The operator written `s`. -/
def ofSymbol? (s : String) : Option ArithmeticOperator := all.find? fun o => o.symbol == s

end ArithmeticOperator

namespace ComparisonOperator

def symbol : ComparisonOperator → String
  | greater => ">"
  | less => "<"
  | greaterOrEqual => ">="
  | lessOrEqual => "<="
  | equal => "=="
  | notEqual => "!="

def all : List ComparisonOperator := [greater, less, greaterOrEqual, lessOrEqual, equal, notEqual]

/-- The operator written `s`. -/
def ofSymbol? (s : String) : Option ComparisonOperator := all.find? fun o => o.symbol == s

/-- Whether the operator holds of two things that compare as `o`. -/
def holds (op : ComparisonOperator) (o : Ordering) : Bool :=
  match op with
  | greater => o == .gt
  | less => o == .lt
  | greaterOrEqual => o != .lt
  | lessOrEqual => o != .gt
  | equal => o == .eq
  | notEqual => o != .eq

end ComparisonOperator

namespace UnaryOperator

def symbol : UnaryOperator → String
  | negate => "-"
  | plus => "+"

def all : List UnaryOperator := [negate, plus]

/-- The operator written `s`. -/
def ofSymbol? (s : String) : Option UnaryOperator := all.find? fun o => o.symbol == s

end UnaryOperator
end Reckoner
