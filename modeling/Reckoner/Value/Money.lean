import Reckoner.Time.Duration
/-!
Amounts of money and the codes of currencies.
-/
namespace Reckoner

/-- An amount in the currency with this code, which is in upper case, and the symbol that is written
in front of it, if there is one. -/
structure Money where
  amount : Decimal
  code : String
  symbol : Option String
deriving DecidableEq, Repr

namespace Money

/-- The currencies that are written with a symbol in front, symbol and code. -/
def symbols : List (String × String) :=
  [("$", "USD"), ("€", "EUR"), ("£", "GBP"), ("¥", "JPY"), ("₹", "INR")]

/-- The symbol of the currency with this code. -/
def symbolOf? (code : String) : Option String :=
  (symbols.find? fun p => p.2 == code).map Prod.fst

/-- An amount in the currency whose code is `code` in any case, with the symbol of that currency. -/
def ofCode (amount : Decimal) (code : String) : Money :=
  let code := Text.upper code
  ⟨amount, code, symbolOf? code⟩

/-- Another amount in the same currency, with the same symbol. -/
def withAmount (m : Money) (amount : Decimal) : Money := { m with amount }

/-- Whether a text is three ASCII letters. -/
def isCode (s : String) : Bool := s.length == 3 && s.toList.all Char.isAlpha

/-- The code that a symbol or three letters stand for. -/
def code? (s : String) : Option String :=
  let word := Text.trim s
  match symbols.find? fun p => p.1 == word with
  | some p => some p.2
  | none => if isCode word then some (Text.upper word) else none

/-- The amount to two places, a half to the even neighbour, behind the symbol or in front of the
code. -/
def text (m : Money) : String :=
  let a := m.amount.roundPlaces .toEven 2
  match m.symbol with
  | some symbol => (if a.isBelowZero then "-" else "") ++ symbol ++ a.abs.centsText
  | none => a.centsText ++ " " ++ m.code

/-- Equality of code, of symbol and of the number that the amount stands for. -/
def same (m n : Money) : Bool :=
  m.amount.same n.amount && m.code == n.code && m.symbol == n.symbol

end Money
end Reckoner
