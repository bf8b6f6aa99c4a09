import Reckoner.Literal.Number
import Reckoner.Time.Read
import Reckoner.Value.Basic
/-!
Literals with a unit, a currency or a unit of time, and truth values.
-/
namespace Reckoner

/-- The truth value of a word, in any case. -/
def truth? (s : String) : Option Bool :=
  let word := Text.lower (Text.trim s)
  if ["true", "yes", "on"].contains word then some true
  else if ["false", "no", "off"].contains word then some false
  else none

/-- Reads an amount of money. -/
def Money.read (amount currency : String) : Except Error Money := do
  let code ← orError (Money.code? currency) (.invalidLiteral .currency currency)
  let n ← NumberLiteral.read amount
  pure (Money.ofCode n code)

/-- Reads a duration. -/
def Duration.read (amount unit : String) : Except Error Duration := do
  let u ← TimeUnit.read unit
  let n ← NumberLiteral.read amount
  pure ⟨n, u⟩

/-- Reads a number with a unit; with a unit of time it is a duration. -/
def Value.readQuantity (amount unit : String) : Except Error Value := do
  let n ← NumberLiteral.read amount
  let unit := Text.trim unit
  if unit.isEmpty then .error (.invalidLiteral .quantity amount)
  else
    match TimeUnit.ofString? unit with
    | some u => pure (.duration ⟨n, u⟩)
    | none => pure (.quantity ⟨n, unit⟩)

/-- Reads a rate. -/
def Rate.read (amount unit per : String) : Except Error Rate := do
  let unit := Text.trim unit
  if unit.isEmpty then .error (.invalidLiteral .rate (amount ++ " /" ++ per))
  else
    let n ← NumberLiteral.read amount
    Rate.make ⟨n, unit⟩ per

/-- Reads a truth value. -/
def Value.readTruth (s : String) : Except Error Bool :=
  orError (truth? s) (.invalidLiteral .boolean s)

end Reckoner
