import Reckoner.Value.Basic
/-!
Approximations to a few significant figures, as values to go on with and as short texts with a
letter for a power of a thousand.
-/
namespace Reckoner.Napkin

-- Powers are those of the core library, also where another library knows powers of its own.
attribute [local instance (high)] instPowNat

/-- The number with so many significant figures nearest to `a`, halves away from zero, without
trailing zeros. -/
def round (a : Decimal) (figures : Nat) : Except Error Decimal :=
  if figures = 0 then .error (.outOfRange "napkin significant figures" .zero .figures)
  else if a.isZero then .ok .zero
  else
    orError ((a.roundFigures figures).map Decimal.normalize) (.overflow "napkin rounding")

/-- The value with the number in it rounded. -/
def roundValue (v : Value) (figures : Nat) : Except Error Value := do
  let n ← orError v.magnitude? (.wrongArgumentType "napkin" 1 "a numeric value" v.describe)
  let r ← round n figures
  v.withMagnitude r

/-- The powers of a thousand that have a letter, the largest first. -/
def suffixes : List (Nat × String) :=
  [(10 ^ (12 : Nat), "T"), (10 ^ (9 : Nat), "B"), (10 ^ (6 : Nat), "M"), (10 ^ (3 : Nat), "K")]

/-- The short text of a rounded number with the letter of the first power that is not above it. -/
def scaledText (a : Decimal) (figures : Nat) : List (Nat × String) → Except Error String
  | [] => .ok a.rendered
  | (n, letter) :: rest =>
    match Decimal.ofNat? n with
    | some power =>
      if power.le a.abs then do
        let r ← round (a.dividedBy power) figures
        pure (r.rendered ++ letter)
      else scaledText a figures rest
    | none => scaledText a figures rest

/-- The short text of a number. -/
def numberText (a : Decimal) (figures : Nat) : Except Error String := do
  let r ← round a figures
  scaledText r figures suffixes

/-- The short text of a value, with its unit or currency. A value without a number is rendered as
usual. -/
def valueText (v : Value) (figures : Nat) : Except Error String :=
  match v with
  | .number n => numberText n figures
  | .money m => do
    let body ← numberText m.amount.abs figures
    let sign := if m.amount.isBelowZero then "-" else ""
    pure (match m.symbol with
      | some symbol => sign ++ symbol ++ body
      | none => sign ++ body ++ " " ++ m.code)
  | .quantity q => do
    let body ← numberText q.value figures
    pure (body ++ " " ++ q.unit)
  | .rate r => do
    let body ← numberText r.amount.value figures
    pure (body ++ " " ++ r.unitText)
  | .duration d => do
    let body ← numberText d.value figures
    pure (body ++ " " ++ d.unit.name)
  | v => .ok v.text

end Reckoner.Napkin
