import Reckoner.Error
import Reckoner.Text.Blank
import Reckoner.Text.Digit
import Reckoner.Time.Duration
/-!
Number literals: a sign, digits with a point and separators, an exponent, a letter for a power of a
thousand and a percent sign.
-/
namespace Reckoner.NumberLiteral

-- Powers are those of the core library, also where another library knows powers of its own.
attribute [local instance (high)] instPowNat

/-- What a number literal is made of. -/
structure Parts where
  sign : List Char
  /-- Digits, with a point in front of at least one of them or none. -/
  digits : List Char
  /-- The sign and the digits of the exponent. -/
  exponent : Option (List Char × List Char)
  /-- The letter for a power of a thousand. -/
  suffix : Option Char
  percent : Bool

/-- Commas and underscores between the digits mean nothing. -/
def isSeparator (c : Char) : Bool := c == ',' || c == '_'

/-- A sign at the front of a text, which may be missing. -/
def signAtFront : List Char → List Char × List Char
  | '+' :: cs => (['+'], cs)
  | '-' :: cs => (['-'], cs)
  | cs => ([], cs)

/-- Digits with an optional point, which must have a digit behind it. -/
def digitsAtFront (cs : List Char) : Option (List Char × List Char) :=
  let whole := cs.takeWhile Text.isScriptDigit
  match cs.drop whole.length with
  | '.' :: rest =>
    let fraction := rest.takeWhile Text.isScriptDigit
    if fraction.isEmpty then
      if whole.isEmpty then none else some (whole, '.' :: rest)
    else some (whole ++ '.' :: fraction, rest.drop fraction.length)
  | rest => if whole.isEmpty then none else some (whole, rest)

/-- An exponent at the front of a text, if there is one. -/
def exponentAtFront (cs : List Char) : Option (List Char × List Char) × List Char :=
  match cs with
  | e :: rest =>
    if e.toLower = 'e' then
      let (sign, rest) := signAtFront rest
      let ds := rest.takeWhile Text.isScriptDigit
      if ds.isEmpty then (none, cs) else (some (sign, ds), rest.drop ds.length)
    else (none, cs)
  | [] => (none, cs)

/-- Whether a letter stands for a power of a thousand. -/
def isSuffix (c : Char) : Bool := ['k', 'm', 'b', 't'].contains c.toLower

/-- The letter for a power of a thousand at the front of a text, if there is one. -/
def suffixAtFront : List Char → Option Char × List Char
  | c :: cs => if isSuffix c then (some c, cs) else (none, c :: cs)
  | [] => (none, [])

/-- Takes a number literal apart. -/
def split (cs : List Char) : Option Parts := do
  let (sign, cs) := signAtFront cs
  let (digits, cs) ← digitsAtFront cs
  let (exponent, cs) := exponentAtFront cs
  let (suffix, cs) := suffixAtFront (Text.trimStart cs)
  match Text.trimStart cs with
  | [] => some ⟨sign, digits, exponent, suffix, false⟩
  | ['%'] => some ⟨sign, digits, exponent, suffix, true⟩
  | _ => none

/-- The power of a thousand that a letter stands for. -/
def multiplier (c : Char) : Nat :=
  if c.toLower = 'k' then 10 ^ (3 : Nat)
  else if c.toLower = 'm' then 10 ^ (6 : Nat)
  else if c.toLower = 'b' then 10 ^ (9 : Nat)
  else 10 ^ (12 : Nat)

/-- The number before suffix and percent sign. -/
def mantissa? (p : Parts) : Option Decimal := do
  let digits := if p.digits.head? = some '.' then '0' :: p.digits else p.digits
  let n ← Decimal.read? (p.sign ++ digits)
  match p.exponent with
  | none => some n
  | some (sign, ds) =>
    let e ← Decimal.readExponent? ds
    if sign = ['-'] then n.lower e else n.raise e

/-- A hundred. -/
def hundred : Decimal := .ofLiteral 100 0

/-- Reads a number literal. -/
def read (s : String) : Except Error Decimal := do
  let cs := (Text.trimChars s.toList).filter fun c => !isSeparator c
  let p ← orError (split cs) (.invalidLiteral .number s)
  let n ← orError (mantissa? p) (.invalidLiteral .number s)
  let n ←
    match p.suffix with
    | none => pure n
    | some c =>
      orError ((Decimal.ofNat? (multiplier c)).bind n.mul)
        (.overflow ("number literal '" ++ s ++ "'"))
  pure (if p.percent then n.dividedBy hundred else n)

end Reckoner.NumberLiteral
