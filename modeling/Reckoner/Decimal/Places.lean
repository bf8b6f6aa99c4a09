import Reckoner.Decimal.Arithmetic
/-!
Cutting and rounding a decimal at a decimal place or at a significant digit, and reading it as a
whole number.
-/
namespace Reckoner.Decimal

-- Powers are those of the core library, also where another library knows powers of its own.
attribute [local instance (high)] instPowNat

/-- The digits before the point. -/
def wholePart (a : Decimal) : Nat := a.coefficient / 10 ^ a.scale

/-- The digits after the point, as a coefficient with the scale of `a`. -/
def fraction (a : Decimal) : Nat := a.coefficient % 10 ^ a.scale

def isWhole (a : Decimal) : Bool := a.fraction == 0

theorem wholePart_lt (a : Decimal) : a.wholePart < 2 ^ (96 : Nat) :=
  Nat.lt_of_le_of_lt (Nat.div_le_self _ _) a.coefficient_lt

theorem wholePart_succ_lt (a : Decimal) (h : a.isWhole = false) :
    a.wholePart + 1 < 2 ^ (96 : Nat) := by
  have hs : a.scale ≠ 0 := by
    intro h0
    simp [isWhole, fraction, h0, Nat.mod_one] at h
  have hp : 10 ^ (1 : Nat) ≤ 10 ^ a.scale := Nat.pow_le_pow_right (by decide) (by omega)
  have hq : a.coefficient / 10 ^ a.scale ≤ a.coefficient / 10 :=
    Nat.div_le_div_left (by simpa using hp) (by decide)
  have hc := a.coefficient_lt
  unfold wholePart
  omega

/-- The whole number next to `a` toward zero. Its sign stays, even on a zero. -/
def trunc (a : Decimal) : Decimal :=
  { negative := a.negative, coefficient := a.wholePart, scale := 0
    coefficient_lt := a.wholePart_lt, scale_le := zero.scale_le }

/-- The whole number next to `a` away from zero. -/
def awayFromZero (a : Decimal) : Decimal :=
  if h : a.isWhole = false then
    { negative := a.negative, coefficient := a.wholePart + 1, scale := 0
      coefficient_lt := a.wholePart_succ_lt h, scale_le := zero.scale_le }
  else a.trunc

/-- The greatest whole number that is not above `a`; a decimal without places is left alone. -/
def floor (a : Decimal) : Decimal := if a.negative then a.awayFromZero else a.trunc

/-- The least whole number that is not below `a`; a decimal without places is left alone. -/
def ceil (a : Decimal) : Decimal := if a.negative then a.trunc else a.awayFromZero

theorem roundQuotient_pow_lt (tie : Tie) (c k : Nat) (hc : c < 2 ^ (96 : Nat)) :
    roundQuotient tie c (10 ^ k) < 2 ^ (96 : Nat) := by
  cases k with
  | zero => simpa using hc
  | succ k =>
    have hp : 10 ^ (1 : Nat) ≤ 10 ^ (k + 1) := Nat.pow_le_pow_right (by decide) (by omega)
    have hq : c / 10 ^ (k + 1) ≤ c / 10 := Nat.div_le_div_left (by simpa using hp) (by decide)
    have hr := roundQuotient_le tie c (10 ^ (k + 1))
    omega

/-- The decimal nearest to `a` with at most `places` decimal places. One that has no more is left
as it is written; a rounded zero has no sign. -/
def roundPlaces (tie : Tie) (places : Nat) (a : Decimal) : Decimal :=
  if h : a.scale ≤ places then a
  else
    let c := roundQuotient tie a.coefficient (10 ^ (a.scale - places))
    { negative := a.negative && c != 0
      coefficient := c
      scale := places
      coefficient_lt := roundQuotient_pow_lt tie _ _ a.coefficient_lt
      scale_le := by
        have := a.scale_le
        omega }

/-- How many digits a coefficient has; zero has one. -/
def digitCount (n : Nat) : Nat := (Nat.toDigits 10 n).length

/-- The number with `figures` significant digits nearest to `a`, halves away from zero; none if it
is out of range. -/
def roundFigures (figures : Nat) (a : Decimal) : Option Decimal :=
  let digits := digitCount a.coefficient
  if digits ≤ figures then some a
  else
    let dropped := digits - figures
    let c := roundQuotient .awayFromZero a.coefficient (10 ^ dropped)
    if dropped ≤ a.scale then ofParts? a.negative c (a.scale - dropped)
    else ofParts? a.negative (c * 10 ^ (dropped - a.scale)) 0

/-- The digits before the point as a signed number of 64 bits, if they fit. -/
def toInt64? (a : Decimal) : Option Int :=
  if a.wholePart < 2 ^ (63 : Nat) then
    some (if a.negative then -(a.wholePart : Int) else a.wholePart)
  else if a.negative && a.wholePart == 2 ^ (63 : Nat) then some (-(2 ^ (63 : Nat) : Int))
  else none

/-- A whole number below `2 ^ 32`. No decimal with a minus sign is one, not even `-0`. -/
def toCount? (a : Decimal) : Option Nat :=
  if a.isWhole && !a.negative && decide (a.wholePart < 2 ^ (32 : Nat)) then some a.wholePart
  else none

end Reckoner.Decimal
