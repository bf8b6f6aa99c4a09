import Reckoner.Decimal.Places
/-!
Writing and reading decimals. A decimal is written with every place it has; reading takes as many
digits as fit and rounds at the first that does not, behind which there may only be more digits.
-/
namespace Reckoner.Decimal

-- Powers are those of the core library, also where another library knows powers of its own.
attribute [local instance (high)] instPowNat

/-- The digits of `n` with at least `width` of them. -/
def paddedDigits (width n : Nat) : List Char :=
  let ds := Nat.toDigits 10 n
  List.replicate (width - ds.length) '0' ++ ds

/-- A coefficient written with a point in front of its last `places` digits. -/
def pointed (coefficient places : Nat) : List Char :=
  let ds := paddedDigits (places + 1) coefficient
  if places = 0 then ds
  else ds.take (ds.length - places) ++ '.' :: ds.drop (ds.length - places)

/-- The written form, a minus sign in front of a negative decimal, also of a zero. -/
def text (a : Decimal) : String :=
  String.ofList ((if a.negative then ['-'] else []) ++ pointed a.coefficient a.scale)

/-- The written form with zeros up to the second place, for a decimal with at most two places. -/
def centsText (a : Decimal) : String :=
  String.ofList ((if a.negative then ['-'] else []) ++
    pointed (a.coefficient * 10 ^ (2 - a.scale)) (max 2 a.scale))

/-- The decimal as results show it: rounded to ten places, a half to the even neighbour, and
without trailing zeros. -/
def rendered (a : Decimal) : String := ((a.roundPlaces .toEven 10).normalize).text

/-- The value of an ASCII digit. -/
def digit? (c : Char) : Option Nat := if c.isDigit then some (c.toNat - '0'.toNat) else none

/-- The decimal for the digits read so far when the next, `d`, does not fit: a five or more counts
one up, and what is then one too large loses its last digit. -/
def rounded? (negative : Bool) (coefficient places d : Nat) : Option Decimal :=
  let c := if 5 ≤ d then coefficient + 1 else coefficient
  if c < 2 ^ (96 : Nat) then ofParts? negative c places
  else if places = 0 then none
  else ofParts? negative ((c + 4) / 10) (places - 1)

/-- The digits behind the one at which the number is rounded do not count, but they have to be
digits. -/
def readRounded (negative : Bool) (coefficient places d : Nat) (rest : List Char) :
    Option Decimal :=
  if rest.all Char.isDigit then rounded? negative coefficient places d else none

/-- Reads digits with at most one point; `coefficient` and `places` are what was read before. -/
def readDigits (negative : Bool) : List Char → (coefficient places : Nat) →
    (point seen : Bool) → Option Decimal
  | [], c, s, _, seen => if seen then ofParts? negative c s else none
  | ch :: rest, c, s, point, seen =>
    match digit? ch with
    | none => if ch = '.' ∧ point = false then readDigits negative rest c s true seen else none
    | some d =>
      if point && s == 28 then readRounded negative c s d rest
      else if c * 10 + d < 2 ^ (96 : Nat) then
        readDigits negative rest (c * 10 + d) (if point then s + 1 else s) point true
      else if point then readRounded negative c s d rest
      else none

/-- Reads an optional sign and digits with at most one point. -/
def read? : List Char → Option Decimal
  | '-' :: rest => readDigits true rest 0 0 false false
  | '+' :: rest => readDigits false rest 0 0 false false
  | rest => readDigits false rest 0 0 false false

def ofString? (s : String) : Option Decimal := read? s.toList

/-- The value of a run of ASCII digits, at least one and at most `2 ^ 32 - 1` in value. -/
def readExponent? (ds : List Char) : Option Nat :=
  match ds.mapM digit? with
  | none => none
  | some [] => none
  | some vs =>
    let n := vs.foldl (fun n d => n * 10 + d) 0
    if n < 2 ^ (32 : Nat) then some n else none

/-- The same coefficient with `places` places, if there are not too many. -/
def withPlaces? (a : Decimal) (places : Nat) : Option Decimal :=
  if h : places ≤ 28 then some { a with scale := places, scale_le := h } else none

/-- A power of ten up to the nineteenth. -/
def tenTo (n : Nat) : Decimal := (ofNat? (10 ^ min n 19)).getD one

/-- The product with `10 ^ n`, without trailing zeros after the point, for `n` up to 28. -/
def timesTenTo (a : Decimal) (n : Nat) : Option Decimal :=
  if 28 < n then none
  else
    match a.mul (tenTo n) with
    | none => none
    | some b =>
      if n ≤ 19 then some b.normalize
      else (b.mul (tenTo (n - 19))).map normalize

/-- The number `a * 10 ^ n`: the point moves as far as there are places, and beyond that the
coefficient grows. -/
def raise (a : Decimal) (n : Nat) : Option Decimal :=
  if n ≤ a.scale then a.withPlaces? (a.scale - n) else a.timesTenTo n

/-- The number `a / 10 ^ n`, with `n` more places. -/
def lower (a : Decimal) (n : Nat) : Option Decimal := a.withPlaces? (a.scale + n)

end Reckoner.Decimal
