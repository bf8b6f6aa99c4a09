import Reckoner.Decimal.Rounding
/-!
Decimal numbers with a sign, a coefficient below `2 ^ 96` and at most 28 decimal places. Two
decimals are told apart by their written form (`1.0` and `1.00`, `0` and `-0`); `toRat` is the
number they stand for, and `same` and `compare` look at that number only.
-/
namespace Reckoner

-- Powers are those of the core library, also where another library knows powers of its own.
attribute [local instance (high)] instPowNat

/-- The decimal `± coefficient / 10 ^ scale`. -/
structure Decimal where
  negative : Bool
  coefficient : Nat
  scale : Nat
  coefficient_lt : coefficient < 2 ^ (96 : Nat) := by decide
  scale_le : scale ≤ 28 := by decide
deriving DecidableEq, Repr

namespace Decimal

/-- The coefficient with its sign. -/
def signed (a : Decimal) : Int :=
  if a.negative then -(a.coefficient : Int) else a.coefficient

/-- The number a decimal stands for. -/
def toRat (a : Decimal) : Rat := mkRat a.signed (10 ^ a.scale)

def zero : Decimal := { negative := false, coefficient := 0, scale := 0 }

def one : Decimal := { negative := false, coefficient := 1, scale := 0 }

def two : Decimal := { negative := false, coefficient := 2, scale := 0 }

/-- The ratio of a circle's circumference to its diameter, to 28 places. -/
def pi : Decimal :=
  { negative := false, coefficient := 31415926535897932384626433833, scale := 28 }

/-- The base of the natural logarithm, to 28 places. -/
def e : Decimal :=
  { negative := false, coefficient := 27182818284590452353602874714, scale := 28 }

instance : Inhabited Decimal := ⟨zero⟩

/-- The decimal of these parts, if they are in range. A zero built this way has no sign. -/
def ofParts? (negative : Bool) (coefficient scale : Nat) : Option Decimal :=
  if h : coefficient < 2 ^ (96 : Nat) ∧ scale ≤ 28 then
    some ⟨negative && coefficient != 0, coefficient, scale, h.1, h.2⟩
  else none

/-- The decimal `coefficient / 10 ^ scale`, for the numbers that are written out. -/
def ofLiteral (coefficient scale : Nat) : Decimal := (ofParts? false coefficient scale).getD zero

/-- The whole number `n`, if it is in range. -/
def ofNat? (n : Nat) : Option Decimal := ofParts? false n 0

/-- The whole number `i`, if it is in range. -/
def ofInt? (i : Int) : Option Decimal := ofParts? (decide (i < 0)) i.natAbs 0

/-- A number of 64 bits is always in range. -/
def ofUInt64 (n : UInt64) : Decimal where
  negative := false
  coefficient := n.toNat
  scale := 0
  coefficient_lt := Nat.lt_trans n.toNat_lt (by decide)
  scale_le := by decide

/-- Whether the decimal stands for zero, whatever its sign and places. -/
def isZero (a : Decimal) : Bool := a.coefficient == 0

/-- Whether the decimal stands for a number below zero. -/
def isBelowZero (a : Decimal) : Bool := a.negative && !a.isZero

/-- The other sign, for a zero as well. -/
def neg (a : Decimal) : Decimal := { a with negative := !a.negative }

def abs (a : Decimal) : Decimal := { a with negative := false }

/-- The order of the numbers that the decimals stand for. -/
def compare (a b : Decimal) : Ordering :=
  Ord.compare (a.signed * (10 ^ b.scale : Nat)) (b.signed * (10 ^ a.scale : Nat))

/-- Whether two decimals stand for one number. -/
def same (a b : Decimal) : Bool :=
  a.signed * (10 ^ b.scale : Nat) == b.signed * (10 ^ a.scale : Nat)

def lt (a b : Decimal) : Bool := a.compare b == .lt

def le (a b : Decimal) : Bool := a.compare b != .gt

/-- Takes trailing zeros off a coefficient, at most one for each decimal place. -/
def dropZeros (coefficient : Nat) : Nat → Nat × Nat
  | 0 => (coefficient, 0)
  | places + 1 =>
    if coefficient % 10 = 0 then dropZeros (coefficient / 10) places else (coefficient, places + 1)

theorem dropZeros_fst_le (c s : Nat) : (dropZeros c s).1 ≤ c := by
  induction s generalizing c with
  | zero => simp [dropZeros]
  | succ s ih =>
    unfold dropZeros
    split
    · exact Nat.le_trans (ih _) (Nat.div_le_self c 10)
    · exact Nat.le_refl c

theorem dropZeros_snd_le (c s : Nat) : (dropZeros c s).2 ≤ s := by
  induction s generalizing c with
  | zero => simp [dropZeros]
  | succ s ih =>
    unfold dropZeros
    split
    · exact Nat.le_trans (ih _) (Nat.le_succ s)
    · exact Nat.le_refl _

/-- The same number without trailing zeros after the point; every zero becomes `0`. -/
def normalize (a : Decimal) : Decimal :=
  if a.isZero then zero
  else
    { negative := a.negative
      coefficient := (dropZeros a.coefficient a.scale).1
      scale := (dropZeros a.coefficient a.scale).2
      coefficient_lt := Nat.lt_of_le_of_lt (dropZeros_fst_le _ _) a.coefficient_lt
      scale_le := Nat.le_trans (dropZeros_snd_le _ _) a.scale_le }

/-- Tries `places` decimal places for `± n / 10 ^ scale`, then fewer, and takes the first that
fits. -/
def fitFrom (negative : Bool) (n scale : Nat) : Nat → Option Decimal
  | 0 => ofParts? negative (roundQuotient .toEven n (10 ^ scale)) 0
  | places + 1 =>
    match ofParts? negative (roundQuotient .toEven n (10 ^ (scale - (places + 1))))
        (places + 1) with
    | some a => some a
    | none => fitFrom negative n scale places

/-- The decimal nearest to `± n / 10 ^ scale` with as many of its places as fit; a half goes to the
even neighbour. There is none if the whole part is too large. -/
def fit (negative : Bool) (n scale : Nat) : Option Decimal :=
  fitFrom negative n scale (min scale 28)

end Decimal
end Reckoner
