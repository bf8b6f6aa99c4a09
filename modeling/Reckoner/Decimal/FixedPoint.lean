/-!
Natural numbers that count units of `10 ^ -60`. Logarithms, exponentials and long powers are
worked out on these, more finely than a decimal shows, and rounded once at the end.
-/
namespace Reckoner.FixedPoint

-- Powers are those of the core library, also where another library knows powers of its own.
attribute [local instance (high)] instPowNat

/-- How many decimal places a fixed-point number has. -/
def places : Nat := 60

/-- The number one. -/
def unit : Nat := 10 ^ places

/-- The product, cut at the last place. -/
def mul (a b : Nat) : Nat := a * b / unit

/-- The number without what lies beyond its first `k` decimal places. -/
def cut (k n : Nat) : Nat := n - n % 10 ^ (places - k)

/-- A series ends before its first term below this, a tenth of the last place of a decimal. -/
def leastTerm : Nat := 10 ^ (places - 29)

/-- Terms of the inverse hyperbolic tangent series from the one with this odd exponent on, given the
power for it and the square of the argument. -/
def artanhTerms (square : Nat) : (terms : Nat) → (exponent power : Nat) → Nat
  | 0, _, _ => 0
  | terms + 1, exponent, power =>
    if power / exponent < leastTerm then 0
    else power / exponent + artanhTerms square terms (exponent + 2) (mul power square)

/-- The inverse hyperbolic tangent of a number up to one half, which 100 terms are enough for. -/
def artanh (x : Nat) : Nat := artanhTerms (mul x x) 100 1 x

/-- Terms of the exponential series, given the term with this index. -/
def expTerms (x : Nat) : (terms : Nat) → (index term : Nat) → Nat
  | 0, _, _ => 0
  | terms + 1, index, term =>
    if term < leastTerm then 0
    else term + expTerms x terms (index + 1) (mul term x / (index + 1))

/-- The exponential of a number below one, which 60 terms are enough for. -/
def exp (x : Nat) : Nat := expTerms x 60 0 unit

/-- The product of `acc` with those repeated squares of `base` that the binary digits of `n` call
for; the first argument is the number of those digits. There is none once `limit` is reached. -/
def powFrom (limit : Nat) : Nat → (n base acc : Nat) → Option Nat
  | 0, _, _, acc => some acc
  | digits + 1, n, base, acc =>
    let acc := if n % 2 = 1 then mul acc base else acc
    if limit ≤ acc then none
    else if digits = 0 then some acc
    else
      let base := mul base base
      if limit ≤ base then none else powFrom limit digits (n / 2) base acc

/-- The power with a natural exponent, if it stays below `limit`. -/
def pow (limit base n : Nat) : Option Nat := powFrom limit (n.log2 + 1) n base unit

end Reckoner.FixedPoint
