import Reckoner.Decimal.Basic
/-!
Sum, difference, product, quotient and remainder of decimals. Each is the exact result rounded
once, a half to the even neighbour, and there is none if the exact result is out of range.
-/
namespace Reckoner.Decimal

-- Powers are those of the core library, also where another library knows powers of its own.
attribute [local instance (high)] instPowNat

/-- The sum. A zero adds nothing, not even its places. -/
def add (a b : Decimal) : Option Decimal :=
  if a.isZero then some b
  else if b.isZero then some a
  else
    let places := max a.scale b.scale
    let sum :=
      a.signed * (10 ^ (places - a.scale) : Nat) + b.signed * (10 ^ (places - b.scale) : Nat)
    fit (decide (sum < 0)) sum.natAbs places

/-- The difference. Taking a zero away changes nothing. -/
def sub (a b : Decimal) : Option Decimal :=
  if b.isZero then
    if a.isZero then some b else some a
  else a.add b.neg

/-- The product. A product with a zero is `0`, and so is one that two coefficients below `2 ^ 32`
put beyond the forty-seventh place. Where a larger coefficient takes part, a product too small for
the last place still shows its sign. -/
def mul (a b : Decimal) : Option Decimal :=
  let negative := a.negative != b.negative
  let product := fit negative (a.coefficient * b.coefficient) (a.scale + b.scale)
  if a.isZero || b.isZero then some zero
  else if a.coefficient < 2 ^ (32 : Nat) ∧ b.coefficient < 2 ^ (32 : Nat) then
    if 47 < a.scale + b.scale then some zero else product
  else product.map ({ · with negative := negative })

/-- The most digits, up to `limit`, that `q` can be lengthened by below `2 ^ 96`. -/
def roomFor (q : Nat) : Nat → Nat
  | 0 => 0
  | limit + 1 => if q * 10 ^ (limit + 1) < 2 ^ (96 : Nat) then limit + 1 else roomFor q limit

/-- Drops a run of `n` zeros from a coefficient whose last bits are clear. -/
def dropRun (n mask : Nat) (q places : Nat) : Nat × Nat :=
  if q % mask = 0 ∧ n ≤ places ∧ q % 10 ^ n = 0 then (q / 10 ^ n, places - n) else (q, places)

/-- Shortens a quotient: zeros go in runs of eight while the low 32 bits are clear, and then in
one run each of four, two and one. -/
def shorten (q places : Nat) : Nat × Nat :=
  let run (n mask : Nat) (p : Nat × Nat) := dropRun n mask p.1 p.2
  run 1 2 (run 2 4 (run 4 16
    (run 8 (2 ^ (32 : Nat)) (run 8 (2 ^ (32 : Nat)) (run 8 (2 ^ (32 : Nat)) (q, places))))))

/-- A quotient in the course of long division: the digits found, what is left over of the
divisor, and the places of the digits found (below zero while the whole part is incomplete). -/
structure Division where
  quotient : Nat
  remainder : Nat
  places : Int

/-- The digits found, once there is no room for another: rounded to even by what is left over. -/
def Division.close (s : Division) (d : Nat) : Option (Nat × Int) :=
  let q := roundQuotient .toEven (s.quotient * d + s.remainder) d
  if q < 2 ^ (96 : Nat) then some (q, s.places)
  else if s.places ≤ 0 then none
  else some (roundQuotient .toEven q 10, s.places - 1)

/-- The state after `n` more digits. -/
def Division.advance (s : Division) (d n : Nat) : Division where
  quotient := s.quotient * 10 ^ n + s.remainder * 10 ^ n / d
  remainder := s.remainder * 10 ^ n % d
  places := s.places + n

/-- The step that made the quotient one digit too long is taken back, and the digit rounded. -/
def Division.retract (s : Division) : Option (Nat × Int) :=
  if s.places ≤ 0 then none
  else
    let r := s.quotient % 10
    let up := 5 < r || (r == 5 && (s.remainder != 0 || s.quotient / 10 % 2 == 1))
    some (s.quotient / 10 + (if up then 1 else 0), s.places - 1)

/-- Long division by `d`, up to nine digits at a time, until nothing is left over, the places are
used up or the quotient is full. -/
def Division.run (d : Nat) : Nat → Division → Option (Nat × Int)
  | 0, s => s.close d
  | fuel + 1, s =>
    if s.remainder = 0 then
      if 0 ≤ s.places then some (s.quotient, s.places)
      else
        let n := min 9 (-s.places).toNat
        if s.quotient * 10 ^ n < 2 ^ (96 : Nat) then Division.run d fuel (s.advance d n) else none
    else if s.places = 28 then s.close d
    else
      let n := roomFor s.quotient (min 9 (28 - s.places).toNat)
      if n < 9 ∧ n + s.places < 0 then none
      else if n = 0 then s.close d
      else
        let t := s.advance d n
        if t.quotient < 2 ^ (96 : Nat) then Division.run d fuel t else t.retract

/-- The quotient by a decimal other than zero. An exact quotient of the coefficients keeps the
difference of the places; any other is shortened. -/
def div (a b : Decimal) : Option Decimal :=
  if b.isZero then none
  else if a.isZero then some zero
  else
    let d := b.coefficient
    let start : Division := ⟨a.coefficient / d, a.coefficient % d, (a.scale : Int) - b.scale⟩
    match start.run d 60 with
    | none => none
    | some (q, places) =>
      let r := if a.coefficient % d = 0 then (q, places.toNat) else shorten q places.toNat
      ofParts? (a.negative != b.negative) r.1 r.2

/-- The quotient by a divisor that is at least one in size, or the inverse of a decimal: these are
always in range. -/
def dividedBy (a b : Decimal) : Decimal := (a.div b).getD zero

/-- The remainder of the division that truncates, for a divisor other than zero; its sign is that
of `a`. A number smaller in size than the divisor is left as it is written, and one of its size
leaves a zero without decimal places. -/
def rem (a b : Decimal) : Option Decimal :=
  if b.isZero then none
  else if a.isZero then some zero
  else
    let places := max a.scale b.scale
    let n := a.coefficient * 10 ^ (places - a.scale)
    let d := b.coefficient * 10 ^ (places - b.scale)
    if n < d then some a
    else if n = d then some zero
    else ofParts? a.negative (n % d) places

end Reckoner.Decimal
