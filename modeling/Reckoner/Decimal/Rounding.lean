/-!
Rounding a quotient of natural numbers to a natural number. Main statements: the nearest number is
the floor of the quotient or the number above it, and an exact quotient is left alone.
-/
namespace Reckoner

/-- Where a quotient that lies halfway between two natural numbers goes. -/
inductive Tie where
  | toEven
  | awayFromZero
deriving DecidableEq, Repr

/-- Whether the quotient `n / d` is rounded up: its remainder is more than half of `d`, or exactly
half of it and the tie says so. -/
def Tie.roundsUp (tie : Tie) (n d : Nat) : Bool :=
  let r := 2 * (n % d)
  if r = d then
    match tie with
    | .toEven => n / d % 2 == 1
    | .awayFromZero => true
  else decide (d < r)

/-- The natural number nearest to `n / d`. -/
def roundQuotient (tie : Tie) (n d : Nat) : Nat :=
  if tie.roundsUp n d then n / d + 1 else n / d

/-- The least natural number that is not below `n / d`. -/
def roundUpQuotient (n d : Nat) : Nat := (n + d - 1) / d

theorem div_le_roundQuotient (tie : Tie) (n d : Nat) : n / d ≤ roundQuotient tie n d := by
  unfold roundQuotient
  split <;> omega

theorem roundQuotient_le (tie : Tie) (n d : Nat) : roundQuotient tie n d ≤ n / d + 1 := by
  unfold roundQuotient
  split <;> omega

theorem roundQuotient_of_dvd (tie : Tie) (n d : Nat) (hd : 0 < d) (h : n % d = 0) :
    roundQuotient tie n d = n / d := by
  have hu : tie.roundsUp n d = false := by
    simp only [Tie.roundsUp, h, Nat.mul_zero]
    rw [if_neg (by omega)]
    simp
  simp [roundQuotient, hu]

@[simp] theorem roundQuotient_one (tie : Tie) (n : Nat) : roundQuotient tie n 1 = n := by
  rw [roundQuotient_of_dvd tie n 1 (by omega) (Nat.mod_one n), Nat.div_one]

end Reckoner
