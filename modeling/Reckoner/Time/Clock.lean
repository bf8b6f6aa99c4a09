import Reckoner.Time.Duration
/-!
Times of day, with an optional second and an optional offset from universal time, and shifting them
around the clock. Main statement: a shifted time has its hour, minute and second in range.
-/
namespace Reckoner

-- Powers are those of the core library, also where another library knows powers of its own.
attribute [local instance (high)] instPowNat

/-- A time of day. The fields may lie outside a day; reading and shifting yield times inside. -/
structure TimeOfDay where
  hour : Nat
  minute : Nat
  second : Option Nat
  /-- Minutes that the local clock is ahead of universal time. -/
  offset : Option Int
deriving DecidableEq, Repr

namespace TimeOfDay

def secondsPerDay : Nat := 86400

/-- Seconds from midnight on the local clock. -/
def secondOfDay (t : TimeOfDay) : Int :=
  (t.hour : Int) * 3600 + (t.minute : Int) * 60 + (t.second.getD 0 : Nat)

/-- Seconds from midnight in universal time; a time without an offset is taken for one. -/
def universalSecond (t : TimeOfDay) : Int := t.secondOfDay - t.offset.getD 0 * 60

/-- A number with at least two digits. -/
def twoDigits (n : Nat) : String := String.ofList (Decimal.paddedDigits 2 n)

/-- The offset as `Z`, or as a sign, hours and minutes. -/
def offsetText : Option Int → String
  | none => ""
  | some o =>
    if o = 0 then "Z"
    else
      (if 0 ≤ o then "+" else "-") ++ twoDigits (o.natAbs / 60) ++ ":" ++ twoDigits (o.natAbs % 60)

def text (t : TimeOfDay) : String :=
  twoDigits t.hour ++ ":" ++ twoDigits t.minute ++
    (match t.second with | some s => ":" ++ twoDigits s | none => "") ++ offsetText t.offset

/-- The time at a second of the day. A second of zero is left out unless `always` is set. -/
def atSecond (n : Nat) (always : Bool) (offset : Option Int) : TimeOfDay where
  hour := n / 3600
  minute := n % 3600 / 60
  second := if always || n % 60 != 0 then some (n % 60) else none
  offset := offset

/-- Whether a whole number is one of the signed numbers of 64 bits, in which shifts are counted. -/
def countable (n : Int) : Bool :=
  decide (-(2 ^ (63 : Nat) : Int) ≤ n) && decide (n < 2 ^ (63 : Nat))

/-- The time so many seconds later (or earlier, below zero), past midnight from the start of the
day again. The offset stays, and so does a second. -/
def shift (t : TimeOfDay) (seconds : Int) : Except Error TimeOfDay :=
  let total := t.secondOfDay + seconds
  if countable total then
    .ok (atSecond (total % secondsPerDay).toNat t.second.isSome t.offset)
  else .error (.overflow "time arithmetic")

theorem atSecond_hour_lt (n : Nat) (always : Bool) (offset : Option Int) (h : n < 86400) :
    (atSecond n always offset).hour < 24 := by
  show n / 3600 < 24
  omega

theorem atSecond_minute_lt (n : Nat) (always : Bool) (offset : Option Int) :
    (atSecond n always offset).minute < 60 := by
  show n % 3600 / 60 < 60
  omega

/-- The whole seconds of a duration, cut toward zero. -/
def wholeSeconds (d : Duration) : Except Error Int := do
  let s ← d.seconds
  orError s.toInt64? (.overflow "time arithmetic")

/-- The time a duration later. -/
def after (t : TimeOfDay) (d : Duration) : Except Error TimeOfDay := do
  let s ← wholeSeconds d
  t.shift s

/-- The time a duration earlier. -/
def before (t : TimeOfDay) (d : Duration) : Except Error TimeOfDay := do
  let s ← wholeSeconds d
  if countable (-s) then t.shift (-s) else .error (.overflow "time arithmetic")

/-- The minutes from `u` to `t`, both taken on one day of universal time. -/
def since (t u : TimeOfDay) : Duration :=
  let n := t.universalSecond - u.universalSecond
  Duration.ofSeconds ((Decimal.ofInt? n).getD .zero) .minute

end TimeOfDay
end Reckoner
