import Reckoner.Error
import Reckoner.Text.Case
/-!
Units of time, their spellings and their fixed lengths. Main statement: no unit has length zero.
-/
namespace Reckoner

inductive TimeUnit where
  | second
  | minute
  | hour
  | day
  | week
  | month
  | year
deriving DecidableEq, Repr

namespace TimeUnit

def all : List TimeUnit := [second, minute, hour, day, week, month, year]

def name : TimeUnit → String
  | second => "second"
  | minute => "minute"
  | hour => "hour"
  | day => "day"
  | week => "week"
  | month => "month"
  | year => "year"

/-- The length in seconds. A month has 30 days and a year 365. -/
def seconds : TimeUnit → Nat
  | second => 1
  | minute => 60
  | hour => 3600
  | day => 86400
  | week => 604800
  | month => 2592000
  | year => 31536000

theorem seconds_pos (u : TimeUnit) : 0 < u.seconds := by cases u <;> decide

theorem seconds_le (u : TimeUnit) : u.seconds ≤ 31536000 := by cases u <;> decide

/-- The length in seconds as a decimal. -/
def length (u : TimeUnit) : Decimal where
  negative := false
  coefficient := u.seconds
  scale := 0
  coefficient_lt := Nat.lt_of_le_of_lt u.seconds_le (by decide)
  scale_le := Decimal.zero.scale_le

/-- The spellings of a unit, in lower case. -/
def spellings : TimeUnit → List String
  | second => ["s", "sec", "secs", "second", "seconds"]
  | minute => ["min", "mins", "minute", "minutes"]
  | hour => ["h", "hr", "hrs", "hour", "hours"]
  | day => ["d", "day", "days"]
  | week => ["w", "wk", "wks", "week", "weeks"]
  | month => ["mo", "mon", "month", "months"]
  | year => ["y", "yr", "yrs", "year", "years"]

/-- The unit spelled `s`, in any case and with any blanks around it. -/
def ofString? (s : String) : Option TimeUnit :=
  let word := Text.lower (Text.trim s)
  all.find? fun u => u.spellings.contains word

/-- The unit spelled `s`, or the error that names the units there are. -/
def read (s : String) : Except Error TimeUnit :=
  orError (ofString? s) (.unknownKeyword "time unit" (Text.trim s) (all.map name))

end TimeUnit
end Reckoner
