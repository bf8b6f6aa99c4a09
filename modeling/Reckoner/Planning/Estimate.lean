import Reckoner.Planning.Catalog
import Reckoner.Unit.Convert
import Reckoner.Value.Basic
import Reckoner.Value.Number
/-!
Estimates of downtime, of network and storage times and of compressed sizes. A time is given in the
largest of a few units that it fills.
-/
namespace Reckoner.Estimate

/-- The unit of time for so many seconds of downtime. -/
def downtimeUnit (seconds : Decimal) : TimeUnit :=
  if seconds.lt TimeUnit.minute.length then .second
  else if seconds.lt TimeUnit.hour.length then .minute
  else .hour

/-- The time in `period` that an availability leaves for being down. -/
def downtime (availability : Decimal) (period : Duration) : Except Error Duration :=
  if availability.lt .zero || Decimal.one.lt availability then
    .error (.outOfRange "availability" availability .fraction)
  else do
    let seconds ← period.seconds
    let down ←
      orError ((Decimal.one.sub availability).bind fun rest => rest.mul seconds)
        (.overflow "downtime")
    pure (Duration.ofSeconds down.normalize (downtimeUnit down))

/-- So many seconds, counted in minutes from one minute up. -/
def secondsOrMinutes (seconds : Decimal) : Duration :=
  Duration.ofSeconds seconds (if seconds.lt TimeUnit.minute.length then .second else .minute)

/-- The size of an amount of data in megabytes. -/
def megabytes (function : String) (size : Quantity) : Except Error Decimal :=
  if size.value.isBelowZero then .error (.negativeValue (function ++ " size") size.value)
  else size.value.convertUnit size.unit "MB"

/-- The time to the other end of a connection and back. -/
def roundTrip (scope : Scope) : Duration := ⟨scope.roundTrip, .second⟩

/-- The data a link carries. -/
def linkThroughput (link : Link) : Except Error Rate := Rate.make ⟨link.throughput, "MB"⟩ "s"

/-- The time to bring data over a link: one round trip and the time on the wire. -/
def transferTime (size : Quantity) (scope : Scope) (link : Link) : Except Error Duration := do
  let n ← megabytes "transfer_time" size
  let seconds ←
    orError ((n.div link.throughput).bind fun wire => wire.add scope.roundTrip)
      (.overflow "transfer time")
  pure (secondsOrMinutes seconds)

/-- The time to read data in sequence. -/
def readTime (size : Quantity) (drive : Drive) : Except Error Duration := do
  let n ← megabytes "read" size
  let seconds ← orError (n.div drive.throughput) (.overflow "read time")
  pure (secondsOrMinutes seconds)

/-- The time until a read begins. -/
def seekTime (drive : Drive) : Duration := ⟨drive.latency, .second⟩

/-- The number in a size. -/
def sizeNumber (size : Value) : Except Error Decimal :=
  match size with
  | .number n => .ok n
  | .quantity q => .ok q.value
  | v => .error (.wrongArgumentType "compress" 1 "a size" v.describe)

/-- The compressed size, in the unit of the size. -/
def compress (size : Value) (compression : Compression) : Except Error Value := do
  let n ← sizeNumber size
  if n.isBelowZero then .error (.negativeValue "compress size" n)
  else
    let small ← orError (n.div compression.ratio) (.overflow "compression")
    size.withMagnitude small

end Reckoner.Estimate
