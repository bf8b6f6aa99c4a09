import Reckoner.Evaluation.Evaluate
import Reckoner.Json.Reader
import Reckoner.Proofs.Calendar.ReadBack
import Reckoner.Proofs.Environment.Declaration
import Reckoner.Proofs.Environment.InverseRate
import Reckoner.Proofs.Environment.RateTable
import Reckoner.Proofs.Evaluation.AllowedRange
import Reckoner.Proofs.Evaluation.Batch
import Reckoner.Proofs.Evaluation.Depth
import Reckoner.Proofs.Evaluation.NamedUnits
import Reckoner.Proofs.Evaluation.PeriodArgument
import Reckoner.Proofs.Evaluation.Reads
import Reckoner.Proofs.Evaluation.Shape
import Reckoner.Proofs.Evaluation.Substitution
import Reckoner.Proofs.Evaluation.Unchecked
import Reckoner.Proofs.Evaluation.Writes
import Reckoner.Proofs.Napkin.Figures
import Reckoner.Proofs.Planning.Count
import Reckoner.Proofs.Planning.Dimension
import Reckoner.Proofs.Planning.Downtime
import Reckoner.Proofs.Planning.Escalation
import Reckoner.Proofs.Time.AroundClock
import Reckoner.Proofs.Time.Difference
import Reckoner.Proofs.Time.Remainder
import Reckoner.Proofs.Value.Aggregate
import Reckoner.Proofs.Value.CompoundTarget
import Reckoner.Proofs.Value.Convertible
import Reckoner.Proofs.Value.KnownUnitLiteral
import Reckoner.Proofs.Value.Rendering
import Reckoner.Proofs.Value.ThereAndBack
import Reckoner.Proofs.Value.ZeroDivisor
import Reckoner.Value.Json
