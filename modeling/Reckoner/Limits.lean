import Reckoner.Json.Basic
import Reckoner.Error
/-!
The limits of an evaluation and reading them from JSON.
-/
namespace Reckoner

-- Powers are those of the core library, also where another library knows powers of its own.
attribute [local instance (high)] instPowNat

structure Limits where
  /-- How deep an expression may be nested. -/
  depth : Nat
  /-- How many expressions a batch may have. -/
  batch : Nat
  /-- The significant figures of an approximation that names none. -/
  figures : Nat
deriving DecidableEq, Repr

namespace Limits

/-- The limits where none are given. -/
def standard : Limits := ⟨100, 10000, 2⟩

/-- A natural number below `bound`. -/
def count? (bound : Nat) : Json → Option Nat
  | .integer i => if 0 ≤ i ∧ i < bound then some i.toNat else none
  | _ => none

/-- The number in a field or an item; one that is missing is the standard one. -/
def countOr? (bound default : Nat) : Option Json → Option Nat
  | some j => count? bound j
  | none => some default

/-- The limits with these parts. -/
def ofParts? (depth batch figures : Option Json) : Option Limits := do
  let depth ← countOr? (2 ^ (64 : Nat)) standard.depth depth
  let batch ← countOr? (2 ^ (64 : Nat)) standard.batch batch
  let figures ← countOr? (2 ^ (32 : Nat)) standard.figures figures
  pure ⟨depth, batch, figures⟩

/-- Limits by name or in order; those that are missing are the standard ones. Null stands for all
standard limits. -/
def ofJson? : Json → Option Limits
  | .null => some standard
  | .array items =>
    if 3 < items.length then none else ofParts? items[0]? items[1]? items[2]?
  | .object fields =>
    let j := Json.object fields
    ofParts? (j.field? "max_expression_depth") (j.field? "max_batch_size")
      (j.field? "napkin_significant_figures")
  | _ => none

def toJson (l : Limits) : Json :=
  .object [("max_batch_size", .integer l.batch), ("max_expression_depth", .integer l.depth),
    ("napkin_significant_figures", .integer l.figures)]

end Limits
end Reckoner
