import Reckoner.Environment
import Reckoner.Limits
/-!
What an evaluation works on: the environment of the session and how deep it has got into an
expression. An action may change the environment even if it fails.
-/
namespace Reckoner

structure Context where
  environment : Environment
  /-- How many expressions are being evaluated, each a part of the one before. -/
  depth : Nat

/-- An action that may change the context and fail; what it changed before it failed stays. -/
abbrev Evaluation (α : Type) := ExceptT Error (StateM Context) α

namespace Evaluation

variable {α : Type}

/-- The outcome and the context that an action leaves. -/
def outcome (action : Evaluation α) (c : Context) : Except Error α × Context := action.run.run c

/-- A result that does not depend on the context. -/
def result (r : Except Error α) : Evaluation α := ExceptT.mk (pure r)

/-- The environment as it is now. -/
def environment : Evaluation Environment := ExceptT.mk fun c => (.ok c.environment, c)

/-- Makes this the environment. -/
def setEnvironment (env : Environment) : Evaluation Unit :=
  ExceptT.mk fun c => (.ok (), { c with environment := env })

/-- An action one level deeper, if the limit allows it; the depth is the same again afterwards. -/
def nested (limits : Limits) (action : Evaluation α) : Evaluation α :=
  ExceptT.mk fun c =>
    if limits.depth < c.depth + 1 then
      (.error (.limitExceeded .depth limits.depth (c.depth + 1)), c)
    else
      let (r, c') := action.outcome { c with depth := c.depth + 1 }
      (r, { c' with depth := c'.depth - 1 })

end Evaluation

/-- The context in which the evaluation of an expression starts. -/
def Context.start (env : Environment) : Context := ⟨env, 0⟩

end Reckoner
