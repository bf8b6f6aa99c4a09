import Reckoner.Evaluation.Function
import Reckoner.Literal.Value
import Reckoner.Value.Arithmetic
import Reckoner.Value.Conversion
/-!
The value of an expression in a session. Operands and arguments are evaluated from the left, and an
assignment or a declaration changes the environment as soon as its value is known.
-/
namespace Reckoner

open Evaluation (result environment setEnvironment nested outcome)

/-- The value of a name: what it is bound to, or the truth value that it spells. -/
def Environment.resolve (env : Environment) (name : String) : Except Error Value :=
  match env.get? name with
  | some v => .ok v
  | none => orError ((truth? name).map .boolean) (.undefinedIdentifier name)

/-- Binds a name. -/
def assign (name : String) (v : Value) : Evaluation Value := do
  let env ← environment
  setEnvironment (env.bind name v)
  pure v

/-- Applies a setting. -/
def declare (space key : String) (v : Value) : Evaluation Value := do
  let env ← environment
  let env' ← result (env.declare space key v)
  setEnvironment env'
  pure v

namespace Expression

mutual

/-- The value of an expression, one level below the expression that it is a part of. -/
def evaluate (limits : Limits) (e : Expression) : Evaluation Value :=
  nested limits (match e with
    | .number text => result ((NumberLiteral.read text).map .number)
    | .boolean text => result ((Value.readTruth text).map .boolean)
    | .date text => result ((Date.read text).map .date)
    | .time text => result ((TimeOfDay.read text).map .time)
    | .currency amount code => result ((Money.read amount code).map .money)
    | .duration amount unit => result ((Duration.read amount unit).map .duration)
    | .quantity amount unit => result (Value.readQuantity amount unit)
    | .rate amount unit per => result ((Rate.read amount unit per).map .rate)
    | .identifier name => do
      let env ← environment
      result (env.resolve name)
    | .assignment name value => do
      let v ← evaluate limits value
      assign name v
    | .arithmetic left op right => do
      let l ← evaluate limits left
      let r ← evaluate limits right
      let env ← environment
      result (l.combine op r env)
    | .comparison left op right => do
      let l ← evaluate limits left
      let r ← evaluate limits right
      result ((l.compare op r).map .boolean)
    | .unary op operand => do
      let v ← evaluate limits operand
      result (v.signed op)
    | .conversion value target => do
      let v ← evaluate limits value
      let env ← environment
      result (v.convert target env)
    | .percentage fraction base => do
      let p ← evaluate limits fraction
      let b ← evaluate limits base
      result (Value.portion p b)
    | .napkin value figures => do
      let v ← evaluate limits value
      result (Napkin.roundValue v (figures.getD limits.figures))
    | .call function arguments =>
      let word := Text.keyword function
      match Function.named? word with
      | none => result (.error (.unknownFunction function))
      | some f =>
        if f.arity.allows arguments.length then do
          let a ← readArguments limits word f.slots 1 arguments
          result (f.apply limits word a)
        else result (.error (.wrongArgumentCount word f.arity arguments.length))
    | .declaration space key value => do
      let v ← evaluate limits value
      declare space key v)

/-- Reads arguments into their places; `position` is that of the first. -/
def readArguments (limits : Limits) (word : String) :
    (slots : List Slot) → (position : Nat) → List Expression → Evaluation (Arguments slots)
  | slots, position, [] =>
    result (orError (Arguments.absent? slots)
      (.wrongArgumentCount word (Arguments.arity slots) (position - 1)))
  | [], _, _ :: _ => result (.ok ())
  | .one p :: slots, position, e :: rest => do
    let a ← p.read word position e (evaluate limits e)
    let as ← readArguments limits word slots (position + 1) rest
    pure (a, as)
  | .optional p :: slots, position, e :: rest => do
    let a ← p.read word position e (evaluate limits e)
    let as ← readArguments limits word slots (position + 1) rest
    pure (some a, as)
  | .values :: slots, position, e :: rest => do
    let v ← evaluate limits e
    let as ← readArguments limits word (.values :: slots) (position + 1) rest
    pure (v :: as.1, as.2)

end

/-- The value of one expression in an environment, and the environment that it leaves. -/
def value (limits : Limits) (e : Expression) (env : Environment) :
    Except Error Value × Environment :=
  let (r, c) := outcome (evaluate limits e) (Context.start env)
  (r, c.environment)

/-- The values of expressions one after another, up to the first that fails. -/
def evaluateAll (limits : Limits) : List Expression → Evaluation (List Value)
  | [] => pure []
  | e :: rest => do
    let v ← evaluate limits e
    let vs ← evaluateAll limits rest
    pure (v :: vs)

/-- The values of a batch, and the environment that it leaves. -/
def batch (limits : Limits) (es : List Expression) (env : Environment) :
    Except Error (List Value) × Environment :=
  if limits.batch < es.length then
    (.error (.limitExceeded .batch limits.batch es.length), env)
  else
    let (r, c) := outcome (evaluateAll limits es) (Context.start env)
    (r, c.environment)

end Expression
end Reckoner
