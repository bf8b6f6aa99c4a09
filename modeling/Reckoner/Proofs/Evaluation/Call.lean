import Reckoner.Proofs.Evaluation.Task
/-!
Calls and what their arguments are read as. Main statement: a call gives what the function makes of
its arguments, or the error that reading them ends with.
-/
namespace Reckoner

namespace Expression

open Evaluation (outcome)

variable {limits : Limits} {c d d' : Context}

section Depth

variable {e : Expression} {v : Value}

theorem depth_lt_of_ok (h : (outcome (evaluate limits e) c).1 = .ok v) :
    c.depth < limits.depth := by
  by_contra hge
  rw [evaluate_eq, Evaluation.outcome_nested_of_lt (by omega)] at h
  cases h

/-- Where a part is evaluated, there is room for the whole. -/
theorem depth_lt_of_operand (he : outcome (evaluate limits e) c.deeper = (.ok v, d)) :
    c.depth < limits.depth :=
  Nat.lt_of_succ_lt (depth_lt_of_ok (congrArg Prod.fst he))

end Depth

section Arguments

variable {word function : String} {position : ℕ} {a e x y : Expression} {p q : Parameter}
  {f : Function}

/-- An argument that is evaluated leaves what its evaluation leaves. -/
theorem outcome_read_of_not_taken (h : p.taken? word position e = none) :
    outcome (p.read word position e (evaluate limits e)) c =
      ((outcome (evaluate limits e) c).1 >>= fun v => p.ofValue word position v,
        (outcome (evaluate limits e) c).2) := by
  rw [Parameter.read_eq, h]
  exact Evaluation.outcome_bind_result rfl _

/-- Two arguments, the second beside another that is read alike behind the first. -/
theorem outcome_readArguments_congr
    (h : ∀ r d, outcome (p.read word 1 a (evaluate limits a)) c = (.ok r, d) →
      outcome (q.read word 2 x (evaluate limits x)) d =
        outcome (q.read word 2 y (evaluate limits y)) d) :
    outcome (readArguments limits word [.one p, .one q] 1 [a, x]) c =
      outcome (readArguments limits word [.one p, .one q] 1 [a, y]) c := by
  rw [readArguments_cons, readArguments_cons]
  apply Evaluation.outcome_bind_congr rfl
  intro r d hr
  refine Evaluation.outcome_bind_congr ?_ fun _ _ _ => rfl
  rw [Slot.rest, readArguments_cons, readArguments_cons]
  exact Evaluation.outcome_bind_congr (h r d hr) fun _ _ _ => rfl

theorem outcome_readArguments_two {r : p.Meaning} {s : q.Meaning}
    (ha : outcome (p.read word 1 a (evaluate limits a)) c = (.ok r, d))
    (hx : outcome (q.read word 2 x (evaluate limits x)) d = (.ok s, d')) :
    outcome (readArguments limits word [.one p, .one q] 1 [a, x]) c = (.ok (r, s, ()), d') := by
  rw [readArguments]
  refine (Evaluation.outcome_bind_of_ok ha _).trans ?_
  rw [readArguments, bind_assoc]
  refine (Evaluation.outcome_bind_of_ok hx _).trans ?_
  rw [readArguments]
  rfl

/-- A call does with its arguments what it does with others that are read alike. -/
theorem outcome_call_congr {es es' : List Expression}
    (hf : Function.named? (Text.keyword function) = some f) (hlength : es.length = es'.length)
    (h : outcome (readArguments limits (Text.keyword function) f.slots 1 es) c.deeper =
      outcome (readArguments limits (Text.keyword function) f.slots 1 es') c.deeper) :
    outcome (evaluate limits (.call function es)) c =
      outcome (evaluate limits (.call function es')) c := by
  rw [evaluate, evaluate]
  simp only [hf, hlength]
  apply Evaluation.outcome_nested_congr
  split
  · exact Evaluation.outcome_bind_congr h fun _ _ _ => rfl
  · rfl

/-- A call gives what the function makes of its arguments, or the error in reading them. -/
theorem outcome_call {es : List Expression} {r : Except Error (Arguments f.slots)}
    (hf : Function.named? (Text.keyword function) = some f)
    (hn : f.arity.allows es.length = true) (hdepth : c.depth < limits.depth)
    (h : outcome (readArguments limits (Text.keyword function) f.slots 1 es) c.deeper = (r, d)) :
    (outcome (evaluate limits (.call function es)) c).1 =
      r >>= f.apply limits (Text.keyword function) := by
  rw [evaluate]
  simp only [hf, hn, if_true]
  rw [Evaluation.outcome_nested_of_le hdepth (Evaluation.outcome_bind_result h _)]

end Arguments

section Literals

variable {e : Expression} {n : Decimal}

theorem outcome_number (limits : Limits) (c : Context) {text : String}
    (hread : NumberLiteral.read text = .ok n) (h : c.depth < limits.depth) :
    outcome (evaluate limits (.number text)) c = (.ok (.number n), c) := by
  rw [evaluate, hread]
  exact Evaluation.outcome_nested_of_le h rfl

theorem outcome_negate (he : outcome (evaluate limits e) c.deeper = (.ok (.number n), c.deeper)) :
    outcome (evaluate limits (.unary .negate e)) c = (.ok (.number n.neg), c) := by
  have hstep : outcome (evaluate limits e >>= fun v => Evaluation.result (v.signed .negate))
      c.deeper = (.ok (.number n.neg), c.deeper) := Evaluation.outcome_bind_of_ok he _
  rw [evaluate]
  exact Evaluation.outcome_nested_of_le (depth_lt_of_operand he) hstep

end Literals

end Expression
end Reckoner
