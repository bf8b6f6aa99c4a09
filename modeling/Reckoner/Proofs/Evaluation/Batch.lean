import Reckoner.Proofs.Evaluation.Strict
/-!
A batch of expressions against its expressions one at a time. Main statement: a batch within the
limit comes to what its expressions come to one after another, each in a context of its own, up to
the first that fails.
-/
namespace Reckoner.Expression

open Evaluation (outcome)

/-- Expressions that succeed one after another, each in the environment that the one before it
leaves: their values, and the environment that the last one leaves. -/
inductive OneByOne (limits : Limits) :
    Environment → List Expression → List Value → Environment → Prop
  | nil (env : Environment) : OneByOne limits env [] [] env
  | cons {env env₁ env₂ : Environment} {e : Expression} {es : List Expression} {v : Value}
      {vs : List Value} (head : value limits e env = (.ok v, env₁))
      (tail : OneByOne limits env₁ es vs env₂) : OneByOne limits env (e :: es) (v :: vs) env₂

variable {limits : Limits} {env env' : Environment} {es : List Expression} {vs : List Value}

theorem OneByOne.length_eq (h : OneByOne limits env es vs env') : vs.length = es.length := by
  induction h with
  | nil => rfl
  | cons _ _ ih => rw [List.length_cons, List.length_cons, ih]

/-- What an evaluation leaves is again a context in which one can start. -/
theorem outcome_start {e : Expression} {r : Except Error Value}
    (h : value limits e env = (r, env')) :
    outcome (evaluate limits e) (.start env) = (r, .start env') := by
  have hdepth := evaluate_depth limits e (.start env)
  rcases ho : outcome (evaluate limits e) (.start env) with ⟨s, c⟩
  rw [value, ho] at h
  obtain ⟨rfl, rfl⟩ := Prod.mk.inj h
  rw [ho] at hdepth
  obtain ⟨env₁, depth⟩ := c
  cases hdepth
  rfl

theorem outcome_evaluateAll_of_error {e : Expression} {x : Error}
    (h : value limits e env = (.error x, env')) (rest : List Expression) :
    outcome (evaluateAll limits (e :: rest)) (.start env) = (.error x, .start env') :=
  Evaluation.outcome_bind_of_error (outcome_start h) _

theorem outcome_evaluateAll_of_ok {e : Expression} {v : Value}
    (h : value limits e env = (.ok v, env')) (rest : List Expression) :
    outcome (evaluateAll limits (e :: rest)) (.start env) =
      ((outcome (evaluateAll limits rest) (.start env')).1.map (v :: ·),
        (outcome (evaluateAll limits rest) (.start env')).2) := by
  rw [evaluateAll, Evaluation.outcome_bind_of_ok (outcome_start h)]
  rcases ho : outcome (evaluateAll limits rest) (.start env') with ⟨r, c⟩
  cases r with
  | ok vs => exact Evaluation.outcome_bind_of_ok ho _
  | error x => exact Evaluation.outcome_bind_of_error ho _

theorem OneByOne.outcome_eq (h : OneByOne limits env es vs env') :
    outcome (evaluateAll limits es) (.start env) = (.ok vs, .start env') := by
  induction h with
  | nil => rfl
  | cons head _ ih =>
    rw [outcome_evaluateAll_of_ok head, ih]
    rfl

/-- One of the expressions is the first to fail: those before it succeed one after another, and it
leaves the environment that it leaves on its own. -/
def FailsAt (limits : Limits) (env : Environment) (es : List Expression) (x : Error)
    (env' : Environment) : Prop :=
  ∃ before e after vs env₁, es = before ++ e :: after ∧ OneByOne limits env before vs env₁ ∧
    value limits e env₁ = (.error x, env')

theorem FailsAt.cons {e : Expression} {v : Value} {env₁ : Environment} {x : Error}
    (head : value limits e env = (.ok v, env₁)) (h : FailsAt limits env₁ es x env') :
    FailsAt limits env (e :: es) x env' := by
  obtain ⟨before, f, after, vs, env₂, rfl, hbefore, hf⟩ := h
  exact ⟨e :: before, f, after, v :: vs, env₂, rfl, .cons head hbefore, hf⟩

theorem FailsAt.outcome_eq {x : Error} (h : FailsAt limits env es x env') :
    outcome (evaluateAll limits es) (.start env) = (.error x, .start env') := by
  obtain ⟨before, e, after, vs, env₁, rfl, hbefore, he⟩ := h
  -- Nothing behind the failure is run, so the induction is on what comes before it.
  induction hbefore with
  | nil => exact outcome_evaluateAll_of_error he after
  | cons head _ ih =>
    rw [List.cons_append, outcome_evaluateAll_of_ok head, ih he]
    rfl

theorem oneByOne_or_failsAt (limits : Limits) (es : List Expression) (env : Environment) :
    (∃ vs env', OneByOne limits env es vs env') ∨ ∃ x env', FailsAt limits env es x env' := by
  induction es generalizing env with
  | nil => exact Or.inl ⟨[], env, .nil env⟩
  | cons e rest ih =>
    rcases hv : value limits e env with ⟨x | v, env₁⟩
    · exact Or.inr ⟨x, env₁, [], e, rest, [], env, rfl, .nil env, hv⟩
    · rcases ih env₁ with ⟨vs, env', h⟩ | ⟨x, env', h⟩
      · exact Or.inl ⟨v :: vs, env', .cons hv h⟩
      · exact Or.inr ⟨x, env', h.cons hv⟩

theorem batch_of_le (h : es.length ≤ limits.batch) (env : Environment) :
    batch limits es env =
      ((outcome (evaluateAll limits es) (.start env)).1,
        (outcome (evaluateAll limits es) (.start env)).2.environment) :=
  if_neg (Nat.not_lt.mpr h)

theorem batch_of_lt (h : limits.batch < es.length) (env : Environment) :
    batch limits es env = (.error (.limitExceeded .batch limits.batch es.length), env) :=
  if_pos h

theorem batch_eq_ok_iff : batch limits es env = (.ok vs, env') ↔
    es.length ≤ limits.batch ∧ vs.length = es.length ∧ OneByOne limits env es vs env' := by
  rcases Nat.lt_or_ge limits.batch es.length with hlt | hle
  · rw [batch_of_lt hlt]
    simp [Nat.not_le.mpr hlt]
  · rw [batch_of_le hle]
    constructor
    · intro h
      -- Whatever happens, the expressions succeed one by one or one of them fails first.
      rcases oneByOne_or_failsAt limits es env with ⟨ws, env₁, hone⟩ | ⟨x, env₁, hfails⟩
      · rw [hone.outcome_eq] at h
        cases h
        exact ⟨hle, hone.length_eq, hone⟩
      · rw [hfails.outcome_eq] at h
        cases h
    · rintro ⟨-, -, hone⟩
      rw [hone.outcome_eq]
      rfl

theorem batch_eq_error_iff {x : Error} : batch limits es env = (.error x, env') ↔
    (limits.batch < es.length ∧ x = .limitExceeded .batch limits.batch es.length ∧ env' = env) ∨
      (es.length ≤ limits.batch ∧ FailsAt limits env es x env') := by
  rcases Nat.lt_or_ge limits.batch es.length with hlt | hle
  · rw [batch_of_lt hlt]
    simp [hlt, Nat.not_le.mpr hlt, eq_comm]
  · rw [batch_of_le hle]
    constructor
    · intro h
      rcases oneByOne_or_failsAt limits es env with ⟨ws, env₁, hone⟩ | ⟨y, env₁, hfails⟩
      · rw [hone.outcome_eq] at h
        cases h
      · rw [hfails.outcome_eq] at h
        cases h
        exact Or.inr ⟨hle, hfails⟩
    · rintro (⟨hlt, -⟩ | ⟨-, hfails⟩)
      · exact absurd hlt (Nat.not_lt.mpr hle)
      · rw [hfails.outcome_eq]
        rfl

/-- A batch succeeds exactly if it is within the limit and its expressions succeed one by one, with
the same values and the same environment. It fails exactly if it is too long, and then nothing has
changed, or if one of its expressions is the first to fail, with the error and the environment of
that one. An evaluation never changes the depth that it starts from. -/
theorem batch_refines_value (limits : Limits) (es : List Expression) (env : Environment) :
    (∀ vs env', batch limits es env = (.ok vs, env') ↔
      es.length ≤ limits.batch ∧ vs.length = es.length ∧ OneByOne limits env es vs env') ∧
    (∀ x env', batch limits es env = (.error x, env') ↔
      (limits.batch < es.length ∧ x = .limitExceeded .batch limits.batch es.length ∧
        env' = env) ∨
      (es.length ≤ limits.batch ∧ FailsAt limits env es x env')) ∧
    ∀ e c, (outcome (evaluate limits e) c).2.depth = c.depth :=
  ⟨fun _ _ => batch_eq_ok_iff, fun _ _ => batch_eq_error_iff, evaluate_depth limits⟩

end Reckoner.Expression
