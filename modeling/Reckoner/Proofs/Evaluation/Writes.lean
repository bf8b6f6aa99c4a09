import Reckoner.Proofs.Environment.RateKey
import Reckoner.Proofs.Environment.Setting
import Reckoner.Proofs.Evaluation.Strict
/-!
What an evaluation leaves as it was. Main statement: whether it succeeds or fails, an evaluation
binds no names and sets no exchange rates but those of the assignments and declarations that it
comes to, and it takes nothing away.
-/
namespace Reckoner.Expression

open Evaluation (outcome)

/-- The name that an expression binds, its parts apart. -/
def binds? : Expression → Option String
  | assignment name _ => some name
  | declaration space key _ =>
    if Setting.spaceWord space = "global" then some (Text.trim key) else none
  | _ => none

/-- The pair of currencies whose rate an expression sets, its parts apart. -/
def exchanges? : Expression → Option (String × String)
  | declaration space key _ =>
    if Setting.spaceWord space = "exchange" then
      (Environment.codes key).toOption.map fun p => Environment.currencies p.1 p.2
    else none
  | _ => none

/-- The names that an evaluation may bind. -/
def writes (e : Expression) : List String := e.reached.filterMap binds?

/-- The pairs of currencies whose rate an evaluation may set. -/
def exchanges (e : Expression) : List (String × String) := e.reached.filterMap exchanges?

/-- The second environment is the first one but for what an expression writes. -/
structure Frame (e : Expression) (env env' : Environment) : Prop where
  get?_eq : ∀ name, name ∉ e.writes → env'.get? name = env.get? name
  rate?_eq : ∀ source target, Environment.currencies source target ∉ e.exchanges →
    env'.rate? source target = env.rate? source target
  isSome_get? : ∀ name, (env.get? name).isSome → (env'.get? name).isSome
  isSome_rate? : ∀ source target, (env.rate? source target).isSome →
    (env'.rate? source target).isSome

namespace Frame

variable {e : Expression} {env env' : Environment}

theorem refl (e : Expression) (env : Environment) : Frame e env env :=
  ⟨fun _ _ => rfl, fun _ _ _ => rfl, fun _ h => h, fun _ _ h => h⟩

theorem bind (h : Frame e env env') {name : String} (hname : name ∈ e.writes) (v : Value) :
    Frame e env (env'.bind name v) := by
  refine ⟨?_, h.rate?_eq, ?_, h.isSome_rate?⟩
  · intro key hkey
    have hk : key ≠ name := by
      rintro rfl
      exact hkey hname
    rw [env'.get?_bind_of_ne hk]
    exact h.get?_eq key hkey
  · intro key hkey
    by_cases hk : key = name
    · subst hk
      simp
    · rw [env'.get?_bind_of_ne hk]
      exact h.isSome_get? key hkey

theorem setRate (h : Frame e env env') {source target : String}
    (hcurrencies : Environment.currencies source target ∈ e.exchanges)
    (hs : '_' ∉ source.toList) (ht : '_' ∉ target.toList) (r : Decimal) :
    Frame e env (env'.setRate source target r) := by
  have hother {s t : String} (hk : Environment.rateKey s t ≠ Environment.rateKey source target) :
      (env'.setRate source target r).rate? s t = env'.rate? s t :=
    Dictionary.get?_insert_of_ne _ _ _ _ hk
  refine ⟨h.get?_eq, ?_, h.isSome_get?, ?_⟩
  · intro s t hst
    -- Without underscores in the codes that are declared, no other pair has their key.
    have hk : Environment.rateKey s t ≠ Environment.rateKey source target := by
      intro hkey
      rw [(Environment.rateKey_eq_iff hs ht s t).mp hkey] at hst
      exact hst hcurrencies
    rw [hother hk]
    exact h.rate?_eq s t hst
  · intro s t hst
    by_cases hk : Environment.rateKey s t = Environment.rateKey source target
    · simp [Environment.rate?, Environment.setRate, hk]
    · rw [hother hk]
      exact h.isSome_rate? s t hst

/-- A declaration changes nothing but the name or the rate that it is for. -/
theorem declare (h : Frame e env env') {space key : String} {value : Expression}
    (hmem : declaration space key value ∈ e.reached) {v : Value} {env₁ : Environment}
    (hd : env'.declare space key v = .ok env₁) : Frame e env env₁ := by
  rw [Environment.declare_eq] at hd
  obtain ⟨s, rfl, hs⟩ := (Setting.gives_read space key v).of_map env₁ hd
  rcases hs with ⟨hspace, rfl⟩ | ⟨hspace, source, target, r, hcodes, -, rfl⟩
  · apply h.bind
    refine List.mem_filterMap.mpr ⟨_, hmem, ?_⟩
    rw [binds?, if_pos hspace]
  · obtain ⟨hsource, htarget⟩ := Environment.gives_codes key _ hcodes
    refine h.setRate (List.mem_filterMap.mpr ⟨_, hmem, ?_⟩) hsource htarget r
    rw [exchanges?, if_pos hspace, hcodes]
    rfl

end Frame

variable {limits : Limits} {c : Context}

theorem evaluate_frame (limits : Limits) (e : Expression) (c : Context) :
    Frame e c.environment (outcome (evaluate limits e) c).2.environment := by
  refine (evaluate_keeps (K := Frame e c.environment) ?_ ?_ (Frame.refl e c.environment)).2
  · intro env name value v hmem h
    exact h.bind (List.mem_filterMap.mpr ⟨_, hmem, rfl⟩) v
  · intro env env' space key value v hmem h hd
    exact h.declare hmem hd

/-- A call of a function that there is not, or with a number of arguments that it does not take. -/
def Refused (function : String) (arguments : List Expression) : Prop :=
  ∀ f, Function.named? (Text.keyword function) = some f → f.arity.allows arguments.length = false

/-- The arguments of a refused call are not evaluated, so they write nothing. -/
theorem outcome_call_of_refused {function : String} {arguments : List Expression}
    (h : Refused function arguments) :
    (outcome (evaluate limits (.call function arguments)) c).2 = c := by
  rw [evaluate]
  rcases Nat.lt_or_ge limits.depth (c.depth + 1) with hlt | hle
  · rw [Evaluation.outcome_nested_of_lt hlt]
  · dsimp only
    cases hf : Function.named? (Text.keyword function) with
    | none =>
      rw [Evaluation.outcome_nested_of_le hle (Evaluation.outcome_result _ _)]
      rfl
    | some f =>
      simp only [h f hf, Bool.false_eq_true, if_false]
      rw [Evaluation.outcome_nested_of_le hle (Evaluation.outcome_result _ _)]
      rfl

theorem outcome_assign (name : String) (v : Value) (c : Context) :
    outcome (assign name v) c =
      (.ok v, { c with environment := c.environment.bind name v }) :=
  rfl

/-- A successful assignment leaves its name bound to the value that it gives. -/
theorem get?_assignment {name : String} {value : Expression} {v : Value}
    (h : (outcome (evaluate limits (.assignment name value)) c).1 = .ok v) :
    (outcome (evaluate limits (.assignment name value)) c).2.environment.get? name = some v := by
  rw [evaluate] at h ⊢
  -- The depth and the value both have to let the assignment come to its own step.
  rcases Nat.lt_or_ge limits.depth (c.depth + 1) with hlt | hle
  · rw [Evaluation.outcome_nested_of_lt hlt] at h
    cases h
  · rcases hv : outcome (evaluate limits value) c.deeper with ⟨x | w, d⟩
    · rw [Evaluation.outcome_nested_of_le hle (Evaluation.outcome_bind_of_error hv _)] at h
      cases h
    · have hassign := Evaluation.outcome_bind_of_ok hv (assign name)
      rw [outcome_assign] at hassign
      rw [Evaluation.outcome_nested_of_le hle hassign] at h ⊢
      cases h
      exact Environment.get?_bind_self _ _ _

/-- The value that an expression writes to a target of its own. -/
def written? : Expression → Option Expression
  | assignment _ value => some value
  | declaration _ _ value => some value
  | _ => none

/-- At the limit on the depth nothing is evaluated. -/
theorem outcome_evaluate_of_lt (h : limits.depth < c.depth + 1) (e : Expression) :
    outcome (evaluate limits e) c =
      (.error (.limitExceeded .depth limits.depth (c.depth + 1)), c) := by
  cases e <;> exact Evaluation.outcome_nested_of_lt h _

/-- Where the value fails there is nothing to write, and what the value has written stays. -/
theorem outcome_of_written_error {e value : Expression} (he : e.written? = some value) {x : Error}
    {d : Context} (h : outcome (evaluate limits value) c.deeper = (.error x, d)) :
    ∃ y, outcome (evaluate limits e) c = (.error y, { d with depth := c.depth }) ∧
      (c.depth < limits.depth → y = x) := by
  rcases Nat.lt_or_ge limits.depth (c.depth + 1) with hlt | hle
  · -- The expression is as deep as it can be, and so is its value, which then leaves no trace.
    rw [outcome_evaluate_of_lt (by simp; omega)] at h
    cases h
    exact ⟨_, outcome_evaluate_of_lt hlt e, fun hdepth => absurd hdepth (by omega)⟩
  · have hd : d.depth - 1 = c.depth := by
      have hdeeper : d.depth = c.depth + 1 := by simpa [h] using evaluate_depth limits value c.deeper
      omega
    -- Neither kind of expression does anything after a value that fails.
    have hnested (f : Value → Evaluation Value) :
        outcome (.nested limits (evaluate limits value >>= f)) c =
          (.error x, { d with depth := c.depth }) := by
      rw [Evaluation.outcome_nested_of_le hle (Evaluation.outcome_bind_of_error h f), hd]
    refine ⟨x, ?_, fun _ => rfl⟩
    cases e with
    | assignment name inner =>
      cases he
      rw [evaluate]
      exact hnested _
    | declaration space key inner =>
      cases he
      rw [evaluate]
      exact hnested _
    | _ => cases he

/-- Whether it succeeds or fails, an evaluation changes nothing but what the assignments and
declarations of the expression write, and removes nothing. A refused call changes nothing, a
successful assignment has bound its name, and where the value of an assignment or of a declaration
fails, what the value leaves is all that is left. -/
theorem value_writes_only_declared (limits : Limits) :
    (∀ e env, Frame e env (value limits e env).2) ∧
      ∀ c,
        (∀ function arguments, Refused function arguments →
          (outcome (evaluate limits (.call function arguments)) c).2 = c) ∧
        (∀ name inner v, (outcome (evaluate limits (.assignment name inner)) c).1 = .ok v →
          (outcome (evaluate limits (.assignment name inner)) c).2.environment.get? name =
            some v) ∧
        ∀ e inner x d, e.written? = some inner →
          outcome (evaluate limits inner) c.deeper = (.error x, d) →
          ∃ y, outcome (evaluate limits e) c = (.error y, { d with depth := c.depth }) ∧
            (c.depth < limits.depth → y = x) := by
  refine ⟨fun e env => evaluate_frame limits e (.start env), fun c => ⟨?_, ?_, ?_⟩⟩
  · intro function arguments h
    exact outcome_call_of_refused h
  · intro name inner v h
    exact get?_assignment h
  · intro e inner x d he h
    exact outcome_of_written_error he h

/-- A sum that binds a name and then fails, a call of no function, and an assignment of each kind. -/
theorem value_writes_only_declared_failing :
    let env : Environment := Environment.initial.setRate "USD" "EUR" .one
    let failing : Expression := .arithmetic (.assignment "x" (.number "1")) .add
      (.identifier "missing")
    let inner := outcome (evaluate .standard failing) (Context.start env).deeper
    (value .standard failing env).2.get? "PI" = env.get? "PI" ∧
      (value .standard failing env).2.rate? "usd" "EUR" = env.rate? "usd" "EUR" ∧
      (outcome (evaluate .standard (.call "nope" [failing])) (.start env)).2 = .start env ∧
      (outcome (evaluate .standard (.assignment "y" (.number "2"))) (.start env)).2.environment.get?
        "y" = some (.number (.ofLiteral 2 0)) ∧
      outcome (evaluate .standard (.assignment "z" failing)) (.start env) =
        (.error (.undefinedIdentifier "missing"), { inner.2 with depth := 0 }) := by
  intro env failing inner
  obtain ⟨hframe, hcontext⟩ := value_writes_only_declared .standard
  obtain ⟨hrefused, hok, herror⟩ := hcontext (.start env)
  have hinner : inner.1 = .error (.undefinedIdentifier "missing") := by decide +kernel
  refine ⟨?_, ?_, ?_, ?_, ?_⟩
  · exact (hframe failing env).get?_eq "PI" (by decide +kernel)
  · exact (hframe failing env).rate?_eq "usd" "EUR" (by decide +kernel)
  · apply hrefused
    intro f hf
    rw [show Function.named? (Text.keyword "nope") = none by decide +kernel] at hf
    cases hf
  · apply hok
    decide +kernel
  · obtain ⟨y, hy, hyx⟩ := herror (.assignment "z" failing) failing _ inner.2 rfl
      (Prod.ext hinner rfl)
    rwa [hyx (by decide)] at hy

end Reckoner.Expression
