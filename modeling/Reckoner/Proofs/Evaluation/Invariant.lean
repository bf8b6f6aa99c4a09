import Reckoner.Proofs.Evaluation.StepByStep
/-!
What holds of every environment and of every value in a session. Main statements: an invariant that
every single operation keeps is kept by every evaluation, and so it holds all through a session,
whether the calls of the session succeed or fail.
-/
namespace Reckoner

open Evaluation (outcome)

namespace Expression

/-- Where there is nothing to do, a literal has been read or a call is refused. -/
theorem literal?_or_error_of_task {e : Expression} {r : Except Error Value}
    {h : SameResult Value.Same r r} (he : e.task = .give r h) :
    e.literal? = some r ∨ ∃ x, r = .error x := by
  cases e with
  | call function arguments =>
    right
    simp only [task] at he
    split at he
    · exact ⟨_, (Task.give.inj he).symm⟩
    · split at he
      · cases he
      · exact ⟨_, (Task.give.inj he).symm⟩
  | number | boolean | date | time | currency | duration | quantity | rate =>
    exact .inl (congrArg some (Task.give.inj he))
  | _ => cases he

end Expression

namespace Invariant

variable {I : Invariant} {limits : Limits}

/-- Every operation keeps the invariant where it gives anything. -/
structure Kept (I : Invariant) (limits : Limits) : Prop where
  literal : ∀ {e : Expression} {r}, e.literal? = some r → Gives r I.values
  resolve : ∀ {env} (name : String), I.environments env → Gives (env.resolve name) I.values
  bind : ∀ {env v} (name : String), I.environments env → I.values v →
    I.environments (env.bind name v)
  declare : ∀ {env v} (space key : String), I.environments env → I.values v →
    Gives (env.declare space key v) I.environments
  combine : ∀ {env l r} (op : ArithmeticOperator), I.environments env → I.values l → I.values r →
    Gives (l.combine op r env) I.values
  compare : ∀ {l r} (op : ComparisonOperator), I.values l → I.values r →
    Gives ((l.compare op r).map .boolean) I.values
  signed : ∀ {v} (op : UnaryOperator), I.values v → Gives (v.signed op) I.values
  convert : ∀ {env v} (target : String), I.environments env → I.values v →
    Gives (v.convert target env) I.values
  portion : ∀ {l r}, I.values l → I.values r → Gives (Value.portion l r) I.values
  napkin : ∀ {v} (figures : Nat), I.values v → Gives (Napkin.roundValue v figures) I.values
  taken : ∀ {p : Parameter} {word position e r}, p.taken? word position e = some r →
    Gives r (I.meanings p)
  ofValue : ∀ {v} (p : Parameter) (word : String) (position : Nat), I.values v →
    Gives (p.ofValue word position v) (I.meanings p)
  apply : ∀ {f : Function} {a} (word : String), I.arguments f.slots a →
    Gives (f.apply limits word a) I.values

theorem Kept.reads (h : I.Kept limits) : I.Reads := ⟨h.taken, h.ofValue⟩

theorem Kept.gives_perform (h : I.Kept limits) {t : Task} {a : Arguments t.slots}
    {env : Environment} (hgive : ∀ r hr, t = .give r hr → Gives r I.values)
    (ha : I.arguments t.slots a) (henv : I.environments env) :
    Gives (t.perform limits a env) fun p => I.values p.1 ∧ I.environments p.2 := by
  have keeps {r : Except Error Value} (hr : Gives r I.values) :
      Gives (r.map (·, env)) fun p => I.values p.1 ∧ I.environments p.2 :=
    gives_map (hr.imp fun _ hv => ⟨hv, henv⟩)
  cases t with
  | give r hr => exact keeps (hgive r hr rfl)
  | resolve name => exact keeps (h.resolve name henv)
  | assign name => exact gives_ok ⟨ha.1, h.bind name henv ha.1⟩
  | combine op => exact keeps (h.combine op henv ha.1 ha.2.1)
  | compare op => exact keeps (h.compare op ha.1 ha.2.1)
  | signed op => exact keeps (h.signed op ha.1)
  | convert target => exact keeps (h.convert target henv ha.1)
  | portion => exact keeps (h.portion ha.1 ha.2.1)
  | napkin figures => exact keeps (h.napkin _ ha.1)
  | apply f word => exact keeps (h.apply word ha)
  | declare space key =>
    show Gives ((env.declare space key a.1).map (a.1, ·)) fun p =>
      I.values p.1 ∧ I.environments p.2
    exact gives_map ((h.declare space key henv ha.1).imp fun _ hd => ⟨ha.1, hd⟩)

theorem Kept.keptBy (h : I.Kept limits) (e : Expression) (c : Context) : I.KeptBy limits e c := by
  intro a d _ ha henv
  refine h.gives_perform (fun r hr he => ?_) ha henv
  rcases Expression.literal?_or_error_of_task he with hliteral | ⟨x, rfl⟩
  · exact h.literal hliteral
  · exact gives_error x

theorem Kept.holds_evaluate (h : I.Kept limits) (e : Expression) {c : Context}
    (hc : I.environments c.environment) :
    I.Holds I.values (outcome (Expression.evaluate limits e) c) :=
  Invariant.holds_evaluate h.reads e hc fun _ part d _ => h.keptBy part d

/-- A list of expressions that fails has kept the invariant up to there. -/
theorem Kept.holds_evaluateAll (h : I.Kept limits) (es : List Expression) {c : Context}
    (hc : I.environments c.environment) :
    I.Holds I.lists (outcome (Expression.evaluateAll limits es) c) := by
  induction es generalizing c with
  | nil => exact ⟨gives_ok fun v hv => absurd hv List.not_mem_nil, hc⟩
  | cons e rest ih =>
    refine holds_bind (h.holds_evaluate e hc) fun v d _ hv hd => ?_
    refine holds_bind (ih hd) fun vs f _ hvs hf => ?_
    exact ⟨gives_ok (List.forall_mem_cons.mpr ⟨hv, hvs⟩), hf⟩

end Invariant

namespace Expression

variable {I : Invariant} {limits : Limits} {env : Environment}

theorem value_keeps (h : I.Kept limits) (e : Expression) (henv : I.environments env) :
    Gives (value limits e env).1 I.values ∧ I.environments (value limits e env).2 := by
  have hholds := h.holds_evaluate e (c := .start env) henv
  exact ⟨hholds.gives, hholds.environment⟩

theorem batch_keeps (h : I.Kept limits) (es : List Expression) (henv : I.environments env) :
    Gives (batch limits es env).1 I.lists ∧
      I.environments (batch limits es env).2 := by
  unfold batch
  split
  · exact ⟨gives_error _, henv⟩
  · have hholds := h.holds_evaluateAll es (c := .start env) henv
    exact ⟨hholds.gives, hholds.environment⟩

end Expression

/-- A call of a session, under limits of its own. -/
inductive Call where
  | one (limits : Limits) (e : Expression)
  | many (limits : Limits) (es : List Expression)

/-- The values that a call gives, and the environment that it leaves. -/
def Call.run : Call → Environment → Except Error (List Value) × Environment
  | one limits e, env =>
    let (r, env') := e.value limits env
    (r.map ([·]), env')
  | many limits es, env => Expression.batch limits es env

/-- The results of calls one after another, each in the environment that the one before has left,
and the environment after the last. -/
def session (env : Environment) : List Call → List (Except Error (List Value)) × Environment
  | [] => ([], env)
  | call :: calls =>
    let (r, env') := call.run env
    let (rs, last) := session env' calls
    (r :: rs, last)

theorem Call.run_keeps {I : Invariant} {env : Environment} (h : ∀ limits, I.Kept limits)
    (call : Call) (henv : I.environments env) :
    Gives (call.run env).1 I.lists ∧ I.environments (call.run env).2 := by
  cases call with
  | one limits e =>
    obtain ⟨hv, hkept⟩ := Expression.value_keeps (h limits) e henv
    refine ⟨gives_map (hv.imp fun v hv w hw => ?_), hkept⟩
    rwa [List.mem_singleton.mp hw]
  | many limits es => exact Expression.batch_keeps (h limits) es henv

/-- The induction is over the calls, for all environments, since each call leaves one of its own. -/
theorem session_keeps {I : Invariant} {env : Environment} (h : ∀ limits, I.Kept limits)
    (calls : List Call) (henv : I.environments env) :
    (∀ r ∈ (session env calls).1, Gives r I.lists) ∧
      I.environments (session env calls).2 := by
  induction calls generalizing env with
  | nil => exact ⟨nofun, henv⟩
  | cons call calls ih =>
    obtain ⟨hgives, hkept⟩ := call.run_keeps h henv
    obtain ⟨hrest, hlast⟩ := ih hkept
    refine ⟨fun r hr => ?_, hlast⟩
    rcases List.mem_cons.mp hr with rfl | hr
    · exact hgives
    · exact hrest r hr

end Reckoner
