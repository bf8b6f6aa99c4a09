import Reckoner.Proofs.Evaluation.Descent
/-!
Runs of one expression in two environments that are equal but for how their numbers are written.
Main statement: the two runs succeed with equal values or fail for one cause, and leave equal
environments, unless a step that both come to tells its operands apart.
-/
namespace Reckoner

/-- Two errors name one cause. -/
def Error.SameVariant (x y : Error) : Prop := x.ctorIdx = y.ctorIdx

section EndsAlike

open Evaluation (outcome)

variable {α β γ δ : Type} {V : α → β → Prop} {W : γ → δ → Prop}

/-- Two runs give related values or fail for one cause, and leave equal environments. -/
structure EndsAlike (V : α → β → Prop) (o : Except Error α × Context)
    (u : Except Error β × Context) : Prop where
  results : Alike Error.SameVariant V o.1 u.1
  environments : o.2.environment.Same u.2.environment

theorem SameResult.variant {r : Except Error α} {s : Except Error β} (h : SameResult V r s) :
    Alike Error.SameVariant V r s := by
  cases h with
  | ok h => exact .ok h
  | error h => exact .error h.ctorIdx_eq

variable {c c' : Context}

theorem endsAlike_result {r : Except Error α} {s : Except Error β} (h : SameResult V r s)
    (hc : c.environment.Same c'.environment) :
    EndsAlike V (outcome (.result r) c) (outcome (.result s) c') :=
  ⟨h.variant, hc⟩

theorem endsAlike_bind {x : Evaluation α} {y : Evaluation β} {f : α → Evaluation γ}
    {g : β → Evaluation δ} (h : EndsAlike V (outcome x c) (outcome y c'))
    (hf : ∀ a b d d', outcome x c = (.ok a, d) → outcome y c' = (.ok b, d') → V a b →
      d.environment.Same d'.environment → EndsAlike W (outcome (f a) d) (outcome (g b) d')) :
    EndsAlike W (outcome (x >>= f) c) (outcome (y >>= g) c') := by
  obtain ⟨hresults, henv⟩ := h
  rcases hx : outcome x c with ⟨r, d⟩
  rcases hy : outcome y c' with ⟨s, d'⟩
  rw [hx, hy] at hresults henv
  cases hresults with
  | ok hab =>
    rw [Evaluation.outcome_bind_of_ok hx, Evaluation.outcome_bind_of_ok hy]
    exact hf _ _ d d' hx hy hab henv
  | error he =>
    rw [Evaluation.outcome_bind_of_error hx, Evaluation.outcome_bind_of_error hy]
    exact ⟨.error he, henv⟩

/-- Under one limit, two actions at one depth are stopped together. -/
theorem endsAlike_nested {limits : Limits} {x : Evaluation α} {y : Evaluation β}
    (hdepth : c.depth = c'.depth) (hc : c.environment.Same c'.environment)
    (h : c.depth < limits.depth → EndsAlike V (outcome x c.deeper) (outcome y c'.deeper)) :
    EndsAlike V (outcome (.nested limits x) c) (outcome (.nested limits y) c') := by
  rcases Nat.lt_or_ge limits.depth (c.depth + 1) with hlt | hle
  · rw [Evaluation.outcome_nested_of_lt hlt, Evaluation.outcome_nested_of_lt (by omega)]
    exact ⟨.error rfl, hc⟩
  · have hends := h hle
    rcases hx : outcome x c.deeper with ⟨r, d⟩
    rcases hy : outcome y c'.deeper with ⟨s, d'⟩
    rw [hx, hy] at hends
    rw [Evaluation.outcome_nested_of_le hle hx, Evaluation.outcome_nested_of_le (by omega) hy]
    exact ⟨hends.results, hends.environments⟩

end EndsAlike

namespace Expression

open Evaluation (outcome)

variable {limits : Limits}

/-- The step of an expression does not tell two contexts apart: neither does what an operand is
read as, nor what the task makes of the operands. -/
structure StepsAlike (limits : Limits) (e : Expression) (c c' : Context) : Prop where
  reads : ∀ i p x d d' v w f f',
    Awaits limits e.task.word e.task.slots 1 e.operands c.deeper i p x d →
    Awaits limits e.task.word e.task.slots 1 e.operands c'.deeper i p x d' →
    outcome (evaluate limits x) d = (.ok v, f) → outcome (evaluate limits x) d' = (.ok w, f') →
    p.ReadsAlike v w
  acts : ∀ a b d d', outcome (e.readOperands limits) c.deeper = (.ok a, d) →
    outcome (e.readOperands limits) c'.deeper = (.ok b, d') → e.task.ActsAlike a b

end Expression

section Steps

open Evaluation (outcome)
open Expression (evaluate readArguments Awaits)

variable {limits : Limits} {c c' : Context}

theorem Slot.same_put {s : Slot} {slots : List Slot} {a b : s.parameter.Meaning}
    {as bs : Arguments (s.rest slots)} (h : s.parameter.Same a b)
    (hs : Arguments.Same (s.rest slots) as bs) :
    Arguments.Same (s :: slots) (s.put a as) (s.put b bs) := by
  cases s with
  | one p => exact ⟨h, hs⟩
  | optional p => exact ⟨.some h, hs⟩
  | values => exact ⟨.cons h hs.1, hs.2⟩

theorem Task.endsAlike_act {t : Task} {a b : Arguments t.slots}
    (hc : c.environment.Same c'.environment) (hab : Arguments.Same t.slots a b)
    (ht : t.ActsAlike a b) :
    EndsAlike Value.Same (outcome (t.act limits a) c) (outcome (t.act limits b) c') := by
  have hperform := sameResult_perform limits hc hab ht
  rw [t.outcome_act, t.outcome_act]
  generalize t.perform limits a c.environment = r at hperform
  generalize t.perform limits b c'.environment = s at hperform
  cases hperform with
  | ok h => exact ⟨.ok h.1, h.2⟩
  | error h => exact ⟨.error h.ctorIdx_eq, hc⟩

theorem Parameter.endsAlike_read {p : Parameter} {word : String} {position : Nat} {x : Expression}
    (hc : c.environment.Same c'.environment)
    (hx : p.taken? word position x = none →
      EndsAlike Value.Same (outcome (evaluate limits x) c) (outcome (evaluate limits x) c'))
    (hr : p.taken? word position x = none → ∀ v w f f',
      outcome (evaluate limits x) c = (.ok v, f) → outcome (evaluate limits x) c' = (.ok w, f') →
      p.ReadsAlike v w) :
    EndsAlike p.Same (outcome (p.read word position x (evaluate limits x)) c)
      (outcome (p.read word position x (evaluate limits x)) c') := by
  rw [Parameter.read_eq]
  cases ht : p.taken? word position x with
  | some r => exact endsAlike_result (sameResult_taken ht) hc
  | none =>
    refine endsAlike_bind (hx ht) fun v w f f' hv hw hvw hf => ?_
    exact endsAlike_result (sameResult_ofValue hvw word position (hr ht v w f f' hv hw)) hf

/-- The induction is over the arguments, for all places and contexts: each argument leaves the
contexts for those after it. -/
theorem endsAlike_readArguments {word : String} {slots : List Slot} {position : Nat}
    {es : List Expression} (hc : c.environment.Same c'.environment)
    (hx : ∀ i p x d d', Awaits limits word slots position es c i p x d →
      Awaits limits word slots position es c' i p x d' → d.environment.Same d'.environment →
      EndsAlike Value.Same (outcome (evaluate limits x) d) (outcome (evaluate limits x) d'))
    (hr : ∀ i p x d d' v w f f', Awaits limits word slots position es c i p x d →
      Awaits limits word slots position es c' i p x d' →
      outcome (evaluate limits x) d = (.ok v, f) → outcome (evaluate limits x) d' = (.ok w, f') →
      p.ReadsAlike v w) :
    EndsAlike (Arguments.Same slots) (outcome (readArguments limits word slots position es) c)
      (outcome (readArguments limits word slots position es) c') := by
  induction es generalizing slots position c c' with
  | nil =>
    rw [readArguments]
    have habsent := sameResult_orError (Arguments.absent? slots)
      (x := .wrongArgumentCount word (Arguments.arity slots) (position - 1)) (y := _) ⟨rfl, rfl⟩
    refine endsAlike_result (habsent.imp ?_) hc
    rintro a _ rfl
    exact Arguments.same_refl slots a
  | cons e rest ih =>
    cases slots with
    | nil =>
      rw [readArguments]
      exact endsAlike_result (.ok True.intro) hc
    | cons s slots =>
      rw [Expression.readArguments_cons]
      -- What one argument leaves is where the next one begins, in both runs.
      have hread := Parameter.endsAlike_read hc
        (fun ht => hx 0 s.parameter e c c' (.head ht) (.head ht) hc)
        (fun ht v w f f' => hr 0 s.parameter e c c' v w f f' (.head ht) (.head ht))
      refine endsAlike_bind hread fun a b d d' ha hb hab hd => ?_
      have hrest := ih hd
        (fun i p x f f' h h' => hx (i + 1) p x f f' (.tail ha h) (.tail hb h'))
        (fun i p x f f' v w g g' h h' => hr (i + 1) p x f f' v w g g' (.tail ha h) (.tail hb h'))
      refine endsAlike_bind hrest fun as bs f f' _ _ has hf => ?_
      exact endsAlike_result (.ok (Slot.same_put hab has)) hf

end Steps

namespace Expression

open Evaluation (outcome)

variable {limits : Limits} {e : Expression} {env env' : Environment}

theorem endsAlike_evaluate (e : Expression) {c c' : Context} (hdepth : c.depth = c'.depth)
    (hc : c.environment.Same c'.environment)
    (hsteps : ∀ path part d d', Descends limits path e c part d →
      Descends limits path e c' part d' → StepsAlike limits part d d') :
    EndsAlike Value.Same (outcome (evaluate limits e) c) (outcome (evaluate limits e) c') := by
  induction e using operands_induction generalizing c c' with
  | h e ih =>
    -- Only what both runs come to is asked to tell nothing apart.
    have here := hsteps [] e c c' (.here e c) (.here e c')
    rw [evaluate_eq]
    refine endsAlike_nested hdepth hc fun hlt => ?_
    have hlt' : c'.depth < limits.depth := hdepth ▸ hlt
    have hoperands : EndsAlike (Arguments.Same e.task.slots)
        (outcome (e.readOperands limits) c.deeper) (outcome (e.readOperands limits) c'.deeper) := by
      refine endsAlike_readArguments hc (fun i p x d d' h h' hd => ?_) here.reads
      refine ih x h.mem ?_ hd fun path part f f' hf hf' => ?_
      · rw [h.depth, h'.depth, Context.deeper_depth, Context.deeper_depth, hdepth]
      · exact hsteps (i :: path) part f f' (.operand hlt h hf) (.operand hlt' h' hf')
    refine endsAlike_bind hoperands fun a b d d' ha hb hab hd => ?_
    exact Task.endsAlike_act hd hab (here.acts a b d d' ha hb)

/-- Equals for equals: in equal environments the runs of an expression succeed with equal values or
fail for one cause, and leave equal environments, if no step that both come to tells its operands
apart. -/
theorem value_same (limits : Limits) (e : Expression) {env env' : Environment}
    (h : env.same env' = true)
    (hsteps : ∀ path part d d', Descends limits path e (.start env) part d →
      Descends limits path e (.start env') part d' → StepsAlike limits part d d') :
    Alike Error.SameVariant (fun v w => v.same w = true) (value limits e env).1
        (value limits e env').1 ∧
      (value limits e env).2.same (value limits e env').2 = true := by
  have hends : EndsAlike Value.Same (outcome (evaluate limits e) (.start env))
      (outcome (evaluate limits e) (.start env')) :=
    endsAlike_evaluate e rfl (Environment.same_iff.mp h) hsteps
  exact ⟨hends.results.imp fun v w hvw => Value.same_iff.mpr hvw,
    Environment.same_iff.mpr hends.environments⟩

section Length

/-- An environment in which a name stands for so many kilometres. -/
def kilometres (n : Decimal) : Environment := Environment.initial.bind "x" (.quantity ⟨n, "km"⟩)

/-- That length in metres. -/
def inMetres : Expression := .conversion (.identifier "x") "m"

theorem readOperands_inMetres (n : Decimal) :
    outcome (inMetres.readOperands .standard) (Context.start (kilometres n)).deeper =
      (.ok (.quantity ⟨n, "km"⟩, ()), (Context.start (kilometres n)).deeper) :=
  rfl

/-- The step of an expression without operands tells nothing apart if its task does not. -/
theorem stepsAlike_leaf (h : e.operands = []) (ht : ∀ a b, e.task.ActsAlike a b) (c c' : Context) :
    StepsAlike limits e c c' where
  reads i p x d d' v w f f' hx := by
    have hmem := hx.mem
    rw [h] at hmem
    cases hmem
  acts a b _ _ _ _ := ht a b

/-- Numbers that are one in binary floating point are not told apart by the conversion. -/
theorem descends_inMetres_stepsAlike {a b : Decimal} (h : a.Same b) (hf : a.toFloat = b.toFloat)
    (path : List Nat) (part : Expression) (d d' : Context)
    (hd : Descends .standard path inMetres (.start (kilometres a)) part d)
    (hd' : Descends .standard path inMetres (.start (kilometres b)) part d') :
    StepsAlike .standard part d d' := by
  cases hd with
  | here =>
    cases hd'
    refine ⟨fun i p x d d' v w f f' hx _ _ _ => ?_, fun v w f f' hv hw => ?_⟩
    · cases hx with
      | head _ => exact True.intro
      | tail _ hx => cases hx
    · rw [readOperands_inMetres] at hv hw
      rw [← Except.ok.inj (Prod.mk.inj hv).1, ← Except.ok.inj (Prod.mk.inj hw).1]
      exact Decimal.convertsAlike_of_toFloat h hf "km" "m"
  | operand _ hx h =>
    cases hx with
    | head _ =>
      cases h with
      | here => exact stepsAlike_leaf (e := identifier "x") rfl (fun _ _ => True.intro) _ _
      | operand _ hx _ => cases hx
    | tail _ hx => cases hx

theorem value_same_half :
    (kilometres (.ofLiteral 5 1)).same (kilometres (.ofLiteral 50 2)) = true ∧
      (∀ path part d d',
        Descends .standard path inMetres (.start (kilometres (.ofLiteral 5 1))) part d →
        Descends .standard path inMetres (.start (kilometres (.ofLiteral 50 2))) part d' →
        StepsAlike .standard part d d') ∧
      Alike Error.SameVariant (fun v w => v.same w = true)
        (value .standard inMetres (kilometres (.ofLiteral 5 1))).1
        (value .standard inMetres (kilometres (.ofLiteral 50 2))).1 := by
  have hsame : (kilometres (.ofLiteral 5 1)).same (kilometres (.ofLiteral 50 2)) = true := by
    decide +kernel
  have hsteps := descends_inMetres_stepsAlike (a := .ofLiteral 5 1) (b := .ofLiteral 50 2)
    ((Decimal.same_iff _ _).mp (by decide +kernel)) (by decide +kernel)
  exact ⟨hsame, hsteps, (value_same .standard inMetres hsame hsteps).1⟩

/-- Binary floating point sees how many places a number is written with: `4.4` kilometres are `4400`
metres, and with fifteen places they are `4400.000000000001`. -/
theorem value_tells_places :
    (kilometres (.ofLiteral 44 1)).same (kilometres (.ofLiteral 4400000000000000 15)) = true ∧
      (value .standard inMetres (kilometres (.ofLiteral 44 1))).1 =
        .ok (.quantity ⟨.ofLiteral 4400 0, "m"⟩) ∧
      (value .standard inMetres (kilometres (.ofLiteral 4400000000000000 15))).1 =
        .ok (.quantity ⟨.ofLiteral 4400000000000001 12, "m"⟩) ∧
      Value.same (.quantity ⟨.ofLiteral 4400 0, "m"⟩)
        (.quantity ⟨.ofLiteral 4400000000000001 12, "m"⟩) = false := by
  decide +kernel

end Length

end Expression
end Reckoner
