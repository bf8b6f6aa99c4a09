import Reckoner.Proofs.Evaluation.Task
import Reckoner.Proofs.Fails
/-!
The error that tells of a state no input leads to. Main statement: no operation on any values and no
evaluation of any expression ends with it.
-/
namespace Reckoner

/-- An error tells about what is evaluated or about a limit. -/
def Error.NotInternal (x : Error) : Prop := ∀ what, x ≠ .internal what

/-- A computation does not come to a state that no input leads to. -/
def NeverInternal {α : Type} (r : Except Error α) : Prop := Fails r Error.NotInternal

theorem SameResult.neverInternal {α β : Type} {V : α → β → Prop} {r : Except Error α}
    {s : Except Error β} (h : SameResult V r s) : NeverInternal r := by
  rintro x hx what rfl
  cases h.isOrdinary hx

namespace Evaluation

variable {α β : Type}

/-- An action does not come to such a state, wherever it starts. -/
def NeverInternal (x : Evaluation α) : Prop := ∀ c, Reckoner.NeverInternal (outcome x c).1

theorem neverInternal_result {r : Except Error α} (h : Reckoner.NeverInternal r) :
    NeverInternal (result r) := fun _ => h

theorem neverInternal_bind {x : Evaluation α} {f : α → Evaluation β} (hx : NeverInternal x)
    (hf : ∀ a, NeverInternal (f a)) : NeverInternal (x >>= f) := by
  intro c
  rcases outcome_bind x f c with ⟨a, d, -, h⟩ | ⟨e, d, hxc, h⟩
  · rw [h]
    exact hf a d
  · have hxe := hx c
    rw [hxc] at hxe
    rw [h]
    exact fails_error (hxe e rfl)

theorem neverInternal_nested (limits : Limits) {x : Evaluation α} (h : NeverInternal x) :
    NeverInternal (nested limits x) := by
  intro c
  rcases Nat.lt_or_ge limits.depth (c.depth + 1) with hlt | hle
  · -- The error at the limit tells about the limit.
    rw [outcome_nested_of_lt hlt]
    exact fails_error nofun
  · have hx := h c.deeper
    rcases ho : outcome x c.deeper with ⟨r, d⟩
    rw [ho] at hx
    rw [outcome_nested_of_le hle ho]
    exact hx

end Evaluation

open Evaluation (neverInternal_result neverInternal_bind neverInternal_nested)

theorem Task.neverInternal_act (limits : Limits) (t : Task) (a : Arguments t.slots) :
    (t.act limits a).NeverInternal := by
  intro c
  have hperform : NeverInternal (t.perform limits a c.environment) := by
    rintro x hx what rfl
    cases isOrdinary_of_perform hx
  rw [outcome_act]
  generalize t.perform limits a c.environment = r at hperform
  cases r with
  | ok p => exact fails_ok _
  | error x => exact fails_error (hperform x rfl)

namespace Expression

variable (limits : Limits)

theorem neverInternal_read {e : Expression} (he : (evaluate limits e).NeverInternal)
    (p : Parameter) (word : String) (position : Nat) :
    (p.read word position e (evaluate limits e)).NeverInternal := by
  rw [Parameter.read_eq]
  cases ht : p.taken? word position e with
  | some r => exact neverInternal_result (Parameter.sameResult_taken ht).neverInternal
  | none =>
    refine neverInternal_bind he fun v => neverInternal_result ?_
    exact (Parameter.sameResult_ofValue (.refl v) word position (p.readsAlike_refl v)).neverInternal

theorem neverInternal_readArguments (word : String) {es : List Expression}
    (hes : ∀ e ∈ es, (evaluate limits e).NeverInternal) (slots : List Slot) (position : Nat) :
    (readArguments limits word slots position es).NeverInternal := by
  induction es generalizing slots position with
  | nil =>
    rw [readArguments]
    exact neverInternal_result (fails_orError _ nofun)
  | cons e rest ih =>
    cases slots with
    | nil =>
      rw [readArguments]
      exact neverInternal_result (fails_ok _)
    | cons s slots =>
      rw [readArguments_cons]
      have he := hes e List.mem_cons_self
      refine neverInternal_bind (neverInternal_read limits he s.parameter word position) fun a => ?_
      have hrest := ih (fun x hx => hes x (List.mem_cons_of_mem _ hx)) (s.rest slots) (position + 1)
      exact neverInternal_bind hrest fun as => neverInternal_result (fails_ok _)

theorem neverInternal_evaluate (e : Expression) : (evaluate limits e).NeverInternal := by
  -- The induction goes from the operands of an expression to the expression.
  induction e using operands_induction with
  | h e ih =>
    rw [evaluate_eq]
    apply neverInternal_nested
    have hoperands := neverInternal_readArguments limits e.task.word ih e.task.slots 1
    exact neverInternal_bind hoperands fun a => e.task.neverInternal_act limits a

theorem neverInternal_evaluateAll (es : List Expression) :
    (evaluateAll limits es).NeverInternal := by
  induction es with
  | nil => exact neverInternal_result (fails_ok _)
  | cons e rest ih =>
    refine neverInternal_bind (neverInternal_evaluate limits e) fun v => ?_
    exact neverInternal_bind ih fun vs => neverInternal_result (fails_ok _)

theorem neverInternal_value (e : Expression) (env : Environment) :
    NeverInternal (value limits e env).1 :=
  neverInternal_evaluate limits e (.start env)

theorem neverInternal_batch (es : List Expression) (env : Environment) :
    NeverInternal (batch limits es env).1 := by
  unfold batch
  split
  · exact fails_error nofun
  · exact neverInternal_evaluateAll limits es (.start env)

end Expression

namespace Napkin

theorem neverInternal_scaledText (a : Decimal) (figures : Nat) (scales : List (Nat × String)) :
    NeverInternal (scaledText a figures scales) := by
  induction scales with
  | nil => exact fails_ok _
  | cons s rest ih =>
    unfold scaledText
    cases Decimal.ofNat? s.1 with
    | none => exact ih
    | some power =>
      refine fails_ite (fun _ => ?_) fun _ => ih
      exact fails_bind (sameResult_round (.refl _) figures).neverInternal fun r _ => fails_ok _

theorem neverInternal_numberText (a : Decimal) (figures : Nat) :
    NeverInternal (numberText a figures) :=
  fails_bind (sameResult_round (.refl a) figures).neverInternal fun r _ =>
    neverInternal_scaledText r figures suffixes

theorem neverInternal_valueText (v : Value) (figures : Nat) :
    NeverInternal (valueText v figures) := by
  cases v with
  | number n => exact neverInternal_numberText n figures
  | date d => exact fails_ok _
  | time t => exact fails_ok _
  | boolean b => exact fails_ok _
  | _ => exact fails_bind (neverInternal_numberText _ figures) fun body _ => fails_ok _

end Napkin

/-- What is offered on values, on environments and on expressions never comes to a state that no
input leads to, whatever it is applied to. -/
structure NothingInternal : Prop where
  literal : ∀ (e : Expression) (r : Except Error Value), e.literal? = some r → NeverInternal r
  resolve : ∀ (env : Environment) (name : String), NeverInternal (env.resolve name)
  declare : ∀ (env : Environment) (space key : String) (v : Value),
    NeverInternal (env.declare space key v)
  combine : ∀ (l : Value) (op : ArithmeticOperator) (r : Value) (env : Environment),
    NeverInternal (l.combine op r env)
  compare : ∀ (l : Value) (op : ComparisonOperator) (r : Value), NeverInternal (l.compare op r)
  signed : ∀ (op : UnaryOperator) (v : Value), NeverInternal (v.signed op)
  convert : ∀ (v : Value) (target : String) (env : Environment),
    NeverInternal (v.convert target env)
  portion : ∀ fraction base : Value, NeverInternal (Value.portion fraction base)
  roundValue : ∀ (v : Value) (figures : Nat), NeverInternal (Napkin.roundValue v figures)
  valueText : ∀ (v : Value) (figures : Nat), NeverInternal (Napkin.valueText v figures)
  convertUnit : ∀ (a : Decimal) (source target : String),
    NeverInternal (a.convertUnit source target)
  toBaseUnit : ∀ (a : Decimal) (unit : String), NeverInternal (a.toBaseUnit unit)
  makeRate : ∀ (amount : Quantity) (per : String), NeverInternal (Rate.make amount per)
  /-- A call of a function, with any arguments that it could have read. -/
  apply : ∀ (limits : Limits) (word : String) (f : Function) (a : Arguments f.slots),
    NeverInternal (f.apply limits word a)
  value : ∀ (limits : Limits) (e : Expression) (env : Environment),
    NeverInternal (e.value limits env).1
  batch : ∀ (limits : Limits) (es : List Expression) (env : Environment),
    NeverInternal (Expression.batch limits es env).1

theorem nothingInternal : NothingInternal where
  literal _ _ h := (Expression.sameResult_literal h).neverInternal
  resolve env name := (Environment.Same.resolve (.refl env) name).neverInternal
  declare env space key v :=
    (Environment.Same.declare (.refl env) (.refl v) space key).neverInternal
  combine l op r env := (Value.Same.combine (.refl env) (.refl l) (.refl r) op
    (Value.combinesAlike_refl op l r)).neverInternal
  compare l op r := (Value.Same.compare (.refl l) (.refl r) op).neverInternal
  signed op v := (Value.Same.signed (.refl v) op).neverInternal
  convert v target env := (Value.Same.convert (.refl env) (.refl v) target
    (Value.convertsAlike_refl _ v)).neverInternal
  portion fraction base := (Value.Same.portion (.refl fraction) (.refl base)).neverInternal
  roundValue v figures := (Value.Same.roundValue (.refl v) figures).neverInternal
  valueText := Napkin.neverInternal_valueText
  convertUnit a source target := (Decimal.ConvertsAlike.refl source target a).neverInternal
  toBaseUnit a unit := (Decimal.BasesAlike.refl unit a).neverInternal
  makeRate amount per := (Rate.sameResult_make (.intro (.refl amount.value)) per).neverInternal
  apply limits word f a := (Function.sameResult_apply limits word (Arguments.same_refl _ a)
    (f.appliesAlike_refl a)).neverInternal
  value := Expression.neverInternal_value
  batch := Expression.neverInternal_batch

end Reckoner
