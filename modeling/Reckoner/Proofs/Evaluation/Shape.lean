import Reckoner.Proofs.Environment.Setting
import Reckoner.Proofs.Evaluation.Pairing
import Reckoner.Proofs.Value.Shape
/-!
Two runs of one expression whose environments differ in numbers, in units of time and in exchange
rates only. Main statement: if both runs succeed, what they give and what they leave behind differs
in the same way only.
-/
namespace Reckoner

/-- Two environments bind the same names, to values of the same shapes. -/
def SameShapes (env env' : Environment) : Prop :=
  ∀ name, (env.get? name).map Value.shape = (env'.get? name).map Value.shape

theorem SameShapes.bind {env env' : Environment} {v w : Value} (h : SameShapes env env')
    (hvw : v.shape = w.shape) (name : String) : SameShapes (env.bind name v) (env'.bind name w) := by
  intro key
  by_cases hk : key = name
  · subst hk
    simp [hvw]
  · rw [env.get?_bind_of_ne hk, env'.get?_bind_of_ne hk]
    exact h key

namespace Pairing

/-- Two runs that both succeed give the same shapes. -/
def shapes : Pairing where
  environments := SameShapes
  meanings
    | .value => fun v w => Value.shape v = Value.shape w
    | .quantity => fun q p => Quantity.unit q = Quantity.unit p
    | .rate => fun r s => (Rate.amount r).unit = (Rate.amount s).unit
    | .word => Eq
    | _ => fun _ _ => True
  errors _ _ := True
  excusesSecond _ := True
  excusesFirst _ := True

variable {α β : Type} {V : α → β → Prop} {r : Except Error α} {s : Except Error β}

/-- Only results that are both there have to agree. -/
theorem shapes_agree (h : ∀ a b, r = .ok a → s = .ok b → V a b) : shapes.Agree V r s := by
  cases r with
  | error x => exact Or.inl (Or.inl ⟨x, rfl, trivial⟩)
  | ok a =>
    cases s with
    | error y => exact Or.inl (Or.inr ⟨y, rfl, trivial⟩)
    | ok b => exact Or.inr (.ok (h a b rfl rfl))

theorem shapes_agree_of_gives {r s : Except Error Value} {k l : Shape}
    (hr : Gives r (·.shape = k)) (hs : Gives s (·.shape = l)) (h : k = l) :
    shapes.Agree shapes.values r s := by
  apply shapes_agree
  intro v w hv hw
  show v.shape = w.shape
  rw [hr v hv, hs w hw, h]

theorem shapes_meanings_refl (p : Parameter) (a : p.Meaning) : shapes.meanings p a a := by
  cases p <;> first | rfl | trivial

theorem shapes_agree_refl (p : Parameter) (r : Except Error p.Meaning) :
    shapes.Agree (shapes.meanings p) r r := by
  apply shapes_agree
  rintro a b rfl hb
  cases hb
  exact shapes_meanings_refl p a

theorem shapes_resolve {env env' : Environment} (h : SameShapes env env') (name : String) :
    shapes.Agree shapes.values (env.resolve name) (env'.resolve name) := by
  have hname := h name
  unfold Environment.resolve
  cases hv : env.get? name with
  | some v =>
    obtain ⟨w, hw, hvw⟩ := Option.map_eq_some_iff.mp (by simpa [hv] using hname.symm)
    rw [hw]
    exact shapes_agree_of_gives (gives_ok rfl) (gives_ok rfl) hvw.symm
  | none =>
    have hw : env'.get? name = none := by simpa [hv] using hname.symm
    rw [hw]
    exact shapes_agree_refl Parameter.value _

theorem shapes_declare {env env' : Environment} {v w : Value} (h : SameShapes env env')
    (hvw : v.shape = w.shape) (space key : String) :
    shapes.Agree SameShapes (env.declare space key v) (env'.declare space key w) := by
  rw [Environment.declare_eq, Environment.declare_eq]
  apply shapes_agree
  intro env₁ env₂ h₁ h₂
  obtain ⟨s, rfl, hs⟩ := (Setting.gives_read space key v).of_map env₁ h₁
  obtain ⟨t, rfl, ht⟩ := (Setting.gives_read space key w).of_map env₂ h₂
  -- Both settings are in one space, and a rate is no name that could be looked up.
  rcases hs with ⟨hg, rfl⟩ | ⟨hx, _, _, _, _, _, rfl⟩
  · rcases ht with ⟨-, rfl⟩ | ⟨hx, -⟩
    · exact h.bind hvw _
    · exact absurd (hg.symm.trans hx) (by decide)
  · rcases ht with ⟨hg, -⟩ | ⟨-, _, _, _, _, _, rfl⟩
    · exact absurd (hg.symm.trans hx) (by decide)
    · exact h

theorem shapes_ofValue {v w : Value} (h : v.shape = w.shape) (p : Parameter) (word : String)
    (position : Nat) :
    shapes.Agree (shapes.meanings p) (p.ofValue word position v) (p.ofValue word position w) := by
  apply shapes_agree
  intro a b ha hb
  cases p with
  | value =>
    cases ha
    cases hb
    exact h
  | quantity =>
    cases v <;> cases ha
    cases w <;> cases hb
    exact Shape.quantity.inj h
  | rate =>
    cases v <;> cases ha
    cases w <;> cases hb
    exact Shape.rate.inj h
  | word => cases ha
  | _ => trivial

theorem shape_eq_of_arguments {f : Function} {a b : Arguments f.slots} (h : shapes.arguments f.slots a b) :
    f.shape a = f.shape b := by
  have hmap : ∀ {vs ws : List Value}, List.Forall₂ shapes.values vs ws →
      vs.map Value.shape = ws.map Value.shape := by
    intro vs ws hvw
    induction hvw with
    | nil => rfl
    | cons hd _ ih => exact congrArg₂ List.cons hd ih
  cases f with
  | capacityAt => exact congrArg (fun unit => Shape.quantity (Text.trim unit)) h.2.2.1
  | accumulate => exact congrArg Shape.quantity h.1
  | convertRate => exact congrArg Shape.rate h.1
  | compress => exact h.1
  | napkin => exact h.1
  | average => exact congrArg Shape.aggregate (hmap h.1)
  | sum => exact congrArg Shape.aggregate (hmap h.1)
  | least => exact congrArg Shape.aggregate (hmap h.1)
  | greatest => exact congrArg Shape.aggregate (hmap h.1)
  | abs => exact h.1
  | floor => exact h.1
  | ceil => exact h.1
  | round => exact h.1
  | _ => rfl

theorem respects_shapes (limits : Limits) :
    shapes.Respects limits limits fun _ => True where
  nested h := related_nested rfl (fun _ => trivial) h
  error _ := trivial
  literal _ := shapes_agree_refl (Parameter.value) _
  resolve _ h := shapes_resolve h _
  bind _ h hvw := h.bind hvw _
  declare _ h hvw := shapes_declare h hvw _ _
  combine op _ hl hr :=
    shapes_agree_of_gives (Value.gives_combine _ op _ _) (Value.gives_combine _ op _ _)
      (congrArg₂ (Shape.combine op) hl hr)
  compare op _ _ :=
    shapes_agree_of_gives (Value.gives_compare _ op _) (Value.gives_compare _ op _) rfl
  signed op h := shapes_agree_of_gives (Value.gives_signed op _) (Value.gives_signed op _) h
  convert target _ hvw :=
    shapes_agree_of_gives (Value.gives_convert _ target _) (Value.gives_convert _ target _)
      (congrArg (Shape.convert (Text.trim target)) hvw)
  portion _ hr := shapes_agree_of_gives (Value.gives_portion _ _) (Value.gives_portion _ _) hr
  napkin _ h := shapes_agree_of_gives (Value.gives_napkin _ _) (Value.gives_napkin _ _) h
  taken _ := shapes_agree_refl _ _
  ofValue p word position h := shapes_ofValue h p word position
  apply word h :=
    shapes_agree_of_gives (Function.gives_apply _ word _ _) (Function.gives_apply _ word _ _)
      (shape_eq_of_arguments h)

end Pairing

namespace Expression

/-- Whatever the numbers, the units of time and the exchange rates are: two runs that succeed give
values of one shape, and leave environments that again bind the same names to values of the same
shapes. -/
theorem shape_value_eq {limits : Limits} {e : Expression} {env env' : Environment} {v v' : Value}
    (henv : SameShapes env env') (hv : (value limits e env).1 = .ok v)
    (hv' : (value limits e env').1 = .ok v') :
    v.shape = v'.shape ∧ SameShapes (value limits e env).2 (value limits e env').2 := by
  have hends := (Pairing.respects_shapes limits).evaluate e (fun _ _ => trivial) 0
    (.start env) (.start env') ⟨rfl, rfl, henv⟩
  -- Neither run has failed, so neither is excused.
  rcases hends with (⟨x, hx, -⟩ | ⟨x, hx, -⟩) | ⟨halike, hcontexts⟩
  · cases hx.symm.trans hv
  · cases hx.symm.trans hv'
  · refine ⟨?_, hcontexts.environments⟩
    rw [show (Evaluation.outcome (evaluate limits e) (.start env)).1 = .ok v from hv,
      show (Evaluation.outcome (evaluate limits e) (.start env')).1 = .ok v' from hv'] at halike
    cases halike with
    | ok hvv => exact hvv

/-- Downtime counted in seconds for one availability, and in hours for another. -/
theorem shape_downtime_eq :
    let e : Expression := .assignment "b" (.call "downtime" [.identifier "a", .identifier "day"])
    let env : Environment := Environment.initial.bind "a" (.number (.ofLiteral 9999 4))
    let env' : Environment := Environment.initial.bind "a" (.number .zero)
    SameShapes env env' ∧
      (value .standard e env).1 = .ok (.duration ⟨.ofLiteral 864 2, .second⟩) ∧
      (value .standard e env').1 = .ok (.duration ⟨.ofLiteral 24 0, .hour⟩) ∧
      SameShapes (value .standard e env).2 (value .standard e env').2 := by
  intro e env env'
  have hinitial : SameShapes Environment.initial Environment.initial := fun _ => rfl
  have henv : SameShapes env env' := by
    apply hinitial.bind
    rfl
  have hv : (value .standard e env).1 = .ok (.duration ⟨.ofLiteral 864 2, .second⟩) :=
    eq_ok_of_toOption (by decide +kernel)
  have hv' : (value .standard e env').1 = .ok (.duration ⟨.ofLiteral 24 0, .hour⟩) :=
    eq_ok_of_toOption (by decide +kernel)
  exact ⟨henv, hv, hv', (shape_value_eq henv hv hv').2⟩

end Expression
end Reckoner
