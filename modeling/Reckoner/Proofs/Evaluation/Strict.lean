import Reckoner.Proofs.Evaluation.Pairing
/-!
Two runs that give the same value or the same error. Main statements: evaluation gives the depth
back however it ends, and keeps what every assignment and every setting of the expression keeps.
-/
namespace Reckoner

section Exchange

variable {env env' : Environment}

theorem Money.combine_congr (h : ∀ s t, env.exchangeRate? s t = env'.exchangeRate? s t)
    (l : Money) (op : ArithmeticOperator) (r : Money) :
    l.combine op r env = l.combine op r env' := by
  simp only [combine, inCurrencyOf, h]

theorem Money.exchange_congr (h : ∀ s t, env.exchangeRate? s t = env'.exchangeRate? s t)
    (m : Money) (target : String) : m.exchange target env = m.exchange target env' := by
  simp only [exchange, h]

theorem Value.combine_congr (h : ∀ s t, env.exchangeRate? s t = env'.exchangeRate? s t)
    (l : Value) (op : ArithmeticOperator) (r : Value) :
    l.combine op r env = l.combine op r env' := by
  cases l with
  | money l =>
    cases r with
    | money r => exact l.combine_congr h op r
    | _ => rfl
  | _ => cases r <;> rfl

theorem Value.convert_congr (h : ∀ s t, env.exchangeRate? s t = env'.exchangeRate? s t)
    (v : Value) (target : String) : v.convert target env = v.convert target env' := by
  unfold convert
  cases v with
  | money m => exact congrArg (Except.map money) (m.exchange_congr h _)
  | _ => rfl

end Exchange

namespace Pairing

variable {R : Environment → Environment → Prop} {α β : Type}

/-- The two runs give the same, and keep `R` between their environments. -/
def strict (R : Environment → Environment → Prop) : Pairing where
  environments := R
  meanings _ := Eq
  errors := Eq
  excusesSecond _ := False
  excusesFirst _ := False

theorem agree_refl (r : Except Error α) : (strict R).Agree Eq r r := by
  cases r with
  | ok a => exact Or.inr (.ok rfl)
  | error e => exact Or.inr (.error rfl)

theorem eq_of_arguments (slots : List Slot) (a b : Arguments slots)
    (h : (strict R).arguments slots a b) : a = b := by
  induction slots with
  | nil => rfl
  | cons s slots ih =>
    cases s with
    | one p => exact Prod.ext h.1 (ih _ _ h.2)
    | optional p =>
      refine Prod.ext ?_ (ih _ _ h.2)
      obtain ⟨x, as⟩ := a
      obtain ⟨y, bs⟩ := b
      cases h.1 with
      | some hxy => exact congrArg some hxy
      | none => rfl
    | values =>
      exact Prod.ext (List.forall₂_eq_eq_eq ▸ h.1) (ih _ _ h.2)

theorem respects_strict {limits : Limits} {allowed : Expression → Prop}
    (hexchange : ∀ {env env'}, R env env' →
      ∀ s t, env.exchangeRate? s t = env'.exchangeRate? s t)
    (hresolve : ∀ {env env' name}, allowed (.identifier name) → R env env' →
      env.resolve name = env'.resolve name)
    (hbind : ∀ {env env' name e} (v : Value), allowed (.assignment name e) → R env env' →
      R (env.bind name v) (env'.bind name v))
    (hdeclare : ∀ {env env' space key e} (v : Value), allowed (.declaration space key e) →
      R env env' → (strict R).Agree R (env.declare space key v) (env'.declare space key v)) :
    (strict R).Respects limits limits allowed where
  nested h := related_nested rfl (fun _ => rfl) h
  error _ := rfl
  literal _ := agree_refl _
  resolve ha h := by
    rw [hresolve ha h]
    exact agree_refl _
  bind ha h hv := by
    cases hv
    exact hbind _ ha h
  declare ha h hv := by
    cases hv
    exact hdeclare _ ha h
  combine op h hl hr := by
    cases hl
    cases hr
    rw [Value.combine_congr (hexchange h)]
    exact agree_refl _
  compare op hl hr := by
    cases hl
    cases hr
    exact agree_refl _
  signed op hv := by
    cases hv
    exact agree_refl _
  convert target h hv := by
    cases hv
    rw [Value.convert_congr (hexchange h)]
    exact agree_refl _
  portion hl hr := by
    cases hl
    cases hr
    exact agree_refl _
  napkin figures hv := by
    cases hv
    exact agree_refl _
  taken _ := agree_refl _
  ofValue p word position hv := by
    cases hv
    exact agree_refl _
  apply word h := by
    rw [eq_of_arguments _ _ _ h]
    exact agree_refl _

/-- Two runs that end alike give the same, and both give the depth back. -/
theorem Ends.same {depth : Nat} {o u : Except Error α × Context}
    (h : (strict R).Ends Eq depth o u) : o.1 = u.1 ∧ (strict R).Contexts depth o.2 u.2 := by
  rcases h with (⟨_, -, he⟩ | ⟨_, -, he⟩) | ⟨hr, hc⟩
  · exact he.elim
  · exact he.elim
  · refine ⟨?_, hc⟩
    generalize o.1 = r at hr
    generalize u.1 = s at hr
    cases hr with
    | ok hab => exact congrArg Except.ok hab
    | error he => exact congrArg Except.error he

end Pairing

namespace Expression

open Evaluation (outcome)

variable {limits : Limits} {e : Expression}

/-- An evaluation keeps what every assignment and every setting that it comes to keeps. The run is
paired with itself. -/
theorem evaluate_keeps {K : Environment → Prop}
    (hbind : ∀ {env name value} (v : Value), assignment name value ∈ e.reached → K env →
      K (env.bind name v))
    (hdeclare : ∀ {env env' space key value} {v : Value}, declaration space key value ∈ e.reached →
      K env → env.declare space key v = .ok env' → K env')
    {c : Context} (hc : K c.environment) :
    (outcome (evaluate limits e) c).2.depth = c.depth ∧
      K (outcome (evaluate limits e) c).2.environment := by
  let R (env env' : Environment) : Prop := env = env' ∧ K env
  have hrespects : (Pairing.strict R).Respects limits limits (· ∈ e.reached) := by
    apply Pairing.respects_strict
    · rintro env _ ⟨rfl, -⟩ s t
      rfl
    · rintro env _ name - ⟨rfl, -⟩
      rfl
    · rintro env _ name value v ha ⟨rfl, hK⟩
      exact ⟨rfl, hbind v ha hK⟩
    · rintro env _ space key value v ha ⟨rfl, hK⟩
      cases hd : env.declare space key v with
      | ok env' => exact Or.inr (.ok ⟨rfl, hdeclare ha hK hd⟩)
      | error x => exact Or.inr (.error rfl)
  have hends := (hrespects.evaluate e (fun _ h => h) c.depth c c ⟨rfl, rfl, rfl, hc⟩).same
  exact ⟨hends.2.first_depth, hends.2.environments.2⟩

theorem evaluate_depth (limits : Limits) (e : Expression) (c : Context) :
    (outcome (evaluate limits e) c).2.depth = c.depth :=
  (evaluate_keeps (K := fun _ => True) (fun _ _ _ => trivial) (fun _ _ _ => trivial) trivial).1

end Expression
end Reckoner
