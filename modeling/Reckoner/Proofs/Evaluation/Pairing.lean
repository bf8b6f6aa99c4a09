import Mathlib.Data.List.Forall2
import Reckoner.Proofs.Alike
import Reckoner.Proofs.Evaluation.Outcome
import Reckoner.Proofs.Evaluation.Reached
/-!
Two runs of one expression side by side. A pairing says what is to be kept between the environments,
the values and the errors of the two. Main statement: a pairing that every single operation respects
is respected by the evaluation of every expression.
-/
namespace Reckoner

/-- What two runs have in common. -/
structure Pairing where
  environments : Environment → Environment → Prop
  /-- What is kept between two readings of an argument. -/
  meanings : (p : Parameter) → p.Meaning → p.Meaning → Prop
  errors : Error → Error → Prop
  /-- The errors of the first run after which nothing is asked of the second. -/
  excusesSecond : Error → Prop
  /-- The errors of the second run after which nothing is asked of the first. -/
  excusesFirst : Error → Prop

namespace Pairing

variable {P : Pairing} {α β γ δ : Type} {V : α → β → Prop} {W : γ → δ → Prop}

/-- What is kept between two values. -/
def values (P : Pairing) : Value → Value → Prop := P.meanings .value

/-- What is kept between two lists of arguments. -/
def arguments (P : Pairing) : (slots : List Slot) → Arguments slots → Arguments slots → Prop
  | [], _, _ => True
  | .one p :: slots, a, b => P.meanings p a.1 b.1 ∧ P.arguments slots a.2 b.2
  | .optional p :: slots, a, b => Option.Rel (P.meanings p) a.1 b.1 ∧ P.arguments slots a.2 b.2
  | .values :: slots, a, b => List.Forall₂ P.values a.1 b.1 ∧ P.arguments slots a.2 b.2

/-- One of the runs has failed in a way that frees the other. -/
def Excused (P : Pairing) (r : Except Error α) (s : Except Error β) : Prop :=
  (∃ x, r = .error x ∧ P.excusesSecond x) ∨ ∃ y, s = .error y ∧ P.excusesFirst y

def Agree (P : Pairing) (V : α → β → Prop) (r : Except Error α) (s : Except Error β) : Prop :=
  P.Excused r s ∨ Alike P.errors V r s

/-- Two contexts at one depth, with environments that are related. -/
structure Contexts (P : Pairing) (depth : Nat) (c d : Context) : Prop where
  first_depth : c.depth = depth
  second_depth : d.depth = depth
  environments : P.environments c.environment d.environment

/-- Two runs end alike, in contexts of this depth. -/
def Ends (P : Pairing) (V : α → β → Prop) (depth : Nat) (o : Except Error α × Context)
    (u : Except Error β × Context) : Prop :=
  P.Excused o.1 u.1 ∨ (Alike P.errors V o.1 u.1 ∧ P.Contexts depth o.2 u.2)

/-- Two actions end alike wherever they start alike, and where they are not excused they give the
depth back. -/
def Related (P : Pairing) (V : α → β → Prop) (x : Evaluation α) (y : Evaluation β) : Prop :=
  ∀ depth c d, P.Contexts depth c d → P.Ends V depth (x.outcome c) (y.outcome d)

theorem related_result {r : Except Error α} {s : Except Error β} (h : P.Agree V r s) :
    P.Related V (.result r) (.result s) := by
  intro depth c d hc
  exact h.imp_right fun ha => ⟨ha, hc⟩

theorem related_pure {a : α} {b : β} (h : V a b) :
    P.Related V (pure a : Evaluation α) (pure b : Evaluation β) :=
  related_result (Or.inr (.ok h))

theorem related_bind {x : Evaluation α} {y : Evaluation β} {f : α → Evaluation γ}
    {g : β → Evaluation δ} (h : P.Related V x y) (hf : ∀ a b, V a b → P.Related W (f a) (g b)) :
    P.Related W (x >>= f) (y >>= g) := by
  intro depth c d hc
  have hxy := h depth c d hc
  rcases hx : x.outcome c with ⟨r, c'⟩
  rcases hy : y.outcome d with ⟨s, d'⟩
  rw [hx, hy] at hxy
  rcases hxy with (⟨e, rfl, he⟩ | ⟨e, rfl, he⟩) | ⟨hr, hc'⟩
  · -- The first run has failed for good, whatever the second one still does.
    rw [Evaluation.outcome_bind_of_error hx]
    exact Or.inl (Or.inl ⟨e, rfl, he⟩)
  · rw [Evaluation.outcome_bind_of_error hy]
    exact Or.inl (Or.inr ⟨e, rfl, he⟩)
  · cases hr with
    | ok hab =>
      rw [Evaluation.outcome_bind_of_ok hx, Evaluation.outcome_bind_of_ok hy]
      exact hf _ _ hab depth c' d' hc'
    | error he =>
      rw [Evaluation.outcome_bind_of_error hx, Evaluation.outcome_bind_of_error hy]
      exact Or.inr ⟨.error he, hc'⟩

theorem related_environment :
    P.Related P.environments Evaluation.environment Evaluation.environment := by
  intro depth c d hc
  exact Or.inr ⟨.ok hc.environments, hc⟩

theorem related_setEnvironment {env env' : Environment} (h : P.environments env env') :
    P.Related (fun _ _ => True) (Evaluation.setEnvironment env)
      (Evaluation.setEnvironment env') := by
  intro depth c d hc
  exact Or.inr ⟨.ok trivial, ⟨hc.first_depth, hc.second_depth, h⟩⟩

/-- Under one limit on the depth, going one level deeper keeps two actions related. -/
theorem related_nested {limits limits' : Limits} (hlimits : limits.depth = limits'.depth)
    (herr : ∀ e, P.errors e e) {x : Evaluation α} {y : Evaluation β} (h : P.Related V x y) :
    P.Related V (.nested limits x) (.nested limits' y) := by
  intro depth c d hc
  have hdepth : c.depth = d.depth := hc.first_depth.trans hc.second_depth.symm
  -- Both runs are at one depth, so the limit stops both or neither.
  rcases Nat.lt_or_ge limits.depth (c.depth + 1) with hlt | hle
  · rw [Evaluation.outcome_nested_of_lt hlt, Evaluation.outcome_nested_of_lt (by omega),
      ← hlimits, ← hdepth]
    exact Or.inr ⟨.error (herr _), hc⟩
  · have hxy := h (depth + 1) c.deeper d.deeper
      ⟨by simp [hc.first_depth], by simp [hc.second_depth], hc.environments⟩
    rcases hx : x.outcome c.deeper with ⟨r, c'⟩
    rcases hy : y.outcome d.deeper with ⟨s, d'⟩
    rw [hx, hy] at hxy
    rw [Evaluation.outcome_nested_of_le hle hx, Evaluation.outcome_nested_of_le (by omega) hy]
    rcases hxy with he | ⟨hr, hc'⟩
    · exact Or.inl he
    · have hfirst : c'.depth = depth + 1 := hc'.first_depth
      have hsecond : d'.depth = depth + 1 := hc'.second_depth
      exact Or.inr ⟨hr, ⟨by simp [hfirst], by simp [hsecond], hc'.environments⟩⟩

/-- Every operation of two evaluations, under limits of their own, keeps what a pairing asks for.
Names are looked up and bound and settings are applied only at expressions that are `allowed`. -/
structure Respects (P : Pairing) (limits limits' : Limits) (allowed : Expression → Prop) : Prop where
  nested : ∀ {x y : Evaluation Value}, P.Related P.values x y →
    P.Related P.values (.nested limits x) (.nested limits' y)
  error : ∀ e, P.errors e e
  literal : ∀ {e : Expression} {r}, e.literal? = some r → P.Agree P.values r r
  resolve : ∀ {env env' name}, allowed (.identifier name) → P.environments env env' →
    P.Agree P.values (env.resolve name) (env'.resolve name)
  bind : ∀ {env env' name e v w}, allowed (.assignment name e) → P.environments env env' →
    P.values v w → P.environments (env.bind name v) (env'.bind name w)
  declare : ∀ {env env' space key e v w}, allowed (.declaration space key e) →
    P.environments env env' → P.values v w →
    P.Agree P.environments (env.declare space key v) (env'.declare space key w)
  combine : ∀ {env env' l l' r r'} (op : ArithmeticOperator), P.environments env env' →
    P.values l l' → P.values r r' → P.Agree P.values (l.combine op r env) (l'.combine op r' env')
  compare : ∀ {l l' r r'} (op : ComparisonOperator), P.values l l' → P.values r r' →
    P.Agree P.values ((l.compare op r).map .boolean) ((l'.compare op r').map .boolean)
  signed : ∀ {v w} (op : UnaryOperator), P.values v w → P.Agree P.values (v.signed op) (w.signed op)
  convert : ∀ {env env' v w} (target : String), P.environments env env' → P.values v w →
    P.Agree P.values (v.convert target env) (w.convert target env')
  portion : ∀ {l l' r r'}, P.values l l' → P.values r r' →
    P.Agree P.values (Value.portion l r) (Value.portion l' r')
  napkin : ∀ {v w} (figures : Option Nat), P.values v w →
    P.Agree P.values (Napkin.roundValue v (figures.getD limits.figures))
      (Napkin.roundValue w (figures.getD limits'.figures))
  taken : ∀ {p : Parameter} {word position e r}, p.taken? word position e = some r →
    P.Agree (P.meanings p) r r
  ofValue : ∀ {v w} (p : Parameter) (word : String) (position : Nat), P.values v w →
    P.Agree (P.meanings p) (p.ofValue word position v) (p.ofValue word position w)
  apply : ∀ {f : Function} {a b} (word : String), P.arguments f.slots a b →
    P.Agree P.values (f.apply limits word a) (f.apply limits' word b)

namespace Respects

variable {limits limits' : Limits} {allowed : Expression → Prop}

theorem refuse (h : P.Respects limits limits' allowed) (e : Error) :
    P.Related V (.result (.error e)) (.result (.error e)) :=
  related_result (Or.inr (.error (h.error e)))

theorem read (h : P.Respects limits limits' allowed) (word : String) (position : Nat)
    (e : Expression) (p : Parameter) {x y : Evaluation Value}
    (hxy : (p.taken? word position e).isSome = false → P.Related P.values x y) :
    P.Related (P.meanings p) (p.read word position e x) (p.read word position e y) := by
  rw [Parameter.read_eq, Parameter.read_eq]
  cases ht : p.taken? word position e with
  | some r => exact related_result (h.taken ht)
  | none =>
    refine related_bind (hxy (by rw [ht]; rfl)) fun v w hvw => ?_
    exact related_result (h.ofValue p word position hvw)

theorem absent (h : P.Respects limits limits' allowed) (slots : List Slot) (e : Error) :
    P.Agree (P.arguments slots) (orError (Arguments.absent? slots) e)
      (orError (Arguments.absent? slots) e) := by
  cases ha : Arguments.absent? slots with
  | none => exact Or.inr (.error (h.error e))
  | some a =>
    refine Or.inr (.ok ?_)
    induction slots with
    | nil => trivial
    | cons s slots ih =>
      cases s with
      | one p => cases ha
      | optional p =>
        obtain ⟨as, has, rfl⟩ := Option.map_eq_some_iff.mp ha
        exact ⟨.none, ih as has⟩
      | values =>
        obtain ⟨as, has, rfl⟩ := Option.map_eq_some_iff.mp ha
        exact ⟨.nil, ih as has⟩

mutual

/-- The evaluation of an expression respects what every operation respects. -/
theorem evaluate (h : P.Respects limits limits' allowed) :
    (e : Expression) → (∀ part ∈ e.reached, allowed part) →
      P.Related P.values (e.evaluate limits) (e.evaluate limits')
  | .number text, _ => h.nested (related_result (h.literal (e := .number text) rfl))
  | .boolean text, _ => h.nested (related_result (h.literal (e := .boolean text) rfl))
  | .date text, _ => h.nested (related_result (h.literal (e := .date text) rfl))
  | .time text, _ => h.nested (related_result (h.literal (e := .time text) rfl))
  | .currency amount code, _ =>
    h.nested (related_result (h.literal (e := .currency amount code) rfl))
  | .duration amount unit, _ =>
    h.nested (related_result (h.literal (e := .duration amount unit) rfl))
  | .quantity amount unit, _ =>
    h.nested (related_result (h.literal (e := .quantity amount unit) rfl))
  | .rate amount unit per, _ =>
    h.nested (related_result (h.literal (e := .rate amount unit per) rfl))
  | .identifier name, ha => by
    rw [Expression.evaluate, Expression.evaluate]
    refine h.nested (related_bind related_environment fun env env' henv => ?_)
    exact related_result (h.resolve (ha _ (Expression.self_mem_reached _)) henv)
  | .assignment name value, ha => by
    rw [Expression.evaluate, Expression.evaluate]
    have hv := evaluate h value fun part hp => ha part (by simp [Expression.reached, hp])
    refine h.nested (related_bind hv fun v w hvw => ?_)
    refine related_bind related_environment fun env env' henv => ?_
    refine related_bind (related_setEnvironment ?_) fun _ _ _ => related_pure hvw
    exact h.bind (ha _ (Expression.self_mem_reached _)) henv hvw
  | .arithmetic left op right, ha => by
    rw [Expression.evaluate, Expression.evaluate]
    have hl := evaluate h left fun part hp => ha part (by simp [Expression.reached, hp])
    have hr := evaluate h right fun part hp => ha part (by simp [Expression.reached, hp])
    refine h.nested (related_bind hl fun l l' hll => related_bind hr fun r r' hrr => ?_)
    refine related_bind related_environment fun env env' henv => ?_
    exact related_result (h.combine op henv hll hrr)
  | .comparison left op right, ha => by
    rw [Expression.evaluate, Expression.evaluate]
    have hl := evaluate h left fun part hp => ha part (by simp [Expression.reached, hp])
    have hr := evaluate h right fun part hp => ha part (by simp [Expression.reached, hp])
    refine h.nested (related_bind hl fun l l' hll => related_bind hr fun r r' hrr => ?_)
    exact related_result (h.compare op hll hrr)
  | .unary op operand, ha => by
    rw [Expression.evaluate, Expression.evaluate]
    have hv := evaluate h operand fun part hp => ha part (by simp [Expression.reached, hp])
    exact h.nested (related_bind hv fun v w hvw => related_result (h.signed op hvw))
  | .conversion value target, ha => by
    rw [Expression.evaluate, Expression.evaluate]
    have hv := evaluate h value fun part hp => ha part (by simp [Expression.reached, hp])
    refine h.nested (related_bind hv fun v w hvw => ?_)
    refine related_bind related_environment fun env env' henv => ?_
    exact related_result (h.convert target henv hvw)
  | .percentage fraction base, ha => by
    rw [Expression.evaluate, Expression.evaluate]
    have hl := evaluate h fraction fun part hp => ha part (by simp [Expression.reached, hp])
    have hr := evaluate h base fun part hp => ha part (by simp [Expression.reached, hp])
    refine h.nested (related_bind hl fun l l' hll => related_bind hr fun r r' hrr => ?_)
    exact related_result (h.portion hll hrr)
  | .napkin value figures, ha => by
    rw [Expression.evaluate, Expression.evaluate]
    have hv := evaluate h value fun part hp => ha part (by simp [Expression.reached, hp])
    exact h.nested (related_bind hv fun v w hvw => related_result (h.napkin figures hvw))
  | .call function arguments, ha => by
    rw [Expression.evaluate, Expression.evaluate]
    apply h.nested
    dsimp only
    -- The word and the number of arguments are the same in both runs: what is refused is refused
    -- twice, and its arguments are never come to.
    cases hf : Function.named? (Text.keyword function) with
    | none => exact h.refuse _
    | some f =>
      dsimp only
      split
      · next hn =>
        refine related_bind (readArguments h _ f f.slots 1 arguments f.fits_slots fun part hp => ?_)
          fun a b hab => related_result (h.apply _ hab)
        exact ha part (by simp [Expression.reached, hf, hn, hp])
      · exact h.refuse _
  | .declaration space key value, ha => by
    rw [Expression.evaluate, Expression.evaluate]
    have hv := evaluate h value fun part hp => ha part (by simp [Expression.reached, hp])
    refine h.nested (related_bind hv fun v w hvw => ?_)
    refine related_bind related_environment fun env env' henv => ?_
    have hd := h.declare (ha _ (Expression.self_mem_reached _)) henv hvw
    refine related_bind (related_result hd) fun env env' henv => ?_
    exact related_bind (related_setEnvironment henv) fun _ _ _ => related_pure hvw

theorem readArguments (h : P.Respects limits limits' allowed) (word : String) (f : Function) :
    (slots : List Slot) → (position : Nat) → (es : List Expression) → f.Fits slots position →
      (∀ part ∈ Expression.reachedFrom f position es, allowed part) →
      P.Related (P.arguments slots) (Expression.readArguments limits word slots position es)
        (Expression.readArguments limits' word slots position es)
  | slots, position, [], _, _ => by
    rw [Expression.readArguments, Expression.readArguments]
    exact related_result (h.absent slots _)
  | [], position, _ :: _, _, _ => related_result (Or.inr (.ok trivial))
  | .one p :: slots, position, e :: rest, hfits, ha => by
    rw [Expression.readArguments, Expression.readArguments]
    -- An argument that is evaluated is no word that the function takes, so its parts are allowed.
    have he : (p.taken? word position e).isSome = false →
        P.Related P.values (e.evaluate limits) (e.evaluate limits') := fun ht =>
      evaluate h e fun part hp =>
        ha part (Expression.mem_reachedFrom_head (Function.not_takes_of_not_taken hfits.1 ht) hp)
    have hrest := readArguments h word f slots (position + 1) rest hfits.2 fun part hp =>
      ha part (Expression.mem_reachedFrom_tail hp)
    refine related_bind (h.read word position e p he) fun a b hab => ?_
    exact related_bind hrest fun as bs habs => related_pure ⟨hab, habs⟩
  | .optional p :: slots, position, e :: rest, hfits, ha => by
    rw [Expression.readArguments, Expression.readArguments]
    have he : (p.taken? word position e).isSome = false →
        P.Related P.values (e.evaluate limits) (e.evaluate limits') := fun ht =>
      evaluate h e fun part hp =>
        ha part (Expression.mem_reachedFrom_head (Function.not_takes_of_not_taken hfits.1 ht) hp)
    have hrest := readArguments h word f slots (position + 1) rest hfits.2 fun part hp =>
      ha part (Expression.mem_reachedFrom_tail hp)
    refine related_bind (h.read word position e p he) fun a b hab => ?_
    exact related_bind hrest fun as bs habs => related_pure ⟨.some hab, habs⟩
  | .values :: slots, position, e :: rest, hfits, ha => by
    rw [Expression.readArguments, Expression.readArguments]
    have he := evaluate h e fun part hp =>
      ha part (Expression.mem_reachedFrom_head (hfits position e) hp)
    have hrest := readArguments h word f (.values :: slots) (position + 1) rest hfits
      fun part hp => ha part (Expression.mem_reachedFrom_tail hp)
    refine related_bind he fun v w hvw => ?_
    exact related_bind hrest fun as bs habs => related_pure ⟨.cons hvw habs.1, habs.2⟩

end

end Respects
end Pairing
end Reckoner
