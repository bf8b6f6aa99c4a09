import Reckoner.Proofs.Evaluation.Congruence
import Reckoner.Proofs.Evaluation.Strict
/-!
The evaluation of an expression in two parts: its operands are read into places one after another,
and what is left to do is a task on what was read. Main statements: this is the evaluation, and a
task on equal operands in equal environments leaves equal environments behind.
-/
namespace Reckoner

namespace Slot

variable {slots : List Slot}

/-- What the next argument is read as. -/
def parameter : Slot → Parameter
  | one p => p
  | optional p => p
  | values => .value

/-- The places for the arguments after the next one, with `slots` behind this place. -/
def rest (slots : List Slot) : Slot → List Slot
  | one _ => slots
  | optional _ => slots
  | values => values :: slots

/-- Puts the next argument in front of those after it. -/
def put : (s : Slot) → s.parameter.Meaning → Arguments (s.rest slots) → Arguments (s :: slots)
  | one _, a, as => (a, as)
  | optional _, a, as => (some a, as)
  | values, v, as => (v :: as.1, as.2)

end Slot

/-- What is left to do once the operands of an expression are evaluated. -/
inductive Task where
  /-- There is nothing to do: a literal has been read, or a call is refused. -/
  | give (r : Except Error Value) (h : SameResult Value.Same r r)
  | resolve (name : String)
  | assign (name : String)
  | combine (op : ArithmeticOperator)
  | compare (op : ComparisonOperator)
  | signed (op : UnaryOperator)
  | convert (target : String)
  | portion
  | napkin (figures : Option Nat)
  /-- Applies a function that was called by `word`. -/
  | apply (f : Function) (word : String)
  | declare (space key : String)

namespace Task

/-- The places of the operands. -/
def slots : Task → List Slot
  | give _ _ => []
  | resolve _ => []
  | combine _ => [.one .value, .one .value]
  | compare _ => [.one .value, .one .value]
  | portion => [.one .value, .one .value]
  | apply f _ => f.slots
  | _ => [.one .value]

/-- The word that errors about the operands name. -/
def word : Task → String
  | apply _ word => word
  | _ => ""

/-- The value and the environment afterwards. -/
def perform (limits : Limits) : (t : Task) → Arguments t.slots → Environment →
    Except Error (Value × Environment)
  | give r _, (), env => r.map (·, env)
  | resolve name, (), env => (env.resolve name).map (·, env)
  | assign name, (v, ()), env => .ok (v, env.bind name v)
  | combine op, (l, r, ()), env => (l.combine op r env).map (·, env)
  | compare op, (l, r, ()), env => ((l.compare op r).map Value.boolean).map (·, env)
  | signed op, (v, ()), env => (v.signed op).map (·, env)
  | convert target, (v, ()), env => (v.convert target env).map (·, env)
  | portion, (p, b, ()), env => (Value.portion p b).map (·, env)
  | napkin figures, (v, ()), env =>
    (Napkin.roundValue v (figures.getD limits.figures)).map (·, env)
  | apply f word, a, env => (f.apply limits word a).map (·, env)
  | declare space key, (v, ()), env => (env.declare space key v).map (v, ·)

open Evaluation (environment setEnvironment result)

/-- Performs a task in the environment as it is now. -/
def act (limits : Limits) (t : Task) (a : Arguments t.slots) : Evaluation Value := do
  let env ← environment
  let (v, env') ← result (t.perform limits a env)
  setEnvironment env'
  pure v

theorem outcome_act {limits : Limits} (t : Task) (a : Arguments t.slots) (c : Context) :
    Evaluation.outcome (t.act limits a) c =
      match t.perform limits a c.environment with
      | .ok (v, env) => (.ok v, { c with environment := env })
      | .error x => (.error x, c) := by
  have hact : Evaluation.outcome (t.act limits a) c =
      Evaluation.outcome (result (t.perform limits a c.environment) >>= fun p =>
        setEnvironment p.2 >>= fun _ => pure p.1) c := rfl
  rw [hact]
  cases t.perform limits a c.environment <;> rfl

/-- A task that only gives a value leaves the environment as it is. -/
theorem act_eq_of_keeps {limits : Limits} {t : Task} {a : Arguments t.slots}
    {f : Environment → Except Error Value}
    (h : ∀ env, t.perform limits a env = (f env).map (·, env)) :
    t.act limits a = environment >>= fun env => result (f env) := by
  refine ExceptT.ext (funext fun c => ?_)
  show Evaluation.outcome (t.act limits a) c = (f c.environment, c)
  rw [outcome_act, h]
  cases f c.environment <;> rfl

section Congruence

/-- A task does not tell two lists of operands apart. -/
def ActsAlike : (t : Task) → (a b : Arguments t.slots) → Prop
  | combine op, (l, r, ()), (l', r', ()) => Value.CombinesAlike op l r l' r'
  | convert target, (v, ()), (w, ()) => Value.ConvertsAlike (Text.trim target) v w
  | apply f _, a, b => f.AppliesAlike a b
  | _, _, _ => True

theorem actsAlike_refl (t : Task) (a : Arguments t.slots) : t.ActsAlike a a := by
  cases t with
  | combine op => exact Value.combinesAlike_refl op _ _
  | convert target => exact Value.convertsAlike_refl _ _
  | apply f word => exact f.appliesAlike_refl a
  | _ => exact True.intro

/-- Equal values beside equal environments. -/
def SameOutcome (p q : Value × Environment) : Prop := p.1.Same q.1 ∧ p.2.Same q.2

theorem sameResult_perform {env env' : Environment} (limits : Limits) {t : Task}
    {a b : Arguments t.slots} (henv : env.Same env') (hab : Arguments.Same t.slots a b)
    (ht : t.ActsAlike a b) :
    SameResult SameOutcome (t.perform limits a env) (t.perform limits b env') := by
  have keeps {r s : Except Error Value} (h : SameResult Value.Same r s) :
      SameResult SameOutcome (r.map (·, env)) (s.map (·, env')) :=
    h.map fun _ _ hv => ⟨hv, henv⟩
  cases t with
  | give r h => exact keeps h
  | resolve name => exact keeps (henv.resolve name)
  | assign name => exact .ok ⟨hab.1, henv.bind hab.1 name⟩
  | combine op =>
    have hcombined := Value.Same.combine henv hab.1 hab.2.1 op ht
    exact keeps hcombined
  | compare op =>
    exact keeps (Value.sameResult_map (Value.Same.compare hab.1 hab.2.1 op) Value.boolean)
  | signed op => exact keeps (Value.Same.signed hab.1 op)
  | convert target =>
    have hconverted := Value.Same.convert henv hab.1 target ht
    exact keeps hconverted
  | portion => exact keeps (Value.Same.portion hab.1 hab.2.1)
  | napkin figures => exact keeps (Value.Same.roundValue hab.1 _)
  | apply f word => exact keeps (Function.sameResult_apply limits word hab ht)
  | declare space key =>
    have hdeclared := henv.declare hab.1 space key
    show SameResult SameOutcome ((env.declare space key a.1).map (a.1, ·))
      ((env'.declare space key b.1).map (b.1, ·))
    exact hdeclared.map fun _ _ he => ⟨hab.1, he⟩

/-- A task fails only with errors that tell about what it works on. -/
theorem isOrdinary_of_perform {limits : Limits} {t : Task} {a : Arguments t.slots}
    {env : Environment} {x : Error} (h : t.perform limits a env = .error x) :
    x.isOrdinary = true := by
  have hself := sameResult_perform limits (.refl env) (Arguments.same_refl _ a) (t.actsAlike_refl a)
  exact hself.isOrdinary h

end Congruence

end Task

namespace Expression

/-- The task of an expression. -/
def task : Expression → Task
  | number text => .give _ (sameResult_literal (e := number text) rfl)
  | boolean text => .give _ (sameResult_literal (e := boolean text) rfl)
  | date text => .give _ (sameResult_literal (e := date text) rfl)
  | time text => .give _ (sameResult_literal (e := time text) rfl)
  | currency amount code => .give _ (sameResult_literal (e := currency amount code) rfl)
  | duration amount unit => .give _ (sameResult_literal (e := duration amount unit) rfl)
  | quantity amount unit => .give _ (sameResult_literal (e := quantity amount unit) rfl)
  | rate amount unit per => .give _ (sameResult_literal (e := rate amount unit per) rfl)
  | identifier name => .resolve name
  | assignment name _ => .assign name
  | arithmetic _ op _ => .combine op
  | comparison _ op _ => .compare op
  | unary op _ => .signed op
  | conversion _ target => .convert target
  | percentage _ _ => .portion
  | napkin _ figures => .napkin figures
  | call function arguments =>
    let word := Text.keyword function
    match Function.named? word with
    | none => .give (.error (.unknownFunction function)) (.error ⟨rfl, rfl⟩)
    | some f =>
      if f.arity.allows arguments.length then .apply f word
      else .give (.error (.wrongArgumentCount word f.arity arguments.length)) (.error ⟨rfl, rfl⟩)
  | declaration space key _ => .declare space key

/-- The expressions whose values the task works on. A call that is refused has none. -/
def operands : Expression → List Expression
  | assignment _ value => [value]
  | arithmetic left _ right => [left, right]
  | comparison left _ right => [left, right]
  | unary _ operand => [operand]
  | conversion value _ => [value]
  | percentage fraction base => [fraction, base]
  | napkin value _ => [value]
  | call function arguments =>
    match Function.named? (Text.keyword function) with
    | none => []
    | some f => if f.arity.allows arguments.length then arguments else []
  | declaration _ _ value => [value]
  | _ => []

/-- Reads the operands of an expression. -/
def readOperands (limits : Limits) (e : Expression) : Evaluation (Arguments e.task.slots) :=
  readArguments limits e.task.word e.task.slots 1 e.operands

theorem readArguments_cons (limits : Limits) (word : String) (s : Slot) (slots : List Slot)
    (position : Nat) (e : Expression) (rest : List Expression) :
    readArguments limits word (s :: slots) position (e :: rest) = (do
      let a ← s.parameter.read word position e (evaluate limits e)
      let as ← readArguments limits word (s.rest slots) (position + 1) rest
      pure (s.put a as)) := by
  cases s <;> rw [readArguments] <;> rfl

section Operands

variable {α : Type} (limits : Limits) (word : String)

theorem readArguments_nil_bind (position : Nat) (k : Arguments [] → Evaluation α) :
    readArguments limits word [] position [] >>= k = k () := by
  rw [readArguments]
  rfl

theorem readArguments_one_bind (position : Nat) (e : Expression)
    (k : Arguments [.one .value] → Evaluation α) :
    readArguments limits word [.one .value] position [e] >>= k =
      evaluate limits e >>= fun v => k (v, ()) := by
  rw [readArguments_cons, readArguments]
  exact bind_assoc _ _ _

theorem readArguments_two_bind (e f : Expression)
    (k : Arguments [.one .value, .one .value] → Evaluation α) :
    readArguments limits word [.one .value, .one .value] 1 [e, f] >>= k =
      evaluate limits e >>= fun v => evaluate limits f >>= fun w => k (v, w, ()) := by
  rw [readArguments_cons]
  refine (bind_assoc _ _ _).trans (bind_congr fun v => ?_)
  exact (bind_assoc _ _ _).trans (readArguments_one_bind limits word 2 f fun as => k (v, as))

/-- An expression without operands gives what its task gives. -/
theorem give_eq {r : Except Error Value} (h : SameResult Value.Same r r) :
    .result r = readArguments limits word [] 1 [] >>= Task.act limits (.give r h) := by
  refine Eq.trans ?_ (readArguments_nil_bind limits word 1 (Task.act limits (.give r h))).symm
  exact (Task.act_eq_of_keeps (t := .give r h) (a := ()) (f := fun _ => r) fun _ => rfl).symm

end Operands

/-- The steps of an evaluation for a task and operands under other names. -/
theorem readOperands_bind_eq {limits : Limits} {e : Expression} {t : Task} {es : List Expression}
    (ht : e.task = t) (hes : e.operands = es) :
    e.readOperands limits >>= e.task.act limits =
      readArguments limits t.word t.slots 1 es >>= t.act limits := by
  subst ht hes
  rfl

section Call

variable {function : String} {arguments : List Expression}

theorem call_of_unknown (arguments : List Expression)
    (hf : Function.named? (Text.keyword function) = none) :
    (call function arguments).task = .give (.error (.unknownFunction function)) (.error ⟨rfl, rfl⟩) ∧
      (call function arguments).operands = [] := by
  simp only [task, operands, hf, and_self]

theorem call_of_allowed {f : Function} (hf : Function.named? (Text.keyword function) = some f)
    (hn : f.arity.allows arguments.length = true) :
    (call function arguments).task = .apply f (Text.keyword function) ∧
      (call function arguments).operands = arguments := by
  simp only [task, operands, hf, hn, if_true, and_self]

theorem call_of_refused {f : Function} (hf : Function.named? (Text.keyword function) = some f)
    (hn : ¬f.arity.allows arguments.length = true) :
    (call function arguments).task =
        .give (.error (.wrongArgumentCount (Text.keyword function) f.arity arguments.length))
          (.error ⟨rfl, rfl⟩) ∧
      (call function arguments).operands = [] := by
  simp only [task, operands, hf, if_neg hn, and_self]

end Call

/-- An evaluation reads the operands one level deeper and then performs the task. -/
theorem evaluate_eq (limits : Limits) (e : Expression) :
    evaluate limits e = .nested limits (e.readOperands limits >>= e.task.act limits) := by
  cases e with
  | assignment name value =>
    rw [evaluate]
    refine congrArg _ ?_
    exact (readArguments_one_bind limits _ 1 value (Task.act limits (.assign name))).symm
  | declaration space key value =>
    rw [evaluate]
    -- A declaration gives the value that it sets, and fails where its name or key is refused.
    refine congrArg _ (Eq.trans ?_ (readArguments_one_bind limits _ 1 value _).symm)
    refine bind_congr fun v => bind_congr fun env => ?_
    show _ = Evaluation.result ((env.declare space key v).map (v, ·)) >>= fun p =>
      Evaluation.setEnvironment p.2 >>= fun _ => pure p.1
    cases env.declare space key v <;> rfl
  | arithmetic left op right =>
    rw [evaluate]
    refine congrArg _ (Eq.trans ?_ (readArguments_two_bind limits _ left right _).symm)
    refine bind_congr fun l => bind_congr fun r => ?_
    exact (Task.act_eq_of_keeps (t := .combine op) (a := (l, r, ())) fun _ => rfl).symm
  | comparison left op right =>
    rw [evaluate]
    refine congrArg _ (Eq.trans ?_ (readArguments_two_bind limits _ left right _).symm)
    refine bind_congr fun l => bind_congr fun r => ?_
    exact (Task.act_eq_of_keeps (t := .compare op) (a := (l, r, ()))
      (f := fun _ => (l.compare op r).map .boolean) fun _ => rfl).symm
  | percentage fraction base =>
    rw [evaluate]
    refine congrArg _ (Eq.trans ?_ (readArguments_two_bind limits _ fraction base _).symm)
    refine bind_congr fun p => bind_congr fun b => ?_
    exact (Task.act_eq_of_keeps (t := .portion) (a := (p, b, ()))
      (f := fun _ => Value.portion p b) fun _ => rfl).symm
  | unary op operand =>
    rw [evaluate]
    refine congrArg _ (Eq.trans ?_ (readArguments_one_bind limits _ 1 operand _).symm)
    refine bind_congr fun v => ?_
    exact (Task.act_eq_of_keeps (t := .signed op) (a := (v, ()))
      (f := fun _ => v.signed op) fun _ => rfl).symm
  | conversion value target =>
    rw [evaluate]
    refine congrArg _ (Eq.trans ?_ (readArguments_one_bind limits _ 1 value _).symm)
    refine bind_congr fun v => ?_
    exact (Task.act_eq_of_keeps (t := .convert target) (a := (v, ())) fun _ => rfl).symm
  | napkin value figures =>
    rw [evaluate]
    refine congrArg _ (Eq.trans ?_ (readArguments_one_bind limits _ 1 value _).symm)
    refine bind_congr fun v => ?_
    exact (Task.act_eq_of_keeps (t := .napkin figures) (a := (v, ()))
      (f := fun _ => Napkin.roundValue v (figures.getD limits.figures)) fun _ => rfl).symm
  | identifier name =>
    rw [evaluate]
    refine congrArg _ (Eq.trans ?_ (readArguments_nil_bind limits _ 1 _).symm)
    exact (Task.act_eq_of_keeps (t := .resolve name) (a := ()) fun _ => rfl).symm
  | call function arguments =>
    rw [evaluate]
    refine congrArg _ ?_
    dsimp only
    -- A call is refused before its arguments are looked at, and is then without operands.
    cases hf : Function.named? (Text.keyword function) with
    | none =>
      obtain ⟨ht, hes⟩ := call_of_unknown arguments hf
      rw [readOperands_bind_eq ht hes]
      exact give_eq limits _ _
    | some f =>
      dsimp only
      split
      · next hn =>
        obtain ⟨ht, hes⟩ := call_of_allowed hf hn
        rw [readOperands_bind_eq ht hes]
        refine bind_congr fun a => ?_
        exact (Task.act_eq_of_keeps (t := .apply f (Text.keyword function)) (a := a)
          (f := fun _ => f.apply limits _ a) fun _ => rfl).symm
      · next hn =>
        obtain ⟨ht, hes⟩ := call_of_refused hf hn
        rw [readOperands_bind_eq ht hes]
        exact give_eq limits _ _
  | _ =>
    rw [evaluate]
    exact congrArg _ (give_eq limits _ _)

section Height

mutual

/-- The number of expressions on the longest way down into the parts of an expression. -/
def height : Expression → Nat
  | assignment _ value => height value + 1
  | arithmetic left _ right => max (height left) (height right) + 1
  | comparison left _ right => max (height left) (height right) + 1
  | unary _ operand => height operand + 1
  | conversion value _ => height value + 1
  | percentage fraction base => max (height fraction) (height base) + 1
  | napkin value _ => height value + 1
  | call _ arguments => heightAll arguments + 1
  | declaration _ _ value => height value + 1
  | _ => 1

/-- The height of the highest of a list of expressions. -/
def heightAll : List Expression → Nat
  | [] => 0
  | e :: rest => max (height e) (heightAll rest)

end

variable {e x : Expression}

theorem height_le_heightAll {es : List Expression} (h : x ∈ es) : x.height ≤ heightAll es := by
  induction es with
  | nil => cases h
  | cons e rest ih =>
    rw [heightAll]
    rcases List.mem_cons.mp h with rfl | h
    · exact le_max_left _ _
    · exact (ih h).trans (le_max_right _ _)

theorem heightAll_operands (e : Expression) : heightAll e.operands < e.height := by
  cases e with
  | call function arguments =>
    rw [height, Nat.lt_succ_iff]
    simp only [operands]
    split
    · exact Nat.zero_le _
    · split
      · exact le_rfl
      · exact Nat.zero_le _
  | _ => simp [operands, height, heightAll]

theorem height_lt_of_mem_operands (h : x ∈ e.operands) : x.height < e.height :=
  (height_le_heightAll h).trans_lt e.heightAll_operands

theorem height_pos (e : Expression) : 0 < e.height := by
  cases e <;> simp [height]

/-- Induction from the operands of an expression to the expression. -/
theorem operands_induction {P : Expression → Prop} (h : ∀ e, (∀ x ∈ e.operands, P x) → P e)
    (e : Expression) : P e :=
  h e fun x _ => operands_induction h x
termination_by e.height
decreasing_by exact height_lt_of_mem_operands ‹_›

end Height

section Depth

open Evaluation (Balanced balanced_result balanced_bind)

variable (limits : Limits) (word : String)

theorem balanced_read (p : Parameter) (position : Nat) (e : Expression) :
    Balanced (p.read word position e (evaluate limits e)) := by
  rw [Parameter.read_eq]
  cases p.taken? word position e with
  | some r => exact balanced_result r
  | none => exact balanced_bind (evaluate_depth limits e) fun v => balanced_result _

end Depth

end Expression
end Reckoner
