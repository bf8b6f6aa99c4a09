import Reckoner.Proofs.Evaluation.Descent
import Reckoner.Proofs.Gives
/-!
An invariant along one run. Main statement: a run keeps an invariant if every step that it comes to
keeps it, and so does the run of every part that it comes to.
-/
namespace Reckoner

open Evaluation (outcome)
open Expression (evaluate readArguments Awaits Descends)

namespace Expression

/-- The evaluation of `e` in the context `c` comes to its task, with these operands, in the context
`d`. -/
structure Performs (limits : Limits) (e : Expression) (c : Context) (a : Arguments e.task.slots)
    (d : Context) : Prop where
  depth_lt : c.depth < limits.depth
  reads : outcome (e.readOperands limits) c.deeper = (.ok a, d)

/-- What a task gives is what its expression gives. -/
theorem Performs.evaluate {limits : Limits} {e : Expression} {c d : Context}
    {a : Arguments e.task.slots} (h : e.Performs limits c a d) {v : Value} {env : Environment}
    (hv : e.task.perform limits a d.environment = .ok (v, env)) :
    (outcome (evaluate limits e) c).1 = .ok v := by
  have hact : outcome (e.task.act limits a) d = (.ok v, { d with environment := env }) := by
    rw [Task.outcome_act, hv]
  have hrun : outcome (e.readOperands limits >>= e.task.act limits) c.deeper =
      (.ok v, { d with environment := env }) := by
    rw [Evaluation.outcome_bind_of_ok h.reads, hact]
  rw [evaluate_eq, Evaluation.outcome_nested_of_le h.depth_lt hrun]

end Expression

/-- What is to hold of environments and of the readings of arguments. -/
structure Invariant where
  environments : Environment → Prop
  meanings : (p : Parameter) → p.Meaning → Prop

namespace Invariant

/-- What is to hold of values. -/
def values (I : Invariant) : Value → Prop := I.meanings .value

def lists (I : Invariant) (vs : List Value) : Prop := ∀ v ∈ vs, I.values v

/-- What is to hold of lists of arguments. -/
def arguments (I : Invariant) : (slots : List Slot) → Arguments slots → Prop
  | [], _ => True
  | .one p :: slots, a => I.meanings p a.1 ∧ I.arguments slots a.2
  | .optional p :: slots, a => (∀ b, a.1 = some b → I.meanings p b) ∧ I.arguments slots a.2
  | .values :: slots, a => I.lists a.1 ∧ I.arguments slots a.2

variable {I : Invariant} {limits : Limits} {α β : Type} {P : α → Prop} {Q : β → Prop}

/-- What a run gives has a property, and the environment that it leaves keeps the invariant. -/
structure Holds (I : Invariant) (P : α → Prop) (o : Except Error α × Context) : Prop where
  gives : Gives o.1 P
  environment : I.environments o.2.environment

/-- Reading an argument keeps the invariant. -/
structure Reads (I : Invariant) : Prop where
  taken : ∀ {p : Parameter} {word position e r}, p.taken? word position e = some r →
    Gives r (I.meanings p)
  ofValue : ∀ {v} (p : Parameter) (word : String) (position : Nat), I.values v →
    Gives (p.ofValue word position v) (I.meanings p)

/-- The task that `e` comes to in the context `c` keeps the invariant. -/
def KeptBy (I : Invariant) (limits : Limits) (e : Expression) (c : Context) : Prop :=
  ∀ a d, e.Performs limits c a d → I.arguments e.task.slots a → I.environments d.environment →
    Gives (e.task.perform limits a d.environment) fun p => I.values p.1 ∧ I.environments p.2

section Actions

variable {c : Context}

theorem holds_result {r : Except Error α} (hr : Gives r P) (hc : I.environments c.environment) :
    I.Holds P (outcome (.result r) c) :=
  ⟨hr, hc⟩

theorem holds_bind {x : Evaluation α} {f : α → Evaluation β} (hx : I.Holds P (outcome x c))
    (hf : ∀ a d, outcome x c = (.ok a, d) → P a → I.environments d.environment →
      I.Holds Q (outcome (f a) d)) : I.Holds Q (outcome (x >>= f) c) := by
  obtain ⟨hgives, henv⟩ := hx
  rcases Evaluation.outcome_bind x f c with ⟨a, d, ha, h⟩ | ⟨e, d, he, h⟩
  · rw [ha] at hgives henv
    rw [h]
    exact hf a d ha (hgives a rfl) henv
  · rw [he] at henv
    rw [h]
    exact ⟨gives_error e, henv⟩

theorem holds_nested {x : Evaluation α} (hc : I.environments c.environment)
    (h : c.depth < limits.depth → I.Holds P (outcome x c.deeper)) :
    I.Holds P (outcome (.nested limits x) c) := by
  rcases Nat.lt_or_ge limits.depth (c.depth + 1) with hlt | hle
  · rw [Evaluation.outcome_nested_of_lt hlt]
    exact ⟨gives_error _, hc⟩
  · have hx := h hle
    rcases hrun : outcome x c.deeper with ⟨r, d⟩
    rw [hrun] at hx
    rw [Evaluation.outcome_nested_of_le hle hrun]
    exact ⟨hx.gives, hx.environment⟩

end Actions

section Arguments

variable {c : Context} {word : String} {slots : List Slot} {position : Nat} {es : List Expression}

/-- Arguments that are not there keep any invariant. -/
theorem arguments_of_absent {a : Arguments slots} (h : Arguments.absent? slots = some a) :
    I.arguments slots a := by
  induction slots with
  | nil => exact trivial
  | cons s slots ih =>
    cases s with
    | one p => cases h
    | optional p =>
      obtain ⟨as, has, rfl⟩ := Option.map_eq_some_iff.mp h
      exact ⟨nofun, ih has⟩
    | values =>
      obtain ⟨as, has, rfl⟩ := Option.map_eq_some_iff.mp h
      exact ⟨fun v hv => absurd hv List.not_mem_nil, ih has⟩

theorem arguments_put {s : Slot} {a : s.parameter.Meaning} {as : Arguments (s.rest slots)}
    (ha : I.meanings s.parameter a) (has : I.arguments (s.rest slots) as) :
    I.arguments (s :: slots) (s.put a as) := by
  cases s with
  | one p => exact ⟨ha, has⟩
  | optional p => exact ⟨fun b hb => Option.some.inj hb ▸ ha, has⟩
  | values => exact ⟨List.forall_mem_cons.mpr ⟨ha, has.1⟩, has.2⟩

theorem holds_read (hI : I.Reads) {p : Parameter} {x : Expression}
    (hc : I.environments c.environment)
    (hx : p.taken? word position x = none → I.Holds I.values (outcome (evaluate limits x) c)) :
    I.Holds (I.meanings p) (outcome (p.read word position x (evaluate limits x)) c) := by
  rw [Parameter.read_eq]
  cases ht : p.taken? word position x with
  | some r => exact holds_result (hI.taken ht) hc
  | none =>
    refine holds_bind (hx ht) fun v d _ hv hd => ?_
    exact holds_result (hI.ofValue p word position hv) hd

/-- The induction is over the arguments, for all places and contexts: each argument leaves the
context for those after it. -/
theorem holds_readArguments (hI : I.Reads) (hc : I.environments c.environment)
    (hx : ∀ i p x d, Awaits limits word slots position es c i p x d →
      I.environments d.environment → I.Holds I.values (outcome (evaluate limits x) d)) :
    I.Holds (I.arguments slots) (outcome (readArguments limits word slots position es) c) := by
  induction es generalizing slots position c with
  | nil =>
    rw [readArguments]
    exact holds_result (gives_orError fun a ha => arguments_of_absent ha) hc
  | cons e rest ih =>
    cases slots with
    | nil =>
      rw [readArguments]
      exact holds_result (gives_ok trivial) hc
    | cons s slots =>
      rw [Expression.readArguments_cons]
      have hread := holds_read hI hc fun ht => hx 0 _ e c (.head ht) hc
      refine holds_bind hread fun a d ha hka hd => ?_
      have hrest := ih hd fun i p x f h => hx (i + 1) p x f (.tail ha h)
      refine holds_bind hrest fun as f _ hkas hf => ?_
      exact holds_result (gives_ok (arguments_put hka hkas)) hf

theorem environments_of_awaits (hI : I.Reads) {i : Nat} {p : Parameter} {x : Expression}
    {d : Context} (h : Awaits limits word slots position es c i p x d)
    (hc : I.environments c.environment)
    (hx : ∀ i p x d, Awaits limits word slots position es c i p x d →
      I.environments d.environment → I.Holds I.values (outcome (evaluate limits x) d)) :
    I.environments d.environment := by
  induction h with
  | head _ => exact hc
  | tail ha h ih =>
    have hread := holds_read hI hc fun ht => hx 0 _ _ _ (.head ht) hc
    rw [ha] at hread
    exact ih hread.environment fun i p x f hf => hx (i + 1) p x f (.tail ha hf)

end Arguments

section Run

variable {e : Expression} {c : Context}

/-- A run keeps an invariant if every step that it comes to keeps it. -/
theorem holds_evaluate (hI : I.Reads) (e : Expression) {c : Context}
    (hc : I.environments c.environment)
    (hsteps : ∀ path part d, Descends limits path e c part d → I.KeptBy limits part d) :
    I.Holds I.values (outcome (evaluate limits e) c) := by
  induction e using Expression.operands_induction generalizing c with
  | h e ih =>
    rw [Expression.evaluate_eq]
    refine holds_nested hc fun hlt => ?_
    have hoperands :
        I.Holds (I.arguments e.task.slots) (outcome (e.readOperands limits) c.deeper) :=
      holds_readArguments hI hc fun i p x d h hd =>
        ih x h.mem hd fun path part f hf => hsteps (i :: path) part f (.operand hlt h hf)
    refine holds_bind hoperands fun a d ha hka hd => ?_
    -- The operands have come to `a` and `d`, which is what makes this a step of `e`.
    have hperform := hsteps [] e c (.here e c) a d ⟨hlt, ha⟩ hka hd
    rw [Task.outcome_act]
    generalize e.task.perform limits a d.environment = r at hperform
    cases r with
    | ok p => exact ⟨gives_ok (hperform p rfl).1, (hperform p rfl).2⟩
    | error x => exact ⟨gives_error x, hd⟩

/-- The same holds of every part that the run comes to. -/
theorem holds_of_descends (hI : I.Reads) {path : List Nat} {part : Expression} {d : Context}
    (h : Descends limits path e c part d) (hc : I.environments c.environment)
    (hsteps : ∀ path part d, Descends limits path e c part d → I.KeptBy limits part d) :
    I.Holds I.values (outcome (evaluate limits part) d) := by
  induction h with
  | here e c => exact holds_evaluate hI e hc hsteps
  | @operand i path e c p x d part d' hlt hx _ ih =>
    have hparts : ∀ i p x d, Awaits limits e.task.word e.task.slots 1 e.operands c.deeper i p x d →
        I.environments d.environment → I.Holds I.values (outcome (evaluate limits x) d) :=
      fun i p x d h hd =>
        holds_evaluate hI x hd fun path part f hf => hsteps (i :: path) part f (.operand hlt h hf)
    exact ih (environments_of_awaits hI hx hc hparts) fun path part f hf =>
      hsteps (i :: path) part f (.operand hlt hx hf)

end Run

end Invariant
end Reckoner
