import Reckoner.Proofs.Evaluation.StepByStep
import Reckoner.Proofs.Evaluation.WellFormed
import Reckoner.Proofs.Value.NamedUnits
/-!
Named units along the evaluation of an expression. Main statement: all that an evaluation gives and
binds has a named unit exactly if no step that it comes to converts a bare number to a blank target
or labels a capacity with a blank word; every other blank text in place of a unit is an error.
-/
namespace Reckoner

open Evaluation (outcome)
open Expression (evaluate Descends)

namespace Environment

/-- Every quantity and every rate that is bound has a named unit. -/
def Named (env : Environment) : Prop := ∀ name v, env.get? name = some v → v.Named

theorem named_initial : initial.Named := by
  intro name v h
  obtain ⟨n, rfl⟩ := exists_number_of_get?_initial h
  exact ⟨trivial⟩

variable {env : Environment}

theorem Named.bind (h : env.Named) (name : String) {v : Value} (hv : v.Named) :
    (env.bind name v).Named := by
  intro key w hw
  by_cases hkey : key = name
  · rw [hkey, get?_bind_self] at hw
    exact Option.some.inj hw ▸ hv
  · rw [env.get?_bind_of_ne hkey] at hw
    exact h key w hw

theorem Named.resolve (h : env.Named) (name : String) : Gives (env.resolve name) Value.Named := by
  unfold Environment.resolve
  split
  · next v hv => exact gives_ok (h name v hv)
  · refine gives_orError fun v hv => ?_
    obtain ⟨b, -, rfl⟩ := Option.map_eq_some_iff.mp hv
    exact ⟨trivial⟩

/-- An exchange rate is no name that could be looked up. -/
theorem Named.declare (h : env.Named) (space key : String) {v : Value} (hv : v.Named) :
    Gives (env.declare space key v) Named := by
  rw [declare_eq]
  refine gives_map ((Setting.gives_read space key v).imp ?_)
  rintro s (⟨-, rfl⟩ | ⟨-, _, _, _, -, -, rfl⟩)
  · exact h.bind _ hv
  · exact h

end Environment

/-- What is bound, and what is read from arguments, has a named unit. -/
def Invariant.named : Invariant where
  environments := Environment.Named
  meanings := Parameter.Named

theorem Invariant.named_reads : named.Reads where
  taken ht := Parameter.gives_taken_named ht
  ofValue p word position hv := Parameter.gives_ofValue_named p word position hv

namespace Function

/-- A capacity is labelled with a word that is blank. -/
def NamesBlank : (f : Function) → Arguments f.slots → Prop
  | capacityAt, (load, capacity, unit, buffer, ()) =>
    Text.trim unit = "" ∧ ∃ n, Capacity.requires load capacity buffer = .ok n
  | _, _ => False

theorem gives_apply_named (limits : Limits) (word : String) {f : Function} {a : Arguments f.slots}
    (h : Invariant.named.arguments f.slots a) (hblank : ¬f.NamesBlank a) :
    Gives (f.apply limits word a) Value.Named := by
  have named (hs : (f.shape a).Named) : Gives (f.apply limits word a) Value.Named :=
    (f.gives_apply limits word a).named hs
  cases f with
  | capacityAt =>
    obtain ⟨load, capacity, unit, buffer, ⟨⟩⟩ := a
    show Gives ((Capacity.capacityAt load capacity unit buffer).map Value.quantity) Value.Named
    refine gives_map (gives_bind (gives_self _) fun n hn => gives_ok ⟨namedUnit_trim ?_⟩)
    exact fun hempty => hblank ⟨hempty, n, hn⟩
  -- A rate of megabytes: its unit is a fixed text.
  | throughput => exact named ⟨by decide +kernel, by decide⟩
  | accumulate => exact named h.1
  | convertRate => exact named h.1
  | compress => exact named h.1.shape
  | napkin => exact named h.1.shape
  | average => exact named (Shape.named_aggregate _)
  | sum => exact named (Shape.named_aggregate _)
  | least => exact named (Shape.named_aggregate _)
  | greatest => exact named (Shape.named_aggregate _)
  | abs => exact named h.1.shape
  | floor => exact named h.1.shape
  | ceil => exact named h.1.shape
  | round => exact named h.1.shape
  | _ => exact named trivial

end Function

namespace Task

/-- A task that makes a quantity of a number and takes a blank text for its unit: the conversion of
a bare number, and the label of a capacity. -/
def NamesBlank : (t : Task) → Arguments t.slots → Prop
  | convert target, (v, ()) => Text.trim target = "" ∧ ∃ n, v = Value.number n
  | apply f _, a => f.NamesBlank a
  | _, _ => False

variable {limits : Limits} {t : Task} {a : Arguments t.slots} {env : Environment}

theorem gives_perform_named (hgive : ∀ r h, t = give r h → Gives r Value.Named)
    (henv : env.Named) (ha : Invariant.named.arguments t.slots a) (hblank : ¬t.NamesBlank a) :
    Gives (t.perform limits a env) fun p => p.1.Named ∧ p.2.Named := by
  have keeps {r : Except Error Value} (hr : Gives r Value.Named) :
      Gives (r.map (·, env)) fun p => p.1.Named ∧ p.2.Named :=
    gives_map (hr.imp fun _ hv => ⟨hv, henv⟩)
  cases t with
  | give r h => exact keeps (hgive r h rfl)
  | resolve name => exact keeps (henv.resolve name)
  | assign name => exact gives_ok ⟨ha.1, henv.bind name ha.1⟩
  | combine op =>
    have hshape := ha.1.shape.combine ha.2.1.shape op
    exact keeps ((Value.gives_combine a.1 op a.2.1 env).named hshape)
  | compare op => exact keeps ((Value.gives_compare a.1 op a.2.1).named trivial)
  | signed op => exact keeps ((Value.gives_signed op a.1).named ha.1.shape)
  | convert target =>
    have hconverted : Gives (a.1.convert target env) Value.Named :=
      Value.gives_convert_named ha.1 (fun hempty n hn => hblank ⟨hempty, n, hn⟩) env
    exact keeps hconverted
  | portion => exact keeps ((Value.gives_portion a.1 a.2.1).named ha.2.1.shape)
  | napkin figures => exact keeps ((Value.gives_napkin a.1 _).named ha.1.shape)
  | apply f word => exact keeps (Function.gives_apply_named limits word ha hblank)
  | declare space key =>
    have hdeclared := henv.declare space key ha.1
    show Gives ((env.declare space key a.1).map (a.1, ·)) fun p => p.1.Named ∧ p.2.Named
    exact gives_map (hdeclared.imp fun _ henv' => ⟨ha.1, henv'⟩)

/-- Such a task succeeds, and what it gives has the empty text for its unit. -/
theorem exists_perform_of_namesBlank (limits : Limits) (h : t.NamesBlank a) (env : Environment) :
    ∃ n, t.perform limits a env = .ok (.quantity ⟨n, ""⟩, env) := by
  cases t with
  | convert target =>
    obtain ⟨v, ⟨⟩⟩ := a
    obtain ⟨hempty, n, rfl⟩ := h
    refine ⟨n, ?_⟩
    show (Value.convert (.number n) target env).map (·, env) = _
    rw [Value.convert_number, hempty, Value.ofNumber_empty]
    rfl
  | apply f word =>
    cases f with
    | capacityAt =>
      obtain ⟨load, capacity, unit, buffer, ⟨⟩⟩ := a
      obtain ⟨hempty, n, hn⟩ := h
      refine ⟨n, ?_⟩
      have hcapacity : Capacity.capacityAt load capacity unit buffer = .ok ⟨n, ""⟩ := by
        unfold Capacity.capacityAt
        rw [hn, ok_bind, hempty]
        rfl
      show ((Capacity.capacityAt load capacity unit buffer).map Value.quantity).map (·, env) = _
      rw [hcapacity]
      rfl
    | _ => exact h.elim
  | _ => exact h.elim

end Task

namespace Expression

theorem gives_of_task_eq_give {e : Expression} {r : Except Error Value}
    {h : SameResult Value.Same r r} (he : e.task = .give r h) : Gives r Value.Named := by
  rcases literal?_or_error_of_task he with hr | ⟨x, rfl⟩
  · exact Value.gives_literal_named hr
  · exact gives_error x

/-- The evaluation of `e` in the context `c` comes to a task that takes a blank text for a unit. -/
def NamesBlank (limits : Limits) (e : Expression) (c : Context) : Prop :=
  ∃ a d, e.Performs limits c a d ∧ e.task.NamesBlank a

variable {limits : Limits} {e : Expression} {c : Context}

theorem keptBy_named (h : ¬e.NamesBlank limits c) : Invariant.named.KeptBy limits e c :=
  fun a d hperforms ha henv =>
    Task.gives_perform_named (fun _ _ he => gives_of_task_eq_give he) henv ha
      fun hblank => h ⟨a, d, hperforms, hblank⟩

theorem not_holds_of_namesBlank (h : e.NamesBlank limits c) :
    ¬Invariant.named.Holds Value.Named (outcome (evaluate limits e) c) := by
  obtain ⟨a, d, hperforms, hblank⟩ := h
  obtain ⟨n, hn⟩ := Task.exists_perform_of_namesBlank limits hblank d.environment
  intro hholds
  -- What the step gives, the evaluation of `e` gives.
  have hnamed := hholds.gives _ (hperforms.evaluate hn)
  exact hnamed.shape.ne_empty rfl

/-- In an environment whose units are named, an evaluation and all parts that it comes to give
values with named units, if they give any, and leave environments of this kind, exactly if no step
that it comes to takes a blank text for a unit: the conversion of a bare number to a blank target or
a capacity with a blank label. A blank text is an error everywhere else where a unit is asked for,
also in front of the unit of time in the target of a rate. -/
theorem evaluate_named_iff (limits : Limits) (e : Expression) {env : Environment}
    (henv : env.Named) :
    ((∀ path part d, Descends limits path e (.start env) part d →
        Invariant.named.Holds Value.Named (outcome (evaluate limits part) d)) ↔
      ∀ path part d, Descends limits path e (.start env) part d → ¬part.NamesBlank limits d) ∧
    (∀ unit, Text.trim unit = "" → BlankUnit unit env) ∧
    ∀ (r s : Rate) (target : String), r.convert target = .ok s →
      (TimeUnit.ofString? target).isSome = true ∨
        ∃ unit per, Rate.splitTarget target = some (unit, per) ∧ NamedUnit unit := by
  refine ⟨⟨fun hholds path part d h hblank => ?_, fun hnone path part d h => ?_⟩,
    fun unit h => blankUnit_of_trim h env, fun r s target => r.gives_convert_target target s⟩
  · exact not_holds_of_namesBlank hblank (hholds path part d h)
  · exact Invariant.holds_of_descends Invariant.named_reads h henv fun path part d h =>
      keptBy_named (hnone path part d h)

/-- An expression whose task takes no blank text is no step of this kind. -/
theorem not_namesBlank {limits : Limits} {e : Expression} {c : Context}
    (h : ∀ a, ¬e.task.NamesBlank a) : ¬e.NamesBlank limits c := by
  rintro ⟨a, d, -, hblank⟩
  exact h a hblank

/-- A number of kilometres. -/
theorem evaluate_named_kilometres :
    let e : Expression := .conversion (.number "2.50") " km "
    Environment.initial.Named ∧
      (value .standard e .initial).1 = .ok (.quantity ⟨.ofLiteral 250 2, "km"⟩) ∧
      Gives (value .standard e .initial).1 Value.Named ∧
      (value .standard e .initial).2.Named := by
  intro e
  have hkilometres : Text.trim " km " ≠ "" := by decide +kernel
  have hsteps : ∀ path part d, Descends .standard path e (.start .initial) part d →
      ¬part.NamesBlank .standard d := by
    intro path part d h
    cases h with
    | here => exact not_namesBlank fun _ hblank => hkilometres hblank.1
    | operand _ hx h =>
      cases hx with
      | head _ =>
        cases h with
        | here => exact not_namesBlank fun _ hblank => hblank
        | operand _ hx _ => cases hx
      | tail _ hx => cases hx
  obtain ⟨hiff, -, -⟩ := evaluate_named_iff .standard e Environment.named_initial
  obtain ⟨hgives, hleaves⟩ := hiff.mpr hsteps [] e (.start .initial) (.here e _)
  exact ⟨Environment.named_initial, eq_ok_of_toOption (by decide +kernel), hgives, hleaves⟩

/-- A bare number converted to a blank target, which is then bound, and a capacity with a blank
label. -/
theorem evaluate_not_named :
    let converted : Expression := .assignment "x" (.conversion (.number "5") "  ")
    let labelled : Expression := .call "capacity_at" [.number "10", .number "2", .identifier " "]
    let nameless : Value := .quantity ⟨.ofLiteral 5 0, ""⟩
    Environment.initial.Named ∧ ¬nameless.Named ∧
      (value .standard converted .initial).1 = .ok nameless ∧
      (value .standard converted .initial).2.get? "x" = some nameless ∧
      (value .standard labelled .initial).1 = .ok nameless := by
  intro converted labelled nameless
  refine ⟨Environment.named_initial, fun h => h.shape.ne_empty rfl, ?_, ?_, ?_⟩
  · exact eq_ok_of_toOption (by decide +kernel)
  · decide +kernel
  · exact eq_ok_of_toOption (by decide +kernel)

end Expression
end Reckoner
