import Reckoner.Proofs.Evaluation.Call
import Reckoner.Proofs.Evaluation.Substitution
import Reckoner.Proofs.Fails
/-!
Names that are bound to a duration, as arguments that stand for a time. Main statement: downtime and
accumulation take such a name for what it is bound to, and the conversion of a rate never does.
-/
namespace Reckoner

theorem TimeUnit.read_name (u : TimeUnit) : read u.name = .ok u := by
  cases u <;> decide +kernel

namespace Rate

/-- A rate whose own unit of time is known fails to be converted to a unit only on large numbers. -/
theorem fails_retime_name {r : Rate} {v : TimeUnit} (h : TimeUnit.ofString? r.per = some v)
    (u : TimeUnit) : Fails (r.retime u.name) (· = .overflow "rate conversion") := by
  have hmake (amount : Quantity) : make amount u.name = .ok ⟨amount, u.name⟩ := by
    cases u <;> rfl
  rw [retime, TimeUnit.read_name, ok_bind, perSeconds, perUnit, TimeUnit.read, h]
  refine fails_bind (fails_ok _) fun _ _ => ?_
  refine fails_bind (fails_orError _ rfl) fun value _ => ?_
  rw [hmake]
  exact fails_ok _

theorem alike_retime_name_iff (r : Rate) (u : TimeUnit) (s : String) (expected : List String) :
    Alike Error.SameVariant Eq (.error (.unknownKeyword "time unit" s expected))
        ((r.retime u.name).map Value.rate) ↔ TimeUnit.ofString? r.per = none := by
  rcases hper : TimeUnit.ofString? r.per with _ | v
  · rw [retime, TimeUnit.read_name, ok_bind, perSeconds, perUnit, TimeUnit.read, hper]
    exact iff_of_true (.error rfl) rfl
  · refine iff_of_false (fun h => ?_) nofun
    have hfails := fails_map (f := Value.rate) (fails_retime_name hper u)
    rcases hr : (r.retime u.name).map Value.rate with x | w
    · rw [hr, hfails x hr] at h
      cases h with
      | error h => cases h
    · rw [hr] at h
      cases h

end Rate

namespace Expression

open Evaluation (outcome)

variable {limits : Limits} {c d d' : Context}

/-- A name that spells no unit of time is bound to the duration that an expression comes to, and the
expression, which is no name, leaves everything as it is. -/
structure StandsFor (limits : Limits) (name : String) (e : Expression) (t : Duration)
    (c : Context) : Prop where
  not_unit : TimeUnit.ofString? name = none
  bound : c.environment.get? name = some (.duration t)
  not_word : e.word? = none
  outcome_eq : outcome (evaluate limits e) c = (.ok (.duration t), c)

namespace StandsFor

variable {name : String} {e : Expression} {t : Duration}

theorem outcome_identifier (h : StandsFor limits name e t c) :
    outcome (evaluate limits (.identifier name)) c = (.ok (.duration t), c) := by
  have hdepth : c.depth < limits.depth := depth_lt_of_ok (congrArg Prod.fst h.outcome_eq)
  have hresolve : c.environment.resolve name = .ok (.duration t) := by
    rw [Environment.resolve, h.bound]
  have hstep : outcome (do
      let env ← Evaluation.environment
      Evaluation.result (env.resolve name)) c.deeper = (.ok (.duration t), c.deeper) := by
    show (c.environment.resolve name, c.deeper) = _
    rw [hresolve]
  rw [evaluate]
  exact Evaluation.outcome_nested_of_le hdepth hstep

/-- Where a period of time is asked for, the name is read as the expression is. -/
theorem outcome_read_period (h : StandsFor limits name e t c) (word : String) (position : ℕ) :
    outcome (Parameter.period.read word position (.identifier name)
        (evaluate limits (.identifier name))) c =
      outcome (Parameter.period.read word position e (evaluate limits e)) c := by
  have hname : Parameter.unitWord? (.identifier name) = none := by
    simp [Parameter.unitWord?, word?, h.not_unit]
  have he : Parameter.unitWord? e = none := by
    simp [Parameter.unitWord?, h.not_word]
  rw [outcome_read_of_not_taken (by rw [Parameter.taken?, hname]; rfl),
    outcome_read_of_not_taken (by rw [Parameter.taken?, he]; rfl), h.outcome_identifier,
    h.outcome_eq]

/-- Where the unit of a rate is asked for, the expression is read as the unit of its duration. -/
theorem outcome_read_target (h : StandsFor limits name e t c) (word : String) (position : ℕ) :
    outcome (Parameter.target.read word position e (evaluate limits e)) c =
      (.ok t.unit.name, c) := by
  rw [outcome_read_of_not_taken (by rw [Parameter.taken?, h.not_word]; rfl), h.outcome_eq]
  rfl

end StandsFor

section Calls

variable {a e : Expression} {t : Duration} {function name : String}

/-- A rate is converted to the unit that the second argument is read as. -/
theorem outcome_convertRate {x : Expression} {r : Rate} {unit : String}
    (hf : Function.named? (Text.keyword function) = some .convertRate)
    (ha : outcome (evaluate limits a) c.deeper = (.ok (.rate r), d))
    (hx : outcome (Parameter.target.read (Text.keyword function) 2 x (evaluate limits x)) d =
      (.ok unit, d')) :
    (outcome (evaluate limits (.call function [a, x])) c).1 = (r.retime unit).map .rate := by
  have hn : Function.convertRate.arity.allows [a, x].length = true := by rfl
  have hread : outcome (Parameter.rate.read (Text.keyword function) 1 a (evaluate limits a))
      c.deeper = (.ok r, d) := by
    rw [outcome_read_of_not_taken rfl, ha]
    rfl
  have hargs : outcome (readArguments limits (Text.keyword function) Function.convertRate.slots 1
      [a, x]) c.deeper = (.ok (r, unit, ()), d') := outcome_readArguments_two hread hx
  have hcall := outcome_call hf hn (depth_lt_of_operand ha) hargs
  exact hcall.trans (ok_bind _ _)

/-- Behind a first argument that is no rate, a conversion does not look at the second. -/
theorem outcome_convertRate_congr {x y : Expression}
    (hf : Function.named? (Text.keyword function) = some .convertRate)
    (ha : ∀ r, (outcome (evaluate limits a) c.deeper).1 ≠ .ok (.rate r)) :
    outcome (evaluate limits (.call function [a, x])) c =
      outcome (evaluate limits (.call function [a, y])) c := by
  have hlength : [a, x].length = [a, y].length := rfl
  apply outcome_call_congr hf hlength
  apply outcome_readArguments_congr
  intro r d hr
  rw [outcome_read_of_not_taken rfl] at hr
  have hread := congrArg Prod.fst hr
  rcases hv : (outcome (evaluate limits a) c.deeper).1 with x | v
  · rw [hv] at hread
    cases hread
  · rw [hv] at hread
    cases v with
    | rate s => exact absurd hv (ha s)
    | _ => cases hread

/-- A call that asks for a period of time in the second place does with the name what it does with
the expression. -/
theorem outcome_period_congr {f : Function} {p : Parameter}
    (hf : Function.named? (Text.keyword function) = some f)
    (hslots : f.slots = [.one p, .one .period])
    (hp : p.taken? (Text.keyword function) 1 a = none)
    (h : StandsFor limits name e t (outcome (evaluate limits a) c.deeper).2) :
    outcome (evaluate limits (.call function [a, .identifier name])) c =
      outcome (evaluate limits (.call function [a, e])) c := by
  have hlength : [a, .identifier name].length = [a, e].length := rfl
  apply outcome_call_congr hf hlength
  rw [hslots]
  apply outcome_readArguments_congr
  intro r d hr
  rw [outcome_read_of_not_taken hp] at hr
  obtain rfl := congrArg Prod.snd hr
  exact h.outcome_read_period _ _

end Calls

section Named

variable {a e : Expression} {t : Duration} {name word : String}

/-- A word that is bound to a duration and the expression that comes to it are the same to downtime
and to accumulation. A conversion of a rate takes only the expression, and fails for the word, so
the two end alike only if there is no rate or if its own unit of time is unknown. -/
theorem period_named_iff (h : StandsFor limits name e t (outcome (evaluate limits a) c.deeper).2)
    (word : String) :
    (Function.named? (Text.keyword word) = some .downtime ∨
        Function.named? (Text.keyword word) = some .accumulate →
      outcome (evaluate limits (.call word [a, .identifier name])) c =
        outcome (evaluate limits (.call word [a, e])) c) ∧
    (Function.named? (Text.keyword word) = some .convertRate →
      (∀ r, (outcome (evaluate limits a) c.deeper).1 = .ok (.rate r) →
        (outcome (evaluate limits (.call word [a, .identifier name])) c).1 =
            .error (.unknownKeyword "time unit" (Text.trim name) (TimeUnit.all.map TimeUnit.name)) ∧
          (outcome (evaluate limits (.call word [a, e])) c).1 =
            (r.retime t.unit.name).map .rate) ∧
      (Alike Error.SameVariant Eq
          (outcome (evaluate limits (.call word [a, .identifier name])) c).1
          (outcome (evaluate limits (.call word [a, e])) c).1 ↔
        ∀ r, (outcome (evaluate limits a) c.deeper).1 = .ok (.rate r) →
          TimeUnit.ofString? r.per = none)) := by
  refine ⟨fun hword => ?_, fun hword => ?_⟩
  · rcases hword with hf | hf
    · exact outcome_period_congr (p := .number) hf rfl rfl h
    · exact outcome_period_congr (p := .rate) hf rfl rfl h
  · have hrate : ∀ r, (outcome (evaluate limits a) c.deeper).1 = .ok (.rate r) →
        (outcome (evaluate limits (.call word [a, .identifier name])) c).1 =
            .error (.unknownKeyword "time unit" (Text.trim name) (TimeUnit.all.map TimeUnit.name)) ∧
          (outcome (evaluate limits (.call word [a, e])) c).1 =
            (r.retime t.unit.name).map .rate := by
      intro r hr
      have ha : outcome (evaluate limits a) c.deeper =
          (.ok (.rate r), (outcome (evaluate limits a) c.deeper).2) := Prod.ext hr rfl
      constructor
      · rw [outcome_convertRate hword ha rfl, Rate.retime, TimeUnit.read, h.not_unit]
        rfl
      · exact outcome_convertRate hword ha (h.outcome_read_target _ _)
    refine ⟨hrate, ?_⟩
    by_cases hnone : ∀ r, (outcome (evaluate limits a) c.deeper).1 ≠ .ok (.rate r)
    · -- Without a rate neither call gets to its second argument.
      rw [outcome_convertRate_congr hword hnone (y := e)]
      refine iff_of_true ?_ fun r hr => absurd hr (hnone r)
      rcases (outcome (evaluate limits (.call word [a, e])) c).1 with x | v
      · exact .error rfl
      · exact .ok rfl
    · push Not at hnone
      obtain ⟨r, hr⟩ := hnone
      obtain ⟨hname, he⟩ := hrate r hr
      rw [hname, he, Rate.alike_retime_name_iff]
      constructor
      · intro hper s hs
        cases hr.symm.trans hs
        exact hper
      · intro hper
        exact hper r hr

/-- An environment in which a name is bound to one hour. -/
def hourNamed (name : String) : Environment :=
  Environment.initial.bind name (.duration ⟨.one, .hour⟩)

theorem standsFor_hour :
    StandsFor .standard "p" (.duration "1" "hour") ⟨.one, .hour⟩ ⟨hourNamed "p", 1⟩ where
  not_unit := by decide +kernel
  bound := Dictionary.get?_insert_self _ _ _
  not_word := rfl
  outcome_eq := by
    have hread : (Duration.read "1" "hour").map Value.duration = .ok (.duration ⟨.one, .hour⟩) :=
      eq_ok_of_toOption (by decide +kernel)
    rw [evaluate, hread]
    exact Evaluation.outcome_nested_of_le (by decide) rfl

/-- One request a minute. -/
def perMinute : Expression := .rate "1" "req" "min"

theorem outcome_perMinute :
    outcome (evaluate .standard perMinute) (Context.start (hourNamed "p")).deeper =
      (.ok (.rate ⟨⟨.one, "req"⟩, "min"⟩), ⟨hourNamed "p", 1⟩) := by
  have hread : (Rate.read "1" "req" "min").map Value.rate = .ok (.rate ⟨⟨.one, "req"⟩, "min"⟩) :=
    eq_ok_of_toOption (by decide +kernel)
  rw [perMinute, evaluate, hread]
  exact Evaluation.outcome_nested_of_le (by decide) rfl

theorem period_named_hour :
    StandsFor .standard "p" (.duration "1" "hour") ⟨.one, .hour⟩
        (outcome (evaluate .standard perMinute) (Context.start (hourNamed "p")).deeper).2 ∧
      value .standard (.call "accumulate" [perMinute, .identifier "p"]) (hourNamed "p") =
        value .standard (.call "accumulate" [perMinute, .duration "1" "hour"]) (hourNamed "p") ∧
      ¬ Alike Error.SameVariant Eq
        (value .standard (.call "convert_rate" [perMinute, .identifier "p"]) (hourNamed "p")).1
        (value .standard (.call "convert_rate" [perMinute, .duration "1" "hour"])
          (hourNamed "p")).1 := by
  have hfor : StandsFor .standard "p" (.duration "1" "hour") ⟨.one, .hour⟩
      (outcome (evaluate .standard perMinute) (Context.start (hourNamed "p")).deeper).2 := by
    rw [outcome_perMinute]
    exact standsFor_hour
  obtain ⟨hperiod, -⟩ := period_named_iff hfor "accumulate"
  have haccumulate := hperiod (Or.inr (by decide +kernel))
  obtain ⟨-, hconvert⟩ := period_named_iff hfor "convert_rate"
  obtain ⟨-, halike⟩ := hconvert (by decide +kernel)
  refine ⟨hfor, ?_, fun h => ?_⟩
  · rw [value, value, haccumulate]
  · -- The minute of the rate is a unit to start from.
    rw [value, value] at h
    have hper := halike.mp h _ (congrArg Prod.fst outcome_perMinute)
    exact absurd hper (by decide +kernel)

/-- The unit of time `p` is unknown to the conversion of a rate, though it is bound to an hour. -/
theorem period_named_differs :
    TimeUnit.ofString? "p" = none ∧
      (hourNamed "p").get? "p" = some (.duration ⟨.one, .hour⟩) ∧
      (value .standard (.duration "1" "hour") (hourNamed "p")).1 = .ok (.duration ⟨.one, .hour⟩) ∧
      (value .standard (.call "convert_rate" [perMinute, .duration "1" "hour"]) (hourNamed "p")).1 =
        .ok (.rate ⟨⟨.ofLiteral 60 0, "req"⟩, "hour"⟩) ∧
      (value .standard (.call "convert_rate" [perMinute, .identifier "p"]) (hourNamed "p")).1 =
        .error (.unknownKeyword "time unit" "p" (TimeUnit.all.map TimeUnit.name)) := by
  refine ⟨by decide +kernel, by decide +kernel, ?_, ?_, ?_⟩
  · exact eq_ok_of_toOption (by decide +kernel)
  · exact eq_ok_of_toOption (by decide +kernel)
  · decide +kernel

end Named

end Expression
end Reckoner
