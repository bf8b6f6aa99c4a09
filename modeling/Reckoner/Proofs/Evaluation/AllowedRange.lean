import Reckoner.Proofs.Decimal.WholePower
import Reckoner.Proofs.Evaluation.Call
import Reckoner.Proofs.Fails
/-!
The ranges that errors name, and what is let through. Main statement: an operation that names a
range reports the numbers outside it and no others, but for counts of figures and places from 29 on,
which are let through, and for a zero with a minus sign, which is kept from being a count of places
or the base of a power that is not whole.
-/
namespace Reckoner

/-- The numbers in a range. -/
def Range.Allows (x : ℚ) : Range → Prop
  | .figures => ∃ n : ℕ, x = n ∧ 1 ≤ n ∧ n ≤ 28
  | .places => ∃ n : ℕ, x = n ∧ n ≤ 28
  | .positive => 0 < x
  | .nonNegative => 0 ≤ x
  | .fraction => 0 ≤ x ∧ x ≤ 1

theorem Range.figures_allows_natCast {n : ℕ} : figures.Allows n ↔ 1 ≤ n ∧ n ≤ 28 := by
  simp [Allows]

theorem Range.places_allows_natCast {n : ℕ} : places.Allows n ↔ n ≤ 28 := by
  simp [Allows]

section Reports

variable {α β : Type} {r : Except Error α} {what : String} {range : Range} {x : ℚ}

/-- The computation reports a number with the value `x` as outside the range. -/
def ReportsRange (r : Except Error α) (what : String) (range : Range) (x : ℚ) : Prop :=
  ∃ n : Decimal, n.toRat = x ∧ r = .error (.outOfRange what n range)

/-- The computation does not report any number as outside any range. -/
def ReportsNoRange (r : Except Error α) : Prop :=
  Fails r fun e => ∀ what n range, e ≠ .outOfRange what n range

theorem ReportsNoRange.not_reportsRange (h : ReportsNoRange r) : ¬ReportsRange r what range x := by
  rintro ⟨n, -, hn⟩
  exact h _ hn _ _ _ rfl

theorem reportsRange_error (n : Decimal) :
    ReportsRange (.error (.outOfRange what n range) : Except Error α) what range n.toRat :=
  ⟨n, rfl, rfl⟩

theorem reportsNoRange_orError (o : Option α) {e : Error}
    (he : ∀ what n range, e ≠ .outOfRange what n range) : ReportsNoRange (orError o e) :=
  fails_orError o he

theorem reportsNoRange_overflow (o : Option α) (operation : String) :
    ReportsNoRange (orError o (.overflow operation)) := by
  refine reportsNoRange_orError o fun what n range h => ?_
  cases h

theorem reportsNoRange_withMagnitude (v : Value) (n : Decimal) :
    ReportsNoRange (v.withMagnitude n) := reportsNoRange_orError _ nofun

end Reports

namespace Napkin

section Figures

variable {a : Decimal} {v : Value} {figures : ℕ}

theorem round_zero (a : Decimal) :
    round a 0 = .error (.outOfRange "napkin significant figures" .zero .figures) := rfl

theorem reportsNoRange_round (a : Decimal) (h : figures ≠ 0) :
    ReportsNoRange (round a figures) := by
  rw [round, if_neg h]
  exact fails_ite (fun _ => fails_ok _) fun _ => reportsNoRange_overflow _ _

theorem reportsNoRange_scaledText (a : Decimal) (h : figures ≠ 0) (ps : List (ℕ × String)) :
    ReportsNoRange (scaledText a figures ps) := by
  induction ps with
  | nil => exact fails_ok _
  | cons p rest ih =>
    rw [scaledText]
    split
    · exact fails_ite (fun _ => fails_bind (reportsNoRange_round _ h) fun _ _ => fails_ok _)
        fun _ => ih
    · exact ih

theorem reportsNoRange_numberText (a : Decimal) (h : figures ≠ 0) :
    ReportsNoRange (numberText a figures) :=
  fails_bind (reportsNoRange_round a h) fun r _ => reportsNoRange_scaledText r h _

theorem reportsNoRange_roundValue (v : Value) (h : figures ≠ 0) :
    ReportsNoRange (roundValue v figures) := by
  refine fails_bind (reportsNoRange_orError _ nofun) fun n _ => ?_
  exact fails_bind (reportsNoRange_round n h) fun r _ => reportsNoRange_withMagnitude v r

theorem reportsNoRange_valueText (v : Value) (h : figures ≠ 0) :
    ReportsNoRange (valueText v figures) := by
  have hbody (n : Decimal) := reportsNoRange_numberText n h
  cases v with
  | number n => exact hbody n
  | money m => exact fails_bind (hbody _) fun _ _ => fails_ok _
  | quantity q => exact fails_bind (hbody _) fun _ _ => fails_ok _
  | rate r => exact fails_bind (hbody _) fun _ _ => fails_ok _
  | duration d => exact fails_bind (hbody _) fun _ _ => fails_ok _
  | date d => exact fails_ok _
  | time t => exact fails_ok _
  | boolean b => exact fails_ok _

/-- What comes of so many figures: only none at all is reported. -/
structure ReportsNone {α : Type} (r : Except Error α) (figures : ℕ) : Prop where
  zero : figures = 0 → r = .error (.outOfRange "napkin significant figures" .zero .figures)
  other : figures ≠ 0 → ReportsNoRange r

theorem reportsNone_round (a : Decimal) (figures : ℕ) : ReportsNone (round a figures) figures where
  zero h := by rw [h, round_zero]
  other := reportsNoRange_round a

theorem reportsNone_numberText (a : Decimal) (figures : ℕ) :
    ReportsNone (numberText a figures) figures where
  zero h := by rw [h, numberText, round_zero]; rfl
  other := reportsNoRange_numberText a

theorem reportsNone_roundValue (hv : v.magnitude?.isSome) (figures : ℕ) :
    ReportsNone (roundValue v figures) figures where
  zero h := by
    obtain ⟨n, hn⟩ := Option.isSome_iff_exists.mp hv
    rw [h, roundValue, hn]
    rfl
  other := reportsNoRange_roundValue v

theorem reportsNone_valueText (hv : v.magnitude?.isSome) (figures : ℕ) :
    ReportsNone (valueText v figures) figures where
  zero h := by
    have hbody (a : Decimal) := (reportsNone_numberText a figures).zero h
    cases v with
    | number n => exact hbody n
    | money m => rw [valueText, hbody]; rfl
    | quantity q => rw [valueText, hbody]; rfl
    | rate r => rw [valueText, hbody]; rfl
    | duration d => rw [valueText, hbody]; rfl
    | date d => cases hv
    | time t => cases hv
    | boolean b => cases hv
  other := reportsNoRange_valueText v

/-- The lower end of the range is kept, and the upper end is not. -/
theorem ReportsNone.exact_iff {α : Type} {r : Except Error α} (h : ReportsNone r figures) :
    (ReportsRange r "napkin significant figures" .figures figures ↔
      ¬Range.figures.Allows (figures : ℚ)) ↔ ¬28 < figures := by
  rw [Range.figures_allows_natCast]
  rcases Nat.eq_zero_or_pos figures with rfl | hpos
  · have hreport : ReportsRange r "napkin significant figures" .figures Decimal.zero.toRat := by
      rw [h.zero rfl]
      exact reportsRange_error Decimal.zero
    rw [Decimal.toRat_zero] at hreport
    simp [hreport]
  · have hreport : ¬ReportsRange r "napkin significant figures" .figures (figures : ℚ) :=
      (h.other hpos.ne').not_reportsRange
    simp only [hreport, false_iff, not_not]
    omega

end Figures

end Napkin

namespace Decimal

section Count

variable {n : Decimal} {k : ℕ}

/-- A zero with a minus sign. -/
def IsMinusZero (n : Decimal) : Prop := n.isZero = true ∧ n.negative = true

/-- A count that is above both ranges of counts, and a count all the same. -/
def IsLargeCount (n : Decimal) : Prop := ∃ k : ℕ, n.toRat = k ∧ 28 < k ∧ k < 2 ^ 32

theorem not_isLargeCount_of_none (h : n.toCount? = none) : ¬n.IsLargeCount := by
  rintro ⟨k, hk, hlarge, hlt⟩
  rw [toCount?_of_pos hk (by omega) hlt] at h
  cases h

theorem isLargeCount_iff (h : n.toCount? = some k) : n.IsLargeCount ↔ 28 < k := by
  obtain ⟨-, hk, hlt⟩ := toCount?_eq_some_iff.mp h
  constructor
  · rintro ⟨l, hl, hlarge, -⟩
    rw [hk, Nat.cast_inj] at hl
    omega
  · exact fun hlarge => ⟨k, hk, hlarge, hlt⟩

theorem not_figures_allows_of_none (h : n.toCount? = none) : ¬Range.figures.Allows n.toRat := by
  rintro ⟨k, hk, hpos, hle⟩
  rw [toCount?_of_pos hk hpos (by omega)] at h
  cases h

theorem places_allows_iff_of_none (h : n.toCount? = none) :
    Range.places.Allows n.toRat ↔ n.IsMinusZero := by
  constructor
  · rintro ⟨k, hk, hle⟩
    rcases Nat.eq_zero_or_pos k with rfl | hpos
    · refine ⟨(isZero_iff n).mpr (by rw [hk, Nat.cast_zero]), ?_⟩
      by_contra hsign
      rw [toCount?_eq_some_iff.mpr ⟨by simpa using hsign, hk, by omega⟩] at h
      cases h
    · rw [toCount?_of_pos hk hpos (by omega)] at h
      cases h
  · rintro ⟨hzero, -⟩
    exact ⟨0, by rw [(isZero_iff n).mp hzero, Nat.cast_zero], by omega⟩

end Count

end Decimal

section Counted

variable {α : Type} {n : Decimal}

/-- A count as a second argument, and what the function makes of it. -/
def counted (what : String) (range : Range) (n : Decimal) (g : ℕ → Except Error α) :
    Except Error α :=
  orError n.toCount? (.outOfRange what n range) >>= g

/-- The range of figures is kept, but for large counts. -/
theorem counted_figures_exact_iff {g : ℕ → Except Error α}
    (hg : ∀ k, Napkin.ReportsNone (g k) k) :
    (ReportsRange (counted "napkin significant figures" .figures n g) "napkin significant figures"
        .figures n.toRat ↔ ¬Range.figures.Allows n.toRat) ↔ ¬n.IsLargeCount := by
  cases h : n.toCount? with
  | none =>
    have hnone := Decimal.not_isLargeCount_of_none h
    refine iff_of_true (iff_of_true ?_ (Decimal.not_figures_allows_of_none h)) hnone
    rw [counted, h]
    exact reportsRange_error n
  | some k =>
    obtain ⟨-, hk, -⟩ := Decimal.toCount?_eq_some_iff.mp h
    rw [counted, h, hk, Decimal.isLargeCount_iff h]
    exact (hg k).exact_iff

/-- The range of places is kept, but for large counts and for a zero with a minus sign. -/
theorem counted_places_exact_iff {g : ℕ → Except Error α}
    (hg : ∀ k, ReportsNoRange (g k)) :
    (ReportsRange (counted "round decimal places" .places n g) "round decimal places" .places
        n.toRat ↔ ¬Range.places.Allows n.toRat) ↔ ¬(n.IsLargeCount ∨ n.IsMinusZero) := by
  cases h : n.toCount? with
  | none =>
    have hreport : ReportsRange (counted "round decimal places" .places n g) "round decimal places"
        .places n.toRat := by
      rw [counted, h]
      exact reportsRange_error n
    rw [Decimal.places_allows_iff_of_none h]
    simp [hreport, Decimal.not_isLargeCount_of_none h]
  | some k =>
    obtain ⟨hsign, hk, -⟩ := Decimal.toCount?_eq_some_iff.mp h
    have hreport : ¬ReportsRange (counted "round decimal places" .places n g) "round decimal places"
        .places n.toRat := by
      rw [counted, h]
      exact (hg k).not_reportsRange
    have hzero : ¬n.IsMinusZero := fun h => Bool.false_ne_true (hsign.symm.trans h.2)
    rw [Decimal.isLargeCount_iff h]
    simp only [hreport, hzero, false_iff, not_not, or_false]
    rw [hk, Range.places_allows_natCast, not_lt]

end Counted

namespace Expression

open Evaluation (outcome)

variable {limits : Limits} {c d d' : Context} {function word : String} {e x : Expression}
  {v : Value} {n : Decimal}

theorem outcome_readArguments_value {p : Parameter}
    (he : outcome (evaluate limits e) c = (.ok v, d)) :
    outcome (readArguments limits word [.one .value, .optional p] 1 [e]) c =
      (.ok (v, none, ()), d) := by
  rw [readArguments]
  refine (Evaluation.outcome_bind_of_ok he _).trans ?_
  rw [readArguments]
  rfl

theorem outcome_readArguments_counted {what : String} {range : Range}
    (he : outcome (evaluate limits e) c = (.ok v, d))
    (hx : outcome (evaluate limits x) d = (.ok (.number n), d')) :
    outcome (readArguments limits word [.one .value, .optional (.count what range)] 1 [e, x]) c =
      (counted what range n fun k => .ok (v, some k, ()), d') := by
  have hread : outcome ((Parameter.count what range).read word 2 x (evaluate limits x)) d =
      (orError n.toCount? (.outOfRange what n range), d') := by
    rw [outcome_read_of_not_taken rfl, hx]
    rfl
  rw [readArguments]
  refine (Evaluation.outcome_bind_of_ok he _).trans ?_
  rw [readArguments, bind_assoc, counted]
  -- What is no count ends the reading, so the function never sees it.
  cases h : n.toCount? with
  | some k =>
    rw [h] at hread
    refine (Evaluation.outcome_bind_of_ok hread _).trans ?_
    rw [readArguments]
    rfl
  | none =>
    rw [h] at hread
    exact Evaluation.outcome_bind_of_error hread _

theorem outcome_napkin (he : outcome (evaluate limits e) c.deeper = (.ok v, d))
    (figures : Option ℕ) : (outcome (evaluate limits (.napkin e figures)) c).1 =
      Napkin.roundValue v (figures.getD limits.figures) := by
  rw [evaluate]
  exact congrArg Prod.fst
    (Evaluation.outcome_nested_of_le (depth_lt_of_operand he) (Evaluation.outcome_bind_of_ok he _))

theorem outcome_napkin_call (hf : Function.named? (Text.keyword function) = some .napkin)
    (he : outcome (evaluate limits e) c.deeper = (.ok v, d)) :
    (outcome (evaluate limits (.call function [e])) c).1 = Napkin.roundValue v limits.figures :=
  outcome_call (f := .napkin) hf rfl (depth_lt_of_operand he) (outcome_readArguments_value he)

theorem outcome_napkin_counted (hf : Function.named? (Text.keyword function) = some .napkin)
    (he : outcome (evaluate limits e) c.deeper = (.ok v, d))
    (hx : outcome (evaluate limits x) d = (.ok (.number n), d')) :
    (outcome (evaluate limits (.call function [e, x])) c).1 =
      counted "napkin significant figures" .figures n (Napkin.roundValue v) :=
  (outcome_call (f := .napkin) hf rfl (depth_lt_of_operand he)
    (outcome_readArguments_counted he hx)).trans (bind_assoc _ _ _)

theorem outcome_round_counted (hf : Function.named? (Text.keyword function) = some .round)
    (he : outcome (evaluate limits e) c.deeper = (.ok v, d))
    (hx : outcome (evaluate limits x) d = (.ok (.number n), d')) :
    (outcome (evaluate limits (.call function [e, x])) c).1 =
      counted "round decimal places" .places n fun places =>
        v.round (Text.keyword function) places :=
  (outcome_call (f := .round) hf rfl (depth_lt_of_operand he)
    (outcome_readArguments_counted he hx)).trans (bind_assoc _ _ _)

end Expression

section Numbers

/-- A check whose condition is that of the range, before steps that report no range. -/
theorem reportsRange_iff_of_check {α : Type} {r : Except Error α} {what : String} {range : Range}
    {n : Decimal}
    (hbad : ¬range.Allows n.toRat → r = .error (.outOfRange what n range))
    (hgood : range.Allows n.toRat → ReportsNoRange r) :
    ReportsRange r what range n.toRat ↔ ¬range.Allows n.toRat := by
  constructor
  · exact fun hreport hallows => (hgood hallows).not_reportsRange hreport
  · intro h
    rw [hbad h]
    exact reportsRange_error n

theorem reportsRange_downtime_iff (availability : Decimal) (period : Duration) :
    ReportsRange (Estimate.downtime availability period) "availability" .fraction
      availability.toRat ↔ ¬Range.fraction.Allows availability.toRat := by
  have hcheck : (availability.lt .zero || Decimal.one.lt availability) = true ↔
      ¬Range.fraction.Allows availability.toRat := by
    rw [Bool.or_eq_true, Decimal.lt_iff, Decimal.lt_iff, Decimal.toRat_zero, Decimal.toRat_one,
      Range.Allows, not_and_or, not_le, not_le]
  apply reportsRange_iff_of_check
  · exact fun h => if_pos (hcheck.mpr h)
  · intro h
    rw [Estimate.downtime, if_neg (mt hcheck.mp (not_not.mpr h))]
    refine fails_bind (reportsNoRange_overflow _ _) fun seconds _ => ?_
    exact fails_bind (reportsNoRange_overflow _ _) fun down _ => fails_ok _

theorem reportsRange_requires_iff {load capacity : Value} {buffer : Option Decimal} {l n : Decimal}
    (hbuffer : (buffer.getD .zero).isBelowZero = false)
    (h : Capacity.comparable load capacity = .ok (l, n)) :
    ReportsRange (Capacity.requires load capacity buffer) "capacity" .positive n.toRat ↔
      ¬Range.positive.Allows n.toRat := by
  have hcheck : n.le .zero = true ↔ ¬Range.positive.Allows n.toRat := by
    rw [Decimal.le_iff, Decimal.toRat_zero, Range.Allows, not_lt]
  rw [Capacity.requires, hbuffer, h, if_neg Bool.false_ne_true, ok_bind]
  apply reportsRange_iff_of_check
  · exact fun h => if_pos (hcheck.mpr h)
  · intro h
    dsimp only
    rw [if_neg (mt hcheck.mp (not_not.mpr h))]
    refine fails_ite (fun _ => fails_error ?_) fun _ => reportsNoRange_overflow _ _
    intro what n range h
    cases h

theorem reportsRange_bind_pure_iff {α β : Type} (r : Except Error α) (f : α → β) {what : String}
    {range : Range} {x : ℚ} :
    ReportsRange (r >>= fun a => pure (f a)) what range x ↔ ReportsRange r what range x := by
  cases r with
  | ok a => exact iff_of_false (fun ⟨_, _, h⟩ => nomatch h) fun ⟨_, _, h⟩ => nomatch h
  | error e =>
    refine exists_congr fun n => and_congr_right fun _ => ?_
    exact ⟨fun h => by cases h; rfl, fun h => by cases h; rfl⟩

theorem reportsRange_declare_iff {env : Environment} {space key source target : String}
    {n : Decimal} (hspace : Text.lower (Text.trim space) = "exchange")
    (hkey : Environment.codes key = .ok (source, target)) :
    ReportsRange (env.declare space key (.number n)) ("exchange rate " ++ key) .positive n.toRat ↔
      ¬Range.positive.Allows n.toRat := by
  have hcheck : Decimal.zero.lt n = true ↔ Range.positive.Allows n.toRat := by
    rw [Decimal.lt_iff, Decimal.toRat_zero, Range.Allows]
  have hglobal : Text.lower (Text.trim space) ≠ "global" := by rw [hspace]; decide
  rw [Environment.declare, if_neg hglobal, if_pos hspace, hkey, ok_bind]
  apply reportsRange_iff_of_check
  · exact fun h => if_neg (mt hcheck.mp h)
  · intro h
    simp only [hcheck.mpr h, if_true]
    exact fails_ok _

/-- The base of a power that is not whole may not be written below zero, be it a zero. -/
theorem power_exact_base_iff {a e : Decimal} (env : Environment) (he : e.isWhole = false)
    (hstop : ¬(a.isZero = true ∧ e.negative = true)) :
    (ReportsRange ((Value.number a).combine .power (.number e) env) "fractional exponent base"
        .nonNegative a.toRat ↔ ¬Range.nonNegative.Allows a.toRat) ↔ ¬a.IsMinusZero := by
  have hpower : a.power e =
      if a.negative then .error (.outOfRange "fractional exponent base" a .nonNegative)
      else orError (a.powReal e) (.overflow ArithmeticOperator.power.name) := by
    rw [← Bool.and_eq_true] at hstop
    rw [Decimal.power, if_neg hstop, he, if_neg Bool.false_ne_true]
  have hallows : Range.nonNegative.Allows a.toRat ↔ (a.negative && !a.isZero) = false := by
    rw [← Decimal.isBelowZero, Decimal.isBelowZero_eq_false_iff, Range.Allows]
  rw [Value.combine_power, hpower, hallows, Decimal.IsMinusZero]
  by_cases hsign : a.negative = true
  · have hreport : ReportsRange ((Except.error (.outOfRange "fractional exponent base" a
        .nonNegative)).map Value.number) "fractional exponent base" .nonNegative a.toRat :=
      reportsRange_error a
    rw [if_pos hsign, iff_true_left hreport, hsign, Bool.true_and, Bool.not_eq_false',
      and_iff_left rfl]
  · have hreport : ReportsNoRange ((orError (a.powReal e)
        (.overflow ArithmeticOperator.power.name)).map Value.number) :=
      fails_map (reportsNoRange_overflow _ _)
    rw [if_neg hsign, iff_false_left hreport.not_reportsRange, not_not]
    have hplain : a.negative = false := by simpa using hsign
    exact iff_of_true (by rw [hplain, Bool.false_and]) fun h => hsign h.2

end Numbers

section Operations

open Evaluation (outcome)
open Expression (evaluate)

/-- The operations that ask for a number in a range, where the checks before that one are passed:
what comes of the operation, what the number is called, the range, the number, and the numbers that
the operation is mistaken about. -/
inductive ChecksRange : {α : Type} → Except Error α → String → Range → ℚ → Prop → Prop
  | round (a : Decimal) (figures : ℕ) :
      ChecksRange (Napkin.round a figures) "napkin significant figures" .figures figures
        (28 < figures)
  | numberText (a : Decimal) (figures : ℕ) :
      ChecksRange (Napkin.numberText a figures) "napkin significant figures" .figures figures
        (28 < figures)
  | roundValue {v : Value} (hv : v.magnitude?.isSome) (figures : ℕ) :
      ChecksRange (Napkin.roundValue v figures) "napkin significant figures" .figures figures
        (28 < figures)
  | valueText {v : Value} (hv : v.magnitude?.isSome) (figures : ℕ) :
      ChecksRange (Napkin.valueText v figures) "napkin significant figures" .figures figures
        (28 < figures)
  | node {limits : Limits} {c d : Context} {e : Expression} {v : Value}
      (he : outcome (evaluate limits e) c.deeper = (.ok v, d)) (hv : v.magnitude?.isSome)
      (figures : Option ℕ) :
      ChecksRange (outcome (evaluate limits (.napkin e figures)) c).1 "napkin significant figures"
        .figures (figures.getD limits.figures : ℕ) (28 < figures.getD limits.figures)
  | call {limits : Limits} {c d : Context} {function : String} {e : Expression} {v : Value}
      (hf : Function.named? (Text.keyword function) = some .napkin)
      (he : outcome (evaluate limits e) c.deeper = (.ok v, d)) (hv : v.magnitude?.isSome) :
      ChecksRange (outcome (evaluate limits (.call function [e])) c).1 "napkin significant figures"
        .figures limits.figures (28 < limits.figures)
  | callFigures {limits : Limits} {c d d' : Context} {function : String} {e x : Expression}
      {v : Value} {n : Decimal} (hf : Function.named? (Text.keyword function) = some .napkin)
      (he : outcome (evaluate limits e) c.deeper = (.ok v, d)) (hv : v.magnitude?.isSome)
      (hx : outcome (evaluate limits x) d = (.ok (.number n), d')) :
      ChecksRange (outcome (evaluate limits (.call function [e, x])) c).1
        "napkin significant figures" .figures n.toRat n.IsLargeCount
  | callPlaces {limits : Limits} {c d d' : Context} {function : String} {e x : Expression}
      {v : Value} {n : Decimal} (hf : Function.named? (Text.keyword function) = some .round)
      (he : outcome (evaluate limits e) c.deeper = (.ok v, d))
      (hx : outcome (evaluate limits x) d = (.ok (.number n), d')) :
      ChecksRange (outcome (evaluate limits (.call function [e, x])) c).1 "round decimal places"
        .places n.toRat (n.IsLargeCount ∨ n.IsMinusZero)
  | availability (n : Decimal) (period : Duration) :
      ChecksRange (Estimate.downtime n period) "availability" .fraction n.toRat False
  | capacity {load capacity : Value} {buffer : Option Decimal} {l n : Decimal}
      (hbuffer : (buffer.getD .zero).isBelowZero = false)
      (h : Capacity.comparable load capacity = .ok (l, n)) :
      ChecksRange (Capacity.requires load capacity buffer) "capacity" .positive n.toRat False
  | capacityAt {load capacity : Value} {buffer : Option Decimal} {l n : Decimal}
      (hbuffer : (buffer.getD .zero).isBelowZero = false)
      (h : Capacity.comparable load capacity = .ok (l, n)) (unit : String) :
      ChecksRange (Capacity.capacityAt load capacity unit buffer) "capacity" .positive n.toRat False
  | exchangeRate {space key source target : String}
      (hspace : Text.lower (Text.trim space) = "exchange")
      (hkey : Environment.codes key = .ok (source, target)) (env : Environment) (n : Decimal) :
      ChecksRange (env.declare space key (.number n)) ("exchange rate " ++ key) .positive n.toRat
        False
  | base {n exponent : Decimal} (hwhole : exponent.isWhole = false)
      (hstop : ¬(n.isZero = true ∧ exponent.negative = true)) (env : Environment) :
      ChecksRange ((Value.number n).combine .power (.number exponent) env)
        "fractional exponent base" .nonNegative n.toRat n.IsMinusZero

/-- An operation reports the numbers outside its range and no others, unless it is mistaken about
the number. The checks of availability, capacity and exchange rates are never mistaken; those of
figures and places are about large counts, and those of places and bases about a zero with a minus
sign. -/
theorem range_exact_iff {α : Type} {r : Except Error α} {what : String} {range : Range} {q : ℚ}
    {mistaken : Prop} (h : ChecksRange r what range q mistaken) :
    (ReportsRange r what range q ↔ ¬range.Allows q) ↔ ¬mistaken := by
  cases h with
  | round a figures => exact (Napkin.reportsNone_round a figures).exact_iff
  | numberText a figures => exact (Napkin.reportsNone_numberText a figures).exact_iff
  | roundValue hv figures => exact (Napkin.reportsNone_roundValue hv figures).exact_iff
  | valueText hv figures => exact (Napkin.reportsNone_valueText hv figures).exact_iff
  | node he hv figures =>
    rw [Expression.outcome_napkin he]
    exact (Napkin.reportsNone_roundValue hv _).exact_iff
  | call hf he hv =>
    rw [Expression.outcome_napkin_call hf he]
    exact (Napkin.reportsNone_roundValue hv _).exact_iff
  | callFigures hf he hv hx =>
    rw [Expression.outcome_napkin_counted hf he hx]
    exact counted_figures_exact_iff (Napkin.reportsNone_roundValue hv)
  | callPlaces hf he hx =>
    rw [Expression.outcome_round_counted hf he hx]
    refine counted_places_exact_iff fun k => ?_
    exact fails_bind (reportsNoRange_orError _ nofun) fun m _ => reportsNoRange_withMagnitude _ _
  | availability n period => exact iff_of_true (reportsRange_downtime_iff n period) not_false
  | capacity hbuffer h => exact iff_of_true (reportsRange_requires_iff hbuffer h) not_false
  | capacityAt hbuffer h unit =>
    refine iff_of_true ?_ not_false
    rw [Capacity.capacityAt, reportsRange_bind_pure_iff]
    exact reportsRange_requires_iff hbuffer h
  | exchangeRate hspace hkey env n =>
    exact iff_of_true (reportsRange_declare_iff hspace hkey) not_false
  | base hwhole hstop env => exact power_exact_base_iff env hwhole hstop

/-- Five with five places is a call that passes all checks before that of the range. -/
theorem range_exact_places :
    let r := (outcome (evaluate .standard (.call "round" [.number "5", .number "5"]))
      (Context.start .initial)).1
    let n : Decimal := .ofLiteral 5 0
    ChecksRange r "round decimal places" .places n.toRat (n.IsLargeCount ∨ n.IsMinusZero) ∧
      (ReportsRange r "round decimal places" .places n.toRat ↔ ¬Range.places.Allows n.toRat) := by
  intro r n
  have hname : Function.named? (Text.keyword "round") = some .round := by decide +kernel
  have hread : NumberLiteral.read "5" = .ok n := by decide +kernel
  have hfive := Expression.outcome_number .standard (Context.start .initial).deeper hread
    (by decide)
  have hchecks : ChecksRange r "round decimal places" .places n.toRat
      (n.IsLargeCount ∨ n.IsMinusZero) := .callPlaces hname hfive hfive
  have hcount : n.toCount? = some 5 := by decide +kernel
  have hplain : ¬n.IsMinusZero := fun h => absurd h.2 (by decide +kernel)
  refine ⟨hchecks, (range_exact_iff hchecks).mpr (not_or.mpr ⟨?_, hplain⟩)⟩
  rw [Decimal.isLargeCount_iff hcount]
  omega

/-- 29 figures are let through, and a zero with a minus sign is kept from being a count of places
and the base of a power that is not whole. -/
theorem range_not_exact :
    let a : Decimal := .ofLiteral 15 1
    let minus := Decimal.zero.neg
    (Napkin.round a 29 = .ok a ∧ ¬Range.figures.Allows (29 : ℕ)) ∧
      ((outcome (evaluate .standard (.call "round" [.number "5", .unary .negate (.number "0")]))
          (Context.start .initial)).1 = .error (.outOfRange "round decimal places" minus .places) ∧
        Range.places.Allows minus.toRat) ∧
      (Value.number minus).combine .power (.number (.ofLiteral 5 1)) .initial =
          .error (.outOfRange "fractional exponent base" minus .nonNegative) ∧
        Range.nonNegative.Allows minus.toRat := by
  intro a minus
  have hminus : minus.toRat = 0 := by rw [Decimal.toRat_neg, Decimal.toRat_zero, neg_zero]
  have hname : Function.named? (Text.keyword "round") = some .round := by decide +kernel
  have hread : NumberLiteral.read "5" = .ok (.ofLiteral 5 0) := by decide +kernel
  have hreadZero : NumberLiteral.read "0" = .ok .zero := by decide +kernel
  have hfive := Expression.outcome_number .standard (Context.start .initial).deeper hread
    (by decide)
  have hzero := Expression.outcome_negate (Expression.outcome_number .standard
    (Context.start .initial).deeper.deeper hreadZero (by decide))
  rw [Expression.outcome_round_counted hname hfive hzero, hminus, Range.figures_allows_natCast]
  exact ⟨⟨by decide +kernel, by omega⟩, ⟨rfl, 0, by norm_num, by omega⟩, by decide +kernel, le_rfl⟩

end Operations

end Reckoner
