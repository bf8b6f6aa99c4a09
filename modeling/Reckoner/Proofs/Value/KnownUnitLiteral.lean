import Mathlib.Data.List.Basic
import Reckoner.Literal.Value
import Reckoner.Proofs.Fails
import Reckoner.Proofs.Text.Trim
import Reckoner.Value.Arithmetic
/-!
Literals in known units. Units of time are looked up first, and one spelling is in both tables: `w`,
for the watt and for the week. Main statement: a number with the spelling of a known unit is a
quantity of that unit, which combines with all quantities of the unit's category, unless the
spelling is that letter.
-/
namespace Reckoner

namespace KnownUnit

/-- The category of a unit, if the unit is known. -/
def category? (name : String) : Option Category := (lookup name).map (·.category)

/-- A word is the spelling of a known unit. -/
def IsSpelling (word : String) : Prop := ∃ p ∈ spellings, p.1 = word

theorem isSpelling_of_isKnown {name : String} (h : isKnown name = true) :
    IsSpelling (Text.lower (Text.trim name)) := by
  rw [isKnown, lookup, Option.isSome_map, List.find?_isSome] at h
  simpa [IsSpelling] using h

theorem isEmpty_trim_of_isKnown {name : String} (h : isKnown name = true) :
    (Text.trim name).isEmpty = false := by
  by_contra hne
  have hempty : Text.trim name = "" := String.isEmpty_iff.mp (by simpa using hne)
  have hspelling := isSpelling_of_isKnown h
  rw [hempty, show Text.lower "" = "" from rfl] at hspelling
  -- No unit is spelled by a text of blanks.
  have hnone : ∀ p ∈ spellings, p.1 ≠ "" := by decide +kernel
  obtain ⟨p, hp, hword⟩ := hspelling
  exact hnone p hp hword

theorem exists_category {name : String} (h : isKnown name = true) :
    ∃ c, category? name = some c := by
  rw [← Option.isSome_iff_exists, category?, Option.isSome_map]
  exact h

@[simp] theorem category?_trim (name : String) : category? (Text.trim name) = category? name := by
  rw [category?, category?, lookup, lookup, Text.trim_trim]

end KnownUnit

namespace TimeUnit

/-- The unit that a word in lower case spells. -/
def ofWord? (word : String) : Option TimeUnit := all.find? fun u => u.spellings.contains word

theorem ofString?_trim (s : String) :
    ofString? (Text.trim s) = ofWord? (Text.lower (Text.trim s)) := by
  rw [ofString?, Text.trim_trim, ofWord?]

/-- The two tables of spellings share one letter. -/
theorem ofWord?_of_isSpelling {word : String} (h : KnownUnit.IsSpelling word) :
    ofWord? word = if word = "w" then some .week else none := by
  have hall : ∀ p ∈ KnownUnit.spellings, ofWord? p.1 = if p.1 = "w" then some .week else none := by
    decide +kernel
  obtain ⟨p, hp, rfl⟩ := h
  exact hall p hp

end TimeUnit

section Combine

/-- The failures of arithmetic on numbers. -/
def Error.IsArithmetic : Error → Prop
  | .overflow _ => True
  | .divisionByZero _ => True
  | _ => False

/-- A result is a quantity of a unit, or its number is out of range or was divided by zero. -/
structure Combines (unit : String) (x : Except Error Value) : Prop where
  gives : Gives x fun v => ∃ n, v = .quantity ⟨n, unit⟩
  fails : Fails x Error.IsArithmetic

theorem Decimal.fails_combine {op : ArithmeticOperator} (hop : op ≠ .power) (a b : Decimal) :
    Fails (Decimal.combine op a b) Error.IsArithmetic := by
  cases op with
  | power => exact absurd rfl hop
  | divide => exact fails_ite (fun _ => fails_error trivial) fun _ => fails_orError _ trivial
  | modulo => exact fails_ite (fun _ => fails_error trivial) fun _ => fails_orError _ trivial
  | _ => exact fails_orError _ trivial

theorem Decimal.fails_convertUnit {source target : String} {c : Category}
    (hs : KnownUnit.category? source = some c) (ht : KnownUnit.category? target = some c)
    (value : Decimal) : Fails (value.convertUnit source target) Error.IsArithmetic := by
  obtain ⟨u, hu, rfl⟩ := Option.map_eq_some_iff.mp hs
  obtain ⟨v, hv, he⟩ := Option.map_eq_some_iff.mp ht
  unfold convertUnit
  refine fails_ite (fun _ => fails_ok _) fun _ => ?_
  rw [hu, hv]
  refine fails_ite (fun hne => absurd he.symm hne) fun _ => ?_
  exact fails_ite (fun _ => fails_ok _) fun _ => fails_orError _ trivial

/-- Quantities of one category combine in the unit of the left one. -/
theorem Quantity.combines {p q : Quantity} {op : ArithmeticOperator} (hop : op ≠ .power)
    {c : Category} (hp : KnownUnit.category? p.unit = some c)
    (hq : KnownUnit.category? q.unit = some c) : Combines p.unit (p.combine op q) := by
  unfold Quantity.combine
  rw [if_neg hop]
  constructor
  · refine gives_after fun value => gives_after fun n => ?_
    exact gives_ok ⟨n, rfl⟩
  · refine fails_bind (Decimal.fails_convertUnit hq hp _) fun value _ => ?_
    exact fails_bind (Decimal.fails_combine hop _ _) fun n _ => fails_ok _

end Combine

namespace Value

theorem combine_quantities (p q : Quantity) (op : ArithmeticOperator) (env : Environment) :
    (quantity p).combine op (quantity q) env = p.combine op q :=
  rfl

theorem readQuantity_of_isKnown {amount unit : String} {n : Decimal}
    (hn : NumberLiteral.read amount = .ok n) (hunit : KnownUnit.isKnown unit = true) :
    readQuantity amount unit =
      .ok (if Text.lower (Text.trim unit) = "w" then .duration ⟨n, .week⟩
        else .quantity ⟨n, Text.trim unit⟩) := by
  have hspelling := KnownUnit.isSpelling_of_isKnown hunit
  have hempty := KnownUnit.isEmpty_trim_of_isKnown hunit
  -- The units of time are asked first, and they know one spelling of a known unit.
  have htime := (TimeUnit.ofString?_trim unit).trans (TimeUnit.ofWord?_of_isSpelling hspelling)
  rw [readQuantity, hn, ok_bind]
  dsimp only
  rw [hempty, htime, if_neg Bool.false_ne_true]
  generalize Text.lower (Text.trim unit) = word
  by_cases hw : word = "w"
  · rw [if_pos hw, if_pos hw]
    rfl
  · rw [if_neg hw, if_neg hw]
    rfl

/-- A number with a known unit stays a quantity of that unit as it was spelled, and combines with
the quantities of the unit's category on either side; the one letter that also spells a unit of time
is so many weeks. -/
theorem readQuantity_known {amount unit : String} {n : Decimal}
    (hn : NumberLiteral.read amount = .ok n) (hunit : KnownUnit.isKnown unit = true) :
    (Text.lower (Text.trim unit) = "w" → readQuantity amount unit = .ok (.duration ⟨n, .week⟩)) ∧
      (Text.lower (Text.trim unit) ≠ "w" →
        readQuantity amount unit = .ok (.quantity ⟨n, Text.trim unit⟩) ∧
          ∀ q : Quantity, KnownUnit.category? q.unit = KnownUnit.category? unit →
            ∀ op, op ≠ .power → ∀ env,
              Combines (Text.trim unit)
                  ((quantity ⟨n, Text.trim unit⟩).combine op (quantity q) env) ∧
                Combines q.unit
                  ((quantity q).combine op (quantity ⟨n, Text.trim unit⟩) env)) := by
  have hread := readQuantity_of_isKnown hn hunit
  constructor
  · intro hw
    rw [hread, if_pos hw]
  · intro hw
    refine ⟨by rw [hread, if_neg hw], fun q hq op hop env => ?_⟩
    obtain ⟨c, hc⟩ := KnownUnit.exists_category hunit
    have hp := (KnownUnit.category?_trim unit).trans hc
    have hq' := hq.trans hc
    rw [combine_quantities, combine_quantities]
    generalize Text.trim unit = name at hp
    exact ⟨Quantity.combines (p := ⟨n, name⟩) hop hp hq',
      Quantity.combines (q := ⟨n, name⟩) hop hq' hp⟩

theorem readQuantity_kilowatts :
    readQuantity "5" "kW" = .ok (.quantity ⟨.ofLiteral 5 0, "kW"⟩) := by
  have hn : NumberLiteral.read "5" = .ok (.ofLiteral 5 0) := eq_ok_of_toOption (by decide +kernel)
  have hunit : KnownUnit.isKnown "kW" = true := by decide +kernel
  have htrim : Text.trim "kW" = "kW" := by decide +kernel
  have hw : Text.lower (Text.trim "kW") ≠ "w" := by decide +kernel
  have h := ((readQuantity_known hn hunit).2 hw).1
  rwa [htrim] at h

/-- Five watts are five weeks. -/
theorem readQuantity_watts : ¬∀ amount unit n, NumberLiteral.read amount = .ok n →
    KnownUnit.isKnown unit = true →
      readQuantity amount unit = .ok (.quantity ⟨n, Text.trim unit⟩) := by
  intro hall
  have hn : NumberLiteral.read "5" = .ok (.ofLiteral 5 0) := eq_ok_of_toOption (by decide +kernel)
  have hweeks : readQuantity "5" "W" = .ok (.duration ⟨.ofLiteral 5 0, .week⟩) :=
    eq_ok_of_toOption (by decide +kernel)
  cases hweeks.symm.trans (hall "5" "W" _ hn (by decide +kernel))

end Value
end Reckoner
