import Reckoner.Proofs.Evaluation.Reached
import Reckoner.Proofs.Text.Trim
import Reckoner.Proofs.Value.Reconvert
import Reckoner.Proofs.Value.Shape
/-!
Quantities and rates whose unit has a name: a text without blanks at its ends that is not empty.
Main statements: what an operation makes of such values is such a value, but for two that take a
unit from a text without looking at it, the conversion of a bare number and the label of a capacity;
everywhere else a blank text is refused.
-/
namespace Reckoner

/-- The unit is written without blanks at its ends, and it is not empty. -/
structure NamedUnit (unit : String) : Prop where
  trim_eq : Text.trim unit = unit
  ne_empty : unit ≠ ""

theorem namedUnit_trim {unit : String} (h : Text.trim unit ≠ "") : NamedUnit (Text.trim unit) :=
  ⟨Text.trim_trim unit, h⟩

/-- The unit of a quantity, or of what a rate counts, is a named one. -/
def Shape.Named : Shape → Prop
  | quantity unit => NamedUnit unit
  | rate unit => NamedUnit unit
  | _ => True

/-- A value that is named in its shape. -/
structure Value.Named (v : Value) : Prop where
  shape : v.shape.Named

namespace Shape

/-- An operator takes the unit of its result, if there is one, from one of its operands. -/
theorem Named.combine {l r : Shape} (hl : l.Named) (hr : r.Named) (op : ArithmeticOperator) :
    (combine op l r).Named := by
  unfold Shape.combine
  split
  -- Each arm takes the shape of an operand or gives one without a unit.
  all_goals first | exact hl | exact hr | (split <;> first | exact trivial | exact hl)

theorem named_aggregate (shapes : List Shape) : (aggregate shapes).Named := by
  unfold aggregate
  split <;> exact trivial

end Shape

/-- Wherever a computation gives a value of a named shape, it gives a named value. -/
theorem Gives.named {x : Except Error Value} {s : Shape} (hx : Gives x (·.shape = s))
    (hs : s.Named) : Gives x Value.Named :=
  hx.imp fun _ hv => ⟨hv ▸ hs⟩

section Literals

variable (amount unit per : String)

theorem Value.gives_readQuantity_named : Gives (readQuantity amount unit) Named := by
  refine gives_after fun n => ?_
  dsimp only
  split
  · exact gives_error _
  · next hempty =>
    have hunit : NamedUnit (Text.trim unit) :=
      namedUnit_trim fun h => hempty (String.isEmpty_iff.mpr h)
    generalize TimeUnit.ofString? (Text.trim unit) = time
    cases time with
    | some u => exact gives_ok ⟨trivial⟩
    | none => exact gives_ok ⟨hunit⟩

theorem Rate.gives_read_named : Gives (Rate.read amount unit per) (NamedUnit ·.amount.unit) := by
  unfold Rate.read
  refine gives_ite (fun _ => gives_error _) fun hempty => gives_after fun n => ?_
  have hunit : NamedUnit (Text.trim unit) :=
    namedUnit_trim fun h => hempty (String.isEmpty_iff.mpr h)
  exact (gives_make _ per).imp fun r hr => hr ▸ hunit

theorem Value.gives_literal_named {e : Expression} {r : Except Error Value}
    (h : e.literal? = some r) : Gives r Named := by
  cases e with
  | quantity amount unit =>
    rw [← Option.some.inj h]
    exact gives_readQuantity_named amount unit
  | rate amount unit per =>
    rw [← Option.some.inj h]
    exact gives_map ((Rate.gives_read_named amount unit per).imp fun _ hr => ⟨hr⟩)
  | number | boolean | date | time | currency | duration =>
    rw [← Option.some.inj h]
    exact gives_map fun _ _ => ⟨trivial⟩
  | _ => cases h

end Literals

section Convert

theorem TimeUnit.ofString?_blank {unit : String} (h : Text.trim unit = "") :
    ofString? unit = none := by
  unfold ofString?
  rw [h]
  decide +kernel

theorem TimeUnit.ofString?_empty : ofString? "" = none := ofString?_blank (by decide +kernel)

theorem Rate.namedUnit_of_splitTarget {target unit per : String}
    (h : splitTarget target = some (unit, per)) : NamedUnit unit := by
  obtain ⟨⟨l, r⟩, -, h⟩ := Option.bind_eq_some_iff.mp h
  obtain ⟨hempty, h⟩ := Option.ite_none_left_eq_some.mp h
  cases h
  rw [Bool.or_eq_true, not_or] at hempty
  have htrim : String.ofList (Text.trimChars l) = Text.trim (String.ofList l) := by
    rw [Text.trim, String.toList_ofList]
  rw [htrim] at hempty ⊢
  exact namedUnit_trim fun h => hempty.1 (String.isEmpty_iff.mpr h)

/-- No unit is known by the empty text, so nothing is converted to it. -/
theorem Quantity.convert_empty {q : Quantity} (h : q.unit ≠ "") :
    q.convert "" = .error (.incompatibleUnits q.unit "") := by
  have hlookup : KnownUnit.lookup "" = none := by decide +kernel
  rw [convert, Decimal.convertUnit, if_neg h, hlookup]
  cases KnownUnit.lookup q.unit <;> rfl

theorem Quantity.gives_convert_named {q : Quantity} (h : q.unit ≠ "") {target : String}
    (ht : Text.trim target = target) : Gives (q.convert target) (NamedUnit ·.unit) := by
  by_cases hempty : target = ""
  · -- The unit would be blank, but there is no such conversion.
    rw [hempty, convert_empty h]
    exact gives_error _
  · exact (q.gives_convert target).imp fun p hp => hp ▸ ⟨ht, hempty⟩

theorem Rate.gives_convert_named {r : Rate} (h : NamedUnit r.amount.unit) (target : String) :
    Gives (r.convert target) fun s => (Value.rate s).Named := by
  refine (r.gives_convert target).imp fun s hs => ⟨?_⟩
  rw [hs, Shape.convert]
  generalize (TimeUnit.ofString? target).isSome = timed
  cases timed with
  | true => exact h
  | false =>
    cases hsplit : splitTarget target with
    | none => exact h
    | some units => exact namedUnit_of_splitTarget hsplit

/-- A target that a rate is converted to is a unit of time, or names a unit beside one. -/
theorem Rate.gives_convert_target (r : Rate) (target : String) :
    Gives (r.convert target) fun _ => (TimeUnit.ofString? target).isSome = true ∨
      ∃ unit per, splitTarget target = some (unit, per) ∧ NamedUnit unit := by
  refine gives_ite (fun htime _ _ => .inl htime) fun _ => ?_
  refine gives_bind (gives_orError fun units h => h) fun units h => fun _ _ => ?_
  exact .inr ⟨units.1, units.2, h, namedUnit_of_splitTarget h⟩

namespace Value

theorem named_ofNumber (n : Decimal) {target : String} (h : NamedUnit target) :
    (ofNumber n target).Named := by
  unfold ofNumber
  cases TimeUnit.ofString? target with
  | some unit => exact ⟨trivial⟩
  | none =>
    cases Money.targetCode? target with
    | some code =>
      dsimp only
      split
      · exact ⟨h⟩
      · exact ⟨trivial⟩
    | none => exact ⟨h⟩

theorem ofNumber_empty (n : Decimal) : ofNumber n "" = quantity ⟨n, ""⟩ := by
  have hcode : Money.targetCode? "" = none := by decide +kernel
  unfold ofNumber
  rw [TimeUnit.ofString?_empty]
  dsimp only
  rw [hcode]

theorem convert_number (n : Decimal) (target : String) (env : Environment) :
    (number n).convert target env = .ok (ofNumber n (Text.trim target)) := rfl

/-- A target that is looked at names the unit of what is converted to it. -/
theorem gives_convert_named {v : Value} (h : v.Named) {target : String}
    (ht : Text.trim target = "" → ∀ n, v ≠ number n) (env : Environment) :
    Gives (v.convert target env) Named := by
  cases v with
  | number n =>
    rw [convert_number]
    exact gives_ok (named_ofNumber n (namedUnit_trim fun hempty => ht hempty n rfl))
  | quantity q =>
    have hunit : NamedUnit q.unit := h.shape
    rw [convert_quantity]
    refine gives_map (.imp ?_ fun _ hp => ⟨hp⟩)
    exact Quantity.gives_convert_named hunit.ne_empty (Text.trim_trim target)
  | rate r =>
    rw [convert_rate]
    exact gives_map (Rate.gives_convert_named h.shape _)
  | money m => exact (gives_convert (money m) target env).named trivial
  | duration d => exact (gives_convert (duration d) target env).named trivial
  | _ => exact gives_error _

end Value
end Convert

section Blank

/-- What becomes of a blank text that stands for a unit. It is an error in a literal, as the unit of
time that a rate is changed to, and as the target of any value but a bare number; a bare number and
a capacity take it for their unit. -/
structure BlankUnit (unit : String) (env : Environment) : Prop where
  quantity : ∀ amount, ∃ x, Value.readQuantity amount unit = .error x
  duration : ∀ amount, ∃ x, Duration.read amount unit = .error x
  rate : ∀ amount per, ∃ x, Rate.read amount unit per = .error x
  per : ∀ amount counted, ∃ x, Rate.read amount counted unit = .error x
  retime : ∀ r : Rate, ∃ x, r.retime unit = .error x
  convert : ∀ v : Value, v.Named → (∀ n, v ≠ .number n) → ∃ x, v.convert unit env = .error x
  number : ∀ n, (Value.number n).convert unit env = .ok (.quantity ⟨n, ""⟩)
  capacity : ∀ load capacity buffer, Capacity.capacityAt load capacity unit buffer =
    (Capacity.requires load capacity buffer).map (⟨·, ""⟩)

theorem exists_error_of_gives {α : Type} {x : Except Error α} (h : Gives x fun _ => False) :
    ∃ err, x = .error err := by
  cases x with
  | ok a => exact (h a rfl).elim
  | error err => exact ⟨err, rfl⟩

variable {unit : String} (h : Text.trim unit = "")
include h

theorem TimeUnit.read_blank :
    read unit = .error (.unknownKeyword "time unit" "" (all.map name)) := by
  rw [read, ofString?_blank h, h, orError]

theorem Value.exists_convert_blank {v : Value} (hv : v.Named) (hne : ∀ n, v ≠ number n)
    (env : Environment) : ∃ x, v.convert unit env = .error x := by
  cases v with
  | number n => exact absurd rfl (hne n)
  | money m =>
    have hcode : Money.code? "" = none := by decide +kernel
    rw [convert_money, h, Money.exchange, hcode]
    exact ⟨_, rfl⟩
  | quantity q =>
    have hunit : NamedUnit q.unit := hv.shape
    rw [convert_quantity, h, Quantity.convert_empty hunit.ne_empty]
    exact ⟨_, rfl⟩
  | rate r =>
    have hsplit : Rate.splitTarget "" = none := by decide +kernel
    rw [convert_rate, h, Rate.convert, TimeUnit.ofString?_empty, hsplit]
    exact ⟨_, rfl⟩
  | duration d =>
    unfold convert
    simp only [h, TimeUnit.ofString?_empty]
    exact ⟨_, rfl⟩
  | _ => exact ⟨_, rfl⟩

theorem Rate.make_blank (amount : Quantity) : ∃ x, make amount unit = .error x := by
  dsimp only [make]
  rw [TimeUnit.read_blank ((Text.trim_trim unit).trans h)]
  exact ⟨_, rfl⟩

theorem blankUnit_of_trim (env : Environment) : BlankUnit unit env where
  quantity amount := by
    have hempty : (Text.trim unit).isEmpty = true := String.isEmpty_iff.mpr h
    refine exists_error_of_gives (gives_after fun n => ?_)
    exact gives_ite (fun _ => gives_error _) fun hne => absurd hempty hne
  duration amount := by
    rw [Duration.read, TimeUnit.read_blank h]
    exact ⟨_, rfl⟩
  rate amount per := by
    have hempty : (Text.trim unit).isEmpty = true := String.isEmpty_iff.mpr h
    unfold Rate.read
    exact ⟨_, if_pos hempty⟩
  per amount counted := by
    unfold Rate.read
    refine exists_error_of_gives (gives_ite (fun _ => gives_error _) fun _ => ?_)
    refine gives_after fun n => ?_
    obtain ⟨x, hx⟩ := Rate.make_blank h ⟨n, Text.trim counted⟩
    rw [hx]
    exact gives_error x
  retime r := by
    rw [Rate.retime, TimeUnit.read_blank h]
    exact ⟨_, rfl⟩
  convert v hv hne := Value.exists_convert_blank h hv hne env
  number n := by rw [Value.convert_number, h, Value.ofNumber_empty]
  capacity load capacity buffer := by
    unfold Capacity.capacityAt
    rw [h]
    cases Capacity.requires load capacity buffer <;> rfl

end Blank

namespace Parameter

/-- What is read of an argument has a named unit, if it has one. -/
def Named : (p : Parameter) → p.Meaning → Prop
  | .value, v => Value.Named v
  | .quantity, q => NamedUnit (Quantity.unit q)
  | .rate, r => NamedUnit (Rate.amount r).unit
  | _, _ => True

theorem gives_taken_named {p : Parameter} {word : String} {position : Nat} {e : Expression}
    {r : Except Error p.Meaning} (h : p.taken? word position e = some r) : Gives r p.Named := by
  cases p with
  | value => cases h
  | quantity => cases h
  | rate => cases h
  | _ => exact fun _ _ => trivial

theorem gives_ofValue_named (p : Parameter) (word : String) (position : Nat) {v : Value}
    (h : v.Named) : Gives (p.ofValue word position v) p.Named := by
  cases p with
  | value => exact gives_ok h
  | quantity => cases v <;> first | exact gives_ok h.shape | exact gives_error _
  | rate => cases v <;> first | exact gives_ok h.shape | exact gives_error _
  | _ => exact fun _ _ => trivial

end Parameter
end Reckoner
