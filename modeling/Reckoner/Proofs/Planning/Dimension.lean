import Mathlib.Logic.Basic
import Reckoner.Planning.Capacity
import Reckoner.Proofs.Gives
/-!
Which loads and capacities are refused for their units. Main statement: units that do not convert
into each other are refused, except where a rate meets a quantity of data a second and only the
bits a second of both are looked at.
-/
namespace Reckoner

/-- A computation fails because two units do not convert into each other. -/
def Refuses {α : Type} (x : Except Error α) : Prop :=
  ∃ source target, x = .error (.incompatibleUnits source target)

section Refuses

variable {α β : Type}

@[simp] theorem not_refuses_ok (a : α) : ¬Refuses (.ok a) := by
  rintro ⟨source, target, h⟩
  cases h

@[simp] theorem refuses_incompatibleUnits (source target : String) :
    Refuses (.error (.incompatibleUnits source target) : Except Error α) :=
  ⟨source, target, rfl⟩

/-- A computation of two steps refuses where one of its steps does. -/
theorem refuses_bind_iff (x : Except Error α) (f : α → Except Error β) :
    Refuses (x >>= f) ↔ Refuses x ∨ ∃ a, x = .ok a ∧ Refuses (f a) := by
  cases x with
  | ok a => simp [Refuses, bind, Except.bind]
  | error e => simp [Refuses, bind, Except.bind]

/-- A step that only carries a result on refuses where the step before it does. -/
theorem refuses_bind_pure_iff (x : Except Error α) (f : α → β) :
    Refuses (x >>= fun a => pure (f a)) ↔ Refuses x := by
  rw [refuses_bind_iff]
  refine or_iff_left ?_
  rintro ⟨a, -, h⟩
  exact not_refuses_ok (f a) h

theorem refuses_map_iff (x : Except Error α) (f : α → β) : Refuses (x.map f) ↔ Refuses x := by
  cases x with
  | ok a => simp [Except.map]
  | error e => simp [Except.map, Refuses]

theorem not_refuses_orError (o : Option α) {e : Error}
    (he : ∀ source target, e ≠ .incompatibleUnits source target) : ¬Refuses (orError o e) := by
  rintro ⟨source, target, h⟩
  unfold orError at h
  cases o with
  | some a => cases h
  | none => exact he source target (Except.error.inj h)

end Refuses

theorem TimeUnit.not_refuses_read (s : String) : ¬Refuses (read s) :=
  not_refuses_orError _ (by simp)

/-- Two units are spelled alike or both known and of one category. -/
def SameDimension (a b : String) : Prop :=
  a = b ∨ ∃ u v, KnownUnit.lookup a = some u ∧ KnownUnit.lookup b = some v ∧
    u.category = v.category

instance (a b : String) : Decidable (SameDimension a b) :=
  decidable_of_iff (a = b ∨ (KnownUnit.lookup a).isSome = true ∧
      (KnownUnit.lookup a).map (·.category) = (KnownUnit.lookup b).map (·.category)) <| by
    unfold SameDimension
    cases KnownUnit.lookup a <;> cases KnownUnit.lookup b <;> simp

namespace Decimal

theorem not_refuses_ofResult (x : Float) (operation : String) :
    ¬Refuses (ofResult x operation) :=
  not_refuses_orError _ (by simp)

theorem refuses_toBaseUnit_iff (value : Decimal) (unit : String) :
    Refuses (value.toBaseUnit unit) ↔ KnownUnit.lookup unit = none := by
  unfold toBaseUnit
  cases KnownUnit.lookup unit with
  | none => simp
  | some u => simpa using not_refuses_ofResult _ _

/-- Numbers convert between units of one dimension only. -/
theorem refuses_convertUnit_iff (value : Decimal) (source target : String) :
    Refuses (value.convertUnit source target) ↔ ¬SameDimension source target := by
  unfold convertUnit SameDimension
  split
  · next h => simp [h]
  · next h =>
    cases KnownUnit.lookup source with
    | none => simp [h]
    | some u =>
      cases KnownUnit.lookup target with
      | none => simp [h]
      | some v =>
        dsimp only
        split
        · next hne => simpa [h] using hne
        · next heq =>
          rw [not_not] at heq
          have hdim : source = target ∨ ∃ u' v', some u = some u' ∧ some v = some v' ∧
              u'.category = v'.category := Or.inr ⟨u, v, rfl, rfl, heq⟩
          refine iff_of_false ?_ (not_not.mpr hdim)
          split
          · exact not_refuses_ok _
          · exact not_refuses_ofResult _ _

end Decimal

namespace Capacity

/-- The unit that a load or a capacity is measured in; for a rate it is the unit of the amount. -/
def unit? : Value → Option String
  | .quantity q => some q.unit
  | .rate r => some r.amount.unit
  | _ => none

theorem not_refuses_perSeconds (r : Rate) : ¬Refuses r.perSeconds := by
  rw [Rate.perSeconds, refuses_bind_pure_iff, Rate.perUnit]
  exact TimeUnit.not_refuses_read _

theorem refuses_bitsPerSecond_iff (r : Rate) :
    Refuses (bitsPerSecond r) ↔ KnownUnit.lookup r.amount.unit = none := by
  rw [bitsPerSecond, refuses_bind_iff, Decimal.refuses_toBaseUnit_iff]
  refine or_iff_left ?_
  rintro ⟨bits, -, h⟩
  rw [refuses_bind_pure_iff] at h
  exact not_refuses_perSeconds r h

/-- A load and a capacity that are put side by side whatever their units are: a quantity of data a
second, and a rate of any known unit. As a load, a quantity that is out of range comes first. -/
def Bypass (load capacity : Value) : Prop :=
  match load, capacity with
  | .rate r, .quantity q => KnownUnit.isThroughput q.unit = true ∧ KnownUnit.isKnown r.amount.unit
  | .quantity q, .rate r =>
    KnownUnit.isThroughput q.unit = true ∧
      (KnownUnit.isKnown r.amount.unit ∨ ∃ e, q.value.toBaseUnit q.unit = .error e)
  | _, _ => False

theorem sameDimension_comm {a b : String} : SameDimension a b ↔ SameDimension b a := by
  have h {a b : String} : SameDimension a b → SameDimension b a := by
    rintro (rfl | ⟨u, v, hu, hv, he⟩)
    · exact Or.inl rfl
    · exact Or.inr ⟨v, u, hv, hu, he.symm⟩
  exact ⟨h, h⟩

theorem not_bypass_of_not_throughput (r : Rate) {q : Quantity}
    (h : KnownUnit.isThroughput q.unit = false) : ¬Bypass (.rate r) (.quantity q) := by
  rw [Bypass, h]
  exact fun hb => Bool.noConfusion hb.1

theorem refuses_rate_quantity_iff (r : Rate) (q : Quantity) :
    Refuses (comparable (.rate r) (.quantity q)) ↔ ¬Bypass (.rate r) (.quantity q) := by
  rw [comparable, Bypass, KnownUnit.isKnown, not_and, Bool.not_eq_true,
    Option.isSome_eq_false_iff, Option.isNone_iff_eq_none]
  split
  · next h =>
    rw [refuses_bind_iff, refuses_bitsPerSecond_iff]
    simp only [h, forall_const]
    refine or_iff_left ?_
    rintro ⟨load, -, hr⟩
    rw [refuses_bind_pure_iff, Decimal.refuses_toBaseUnit_iff] at hr
    simp [KnownUnit.isThroughput, hr] at h
  · next h => simp [h]

theorem refuses_quantity_rate_iff (q : Quantity) (r : Rate) :
    Refuses (comparable (.quantity q) (.rate r)) ↔ ¬Bypass (.quantity q) (.rate r) := by
  rw [comparable, Bypass, KnownUnit.isKnown, not_and, not_or, Bool.not_eq_true,
    Option.isSome_eq_false_iff, Option.isNone_iff_eq_none]
  split
  · next h =>
    have hq : ¬Refuses (q.value.toBaseUnit q.unit) := by
      rw [Decimal.refuses_toBaseUnit_iff]
      intro hn
      simp [KnownUnit.isThroughput, hn] at h
    rw [refuses_bind_iff, or_iff_right hq]
    simp only [h, forall_const, refuses_bind_pure_iff, refuses_bitsPerSecond_iff]
    cases q.value.toBaseUnit q.unit with
    | ok a => simp
    | error e => simp
  · next h => simp [h]

/-- Where the units are of two dimensions, only a bypass is not refused. -/
theorem refuses_comparable_iff {load capacity : Value} {a b : String} (ha : unit? load = some a)
    (hb : unit? capacity = some b) (h : ¬SameDimension a b) :
    Refuses (comparable load capacity) ↔ ¬Bypass load capacity := by
  cases load with
  | quantity q =>
    cases capacity with
    | quantity c =>
      cases ha
      cases hb
      rw [comparable, refuses_bind_pure_iff, Decimal.refuses_convertUnit_iff, sameDimension_comm]
      simp [h, Bypass]
    | rate r => exact refuses_quantity_rate_iff q r
    | _ => cases hb
  | rate r =>
    cases capacity with
    | quantity q => exact refuses_rate_quantity_iff r q
    | rate c =>
      cases ha
      cases hb
      have hc : Refuses (c.amount.value.convertUnit c.amount.unit r.amount.unit) := by
        rwa [Decimal.refuses_convertUnit_iff, sameDimension_comm]
      rw [comparable, refuses_bind_iff]
      simp [hc, Bypass]
    | _ => cases hb
  | _ => cases ha

theorem refuses_requires_iff (load capacity : Value) {buffer : Option Decimal}
    (hb : (buffer.getD .zero).isBelowZero = false) :
    Refuses (requires load capacity buffer) ↔ Refuses (comparable load capacity) := by
  rw [requires]
  simp only [hb, Bool.false_eq_true, if_false]
  rw [refuses_bind_iff]
  -- Once the pair is brought to one scale, what may still fail is not a matter of units.
  refine or_iff_left ?_
  rintro ⟨⟨l, c⟩, -, h⟩
  dsimp only at h
  split at h
  · simp [Refuses] at h
  · split at h
    · simp [Refuses] at h
    · exact not_refuses_orError _ (by simp) h

/-- Both functions fail, and unless the buffer is below zero they fail for the units. -/
def Refused (load capacity : Value) (label : String) (buffer : Option Decimal) : Prop :=
  (∃ e, requires load capacity buffer = .error e) ∧
    (∃ e, capacityAt load capacity label buffer = .error e) ∧
    ((buffer.getD .zero).isBelowZero = false →
      Refuses (requires load capacity buffer) ∧ Refuses (capacityAt load capacity label buffer))

theorem refused_iff (load capacity : Value) (label : String) (buffer : Option Decimal) :
    Refused load capacity label buffer ↔
      (buffer.getD .zero).isBelowZero = true ∨ Refuses (comparable load capacity) := by
  cases hb : (buffer.getD .zero).isBelowZero with
  | true =>
    have h : requires load capacity buffer =
        .error (.negativeValue "capacity buffer" (buffer.getD .zero)) := by
      rw [requires]
      simp only [hb, if_true]
    simp [Refused, capacityAt, h, hb, bind, Except.bind]
  | false =>
    rw [Refused, capacityAt, refuses_bind_pure_iff, refuses_requires_iff load capacity hb]
    simp only [hb, Bool.false_eq_true, false_or, forall_const, and_self]
    refine ⟨fun h => h.2.2, fun h => ?_⟩
    obtain ⟨source, target, he⟩ := (refuses_requires_iff load capacity hb).mpr h
    exact ⟨⟨_, he⟩, ⟨_, by rw [he]; rfl⟩, h⟩

/-- A load and a capacity of two dimensions are refused exactly if they are no bypass, or if the
buffer is below zero. -/
theorem refused_of_dimensions_iff (load capacity : Value) (label : String)
    (buffer : Option Decimal) {a b : String} (ha : unit? load = some a)
    (hb : unit? capacity = some b) :
    (¬SameDimension a b → Refused load capacity label buffer) ↔
      SameDimension a b ∨ (buffer.getD .zero).isBelowZero = true ∨ ¬Bypass load capacity := by
  rw [refused_iff]
  by_cases h : SameDimension a b
  · simp [h]
  · rw [refuses_comparable_iff ha hb h]
    simp [h]

/-- Five metres a second are not compared with three kilograms. -/
theorem refused_metres_kilograms :
    ¬SameDimension "m" "kg" ∧
      Refused (.rate ⟨⟨.ofUInt64 5, "m"⟩, "s"⟩) (.quantity ⟨.ofUInt64 3, "kg"⟩) "server" none := by
  have hdim : ¬SameDimension "m" "kg" := by decide +kernel
  have hpass : ¬Bypass (.rate ⟨⟨.ofUInt64 5, "m"⟩, "s"⟩) (.quantity ⟨.ofUInt64 3, "kg"⟩) :=
    not_bypass_of_not_throughput _ (by decide +kernel)
  exact ⟨hdim, (refused_of_dimensions_iff (.rate ⟨⟨.ofUInt64 5, "m"⟩, "s"⟩)
    (.quantity ⟨.ofUInt64 3, "kg"⟩) "server" none rfl rfl).mpr (Or.inr (Or.inr hpass)) hdim⟩

/-- Five metres a second are compared with a megabit a second. -/
theorem requires_metres_of_bits :
    requires (.rate ⟨⟨.ofUInt64 5, "m"⟩, "s"⟩) (.quantity ⟨.one, "Mbps"⟩) none = .ok .one ∧
      ¬SameDimension "m" "Mbps" :=
  ⟨eq_ok_of_toOption (by decide +kernel), by decide +kernel⟩

end Capacity
end Reckoner
