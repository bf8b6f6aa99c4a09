import Mathlib.Data.List.Nodup
import Reckoner.Proofs.Fails
import Reckoner.Proofs.Planning.Dimension
/-!
Which units convert into each other. Main statement: whether a number is refused for its units hangs
on the units alone, units that convert into each other form classes, and within a class a conversion
fails only where the result is out of range.
-/
namespace Reckoner

namespace KnownUnit

/-- No number of the one unit is refused where the other is asked for. -/
def Convertible (source target : String) : Prop :=
  ∀ value : Decimal, ¬Refuses (value.convertUnit source target)

variable {a b c : String} {u v : KnownUnit}

theorem convertible_iff : Convertible a b ↔ SameDimension a b := by
  simp only [Convertible, Decimal.refuses_convertUnit_iff, not_not, forall_const]

/-- Either every number is refused for the units or none is. -/
theorem refuses_all_or_none (a b : String) :
    (∀ value : Decimal, Refuses (value.convertUnit a b)) ∨ Convertible a b := by
  by_cases h : SameDimension a b
  · exact Or.inr (convertible_iff.mpr h)
  · exact Or.inl fun value => (Decimal.refuses_convertUnit_iff value a b).mpr h

theorem sameDimension_trans (hab : SameDimension a b) (hbc : SameDimension b c) :
    SameDimension a c := by
  rcases hab with rfl | ⟨u, v, hu, hv, huv⟩
  · exact hbc
  · rcases hbc with rfl | ⟨v', w, hv', hw, hvw⟩
    · exact Or.inr ⟨u, v, hu, hv, huv⟩
    · -- The text between them is looked up once.
      cases hv.symm.trans hv'
      exact Or.inr ⟨u, w, hu, hw, huv.trans hvw⟩

theorem convertible_equivalence : Equivalence Convertible where
  refl _ := convertible_iff.mpr (Or.inl rfl)
  symm h := convertible_iff.mpr (Capacity.sameDimension_comm.mp (convertible_iff.mp h))
  trans h h' :=
    convertible_iff.mpr (sameDimension_trans (convertible_iff.mp h) (convertible_iff.mp h'))

theorem convertible_iff_eq_of_unknown (h : lookup a = none) : Convertible a b ↔ a = b := by
  rw [convertible_iff, SameDimension, h]
  refine or_iff_left ?_
  rintro ⟨u, v, hu, -⟩
  cases hu

/-- The names that the units are known by, with their categories. -/
def names : List (String × Category) :=
  table.flatMap fun (category, units) => units.map fun u => (u.2.headD "", category)

theorem nodup_names : (names.map Prod.fst).Nodup := by decide +kernel

theorem mem_names_of_lookup (h : lookup a = some u) : (u.canonical, u.category) ∈ names := by
  unfold lookup at h
  obtain ⟨p, hp, rfl⟩ := Option.map_eq_some_iff.mp h
  obtain ⟨⟨category, units⟩, hrow, hp⟩ := List.mem_flatMap.mp (List.mem_of_find?_eq_some hp)
  obtain ⟨⟨conversion, words⟩, hunit, hp⟩ := List.mem_flatMap.mp hp
  obtain ⟨word, hword, rfl⟩ := List.mem_map.mp hp
  refine List.mem_flatMap.mpr ⟨_, hrow, List.mem_map.mpr ⟨_, hunit, ?_⟩⟩
  -- A unit with a spelling has a first one, whatever stands for it where there is none.
  obtain ⟨first, rest, rfl⟩ := List.exists_cons_of_ne_nil (List.ne_nil_of_mem hword)
  rfl

/-- No two categories have units that are known by one name. -/
theorem category_eq_of_canonical_eq (ha : lookup a = some u) (hb : lookup b = some v)
    (h : u.canonical = v.canonical) : u.category = v.category := by
  have hrow := List.inj_on_of_nodup_map nodup_names (mem_names_of_lookup ha)
    (mem_names_of_lookup hb) h
  exact congrArg Prod.snd hrow

/-- Between two spellings of one unit a number stays as it is written. -/
theorem convertUnit_of_canonical_eq (ha : lookup a = some u) (hb : lookup b = some v)
    (h : u.canonical = v.canonical) (value : Decimal) : value.convertUnit a b = .ok value := by
  have hcategory := category_eq_of_canonical_eq ha hb h
  rw [Decimal.convertUnit, ha, hb]
  dsimp only
  rw [if_neg (not_not.mpr hcategory), if_pos h, ite_self]

/-- Between units that convert into each other nothing is wrong but numbers out of range. -/
theorem fails_convertUnit_overflow (h : Convertible a b) (value : Decimal) :
    Fails (value.convertUnit a b) fun e => ∃ operation, e = .overflow operation := by
  rcases convertible_iff.mp h with rfl | ⟨u, v, hu, hv, he⟩
  · rw [Decimal.convertUnit, if_pos rfl]
    exact fails_ok value
  · rw [Decimal.convertUnit, hu, hv]
    refine fails_ite (fun _ => fails_ok value) fun _ => ?_
    refine fails_ite (fun hne => absurd he hne) fun _ => ?_
    exact fails_ite (fun _ => fails_ok value) fun _ => fails_orError _ ⟨_, rfl⟩

/-- A number is refused for two units whatever it is or never; the units for which it is not are
classes, an unknown unit has a class of its own, two spellings of one unit leave a number as it is,
and within a class a conversion fails at most for being out of range. -/
theorem convertible_classes :
    (∀ a b, (∀ value : Decimal, Refuses (value.convertUnit a b)) ∨ Convertible a b) ∧
    Equivalence Convertible ∧
    (∀ a b, lookup a = none → (Convertible a b ↔ a = b)) ∧
    (∀ a b u v, lookup a = some u → lookup b = some v → u.canonical = v.canonical →
      ∀ value : Decimal, value.convertUnit a b = .ok value) ∧
    ∀ a b, Convertible a b → ∀ value : Decimal,
      Fails (value.convertUnit a b) fun e => ∃ operation, e = .overflow operation :=
  ⟨refuses_all_or_none, convertible_equivalence, fun _ _ h => convertible_iff_eq_of_unknown h,
    fun _ _ _ _ ha hb h => convertUnit_of_canonical_eq ha hb h,
    fun _ _ h => fails_convertUnit_overflow h⟩

/-- Miles convert into metres, metres stay metres however they are spelled, and apples in capitals
are no apples. -/
theorem convertible_classes_metres :
    Convertible "MILES" "\tmetres" ∧ ¬Convertible "apples" "Apples" ∧
      (Decimal.ofLiteral 110 2).convertUnit "m" " Meters " = .ok (.ofLiteral 110 2) ∧
      ∀ value : Decimal, Fails (value.convertUnit "MILES" "\tmetres") fun e =>
        ∃ operation, e = .overflow operation := by
  obtain ⟨-, hequivalence, hunknown, hsame, hfails⟩ := convertible_classes
  have hmiles : Convertible "MILES" "\tmetres" := by
    -- Both are in the class of the kilometre.
    have hin : Convertible "MILES" "km" := convertible_iff.mpr (by decide +kernel)
    have hout : Convertible "\tmetres" "km" := convertible_iff.mpr (by decide +kernel)
    exact hequivalence.trans hin (hequivalence.symm hout)
  have happles : lookup "apples" = none := Option.isNone_iff_eq_none.mp (by decide +kernel)
  refine ⟨hmiles, fun h => absurd ((hunknown _ _ happles).mp h) (by decide), ?_,
    hfails _ _ hmiles⟩
  obtain ⟨u, hu⟩ := Option.isSome_iff_exists.mp (by decide +kernel : (lookup "m").isSome = true)
  obtain ⟨v, hv⟩ :=
    Option.isSome_iff_exists.mp (by decide +kernel : (lookup " Meters ").isSome = true)
  refine hsame _ _ u v hu hv ?_ _
  have hcanonical : (lookup "m").map (·.canonical) = (lookup " Meters ").map (·.canonical) := by
    decide +kernel
  rw [hu, hv] at hcanonical
  exact Option.some.inj hcanonical

end KnownUnit
end Reckoner
