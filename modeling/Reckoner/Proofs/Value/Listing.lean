import Reckoner.Proofs.Calendar.DayNumber
import Reckoner.Proofs.Decimal.Written
import Reckoner.Proofs.Json.RoundTrip
import Reckoner.Value.Json
/-!
Lists of results as JSON. Main statement: a listing shows the kind and the rendered form of each
result in its place, and no two lists of results have one listing.
-/
namespace Reckoner

section Dates

theorem length_twoDigits {n : ℕ} (hn : n < 100) : (TimeOfDay.twoDigits n).toList.length = 2 := by
  have hlength : (Nat.toDigits 10 n).length ≤ 2 :=
    (Nat.length_toDigits_le_iff (by decide) (by decide)).mpr hn
  rw [TimeOfDay.twoDigits, String.toList_ofList, Decimal.paddedDigits, List.length_append,
    List.length_replicate]
  omega

theorem twoDigits_injective : Function.Injective TimeOfDay.twoDigits := by
  intro m n h
  exact Decimal.paddedDigits_injective 2 (String.ofList_inj.mp h)

namespace Date

/-- The sign that a year is written with. -/
def yearSign (year : ℤ) : List Char :=
  if year < 0 then ['-'] else if 9999 < year then ['+'] else []

theorem toList_yearText (year : ℤ) :
    (yearText year).toList = yearSign year ++ Decimal.paddedDigits 4 year.natAbs := by
  unfold yearText yearSign
  split
  · simp
  · split
    · simp
    · simp

theorem yearText_injective : Function.Injective yearText := by
  intro y z h
  have hlist := congrArg String.toList h
  rw [toList_yearText, toList_yearText] at hlist
  have hpadded (year : ℤ) (c : Char) (hc : c ∈ Decimal.paddedDigits 4 year.natAbs) :
      c.isDigit = true := Decimal.isDigit_of_mem_paddedDigits hc
  -- The digits tell how far the year is from zero, and the sign on which side.
  have hdigits (year : ℤ) : (yearSign year ++ Decimal.paddedDigits 4 year.natAbs).filter
      Char.isDigit = Decimal.paddedDigits 4 year.natAbs := by
    have hsign : (yearSign year).filter Char.isDigit = [] := by
      unfold yearSign
      split
      · rfl
      · split <;> rfl
    rw [List.filter_append, hsign, List.nil_append]
    exact List.filter_eq_self.mpr (hpadded year)
  have hminus (year : ℤ) :
      '-' ∈ yearSign year ++ Decimal.paddedDigits 4 year.natAbs ↔ year < 0 := by
    have hnone : '-' ∉ Decimal.paddedDigits 4 year.natAbs := fun hc => nomatch hpadded year _ hc
    rw [List.mem_append, or_iff_left hnone, yearSign]
    split
    · next hneg => simp [hneg]
    · next hneg => split <;> simp [hneg]
  have habs : y.natAbs = z.natAbs := by
    apply Decimal.paddedDigits_injective 4
    rw [← hdigits y, hlist, hdigits]
  have hside : y < 0 ↔ z < 0 := by
    rw [← hminus y, hlist, hminus]
  omega

theorem month_day_lt (d : Date) : d.month < 100 ∧ d.day < 100 := by
  have hmonth := d.inRange.month_le
  have hday := d.inRange.day_le
  have hdays := daysInMonth_le d.year d.month
  omega

theorem text_injective : Function.Injective text := by
  intro d e h
  have hlist := congrArg String.toList h
  simp only [text, String.toList_append] at hlist
  obtain ⟨hrest, hday⟩ := List.append_inj' hlist (by
    rw [length_twoDigits d.month_day_lt.2, length_twoDigits e.month_day_lt.2])
  obtain ⟨hrest, -⟩ := List.append_inj' hrest rfl
  obtain ⟨hrest, hmonth⟩ := List.append_inj' hrest (by
    rw [length_twoDigits d.month_day_lt.1, length_twoDigits e.month_day_lt.1])
  obtain ⟨hyear, -⟩ := List.append_inj' hrest rfl
  have hyear' := yearText_injective (String.toList_inj.mp hyear)
  have hmonth' := twoDigits_injective (String.toList_inj.mp hmonth)
  have hday' := twoDigits_injective (String.toList_inj.mp hday)
  cases d
  cases e
  congr

end Date

end Dates

section Parts

theorem TimeUnit.name_injective : Function.Injective TimeUnit.name := by
  intro u v h
  cases u <;> cases v <;> first | rfl | exact absurd h (by decide)

theorem Json.ofOption_injective {α : Type} {f : α → Json} (hf : Function.Injective f)
    (hnull : ∀ a, f a ≠ .null) : Function.Injective (ofOption f) := by
  intro a b h
  cases a with
  | none =>
    cases b with
    | none => rfl
    | some b => exact absurd h.symm (hnull b)
  | some a =>
    cases b with
    | none => exact absurd h (hnull a)
    | some b => exact congrArg some (hf h)

theorem Decimal.toJson_injective : Function.Injective Decimal.toJson := by
  intro a b h
  exact Decimal.text_injective (Json.string.inj h)

theorem Money.toJson_injective : Function.Injective Money.toJson := by
  have hsymbol : Function.Injective (Json.ofOption Json.string) :=
    Json.ofOption_injective (fun _ _ => Json.string.inj) nofun
  rintro ⟨a, c, s⟩ ⟨b, d, t⟩ h
  simp only [toJson, Json.object.injEq, List.cons.injEq, Prod.mk.injEq, Json.string.injEq,
    Decimal.toJson_injective.eq_iff, hsymbol.eq_iff, true_and] at h
  obtain ⟨rfl, rfl, rfl, -⟩ := h
  rfl

theorem Quantity.toJson_injective : Function.Injective Quantity.toJson := by
  rintro ⟨a, u⟩ ⟨b, v⟩ h
  simp only [toJson, Json.object.injEq, List.cons.injEq, Prod.mk.injEq, Json.string.injEq,
    Decimal.toJson_injective.eq_iff, true_and] at h
  obtain ⟨rfl, rfl, -⟩ := h
  rfl

theorem Rate.toJson_injective : Function.Injective Rate.toJson := by
  rintro ⟨q, u⟩ ⟨r, v⟩ h
  simp only [toJson, Json.object.injEq, List.cons.injEq, Prod.mk.injEq, Json.string.injEq,
    Quantity.toJson_injective.eq_iff, true_and] at h
  obtain ⟨rfl, rfl, -⟩ := h
  rfl

theorem Duration.toJson_injective : Function.Injective Duration.toJson := by
  rintro ⟨a, u⟩ ⟨b, v⟩ h
  simp only [toJson, Json.object.injEq, List.cons.injEq, Prod.mk.injEq, Json.string.injEq,
    TimeUnit.name_injective.eq_iff, Decimal.toJson_injective.eq_iff, true_and] at h
  obtain ⟨rfl, rfl, -⟩ := h
  rfl

theorem TimeOfDay.toJson_injective : Function.Injective TimeOfDay.toJson := by
  have hoffset : Function.Injective (Json.ofOption Json.integer) :=
    Json.ofOption_injective (fun _ _ => Json.integer.inj) nofun
  have hsecond : Function.Injective (Json.ofOption fun s : ℕ => .integer s) :=
    Json.ofOption_injective (fun _ _ h => Int.ofNat.inj (Json.integer.inj h)) nofun
  rintro ⟨hour, minute, second, offset⟩ ⟨hour', minute', second', offset'⟩ h
  simp only [toJson, Json.object.injEq, List.cons.injEq, Prod.mk.injEq, Json.integer.injEq,
    Int.natCast_inj, hoffset.eq_iff, hsecond.eq_iff, true_and] at h
  obtain ⟨rfl, rfl, rfl, rfl, -⟩ := h
  rfl

end Parts

namespace Value

/-- The name of the kind and the parts tell a value from every other one. -/
theorem eq_of_payload_eq {v w : Value} (htype : v.typeName = w.typeName)
    (h : v.payload = w.payload) : v = w := by
  cases v <;> cases w <;> try (simp [typeName] at htype; done)
  case number.number => exact congrArg number (Decimal.toJson_injective h)
  case money.money => exact congrArg money (Money.toJson_injective h)
  case quantity.quantity => exact congrArg quantity (Quantity.toJson_injective h)
  case rate.rate => exact congrArg rate (Rate.toJson_injective h)
  case duration.duration => exact congrArg duration (Duration.toJson_injective h)
  case date.date => exact congrArg date (Date.text_injective (Json.string.inj h))
  case time.time => exact congrArg time (TimeOfDay.toJson_injective h)
  case boolean.boolean => exact congrArg boolean (Json.boolean.inj h)

theorem toJson_injective : Function.Injective toJson := by
  intro v w h
  simp only [toJson, Json.object.injEq, List.cons.injEq, Prod.mk.injEq, Json.string.injEq,
    true_and] at h
  exact eq_of_payload_eq h.2.1 h.2.2.1

theorem integral_payload (v : Value) : v.payload.Integral := by
  have hoption {α : Type} {f : α → Json} (hf : ∀ a, (f a).Integral) (o : Option α) :
      (Json.ofOption f o).Integral := by
    cases o with
    | none => exact .null
    | some a => exact hf a
  have hquantity (q : Quantity) : q.toJson.Integral := by
    refine .object ?_
    simp [Decimal.toJson, Json.Integral.string]
  cases v with
  | number n => exact .string _
  | money m =>
    refine .object ?_
    simp [Decimal.toJson, Json.Integral.string, hoption Json.Integral.string]
  | quantity q => exact hquantity q
  | rate r =>
    refine .object ?_
    simp [Json.Integral.string, hquantity]
  | duration d =>
    refine .object ?_
    simp [Decimal.toJson, Json.Integral.string]
  | date d => exact .string _
  | time t =>
    refine .object ?_
    simp [Json.Integral.integer, hoption Json.Integral.integer,
      hoption fun s : ℕ => Json.Integral.integer s]
  | boolean b => exact .boolean b

theorem integral_toJson (v : Value) : v.toJson.Integral := by
  refine .object ?_
  simp [Json.Integral.string, v.integral_payload]

theorem ofString?_listing (vs : List Value) :
    Json.ofString? (listing vs) = some (.array (vs.map toJson)) := by
  apply Json.Integral.ofString?_pretty
  refine .array fun j hj => ?_
  obtain ⟨v, -, rfl⟩ := List.mem_map.mp hj
  exact v.integral_toJson

/-- A listing is JSON that shows the results in their order, each with its kind and as it is
rendered, and no two lists of results have one listing. -/
theorem listing_injective_and_shows :
    Function.Injective listing ∧
      ∀ vs, ∃ items, Json.ofString? (listing vs) = some (.array items) ∧
        items.map (Json.field? "type") = vs.map (fun v => some (.string v.typeName)) ∧
        items.map (Json.field? "display") = vs.map (fun v => some (.string v.text)) := by
  constructor
  · intro vs ws h
    have hread := ofString?_listing vs
    rw [h, ofString?_listing, Option.some.injEq, Json.array.injEq] at hread
    exact (List.map_injective_iff.mpr toJson_injective hread).symm
  · intro vs
    refine ⟨_, ofString?_listing vs, ?_, ?_⟩
    · rw [List.map_map]
      rfl
    · rw [List.map_map]
      rfl

end Value

end Reckoner
