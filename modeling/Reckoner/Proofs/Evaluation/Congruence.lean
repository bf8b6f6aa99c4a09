import Reckoner.Proofs.Evaluation.Reached
import Reckoner.Proofs.Planning.Congruence
/-!
Arguments and functions of equal values. Main statement: a function of equal arguments gives equal
results, or fails for one cause, if no conversion and no square root of zero tells them apart.
-/
namespace Reckoner

section Literal

theorem NumberLiteral.sameResult_read (s : String) : SameResult Eq (read s) (read s) := by
  refine (sameResult_orError (split _) ⟨rfl, rfl⟩).bind_eq fun p => ?_
  refine (sameResult_orError (mantissa? p) ⟨rfl, rfl⟩).bind_eq fun n => ?_
  dsimp only
  cases p.suffix with
  | none => exact .ok rfl
  | some c => exact (sameResult_orError _ ⟨rfl, rfl⟩).bind_eq fun n => .ok rfl

theorem Money.sameResult_read (amount code : String) :
    SameResult Eq (read amount code) (read amount code) :=
  (sameResult_orError _ ⟨rfl, rfl⟩).bind_eq fun _ =>
    (NumberLiteral.sameResult_read amount).bind_eq fun _ => .ok rfl

theorem Duration.sameResult_read (amount unit : String) :
    SameResult Eq (read amount unit) (read amount unit) :=
  (TimeUnit.sameResult_read unit).bind_eq fun _ =>
    (NumberLiteral.sameResult_read amount).bind_eq fun _ => .ok rfl

theorem Value.sameResult_readQuantity (amount unit : String) :
    SameResult Eq (readQuantity amount unit) (readQuantity amount unit) := by
  refine (NumberLiteral.sameResult_read amount).bind_eq fun n => ?_
  refine alike_ite .rfl (fun _ => .error ⟨rfl, rfl⟩) fun _ => ?_
  generalize TimeUnit.ofString? (Text.trim unit) = u
  cases u with
  | some u => exact .ok rfl
  | none => exact .ok rfl

theorem Rate.sameResult_read (amount unit per : String) :
    SameResult Eq (read amount unit per) (read amount unit per) :=
  alike_ite .rfl (fun _ => .error ⟨rfl, rfl⟩) fun _ =>
    (NumberLiteral.sameResult_read amount).bind_eq fun _ =>
      (TimeUnit.sameResult_read _).bind_eq fun _ => .ok rfl

/-- A literal is read as it is written, or fails for the cause that it is unreadable. -/
theorem Expression.sameResult_literal {e : Expression} {r : Except Error Value}
    (h : e.literal? = some r) : SameResult Value.Same r r := by
  cases e with
  | number text =>
    rw [← Option.some.inj h]
    exact Value.sameResult_map (NumberLiteral.sameResult_read text) .number
  | boolean text =>
    rw [← Option.some.inj h]
    exact Value.sameResult_map (sameResult_orError _ ⟨rfl, rfl⟩) .boolean
  | date text =>
    rw [← Option.some.inj h]
    exact Value.sameResult_map (sameResult_orError _ ⟨rfl, rfl⟩) .date
  | time text =>
    rw [← Option.some.inj h]
    exact Value.sameResult_map (sameResult_orError _ ⟨rfl, rfl⟩) .time
  | currency amount code =>
    rw [← Option.some.inj h]
    exact Value.sameResult_map (Money.sameResult_read amount code) .money
  | duration amount unit =>
    rw [← Option.some.inj h]
    exact Value.sameResult_map (Duration.sameResult_read amount unit) .duration
  | quantity amount unit =>
    rw [← Option.some.inj h]
    exact (Value.sameResult_readQuantity amount unit).imp fun v w hvw => hvw ▸ .refl v
  | rate amount unit per =>
    rw [← Option.some.inj h]
    exact Value.sameResult_map (Rate.sameResult_read amount unit per) .rate
  | _ => cases h

end Literal

section Argument

namespace Parameter

/-- What two arguments are read as is equal. -/
def Same : (p : Parameter) → p.Meaning → p.Meaning → Prop
  | .value => Value.Same
  | .number => Decimal.Same
  | .quantity => Quantity.Same
  | .rate => Rate.Same
  | .period => Duration.Same
  | _ => Eq

/-- Reading two values does not tell them apart: a count does not take a zero below zero. -/
def ReadsAlike : Parameter → (v w : Value) → Prop
  | .count _ _, .number a, .number b => Decimal.SignsAlike a b
  | _, _, _ => True

theorem same_refl (p : Parameter) (m : p.Meaning) : p.Same m m := by
  cases p with
  | value => exact Value.Same.refl m
  | number => exact Decimal.Same.refl m
  | quantity => exact Quantity.Same.intro (.refl _)
  | rate => exact Rate.Same.intro (.intro (.refl _))
  | period => exact Duration.Same.intro (.refl _)
  | _ => exact rfl

theorem readsAlike_refl (p : Parameter) (v : Value) : p.ReadsAlike v v := by
  cases p with
  | count what range =>
    cases v with
    | number n => exact .refl n
    | _ => exact True.intro
  | _ => exact True.intro

variable {word : String} {position : Nat} {e : Expression} {p : Parameter}

theorem sameResult_wordOf (word : String) (position : Nat) (e : Expression) :
    SameResult Eq (wordOf word position e) (wordOf word position e) :=
  sameResult_orError _ (.wrongArgumentType _ _ _ _ _ _ _ _)

theorem sameResult_readWord {α : Type} (kind : String) (all : List α) (name : α → String)
    (words : α → List String) (s : String) :
    SameResult Eq (readWord kind all name words s) (readWord kind all name words s) :=
  sameResult_orError _ ⟨rfl, rfl⟩

theorem sameResult_taken {r : Except Error p.Meaning} (h : p.taken? word position e = some r) :
    SameResult p.Same r r := by
  have hword := sameResult_wordOf word position e
  cases p with
  | period =>
    obtain ⟨d, -, rfl⟩ := Option.map_eq_some_iff.mp h
    exact .ok (.intro (.refl _))
  | target =>
    obtain ⟨w, -, rfl⟩ := Option.map_eq_some_iff.mp h
    exact .ok rfl
  | word =>
    rw [← Option.some.inj h]
    exact hword
  | scope =>
    rw [← Option.some.inj h]
    exact hword.bind_eq fun w => sameResult_readWord _ _ _ _ w
  | link =>
    rw [← Option.some.inj h]
    exact hword.bind_eq fun w => sameResult_readWord _ _ _ _ w
  | drive =>
    rw [← Option.some.inj h]
    exact hword.bind_eq fun w => sameResult_readWord _ _ _ _ w
  | compression =>
    rw [← Option.some.inj h]
    exact hword.bind_eq fun w => sameResult_readWord _ _ _ _ w
  | _ => cases h

theorem sameResult_ofValue {v w : Value} (h : v.Same w) (word : String) (position : Nat)
    (hp : p.ReadsAlike v w) :
    SameResult p.Same (p.ofValue word position v) (p.ofValue word position w) := by
  cases p with
  | value => exact .ok h
  | number =>
    cases h with
    | number h => exact .ok h
    | _ => exact .error (.wrongArgumentType _ _ _ _ _ _ _ _)
  | quantity =>
    cases h with
    | quantity h => exact .ok h
    | _ => exact .error (.wrongArgumentType _ _ _ _ _ _ _ _)
  | rate =>
    cases h with
    | rate h => exact .ok h
    | _ => exact .error (.wrongArgumentType _ _ _ _ _ _ _ _)
  | period =>
    cases h with
    | duration h => exact .ok h
    | _ => exact .error (.wrongArgumentType _ _ _ _ _ _ _ _)
  | target =>
    cases h with
    | duration h =>
      obtain ⟨-⟩ := h
      exact .ok rfl
    | _ => exact .error (.wrongArgumentType _ _ _ _ _ _ _ _)
  | count what range =>
    cases h with
    | @number a b h =>
      -- A count is a whole number that is not written below zero.
      show SameResult Eq (orError a.toCount? _) (orError b.toCount? _)
      rw [h.toCount?_eq (Decimal.SignsAlike.negative_eq hp h)]
      exact sameResult_orError _ ⟨rfl, rfl⟩
    | _ => exact .error (.wrongArgumentType _ _ _ _ _ _ _ _)
  | _ => exact .error (.wrongArgumentType _ _ _ _ _ _ _ _)

end Parameter

/-- Two lists of arguments are equal, one by one. -/
def Arguments.Same : (slots : List Slot) → Arguments slots → Arguments slots → Prop
  | [], _, _ => True
  | .one p :: slots, a, b => p.Same a.1 b.1 ∧ Arguments.Same slots a.2 b.2
  | .optional p :: slots, a, b => Option.Rel p.Same a.1 b.1 ∧ Arguments.Same slots a.2 b.2
  | .values :: slots, a, b => List.Forall₂ Value.Same a.1 b.1 ∧ Arguments.Same slots a.2 b.2

theorem Arguments.same_refl (slots : List Slot) (a : Arguments slots) :
    Arguments.Same slots a a := by
  induction slots with
  | nil => exact True.intro
  | cons s slots ih =>
    cases s with
    | one p => exact ⟨p.same_refl a.1, ih a.2⟩
    | optional p =>
      refine ⟨?_, ih a.2⟩
      generalize a.1 = o
      cases o with
      | some m => exact .some (p.same_refl m)
      | none => exact .none
    | values => exact ⟨List.forall₂_same.mpr fun v _ => .refl v, ih a.2⟩

theorem eq_of_rel_eq {α : Type} {o p : Option α} (h : Option.Rel Eq o p) : o = p := by
  cases h with
  | some h => exact congrArg some h
  | none => rfl

end Argument

section Function

namespace Function

/-- A function does not tell two lists of arguments apart: neither does a comparison of load and
capacity, nor the conversion of a size to megabytes, nor the root of a zero. -/
def AppliesAlike : (f : Function) → (a b : Arguments f.slots) → Prop
  | requires, (load, capacity, buffer, ()), (load', capacity', _, ()) =>
    (Option.getD buffer Decimal.zero).isBelowZero = false →
      Capacity.ComparesAlike load capacity load' capacity'
  | capacityAt, (load, capacity, _, buffer, ()), (load', capacity', _, _, ()) =>
    (Option.getD buffer Decimal.zero).isBelowZero = false →
      Capacity.ComparesAlike load capacity load' capacity'
  | transferTime, (size, _, _, ()), (size', _, _, ()) => Estimate.SizesAlike size size'
  | read, (size, _, ()), (size', _, ()) => Estimate.SizesAlike size size'
  | root, (n, ()), (n', ()) => Decimal.SignsAlike n n'
  | _, _, _ => True

theorem appliesAlike_refl (f : Function) (a : Arguments f.slots) : f.AppliesAlike a a := by
  cases f with
  | requires => exact fun _ => Capacity.comparesAlike_refl _ _
  | capacityAt => exact fun _ => Capacity.comparesAlike_refl _ _
  | transferTime => exact fun _ => .refl _ _ _
  | read => exact fun _ => .refl _ _ _
  | root => exact .refl a.1
  | _ => exact True.intro

theorem sameResult_apply {f : Function} {a b : Arguments f.slots} (limits : Limits) (word : String)
    (h : Arguments.Same f.slots a b) (hf : f.AppliesAlike a b) :
    SameResult Value.Same (f.apply limits word a) (f.apply limits word b) := by
  cases f with
  | requires =>
    obtain ⟨load, capacity, buffer, _⟩ := a
    obtain ⟨load', capacity', buffer', _⟩ := b
    obtain ⟨hl, hc, hb, -⟩ := h
    exact (Capacity.sameResult_requires hl hc hb hf).map fun _ _ hn => .number hn
  | capacityAt =>
    obtain ⟨load, capacity, unit, buffer, _⟩ := a
    obtain ⟨load', capacity', _, buffer', _⟩ := b
    obtain ⟨hl, hc, rfl, hb, -⟩ := h
    exact (Capacity.sameResult_capacityAt hl hc unit hb hf).map fun _ _ hq => .quantity hq
  | downtime =>
    obtain ⟨availability, period, _⟩ := a
    obtain ⟨availability', period', _⟩ := b
    obtain ⟨ha, hp, -⟩ := h
    exact (Estimate.sameResult_downtime ha hp).map fun _ _ hd => .duration hd
  | accumulate =>
    obtain ⟨rate, period, _⟩ := a
    obtain ⟨rate', period', _⟩ := b
    obtain ⟨hr, hp, -⟩ := h
    unfold apply
    exact (Rate.Same.accumulate hr hp).map fun _ _ hq => .quantity hq
  | convertRate =>
    obtain ⟨rate, target, _⟩ := a
    obtain ⟨rate', _, _⟩ := b
    obtain ⟨hr, rfl, -⟩ := h
    unfold apply
    exact (Rate.Same.retime hr target).map fun _ _ hs => .rate hs
  | roundTrip =>
    obtain ⟨scope, _⟩ := a
    obtain ⟨_, _⟩ := b
    obtain ⟨rfl, -⟩ := h
    exact .ok (.refl (.duration (Estimate.roundTrip scope)))
  | throughput =>
    obtain ⟨link, _⟩ := a
    obtain ⟨_, _⟩ := b
    obtain ⟨rfl, -⟩ := h
    unfold apply
    exact (Rate.sameResult_make (.intro (.refl link.throughput)) "s").map fun _ _ hr => .rate hr
  | transferTime =>
    obtain ⟨size, scope, link, _⟩ := a
    obtain ⟨size', _, _, _⟩ := b
    obtain ⟨hs, rfl, rfl, -⟩ := h
    exact (Estimate.sameResult_transferTime hs hf scope link).map fun _ _ hd => .duration hd
  | read =>
    obtain ⟨size, drive, _⟩ := a
    obtain ⟨size', _, _⟩ := b
    obtain ⟨hs, rfl, -⟩ := h
    exact (Estimate.sameResult_readTime hs hf drive).map fun _ _ hd => .duration hd
  | seek =>
    obtain ⟨drive, _⟩ := a
    obtain ⟨_, _⟩ := b
    obtain ⟨rfl, -⟩ := h
    exact .ok (.refl (.duration (Estimate.seekTime drive)))
  | compress =>
    obtain ⟨size, compression, _⟩ := a
    obtain ⟨size', _, _⟩ := b
    obtain ⟨hs, rfl, -⟩ := h
    exact Estimate.sameResult_compress hs compression
  | napkin =>
    obtain ⟨value, figures, _⟩ := a
    obtain ⟨value', figures', _⟩ := b
    obtain ⟨hv, hfigures, -⟩ := h
    have hcount := eq_of_rel_eq hfigures
    subst hcount
    exact Value.Same.roundValue hv _
  | average => exact Value.sameResult_aggregate h.1 word fun hns _ => Decimal.sameResult_mean hns
  | sum => exact Value.sameResult_aggregate h.1 word fun hns _ => Decimal.sameResult_sum hns
  | least => exact Value.sameResult_aggregate h.1 word Decimal.sameResult_least
  | greatest => exact Value.sameResult_aggregate h.1 word Decimal.sameResult_greatest
  | root =>
    obtain ⟨n, _⟩ := a
    obtain ⟨n', _⟩ := b
    exact (Decimal.Same.root h.1 hf).map fun _ _ hr => .number hr
  | abs => exact Value.Same.mapMagnitude h.1 word fun _ _ hn => hn.abs
  | floor => exact Value.Same.mapMagnitude h.1 word fun _ _ hn => hn.floor
  | ceil => exact Value.Same.mapMagnitude h.1 word fun _ _ hn => hn.ceil
  | round =>
    obtain ⟨value, places, _⟩ := a
    obtain ⟨value', places', _⟩ := b
    obtain ⟨hv, hplaces, -⟩ := h
    have hcount := eq_of_rel_eq hplaces
    subst hcount
    exact Value.Same.mapMagnitude hv word fun _ _ hn => hn.roundPlaces _ _

end Function

end Function
end Reckoner
