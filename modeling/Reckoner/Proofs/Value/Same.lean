import Reckoner.Evaluation.Evaluate
import Reckoner.Proofs.Alike
import Reckoner.Proofs.Decimal.Same
/-!
Values that differ at most in how their numbers are written, as relations beside the checks that
decide them. Main statements: two environments are equal if every name is bound to equal values in
both and every exchange rate is equal, and they stay so when equal values are bound and equal
settings are applied.
-/
namespace Reckoner

inductive Money.Same : Money → Money → Prop
  | intro {a b : Decimal} {code : String} {symbol : Option String} (h : a.Same b) :
    Money.Same ⟨a, code, symbol⟩ ⟨b, code, symbol⟩

inductive Quantity.Same : Quantity → Quantity → Prop
  | intro {a b : Decimal} {unit : String} (h : a.Same b) : Quantity.Same ⟨a, unit⟩ ⟨b, unit⟩

inductive Rate.Same : Rate → Rate → Prop
  | intro {p q : Quantity} {per : String} (h : p.Same q) : Rate.Same ⟨p, per⟩ ⟨q, per⟩

inductive Duration.Same : Duration → Duration → Prop
  | intro {a b : Decimal} {unit : TimeUnit} (h : a.Same b) : Duration.Same ⟨a, unit⟩ ⟨b, unit⟩

inductive Value.Same : Value → Value → Prop
  | number {a b : Decimal} (h : a.Same b) : Value.Same (.number a) (.number b)
  | money {m n : Money} (h : m.Same n) : Value.Same (.money m) (.money n)
  | quantity {p q : Quantity} (h : p.Same q) : Value.Same (.quantity p) (.quantity q)
  | rate {r s : Rate} (h : r.Same s) : Value.Same (.rate r) (.rate s)
  | duration {d e : Duration} (h : d.Same e) : Value.Same (.duration d) (.duration e)
  | date (d : Date) : Value.Same (.date d) (.date d)
  | time (t : TimeOfDay) : Value.Same (.time t) (.time t)
  | boolean (b : Bool) : Value.Same (.boolean b) (.boolean b)

section Check

theorem Money.same_iff {m n : Money} : m.same n = true ↔ m.Same n := by
  obtain ⟨a, code, symbol⟩ := m
  obtain ⟨b, code', symbol'⟩ := n
  rw [same, Bool.and_eq_true, Bool.and_eq_true, Decimal.same_iff, beq_iff_eq, beq_iff_eq]
  constructor
  · rintro ⟨⟨h, rfl⟩, rfl⟩
    exact .intro h
  · rintro ⟨h⟩
    exact ⟨⟨h, rfl⟩, rfl⟩

theorem Quantity.same_iff {p q : Quantity} : p.same q = true ↔ p.Same q := by
  obtain ⟨a, unit⟩ := p
  obtain ⟨b, unit'⟩ := q
  rw [same, Bool.and_eq_true, Decimal.same_iff, beq_iff_eq]
  constructor
  · rintro ⟨h, rfl⟩
    exact .intro h
  · rintro ⟨h⟩
    exact ⟨h, rfl⟩

theorem Rate.same_iff {r s : Rate} : r.same s = true ↔ r.Same s := by
  obtain ⟨p, per⟩ := r
  obtain ⟨q, per'⟩ := s
  rw [same, Bool.and_eq_true, Quantity.same_iff, beq_iff_eq]
  constructor
  · rintro ⟨h, rfl⟩
    exact .intro h
  · rintro ⟨h⟩
    exact ⟨h, rfl⟩

theorem Duration.same_iff {d e : Duration} : d.same e = true ↔ d.Same e := by
  obtain ⟨a, unit⟩ := d
  obtain ⟨b, unit'⟩ := e
  rw [same, Bool.and_eq_true, Decimal.same_iff, beq_iff_eq]
  constructor
  · rintro ⟨h, rfl⟩
    exact .intro h
  · rintro ⟨h⟩
    exact ⟨h, rfl⟩

/-- The relation holds of just those values that the check takes for equal. -/
theorem Value.same_iff {v w : Value} : v.same w = true ↔ v.Same w := by
  constructor
  · intro h
    -- Values of two kinds are never equal.
    cases v <;> cases w <;> first | cases h | skip
    case number.number => exact .number ((Decimal.same_iff _ _).mp h)
    case money.money => exact .money (Money.same_iff.mp h)
    case quantity.quantity => exact .quantity (Quantity.same_iff.mp h)
    case rate.rate => exact .rate (Rate.same_iff.mp h)
    case duration.duration => exact .duration (Duration.same_iff.mp h)
    case date.date => exact beq_iff_eq.mp h ▸ .date _
    case time.time => exact beq_iff_eq.mp h ▸ .time _
    case boolean.boolean => exact beq_iff_eq.mp h ▸ .boolean _
  · rintro (h | h | h | h | h | _ | _ | _)
    · exact (Decimal.same_iff _ _).mpr h
    · exact Money.same_iff.mpr h
    · exact Quantity.same_iff.mpr h
    · exact Rate.same_iff.mpr h
    · exact Duration.same_iff.mpr h
    all_goals exact beq_self_eq_true _

end Check

section Magnitude

namespace Value

variable {v w : Value} {a b : Decimal}

@[refl] theorem Same.refl (v : Value) : v.Same v := by
  cases v with
  | number a => exact .number (.refl a)
  | money m => exact .money (.intro (.refl _))
  | quantity q => exact .quantity (.intro (.refl _))
  | rate r => exact .rate (.intro (.intro (.refl _)))
  | duration d => exact .duration (.intro (.refl _))
  | date d => exact .date d
  | time t => exact .time t
  | boolean b => exact .boolean b

theorem Same.magnitude (h : v.Same w) :
    Option.Rel Decimal.Same v.magnitude? w.magnitude? := by
  cases h with
  | number h => exact .some h
  | money h => cases h with | intro h => exact .some h
  | quantity h => cases h with | intro h => exact .some h
  | rate h => cases h with | intro h => cases h with | intro h => exact .some h
  | duration h => cases h with | intro h => exact .some h
  | date d => exact .none
  | time t => exact .none
  | boolean b => exact .none

/-- A value with a number in it takes another one; no error is left to tell. -/
theorem Same.withMagnitude (h : v.Same w) (hv : v.magnitude?.isSome = true) (hab : a.Same b) :
    SameResult Value.Same (v.withMagnitude a) (w.withMagnitude b) := by
  cases h with
  | number h => exact .ok (.number hab)
  | money h => cases h with | intro h => exact .ok (.money (.intro hab))
  | quantity h => cases h with | intro h => exact .ok (.quantity (.intro hab))
  | rate h => cases h with
    | intro h => cases h with | intro h => exact .ok (.rate (.intro (.intro hab)))
  | duration h => cases h with | intro h => exact .ok (.duration (.intro hab))
  | date d => cases hv
  | time t => cases hv
  | boolean b => cases hv

end Value

end Magnitude

section Environment

theorem Dictionary.find_eq_none_iff {α : Type} {key : String} {es : List (String × α)} :
    Dictionary.find key es = none ↔ key ∉ es.map Prod.fst := by
  induction es with
  | nil => simp [Dictionary.find]
  | cons e rest ih =>
    obtain ⟨k, a⟩ := e
    by_cases hk : k = key
    · simp [Dictionary.find, hk]
    · simp [Dictionary.find, hk, Ne.symm hk, ih]

/-- Two dictionaries have related entries, or none, for every key: also for the keys that neither of
them has. -/
theorem Dictionary.sameBy_iff {α : Type} {eq : α → α → Bool} {d e : Dictionary α} :
    d.sameBy eq e = true ↔
      ∀ key, Option.Rel (fun a b => eq a b = true) (d.get? key) (e.get? key) := by
  rw [sameBy, List.all_eq_true]
  refine ⟨fun h key => ?_, fun h key _ => ?_⟩
  · by_cases hmem : key ∈ d.keys ++ e.keys
    · have hkey := h key hmem
      generalize d.get? key = o at hkey ⊢
      generalize e.get? key = p at hkey ⊢
      cases o <;> cases p <;> simp_all
    · -- Neither dictionary has the key.
      rw [List.mem_append, not_or] at hmem
      rw [get?, get?, find_eq_none_iff.mpr hmem.1, find_eq_none_iff.mpr hmem.2]
      exact .none
  · have hkey := h key
    generalize d.get? key = o at hkey ⊢
    generalize e.get? key = p at hkey ⊢
    cases hkey with
    | some h => exact h
    | none => rfl

theorem Dictionary.rel_get?_insert {α : Type} {V : α → α → Prop} {d e : Dictionary α}
    (h : ∀ key, Option.Rel V (d.get? key) (e.get? key)) {a b : α} (hab : V a b)
    (key key' : String) :
    Option.Rel V ((d.insert key a).get? key') ((e.insert key b).get? key') := by
  by_cases hk : key' = key
  · subst hk
    rw [get?_insert_self, get?_insert_self]
    exact .some hab
  · rw [get?_insert_of_ne _ _ _ _ hk, get?_insert_of_ne _ _ _ _ hk]
    exact h key'

/-- Every name is bound to equal values, and every exchange rate is equal. -/
structure Environment.Same (env env' : Environment) : Prop where
  bindings (name : String) :
    Option.Rel Value.Same (env.bindings.get? name) (env'.bindings.get? name)
  rates (key : String) : Option.Rel Decimal.Same (env.rates.get? key) (env'.rates.get? key)

namespace Environment

variable {env env' : Environment}

theorem same_iff : env.same env' = true ↔ env.Same env' := by
  have hbindings : env.bindings.sameBy Value.same env'.bindings = true ↔
      ∀ name, Option.Rel Value.Same (env.bindings.get? name) (env'.bindings.get? name) := by
    simp only [Dictionary.sameBy_iff, Value.same_iff]
  have hrates : env.rates.sameBy Decimal.same env'.rates = true ↔
      ∀ key, Option.Rel Decimal.Same (env.rates.get? key) (env'.rates.get? key) := by
    simp only [Dictionary.sameBy_iff, Decimal.same_iff]
    rfl
  rw [same, Bool.and_eq_true, hbindings, hrates]
  exact ⟨fun h => ⟨h.1, h.2⟩, fun h => ⟨h.bindings, h.rates⟩⟩

namespace Same

theorem refl (env : Environment) : env.Same env where
  bindings name := by
    cases env.bindings.get? name with
    | some v => exact .some (.refl v)
    | none => exact .none
  rates key := Decimal.rel_same_refl _

variable (h : env.Same env')

include h

theorem bind {v w : Value} (hvw : v.Same w) (name : String) :
    (env.bind name v).Same (env'.bind name w) where
  bindings := Dictionary.rel_get?_insert h.bindings hvw name
  rates := h.rates

theorem setRate {a b : Decimal} (hab : a.Same b) (source target : String) :
    (env.setRate source target a).Same (env'.setRate source target b) where
  bindings := h.bindings
  rates := Dictionary.rel_get?_insert h.rates hab _

theorem exchangeRate? (source target : String) :
    Option.Rel Decimal.Same (env.exchangeRate? source target)
      (env'.exchangeRate? source target) := by
  rw [Environment.exchangeRate?, Environment.exchangeRate?]
  split
  · exact .some (.refl _)
  · have hrate : Option.Rel Decimal.Same (env.rate? source target) (env'.rate? source target) :=
      h.rates _
    have hinverse : Option.Rel Decimal.Same (env.rate? target source) (env'.rate? target source) :=
      h.rates _
    generalize env.rate? source target = o at hrate
    generalize env'.rate? source target = p at hrate
    generalize env.rate? target source = o' at hinverse
    generalize env'.rate? target source = p' at hinverse
    cases hrate with
    | some hab => exact .some hab
    | none =>
      cases hinverse with
      | none => exact .none
      | some hab =>
        dsimp only
        -- A rate is only turned round if it is not zero.
        rw [← hab.isZero_eq]
        split
        · exact .none
        · exact .some (Decimal.Same.dividedBy (.refl _) hab)

theorem resolve (name : String) :
    SameResult Value.Same (env.resolve name) (env'.resolve name) := by
  have hbinding := h.bindings name
  rw [Environment.resolve, Environment.resolve, Environment.get?, Environment.get?]
  generalize env.bindings.get? name = o at hbinding
  generalize env'.bindings.get? name = p at hbinding
  generalize truth? name = t
  cases hbinding with
  | some hvw => exact .ok hvw
  | none =>
    cases t with
    | some b => exact .ok (.boolean b)
    | none => exact .error ⟨rfl, rfl⟩

theorem declare {v w : Value} (hvw : v.Same w) (space key : String) :
    SameResult Environment.Same (env.declare space key v) (env'.declare space key w) := by
  unfold Environment.declare
  generalize Text.lower (Text.trim space) = word
  refine alike_ite .rfl (fun _ => .ok (h.bind hvw _)) fun _ => ?_
  refine alike_ite .rfl (fun _ => ?_) fun _ => .error ⟨rfl, rfl⟩
  have hcodes : SameResult Eq (codes key) (codes key) := by
    rw [codes]
    split
    · exact alike_ite .rfl (fun _ => .error ⟨rfl, rfl⟩) fun _ => .ok rfl
    · exact .error ⟨rfl, rfl⟩
  refine hcodes.bind ?_
  rintro ⟨source, target⟩ _ rfl
  cases hvw with
  | number hab =>
    refine alike_ite (by rw [Decimal.Same.lt_eq (.refl _) hab]) (fun _ => ?_)
      fun _ => .error ⟨rfl, rfl⟩
    exact .ok (h.setRate hab source target)
  | _ => exact .error ⟨rfl, rfl⟩

end Same
end Environment
end Environment
end Reckoner
