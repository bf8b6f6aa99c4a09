import Reckoner.Proofs.Environment.SameCode
import Reckoner.Proofs.Value.SharedUnit
/-!
Operands of different units. Main statement: an operator on two quantities, two amounts of money or
two durations does what it does when the right operand is converted to the unit of the left one
first, and fails for the cause for which the conversion fails.
-/
namespace Reckoner

theorem map_bind_eq {α β γ : Type} (x : Except Error α) (f : α → β) (g : β → Except Error γ) :
    x.map f >>= g = x >>= fun a => g (f a) := by
  cases x <;> rfl

/-- An operator on a left number and a right one that is computed, beside the same operator on the
right number as it comes out of one more conversion that changes nothing. -/
theorem sameResult_bind_combine {op : ArithmeticOperator} (hop : op ≠ .power) (left : Decimal)
    {V : Value → Value → Prop} {label : Decimal → Value}
    (hlabel : ∀ a b, Decimal.Same a b → V (label a) (label b)) {x y : Except Error Decimal}
    (hxy : SameResult Decimal.Same x y) {again : Decimal → Except Error Decimal}
    (hagain : ∀ b, SameResult Decimal.Same (.ok b) (again b)) :
    SameResult V (x >>= fun a => (left.combine op a).map label)
      (y >>= fun b => again b >>= fun c => (left.combine op c).map label) := by
  refine hxy.bind fun a b hab => ?_
  generalize hc : again b = z
  cases hc ▸ hagain b with
  | @ok _ c hbc =>
    have hac : Decimal.Same a c := hab.trans hbc
    exact ((Decimal.Same.refl left).combine hac op fun h => absurd h hop).map hlabel

theorem Quantity.combine_eq {op : ArithmeticOperator} (hop : op ≠ .power) (l r : Quantity) :
    l.combine op r = r.value.convertUnit r.unit l.unit >>= fun b =>
      (l.value.combine op b).map fun n => .quantity { l with value := n } := by
  rw [combine, if_neg hop]
  rfl

namespace Money

theorem combine_eq {op : ArithmeticOperator} (hop : op ≠ .multiply ∧ op ≠ .power) (l r : Money)
    (env : Environment) :
    l.combine op r env = r.inCurrencyOf l env >>= fun b => (l.amount.combine op b).map fun n =>
      if op = .divide then .number n else .money { l with amount := n } := by
  rw [combine, if_neg (by simp [hop])]
  rfl

section Code

variable {code : String} (h : isCode code = true)
include h

theorem isAlpha_of_isCode : ∀ c ∈ code.toList, c.isAlpha = true := by
  rw [isCode, Bool.and_eq_true, List.all_eq_true] at h
  exact h.2

theorem trim_eq_of_isCode : Text.trim code = code := by
  have hletter (c : Char) (hc : c ∈ code.toList) : Text.isBlank c = false := by
    have halpha := isAlpha_of_isCode h c hc
    refine Text.of_ascii (P := fun c => c.isAlpha = true → Text.isBlank c = false) ?_
      (toNat_lt_of_isAlpha halpha) halpha
    decide +kernel
  have htrimmed : Text.Trimmed code.toList :=
    ⟨fun c hc => hletter c (List.mem_of_mem_head? hc),
      fun c hc => hletter c (List.mem_of_getLast? hc)⟩
  rw [Text.trim, htrimmed.trimChars_eq, String.ofList_toList]

/-- Three letters are a code, and no symbol. -/
theorem code?_of_isCode : code? code = some (Text.upper code) := by
  have hlength : code.length = 3 := by
    rw [isCode, Bool.and_eq_true, beq_iff_eq] at h
    exact h.1
  have hsymbols : symbols.find? (fun p => p.1 == code) = none := by
    rw [List.find?_eq_none]
    intro p hp hcode
    have hone : ∀ p ∈ symbols, p.1.length = 1 := by decide
    have := hone p hp
    rw [beq_iff_eq.mp hcode] at this
    omega
  rw [code?, trim_eq_of_isCode h, hsymbols]
  exact if_pos h

theorem sameLetters_upper : Text.sameLetters (Text.upper code) code = true := by
  rw [Text.sameLetters, Text.upper, String.toList_ofList,
    upperChars_of_isAlpha (isAlpha_of_isCode h), List.map_map, beq_iff_eq]
  apply List.map_congr_left
  intro c _
  exact Char.toLower_toUpper_eq_toLower c

end Code

/-- At the rate from a currency to itself an amount stays, in whatever case the codes are written. -/
theorem sameResult_at_par {source target : String} (h : Text.sameLetters source target = true)
    (env : Environment) (a : Decimal) (e e' : Error) :
    SameResult Decimal.Same (.ok a)
      (orError (env.exchangeRate? source target) e >>= fun rate => orError (a.mul rate) e') := by
  obtain ⟨b, hb, hsame⟩ := a.exists_mul_one
  rw [Environment.exchangeRate?, if_pos h, orError, ok_bind, hb]
  exact .ok ((Decimal.same_iff _ _).mp hsame)

/-- The amount that an operator takes is the amount that a conversion gives. -/
theorem exists_exchange_eq_map {l : Money} (h : isCode l.code = true) (r : Money)
    (env : Environment) :
    ∃ x, r.exchange l.code env = x.map (ofCode · l.code) ∧
      SameResult Decimal.Same (r.inCurrencyOf l env) x := by
  have hupper : Text.upper (Text.upper l.code) = Text.upper l.code := Text.upper_upper _
  have hrate : env.exchangeRate? r.code (Text.upper l.code) = env.exchangeRate? r.code l.code :=
    env.exchangeRate?_of_sameLetters (beq_self_eq_true _) (sameLetters_upper h)
  refine ⟨orError (env.exchangeRate? r.code l.code)
      (.incompatibleCurrencies r.code (Text.upper l.code)) >>= fun rate =>
        orError (r.amount.mul rate) (.overflow "currency exchange"), ?_, ?_⟩
  · rw [exchange, code?_of_isCode h, orError, ok_bind, hrate]
    cases env.exchangeRate? r.code l.code with
    | none => rfl
    | some rate =>
      simp only [orError, ok_bind, ofCode, hupper]
      cases r.amount.mul rate <;> rfl
  · unfold inCurrencyOf
    split
    · next hcode =>
      -- The operator leaves the amount alone, and the conversion multiplies it by one.
      apply sameResult_at_par
      rw [hcode]
      exact beq_self_eq_true _
    · exact (alike_orError (Decimal.rel_same_refl _) ⟨rfl, rfl⟩).bind fun a b hab =>
        alike_orError ((Decimal.Same.refl _).mul hab) ⟨rfl, rfl⟩

/-- What a conversion gives is in the currency it was asked for, up to the case of letters. -/
theorem sameResult_inCurrencyOf_upper {l : Money} (h : isCode l.code = true) (b : Decimal)
    (env : Environment) :
    SameResult Decimal.Same (.ok b) ((ofCode b l.code).inCurrencyOf l env) := by
  unfold inCurrencyOf
  split
  · exact .ok rfl
  · exact sameResult_at_par (sameLetters_upper h) env b _ _

end Money

theorem TimeUnit.ofString?_trim_name (u : TimeUnit) : ofString? (Text.trim u.name) = some u := by
  cases u <;> decide +kernel

namespace Duration

theorem combine_eq {op : ArithmeticOperator} (hop : op = .multiply ∨ op = .divide ∨ op = .modulo)
    (l r : Duration) :
    l.combine op r = (r.inUnit l.unit).map Duration.value >>= fun b =>
      (l.value.combine op b).map fun n => .duration { l with value := n } := by
  rw [map_bind_eq]
  rcases hop with rfl | rfl | rfl <;> rfl

theorem inUnit_eq_map (d : Duration) (u : TimeUnit) :
    d.inUnit u = ((d.inUnit u).map Duration.value).map (⟨·, u⟩) := by
  unfold inUnit
  split
  · next h =>
    subst h
    rfl
  · cases d.seconds <;> rfl

end Duration

namespace Value

/-- An operator has a meaning on two values of one kind, the first of which has this unit, code or
unit of time. -/
inductive Mixes (op : ArithmeticOperator) : String → Value → Value → Prop
  | quantity {l : Quantity} (hunit : Text.trim l.unit = l.unit) (hop : op ≠ .power)
    (r : Quantity) : Mixes op l.unit (.quantity l) (.quantity r)
  | money {l : Money} (hcode : Money.isCode l.code = true) (hop : op ≠ .multiply ∧ op ≠ .power)
    (r : Money) : Mixes op l.code (.money l) (.money r)
  | duration (hop : op = .multiply ∨ op = .divide ∨ op = .modulo) (l r : Duration) :
    Mixes op l.unit.name (.duration l) (.duration r)

/-- A result has the unit of the left operand, and a quotient of money has none. -/
inductive Labelled (op : ArithmeticOperator) : Value → Value → Prop
  | quantity (l : Quantity) (n : Decimal) :
    Labelled op (.quantity l) (.quantity { l with value := n })
  | quotient (l : Money) (n : Decimal) (hop : op = .divide) : Labelled op (.money l) (.number n)
  | money (l : Money) (n : Decimal) (hop : op ≠ .divide) :
    Labelled op (.money l) (.money { l with amount := n })
  | duration (l : Duration) (n : Decimal) :
    Labelled op (.duration l) (.duration { l with value := n })

/-- Two equal results with the label of the left operand. -/
def SameLabelled (op : ArithmeticOperator) (x v w : Value) : Prop :=
  v.Same w ∧ Labelled op x v ∧ Labelled op x w

variable {op : ArithmeticOperator}

theorem sameResult_quantity {l : Quantity} (hunit : Text.trim l.unit = l.unit) (hop : op ≠ .power)
    (r : Quantity) (env : Environment) :
    SameResult (SameLabelled op (.quantity l)) (combine (.quantity l) op (.quantity r) env)
      (convert (.quantity r) l.unit env >>= fun z => combine (.quantity l) op z env) := by
  have hconvert : convert (.quantity r) l.unit env =
      (r.value.convertUnit r.unit l.unit).map fun b => .quantity ⟨b, l.unit⟩ := by
    rw [convert_quantity, hunit, Quantity.convert]
    cases r.value.convertUnit r.unit l.unit <;> rfl
  have hcombine (p : Quantity) : combine (.quantity l) op (.quantity p) env = l.combine op p := rfl
  simp only [hconvert, map_bind_eq, hcombine, Quantity.combine_eq hop]
  refine sameResult_bind_combine hop l.value (fun a b hab => ?_)
    (Decimal.ConvertsAlike.refl _ _ _) fun b => ?_
  · exact ⟨.quantity (.intro hab), .quantity l a, .quantity l b⟩
  · rw [Decimal.convertUnit, if_pos rfl]
    exact .ok rfl

theorem sameResult_money {l : Money} (hcode : Money.isCode l.code = true)
    (hop : op ≠ .multiply ∧ op ≠ .power) (r : Money) (env : Environment) :
    SameResult (SameLabelled op (.money l)) (combine (.money l) op (.money r) env)
      (convert (.money r) l.code env >>= fun z => combine (.money l) op z env) := by
  obtain ⟨x, hexchange, hx⟩ := Money.exists_exchange_eq_map hcode r env
  have hconvert : convert (.money r) l.code env =
      x.map fun b => .money (.ofCode b l.code) := by
    rw [convert_money, Money.trim_eq_of_isCode hcode, hexchange]
    cases x <;> rfl
  have hcombine (m : Money) : combine (.money l) op (.money m) env = l.combine op m env := rfl
  simp only [hconvert, map_bind_eq, hcombine, Money.combine_eq hop]
  refine sameResult_bind_combine hop.2 l.amount (fun a b hab => ?_) hx fun b =>
    Money.sameResult_inCurrencyOf_upper hcode b env
  split
  · next hdivide => exact ⟨.number hab, .quotient l a hdivide, .quotient l b hdivide⟩
  · next hdivide => exact ⟨.money (.intro hab), .money l a hdivide, .money l b hdivide⟩

theorem sameResult_duration (hop : op = .multiply ∨ op = .divide ∨ op = .modulo) (l r : Duration)
    (env : Environment) :
    SameResult (SameLabelled op (.duration l)) (combine (.duration l) op (.duration r) env)
      (convert (.duration r) l.unit.name env >>= fun z => combine (.duration l) op z env) := by
  have hpower : op ≠ .power := by
    rintro rfl
    simp at hop
  have hconvert : convert (.duration r) l.unit.name env =
      ((r.inUnit l.unit).map Duration.value).map fun b => .duration ⟨b, l.unit⟩ := by
    calc convert (.duration r) l.unit.name env = (r.inUnit l.unit).map Value.duration :=
          convert_duration r l.unit.ofString?_trim_name env
      _ = (((r.inUnit l.unit).map Duration.value).map (⟨·, l.unit⟩)).map Value.duration := by
          rw [← Duration.inUnit_eq_map]
      _ = _ := by cases r.inUnit l.unit <;> rfl
  have hcombine (d : Duration) : combine (.duration l) op (.duration d) env = l.combine op d := rfl
  have hnumber : SameResult Decimal.Same ((r.inUnit l.unit).map Duration.value)
      ((r.inUnit l.unit).map Duration.value) := by
    refine (Duration.Same.inUnit (d := r) (.intro (.refl _)) l.unit).map fun d e hde => ?_
    cases hde with
    | intro h => exact h
  rw [hconvert, hcombine, Duration.combine_eq hop]
  generalize (r.inUnit l.unit).map Duration.value = x at hnumber
  rw [map_bind_eq]
  simp only [hcombine, Duration.combine_eq hop]
  refine sameResult_bind_combine hpower l.value (fun a b hab => ?_) hnumber fun b => ?_
  · exact ⟨.duration (.intro hab), .duration l a, .duration l b⟩
  · rw [Duration.inUnit, if_pos rfl]
    exact .ok rfl

/-- Combining two values of different units is converting the second to the unit of the first and
combining them then: the results are equal and have the unit of the first value, or there is one
cause for there being none. -/
theorem combine_eq_convert_combine {unit : String} {x y : Value} (h : Mixes op unit x y)
    (env : Environment) :
    SameResult (SameLabelled op x) (combine x op y env)
      (y.convert unit env >>= fun z => combine x op z env) := by
  cases h with
  | quantity hunit hop r => exact sameResult_quantity hunit hop r env
  | money hcode hop r => exact sameResult_money hcode hop r env
  | duration hop l r => exact sameResult_duration hop l r env

/-- A hundred euros and ten dollars, at 0.92 euros for a dollar. -/
theorem combine_eq_convert_combine_euro :
    let env := Environment.initial.setRate "USD" "EUR" (.ofLiteral 92 2)
    let l : Value := .money (.ofCode (.ofLiteral 100 0) "EUR")
    let r : Value := .money (.ofCode (.ofLiteral 10 0) "USD")
    Mixes .add "EUR" l r ∧
      combine l .add r env = .ok (.money (.ofCode (.ofLiteral 10920 2) "EUR")) ∧
      SameResult (SameLabelled .add l) (combine l .add r env)
        (r.convert "EUR" env >>= fun z => combine l .add z env) := by
  intro env l r
  have hmixes : Mixes .add "EUR" l r :=
    .money (l := .ofCode (.ofLiteral 100 0) "EUR") (by decide +kernel) (by decide) _
  exact ⟨hmixes, eq_ok_of_toOption (by decide +kernel), combine_eq_convert_combine hmixes env⟩

end Value
end Reckoner
