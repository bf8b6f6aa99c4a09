import Mathlib
import Reckoner.Proofs.Evaluation.Reached
import Reckoner.Proofs.Gives
import Reckoner.Proofs.Text.Trim
import Reckoner.Proofs.Text.Upper
/-!
Values whose parts are as a reader may rely on: the code of a currency, the unit of time of a rate
and the fields of a time of day. Main statement: every literal is such a value, and every operation
and every function makes such values of such values.
-/
namespace Reckoner

/-- The code is three capital letters of ASCII, and the symbol that is kept beside it is the one of
the table, if the table has one for this code. -/
structure Money.WellFormed (m : Money) : Prop where
  length_eq : m.code.toList.length = 3
  isUpper : ∀ c ∈ m.code.toList, c.isUpper = true
  symbol_iff : ∀ s, m.symbol = some s ↔ (s, m.code) ∈ symbols

/-- The unit of time is spelled without blanks at its ends, and there is such a unit. -/
structure Rate.WellFormed (r : Rate) : Prop where
  trim_eq : Text.trim r.per = r.per
  isSome : (TimeUnit.ofString? r.per).isSome = true

/-- The time lies within a day, and its offset is at most 14 hours and 59 minutes. -/
structure TimeOfDay.WellFormed (t : TimeOfDay) : Prop where
  hour_lt : t.hour < 24
  minute_lt : t.minute < 60
  second_lt : ∀ s ∈ t.second, s < 60
  offset_le : ∀ o ∈ t.offset, o.natAbs ≤ 14 * 60 + 59

inductive Value.WellFormed : Value → Prop
  | number (n : Decimal) : WellFormed (.number n)
  | money {m : Money} (h : m.WellFormed) : WellFormed (.money m)
  | quantity (q : Quantity) : WellFormed (.quantity q)
  | rate {r : Rate} (h : r.WellFormed) : WellFormed (.rate r)
  | duration (d : Duration) : WellFormed (.duration d)
  | date (d : Date) : WellFormed (.date d)
  | time {t : TimeOfDay} (h : t.WellFormed) : WellFormed (.time t)
  | boolean (b : Bool) : WellFormed (.boolean b)

namespace Money

/-- No two symbols stand for one code. -/
theorem symbolOf?_eq_some_iff (code s : String) :
    symbolOf? code = some s ↔ (s, code) ∈ symbols := by
  have hunique : ∀ p ∈ symbols, symbolOf? p.2 = some p.1 := by decide
  constructor
  · intro h
    obtain ⟨p, hp, rfl⟩ := Option.map_eq_some_iff.mp h
    have hcode := List.find?_some hp
    rw [beq_iff_eq] at hcode
    rw [← hcode]
    exact List.mem_of_find?_eq_some hp
  · intro h
    -- The symbol looked up is that of the first pair with this code, and there is no other.
    exact hunique _ h

/-- Three capital letters. -/
def IsUpperCode (code : String) : Prop :=
  code.toList.length = 3 ∧ ∀ c ∈ code.toList, c.isUpper = true

theorem WellFormed.isUpperCode {m : Money} (h : m.WellFormed) : IsUpperCode m.code :=
  ⟨h.length_eq, h.isUpper⟩

theorem toNat_lt_of_isAlpha {c : Char} (h : c.isAlpha = true) : c.toNat < 128 := by
  simp only [Char.isAlpha, Char.isUpper, Char.isLower, Bool.or_eq_true, Bool.and_eq_true,
    decide_eq_true_eq, UInt32.le_iff_toNat_le] at h
  unfold Char.toNat
  rcases h with ⟨-, h⟩ | ⟨-, h⟩ <;> exact Nat.lt_of_le_of_lt h (by decide)

theorem upperChars_of_isAlpha {cs : List Char} (h : ∀ c ∈ cs, c.isAlpha = true) :
    Text.upperChars cs = cs.map Char.toUpper := by
  rw [Text.upperChars, List.map_eq_flatMap]
  exact List.flatMap_congr fun c hc => if_pos (toNat_lt_of_isAlpha (h c hc))

theorem isUpperCode_upper {word : String} (h : isCode word = true) :
    IsUpperCode (Text.upper word) := by
  rw [isCode, Bool.and_eq_true, beq_iff_eq, List.all_eq_true] at h
  obtain ⟨hlength, halpha⟩ := h
  rw [IsUpperCode, Text.upper, String.toList_ofList, upperChars_of_isAlpha halpha]
  constructor
  · rwa [List.length_map, String.length_toList]
  · intro c hc
    obtain ⟨b, hb, rfl⟩ := List.mem_map.mp hc
    rw [Char.isUpper_toUpper_eq_isAlpha]
    exact halpha b hb

/-- A code of capital letters is its own upper case. -/
theorem IsUpperCode.upper_eq {code : String} (h : IsUpperCode code) : Text.upper code = code := by
  have halpha (c : Char) (hc : c ∈ code.toList) : c.isAlpha = true := by
    rw [Char.isAlpha, h.2 c hc, Bool.true_or]
  rw [Text.upper, upperChars_of_isAlpha halpha, List.map_congr_left (g := id), List.map_id,
    String.ofList_toList]
  intro c hc
  exact Char.toUpper_eq_of_not_isLower (Char.not_isLower_of_isUpper (h.2 c hc))

/-- The code for a symbol or for three letters is one of capital letters. -/
theorem isUpperCode_of_code? {s code : String} (h : code? s = some code) : IsUpperCode code := by
  have htable : ∀ p ∈ symbols, p.2.toList.length = 3 ∧ p.2.toList.all Char.isUpper = true := by
    decide
  rw [code?] at h
  cases hfind : symbols.find? fun p => p.1 == Text.trim s with
  | some p =>
    rw [hfind] at h
    rw [← Option.some.inj h]
    obtain ⟨hlength, hupper⟩ := htable p (List.mem_of_find?_eq_some hfind)
    exact ⟨hlength, List.all_eq_true.mp hupper⟩
  | none =>
    rw [hfind] at h
    obtain ⟨hcode, hupper⟩ := Option.ite_none_right_eq_some.mp h
    rw [← Option.some.inj hupper]
    exact isUpperCode_upper hcode

theorem wellFormed_ofCode {code : String} (h : IsUpperCode code) (n : Decimal) :
    (ofCode n code).WellFormed := by
  have hcode : IsUpperCode (ofCode n code).code := by
    rw [ofCode, h.upper_eq]
    exact h
  exact ⟨hcode.1, hcode.2, symbolOf?_eq_some_iff (ofCode n code).code⟩

theorem wellFormed_ofCode_of_code? {s code : String} (h : code? s = some code) (n : Decimal) :
    (ofCode n code).WellFormed :=
  wellFormed_ofCode (isUpperCode_of_code? h) n

theorem targetCode?_eq_some {target code : String} (h : targetCode? target = some code) :
    code? target = some code := by
  unfold targetCode? at h
  split at h
  · next c hc =>
    split at h
    · cases h
      exact hc
    · cases h
  · cases h

theorem wellFormed_withAmount {m : Money} (h : m.WellFormed) (n : Decimal) :
    (m.withAmount n).WellFormed :=
  ⟨h.length_eq, h.isUpper, h.symbol_iff⟩

theorem gives_read_wellFormed (amount currency : String) :
    Gives (Money.read amount currency) WellFormed := by
  refine gives_bind (gives_orError fun code h => h) fun code h => ?_
  exact gives_after fun n => gives_ok (wellFormed_ofCode_of_code? h n)

theorem gives_exchange_wellFormed (m : Money) (target : String) (env : Environment) :
    Gives (m.exchange target env) WellFormed := by
  refine gives_bind (gives_orError fun code h => h) fun code h => ?_
  exact gives_after fun _ => gives_after fun n => gives_ok (wellFormed_ofCode_of_code? h n)

end Money

namespace Rate

theorem wellFormed_withValue {r : Rate} (h : r.WellFormed) (n : Decimal) :
    (r.withValue n).WellFormed :=
  ⟨h.trim_eq, h.isSome⟩

theorem gives_make_wellFormed (amount : Quantity) (per : String) :
    Gives (make amount per) WellFormed := by
  refine gives_bind (gives_orError fun u h => h) fun u h => gives_ok ?_
  exact ⟨Text.trim_trim per, Option.isSome_of_eq_some h⟩

theorem gives_read_wellFormed (amount unit per : String) :
    Gives (Rate.read amount unit per) WellFormed :=
  gives_ite (fun _ => gives_error _) fun _ => gives_after fun _ => gives_make_wellFormed _ _

theorem gives_retime_wellFormed (r : Rate) (target : String) :
    Gives (r.retime target) WellFormed :=
  gives_after fun _ => gives_after fun _ => gives_after fun _ => gives_make_wellFormed _ _

theorem gives_convert_wellFormed (r : Rate) (target : String) :
    Gives (r.convert target) WellFormed := by
  refine gives_ite (fun _ => r.gives_retime_wellFormed target) fun _ => ?_
  exact gives_after fun _ => gives_after fun _ => gives_after fun _ => gives_make_wellFormed _ _

end Rate

namespace TimeOfDay

theorem natAbs_le_of_offset? {cs : List Char} {o : Int} (h : offset? cs = some o) :
    o.natAbs ≤ 14 * 60 + 59 := by
  unfold offset? at h
  split at h
  · cases h
    decide
  · split at h
    · next a b c d _ =>
      obtain ⟨hrange, hsign⟩ := Option.ite_none_right_eq_some.mp h
      rw [← Option.some.inj hsign]
      split <;> omega
    · cases h

/-- Parts that are all in range make a time within a day. -/
theorem wellFormed_of_ofParts? {p : Parts} {t : TimeOfDay} (h : ofParts? p = some t) :
    t.WellFormed := by
  -- The bounds have been checked, a missing second as zero.
  simp only [ofParts?, Option.bind_eq_bind, Option.bind_eq_some_iff,
    Option.ite_none_left_eq_some] at h
  obtain ⟨_, -, minute, -, second, -, hour, -, hrange, offset, hoffset, h⟩ := h
  cases h
  refine ⟨?_, ?_, ?_, ?_⟩
  · show hour < 24
    omega
  · show minute < 60
    omega
  · rintro s ⟨⟩
    simp only [Option.getD_some] at hrange
    omega
  · rintro o ⟨⟩
    cases hp : p.offset with
    | none =>
      rw [hp] at hoffset
      cases hoffset
    | some cs =>
      rw [hp] at hoffset
      obtain ⟨o', ho, ho'⟩ := Option.map_eq_some_iff.mp hoffset
      cases ho'
      exact natAbs_le_of_offset? ho

theorem gives_read_wellFormed (s : String) : Gives (TimeOfDay.read s) WellFormed := by
  refine gives_orError fun t h => ?_
  obtain ⟨p, -, hp⟩ := Option.bind_eq_some_iff.mp h
  exact wellFormed_of_ofParts? hp

/-- Wherever a shift leads, the time is within a day, and the offset is the old one. -/
theorem gives_shift_wellFormed {t : TimeOfDay} (h : ∀ o ∈ t.offset, o.natAbs ≤ 14 * 60 + 59)
    (seconds : Int) : Gives (t.shift seconds) WellFormed := by
  refine gives_ite (fun _ => gives_ok ?_) fun _ => gives_error _
  -- The remainder is that of the day, also where the shift leads in front of midnight.
  have hsecond : ((t.secondOfDay + seconds) % secondsPerDay).toNat < 86400 := by
    simp only [secondsPerDay]
    omega
  refine ⟨atSecond_hour_lt _ _ _ hsecond, atSecond_minute_lt _ _ _, ?_, h⟩
  intro s hs
  simp only [atSecond, Option.mem_def, Option.ite_none_right_eq_some] at hs
  rw [← Option.some.inj hs.2]
  exact Nat.mod_lt _ (by decide)

theorem gives_after_wellFormed {t : TimeOfDay} (h : t.WellFormed) (d : Duration) :
    Gives (t.after d) WellFormed :=
  gives_after fun _ => gives_shift_wellFormed h.offset_le _

theorem gives_before_wellFormed {t : TimeOfDay} (h : t.WellFormed) (d : Duration) :
    Gives (t.before d) WellFormed :=
  gives_after fun _ => gives_ite (fun _ => gives_shift_wellFormed h.offset_le _)
    fun _ => gives_error _

end TimeOfDay

namespace Value

theorem wellFormed_ofNumber (n : Decimal) (target : String) : (ofNumber n target).WellFormed := by
  unfold ofNumber
  cases TimeUnit.ofString? target with
  | some unit => exact .duration _
  | none =>
    generalize hcode : Money.targetCode? target = code
    cases code with
    | some code =>
      dsimp only
      split
      · exact .quantity _
      · exact .money (Money.wellFormed_ofCode_of_code? (Money.targetCode?_eq_some hcode) n)
    | none => exact .quantity _

theorem gives_withMagnitude_wellFormed {v : Value} (h : v.WellFormed) (n : Decimal) :
    Gives (v.withMagnitude n) WellFormed := by
  cases h with
  | number n => exact gives_ok (.number _)
  | money h => exact gives_ok (.money (Money.wellFormed_withAmount h n))
  | quantity q => exact gives_ok (.quantity _)
  | rate h => exact gives_ok (.rate (Rate.wellFormed_withValue h n))
  | duration d => exact gives_ok (.duration _)
  | date d => exact gives_error _
  | time h => exact gives_error _
  | boolean b => exact gives_error _

theorem gives_readQuantity_wellFormed (amount unit : String) :
    Gives (readQuantity amount unit) WellFormed := by
  refine gives_after fun n => ?_
  dsimp only
  split
  · exact gives_error _
  · cases TimeUnit.ofString? (Text.trim unit) with
    | some u => exact gives_ok (.duration _)
    | none => exact gives_ok (.quantity _)

theorem gives_literal_wellFormed {e : Expression} {r : Except Error Value}
    (h : e.literal? = some r) : Gives r WellFormed := by
  cases e with
  | number text =>
    rw [← Option.some.inj h]
    exact gives_map fun _ _ => .number _
  | boolean text =>
    rw [← Option.some.inj h]
    exact gives_map fun _ _ => .boolean _
  | date text =>
    rw [← Option.some.inj h]
    exact gives_map fun _ _ => .date _
  | time text =>
    rw [← Option.some.inj h]
    exact gives_map fun t ht => .time (TimeOfDay.gives_read_wellFormed text t ht)
  | currency amount code =>
    rw [← Option.some.inj h]
    exact gives_map fun m hm => .money (Money.gives_read_wellFormed amount code m hm)
  | duration amount unit =>
    rw [← Option.some.inj h]
    exact gives_map fun _ _ => .duration _
  | quantity amount unit =>
    rw [← Option.some.inj h]
    exact gives_readQuantity_wellFormed amount unit
  | rate amount unit per =>
    rw [← Option.some.inj h]
    exact gives_map fun r hr => .rate (Rate.gives_read_wellFormed amount unit per r hr)
  | _ => cases h

theorem gives_combine_durations_wellFormed (l : Duration) (op : ArithmeticOperator) (r : Duration) :
    Gives (l.combine op r) WellFormed := by
  have inSeconds : Gives (Duration.combine.inSeconds l op r) WellFormed :=
    gives_after fun _ => gives_after fun _ => gives_after fun _ => gives_ok (.duration _)
  cases op with
  | add => exact inSeconds
  | subtract => exact inSeconds
  | power => exact gives_error _
  | _ => exact gives_after fun _ => gives_after fun _ => gives_ok (.duration _)

section Combine

variable {l r : Value} (hl : l.WellFormed) (hr : r.WellFormed) (op : ArithmeticOperator)

include hl hr

theorem gives_combineDates_wellFormed : Gives (combineDates l op r) WellFormed := by
  unfold combineDates
  split
  · exact gives_map fun _ _ => .date _
  · exact gives_map fun _ _ => .date _
  · exact gives_map fun _ _ => .date _
  · exact gives_ok (.duration _)
  · exact gives_error _

theorem gives_combineTimes_wellFormed : Gives (combineTimes l op r) WellFormed := by
  unfold combineTimes
  split
  · cases hl with
    | time h => exact gives_map fun t ht => .time (TimeOfDay.gives_after_wellFormed h _ t ht)
  · cases hr with
    | time h => exact gives_map fun t ht => .time (TimeOfDay.gives_after_wellFormed h _ t ht)
  · cases hl with
    | time h => exact gives_map fun t ht => .time (TimeOfDay.gives_before_wellFormed h _ t ht)
  · exact gives_ok (.duration _)
  · exact gives_error _

omit hr in
theorem gives_combineNumber_wellFormed (n : Decimal) :
    Gives (l.combineNumber op n) WellFormed := by
  refine gives_ite (fun _ => ?_) fun _ => gives_error _
  cases l.magnitude? with
  | some m => exact gives_after fun k => gives_withMagnitude_wellFormed hl k
  | none => exact gives_error _

omit hl in
theorem gives_combineNumberBefore_wellFormed (n : Decimal) :
    Gives (combineNumberBefore n op r) WellFormed := by
  refine gives_ite (fun _ => ?_) fun _ => gives_error _
  cases r.magnitude? with
  | some m => exact gives_after fun k => gives_withMagnitude_wellFormed hr k
  | none => exact gives_error _

theorem gives_combine_wellFormed (env : Environment) : Gives (l.combine op r env) WellFormed := by
  have hdates := gives_combineDates_wellFormed hl hr op
  have htimes := gives_combineTimes_wellFormed hl hr op
  have hnumber := gives_combineNumber_wellFormed hl op
  have hbefore := fun n => gives_combineNumberBefore_wellFormed hr op n
  -- Two operands of one kind keep the code or the unit of time of the left one.
  unfold combine
  split
  · exact hdates
  · exact hdates
  · exact htimes
  · exact htimes
  · exact hnumber _
  · exact hbefore _
  · cases hl with
    | money h =>
      refine gives_ite (fun _ => gives_error _) fun _ => ?_
      refine gives_after fun _ => gives_after fun n => gives_ok ?_
      split
      · exact .number n
      · exact .money (Money.wellFormed_withAmount h n)
  · refine gives_ite (fun _ => gives_error _) fun _ => ?_
    exact gives_after fun _ => gives_after fun n => gives_ok (.quantity _)
  · cases hl with
    | rate h =>
      refine gives_ite (fun _ => ?_) fun _ => gives_error _
      refine gives_after fun _ => gives_after fun n => gives_ok ?_
      split
      · exact .number n
      · exact .rate (Rate.wellFormed_withValue h n)
  · exact gives_combine_durations_wellFormed _ op _
  · exact gives_ite (fun _ => gives_map fun q _ => .quantity q) fun _ => gives_error _
  · exact gives_ite (fun _ => gives_map fun q _ => .quantity q) fun _ => gives_error _
  · exact gives_error _
  · exact gives_error _
  · exact gives_error _

end Combine

theorem gives_signed_wellFormed {v : Value} (h : v.WellFormed) (op : UnaryOperator) :
    Gives (v.signed op) WellFormed := by
  unfold signed
  split
  · exact gives_ok (.number _)
  · cases h with
    | money h => exact gives_ok (.money (Money.wellFormed_withAmount h _))
  · exact gives_ok h
  · exact gives_ok h
  · exact gives_error _

theorem gives_convert_wellFormed (v : Value) (target : String) (env : Environment) :
    Gives (v.convert target env) WellFormed := by
  unfold convert
  generalize Text.trim target = target
  cases v with
  | number n => exact gives_ok (wellFormed_ofNumber n target)
  | money m => exact gives_map fun n hn => .money (m.gives_exchange_wellFormed target env n hn)
  | quantity q => exact gives_map fun _ _ => .quantity _
  | rate r => exact gives_map fun s hs => .rate (r.gives_convert_wellFormed target s hs)
  | duration d =>
    dsimp only
    cases TimeUnit.ofString? target with
    | some unit => exact gives_map fun _ _ => .duration _
    | none => exact gives_error _
  | _ => exact gives_error _

theorem gives_portion_wellFormed (fraction : Value) {base : Value} (h : base.WellFormed) :
    Gives (portion fraction base) WellFormed := by
  unfold portion
  split
  · exact gives_after fun n => gives_withMagnitude_wellFormed h n
  · exact gives_error _

theorem gives_napkin_wellFormed {v : Value} (h : v.WellFormed) (figures : Nat) :
    Gives (Napkin.roundValue v figures) WellFormed :=
  gives_after fun _ => gives_after fun n => gives_withMagnitude_wellFormed h n

theorem gives_mapMagnitude_wellFormed {v : Value} (h : v.WellFormed) (function : String)
    (f : Decimal → Decimal) : Gives (v.mapMagnitude function f) WellFormed :=
  gives_after fun n => gives_withMagnitude_wellFormed h (f n)

theorem gives_compress_wellFormed {size : Value} (h : size.WellFormed) (compression : Compression) :
    Gives (Estimate.compress size compression) WellFormed :=
  gives_after fun _ => gives_ite (fun _ => gives_error _) fun _ =>
    gives_after fun n => gives_withMagnitude_wellFormed h n

/-- The first value of a list decides on the currency of a sum, a mean or an extreme. -/
theorem gives_aggregate_wellFormed {vs : List Value} (h : ∀ v ∈ vs, v.WellFormed)
    (function : String) (fold : List Decimal → Except Error Decimal) :
    Gives (aggregate function fold vs) WellFormed := by
  cases vs with
  | nil => exact gives_error _
  | cons v rest =>
    cases h v List.mem_cons_self with
    | number n => exact gives_after fun _ => gives_after fun n => gives_ok (.number n)
    | money hm =>
      refine gives_after fun _ => gives_after fun n => gives_ok (.money ?_)
      exact Money.wellFormed_ofCode hm.isUpperCode n
    | _ => exact gives_error _

end Value

namespace Parameter

/-- An argument that is read as a value or as a rate is a well-formed one. -/
def WellFormed : (p : Parameter) → p.Meaning → Prop
  | .value, v => Value.WellFormed v
  | .rate, r => Rate.WellFormed r
  | _, _ => True

theorem gives_taken_wellFormed {p : Parameter} {word : String} {position : Nat} {e : Expression}
    {r : Except Error p.Meaning} (h : p.taken? word position e = some r) :
    Gives r p.WellFormed := by
  cases p with
  | value => cases h
  | rate => cases h
  | _ => exact fun _ _ => True.intro

theorem gives_ofValue_wellFormed (p : Parameter) (word : String) (position : Nat) {v : Value}
    (h : v.WellFormed) : Gives (p.ofValue word position v) p.WellFormed := by
  cases p with
  | value => exact gives_ok h
  | rate =>
    cases h with
    | rate h => exact gives_ok h
    | _ => exact gives_error _
  | _ => exact fun _ _ => True.intro

end Parameter
end Reckoner
