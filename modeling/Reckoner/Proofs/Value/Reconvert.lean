import Reckoner.Proofs.Decimal.Same
import Reckoner.Proofs.Time.Counted
import Reckoner.Proofs.Value.Shape
import Reckoner.Proofs.Value.WellFormed
/-!
Converting a value to what it has been converted to already. Main statement: that changes nothing,
except that the number of a rate is counted up by the length of its unit of time and divided by it
once more, which may lead out of range or lose the last digits.
-/
namespace Reckoner

open Decimal

namespace Decimal

theorem exists_mul_one (a : Decimal) : ∃ b, a.mul one = some b ∧ a.same b = true := by
  have h := map_toRat_mul a one
  rw [toRat_one, mul_one, nearest?_toRat] at h
  obtain ⟨b, hb, hab⟩ := Option.map_eq_some_iff.mp h
  exact ⟨b, hb, (same_iff a b).mpr hab.symm⟩

end Decimal

theorem Quantity.convert_self (q : Quantity) : q.convert q.unit = .ok q := by
  rw [convert, Decimal.convertUnit, if_pos rfl, ok_bind]
  rfl

namespace TimeUnit

/-- What a number becomes when it is counted up by the length of a unit and divided by it again. -/
def restored (u : TimeUnit) (x : ℚ) : ℚ := nearest (nearest (x * u.seconds) / u.seconds)

theorem inRange_nearest_div {u : TimeUnit} {x : ℚ} (n : Decimal) (h : n.toRat = x) :
    InRange (x / u.seconds) := by
  have hn := n.inRange_toRat
  rw [InRange, h] at hn
  rw [InRange, abs_div, Nat.abs_cast]
  exact (div_le_self (abs_nonneg _) u.one_le_seconds).trans_lt hn

end TimeUnit

namespace Rate

/-- The number of a rate, counted up by the length of the unit of time, is in range, and it is
there again when the product is divided by that length. -/
def Restored (r : Rate) : Prop :=
  ∀ u, r.perUnit = .ok u →
    InRange (r.amount.value.toRat * u.seconds) ∧
      u.restored r.amount.value.toRat = r.amount.value.toRat

/-- A product that keeps every digit gives the number back. -/
theorem restored_of_lt {r : Rate}
    (h : ∀ u, r.perUnit = .ok u → r.amount.value.coefficient * u.seconds < 2 ^ 96) :
    r.Restored := by
  intro u hu
  set a := r.amount.value
  have hlt : |a.signed| * u.seconds < 2 ^ 96 := by
    rw [abs_signed]
    exact_mod_cast h u hu
  obtain ⟨hrange, hnearest⟩ := nearest_mul_natCast_of_lt a.scale_le a.toRat_mul_pow hlt
  refine ⟨hrange, ?_⟩
  rw [TimeUnit.restored, hnearest, mul_div_cancel_right₀ _ u.cast_seconds_pos.ne', nearest_toRat]

/-- Counting up by one length and dividing by another. -/
theorem map_toRat_scaled (x : Decimal) (u v : TimeUnit) :
    (scaled x u.length v.length).map toRat =
      if InRange (x.toRat * u.seconds) then
        some (nearest (nearest (x.toRat * u.seconds) / v.seconds))
      else none := by
  have hmul := map_toRat_mul x u.length
  rw [TimeUnit.toRat_length] at hmul
  have hlength : v.length.toRat ≠ 0 := by
    rw [TimeUnit.toRat_length]
    exact v.cast_seconds_pos.ne'
  split
  · next hr =>
    obtain ⟨n, hn, hval⟩ := exists_of_map_toRat hmul hr
    have hdiv := map_toRat_div n v.length hlength
    rw [TimeUnit.toRat_length, hval, nearest?, if_pos (TimeUnit.inRange_nearest_div n hval)] at hdiv
    rw [scaled, hn]
    exact hdiv
  · next hr =>
    rw [scaled, eq_none_of_map_toRat hmul hr]
    rfl

/-- Counting up and dividing by one length. -/
theorem map_toRat_scaled_length (x : Decimal) (u : TimeUnit) :
    (scaled x u.length u.length).map toRat =
      if InRange (x.toRat * u.seconds) then some (u.restored x.toRat) else none :=
  map_toRat_scaled x u u

/-- A rate for the unit of time that it has is the same rate just where its number is restored. -/
theorem retime_per_iff {r : Rate} (h : r.WellFormed) :
    (∃ s, r.retime r.per = .ok s ∧ r.same s = true) ↔ r.Restored := by
  obtain ⟨u, hu⟩ := Option.isSome_iff_exists.mp h.isSome
  have hread : TimeUnit.read r.per = .ok u := by rw [TimeUnit.read, hu, orError]
  have hper : r.perUnit = .ok u := hread
  have hscaled := map_toRat_scaled_length r.amount.value u
  have hrestored : r.Restored ↔ InRange (r.amount.value.toRat * u.seconds) ∧
      u.restored r.amount.value.toRat = r.amount.value.toRat := by
    constructor
    · intro hr
      exact hr u hper
    · intro hr v hv
      cases hper.symm.trans hv
      exact hr
  have hretime : r.retime r.per =
      (orError (scaled r.amount.value u.length u.length) (.overflow "rate conversion")).map
        r.withValue := by
    rw [retime, hread, ok_bind, perSeconds, hper, ok_bind, pure_bind]
    cases scaled r.amount.value u.length u.length with
    | none => rfl
    | some n =>
      rw [orError, ok_bind, make, h.trim_eq, hread, ok_bind]
      rfl
  rw [hretime, hrestored]
  -- Both sides ask for the same two things of this number.
  cases hs : scaled r.amount.value u.length u.length with
  | none =>
    rw [hs, Option.map_none] at hscaled
    split at hscaled
    · cases hscaled
    · next hr =>
      constructor
      · rintro ⟨s, hs, -⟩
        cases hs
      · intro hc
        exact absurd hc.1 hr
  | some n =>
    rw [hs, Option.map_some] at hscaled
    split at hscaled
    · next hr =>
      have hn := Option.some.inj hscaled
      constructor
      · rintro ⟨s, hs, hsame⟩
        cases hs
        simp only [same, withValue, Quantity.same, Bool.and_eq_true, Decimal.same_iff] at hsame
        exact ⟨hr, hn.symm.trans hsame.1.1.symm⟩
      · rintro ⟨-, hc⟩
        refine ⟨_, rfl, ?_⟩
        simp [same, withValue, Quantity.same, Decimal.same_iff, hn, hc]
    · cases hscaled

theorem gives_make_per (amount : Quantity) (per : String) :
    Gives (make amount per) (·.per = Text.trim per) :=
  gives_after fun _ => gives_ok rfl

theorem gives_retime_per (r : Rate) (target : String) :
    Gives (r.retime target) (·.per = Text.trim target) :=
  gives_after fun _ => gives_after fun _ => gives_after fun _ => gives_make_per _ _

theorem trim_of_splitTarget {target unit per : String}
    (h : splitTarget target = some (unit, per)) : Text.trim per = per := by
  obtain ⟨⟨l, r⟩, -, h⟩ := Option.bind_eq_some_iff.mp h
  obtain ⟨-, h⟩ := Option.ite_none_left_eq_some.mp h
  cases h
  rw [Text.trim, String.toList_ofList, Text.trimChars_trimChars]

/-- Making a rate of the parts of one that was made gives it again. -/
theorem make_self {r : Rate} (h : r.WellFormed) : make r.amount r.per = .ok r := by
  obtain ⟨u, hu⟩ := Option.isSome_iff_exists.mp h.isSome
  rw [make, h.trim_eq, TimeUnit.read, hu, orError, ok_bind]
  rfl

theorem convert_of_isSome {target : String} (h : (TimeUnit.ofString? target).isSome = true)
    (r : Rate) : r.convert target = r.retime target := if_pos h

theorem convert_of_splitTarget {target unit per : String}
    (h : (TimeUnit.ofString? target).isSome = false) (hs : splitTarget target = some (unit, per))
    (r : Rate) :
    r.convert target =
      r.retime per >>= fun t => t.amount.convert unit >>= fun q => make q per := by
  rw [convert, if_neg (by simp [h]), hs, orError]
  exact ok_bind _ _

/-- A rate that has been converted is only retimed when it is converted again: its amount has the
unit that the target names. -/
theorem convert_again {r s : Rate} {target : String} (ht : Text.trim target = target)
    (h : r.convert target = .ok s) : s.convert target = s.retime s.per := by
  cases hunit : (TimeUnit.ofString? target).isSome with
  | true =>
    rw [convert_of_isSome hunit] at h ⊢
    rw [r.gives_retime_per target s h, ht]
  | false =>
    cases hsplit : splitTarget target with
    | none =>
      rw [convert, if_neg (by simp [hunit]), hsplit] at h
      cases h
    | some units =>
      obtain ⟨unit, per⟩ := units
      have hper := trim_of_splitTarget hsplit
      rw [convert_of_splitTarget hunit hsplit] at h ⊢
      have hunits : Gives (r.retime per >>= fun t => t.amount.convert unit >>= fun q => make q per)
          fun s => s.amount.unit = unit ∧ s.per = per := by
        refine gives_after fun t => gives_bind (Quantity.gives_convert _ unit) fun q hq => ?_
        intro s hs
        rw [gives_make q per s hs, gives_make_per q per s hs, hper]
        exact ⟨hq, rfl⟩
      obtain ⟨hamount, hsper⟩ := hunits s h
      rw [hsper]
      cases ht : s.retime per with
      | error e => rfl
      | ok t =>
        -- The unit of the amount is the one that the target names, so converting it does nothing.
        have htunit : t.amount.unit = unit := (s.gives_retime per t ht).trans hamount
        have htper : t.per = per := (s.gives_retime_per per t ht).trans hper
        rw [ok_bind, ← htunit, Quantity.convert_self, ok_bind, ← htper]
        exact make_self (s.gives_retime_wellFormed per t ht)

end Rate

namespace Money

theorem gives_exchange_code (m : Money) (target : String) (env : Environment) :
    Gives (m.exchange target env) fun n =>
      code? target = some n.code ∧ n.symbol = symbolOf? n.code := by
  refine gives_bind (gives_orError fun code h => h) fun code h => ?_
  refine gives_after fun _ => gives_after fun n => gives_ok ⟨?_, rfl⟩
  rw [ofCode, (isUpperCode_of_code? h).upper_eq, h]

/-- An amount in the currency that the target names is exchanged at the rate of one. -/
theorem exchange_of_code? {m : Money} {target : String} (h : code? target = some m.code)
    (hsymbol : m.symbol = symbolOf? m.code) (env : Environment) :
    ∃ n, m.exchange target env = .ok n ∧ m.same n = true := by
  have hrate : env.exchangeRate? m.code m.code = some .one := by
    rw [Environment.exchangeRate?, Text.sameLetters, beq_self_eq_true, if_pos rfl]
  obtain ⟨amount, hamount, hsame⟩ := m.amount.exists_mul_one
  refine ⟨ofCode amount m.code, ?_, ?_⟩
  · rw [exchange, h, orError, ok_bind, hrate, orError, ok_bind, hamount, orError, ok_bind]
    rfl
  · rw [same, ofCode, hsame, (isUpperCode_of_code? h).upper_eq, hsymbol]
    simp

end Money

namespace Value

section Convert

variable (target : String) (env : Environment)

theorem convert_quantity (q : Quantity) :
    convert (quantity q) target env = (q.convert (Text.trim target)).map quantity := rfl

theorem convert_rate (r : Rate) :
    convert (rate r) target env = (r.convert (Text.trim target)).map rate := rfl

theorem convert_money (m : Money) :
    convert (money m) target env = (m.exchange (Text.trim target) env).map money := rfl

end Convert

theorem convert_duration (p : Duration) {target : String} {u : TimeUnit}
    (hu : TimeUnit.ofString? (Text.trim target) = some u) (env : Environment) :
    (duration p).convert target env = (p.inUnit u).map duration := by
  unfold convert
  dsimp only
  rw [hu]

/-- The value already has the unit of time, the currency with its symbol or the units that the
target names. -/
inductive Names (target : String) : Value → Prop
  | duration {d : Duration} (h : TimeUnit.ofString? target = some d.unit) :
    Names target (.duration d)
  | money {m : Money} (h : Money.code? target = some m.code)
    (hsymbol : m.symbol = Money.symbolOf? m.code) : Names target (.money m)
  | quantity {q : Quantity} (h : q.unit = target) : Names target (.quantity q)
  | rate {r : Rate} (h : r.WellFormed) (hr : r.convert target = r.retime r.per) :
    Names target (.rate r)

theorem names_ofNumber (n : Decimal) (target : String) : Names target (ofNumber n target) := by
  unfold ofNumber
  generalize hunit : TimeUnit.ofString? target = unit
  cases unit with
  | some unit => exact .duration hunit
  | none =>
    generalize hcode : Money.targetCode? target = code
    cases code with
    | some code =>
      have hname := Money.targetCode?_eq_some hcode
      dsimp only
      split
      · exact .quantity rfl
      · refine .money ?_ rfl
        rw [Money.ofCode, (Money.isUpperCode_of_code? hname).upper_eq, hname]
    | none => exact .quantity rfl

/-- What a conversion gives has what its target names. -/
theorem gives_convert_names (v : Value) (target : String) (env : Environment) :
    Gives (v.convert target env) (Names (Text.trim target)) := by
  unfold convert
  have ht := Text.trim_trim target
  generalize Text.trim target = target at ht
  cases v with
  | number n => exact gives_ok (names_ofNumber n target)
  | money m =>
    refine gives_map fun n hn => ?_
    obtain ⟨hcode, hsymbol⟩ := m.gives_exchange_code target env n hn
    exact .money hcode hsymbol
  | quantity q => exact gives_map fun p hp => .quantity (q.gives_convert target p hp)
  | rate r =>
    refine gives_map fun s hs => .rate (r.gives_convert_wellFormed target s hs) ?_
    exact Rate.convert_again ht hs
  | duration d =>
    dsimp only
    generalize hunit : TimeUnit.ofString? target = unit
    cases unit with
    | some unit =>
      have hinUnit : Gives (d.inUnit unit) (·.unit = unit) :=
        gives_ite (fun h => gives_ok h.symm) fun _ => gives_after fun _ => gives_ok rfl
      exact gives_map fun e he => .duration (by rw [hunit, hinUnit e he])
    | none => exact gives_error _
  | _ => exact gives_error _

/-- Converting a rate once more restores it; of all other values nothing is asked. -/
def Restored : Value → Prop
  | rate r => r.Restored
  | _ => True

/-- Where a value already has what a target names, it is converted to itself, a rate only where it
is restored. -/
theorem convert_iff_of_names {v : Value} {target : String} (h : Names (Text.trim target) v)
    (env : Environment) :
    (∃ w, v.convert target env = .ok w ∧ v.same w = true) ↔ v.Restored := by
  unfold convert
  generalize Text.trim target = target at h
  cases h with
  | @duration d hunit =>
    refine iff_of_true ⟨duration d, ?_, ?_⟩ trivial
    · simp only [hunit, Duration.inUnit, if_true]
      rfl
    · simp [same, Duration.same]
  | @money m hcode hsymbol =>
    obtain ⟨n, hn, hsame⟩ := Money.exchange_of_code? hcode hsymbol env
    exact iff_of_true ⟨money n, by simp only [hn, Except.map], hsame⟩ trivial
  | @quantity q hq =>
    refine iff_of_true ⟨quantity q, ?_, ?_⟩ trivial
    · dsimp only
      rw [← hq, q.convert_self]
      rfl
    · simp [same, Quantity.same]
  | @rate r hwf hr =>
    show _ ↔ r.Restored
    rw [← Rate.retime_per_iff hwf]
    dsimp only
    rw [hr]
    constructor
    · rintro ⟨w, hw, hsame⟩
      cases ht : r.retime r.per with
      | error e =>
        rw [ht] at hw
        cases hw
      | ok s =>
        rw [ht] at hw
        cases hw
        exact ⟨s, rfl, hsame⟩
    · rintro ⟨s, hs, hsame⟩
      exact ⟨rate s, by rw [hs]; rfl, hsame⟩

/-- Converting a value to what it was converted to already gives the same value, unless it is a rate
whose number is not restored. -/
theorem convert_again_iff {v w : Value} {target : String} {env : Environment}
    (h : v.convert target env = .ok w) :
    (∃ w', w.convert target env = .ok w' ∧ w.same w' = true) ↔ w.Restored :=
  convert_iff_of_names (v.gives_convert_names target env w h) env

/-- Five requests a second are three hundred a minute, and stay that. -/
theorem convert_again_minute :
    let v : Value := .rate ⟨⟨.ofLiteral 5 0, "req"⟩, "s"⟩
    let w : Value := .rate ⟨⟨.ofLiteral 300 0, "req"⟩, "min"⟩
    v.convert "min" .initial = .ok w ∧
      ∃ w', w.convert "min" .initial = .ok w' ∧ w.same w' = true := by
  intro v w
  have h : v.convert "min" .initial = .ok w := eq_ok_of_toOption (by decide +kernel)
  refine ⟨h, (convert_again_iff h).mpr (Rate.restored_of_lt fun u hu => ?_)⟩
  have hminute : (TimeUnit.read "min").toOption = some .minute := by decide +kernel
  cases (eq_ok_of_toOption hminute).symm.trans hu
  decide

/-- A rate that has become one for each year is out of range when it is counted up by a year once
more. -/
theorem convert_again_overflows :
    let v : Value := .rate ⟨⟨.ofLiteral (10 ^ 20) 0, "req"⟩, "s"⟩
    let w : Value := .rate ⟨⟨.ofLiteral (31536 * 10 ^ 23) 0, "req"⟩, "year"⟩
    v.convert "year" .initial = .ok w ∧
      w.convert "year" .initial = .error (.overflow "rate conversion") := by
  intro v w
  have hfirst : (v.convert "year" .initial).toOption = some w := by decide +kernel
  refine ⟨eq_ok_of_toOption hfirst, ?_⟩
  decide +kernel

end Value
end Reckoner
