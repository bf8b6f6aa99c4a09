import Reckoner.Proofs.Napkin
import Reckoner.Proofs.Value.Same
/-!
The texts of values. Main statement: equal values have one text and one short text, and no minus
sign stands in front of zeros, except that money shows the sign of a zero where it has no symbol,
and that the short text of money shows the sign of an amount that is too small for its
digits.
-/
namespace Reckoner

open Decimal

namespace Money

variable {m n : Money}

/-- An amount to two places that is a zero with a minus sign, and there is no symbol to write. -/
def ShowsNegativeZero (m : Money) : Prop :=
  m.symbol = none ∧ m.amount.isZero = true ∧ m.amount.negative = true ∧ m.amount.scale ≤ 2

/-- An amount below zero of which the short text shows zeros only. -/
def Vanishes (m : Money) (figures : ℕ) : Prop :=
  m.amount.isBelowZero = true ∧
    ∃ r, Napkin.round m.amount.abs figures = .ok r ∧ r.toRat ≤ 1 / 2 / 10 ^ 10

/-- There is neither a digit nor a minus sign in the symbol, if there is one. -/
def PlainSymbol (m : Money) : Prop :=
  ∀ symbol ∈ m.symbol, ∀ c ∈ symbol.toList, c.isDigit = false ∧ c ≠ '-'

/-- The amount to two places. -/
def rounded (m : Money) : Decimal := m.amount.roundPlaces .toEven 2

theorem scale_rounded_le (m : Money) : m.rounded.scale ≤ 2 := scale_roundPlaces_le _ _ _

theorem Same.symbol_eq (h : m.Same n) : m.symbol = n.symbol := by
  obtain ⟨-⟩ := h
  rfl

theorem Same.code_eq (h : m.Same n) : m.code = n.code := by
  obtain ⟨-⟩ := h
  rfl

theorem Same.amount (h : m.Same n) : m.amount.Same n.amount := by
  obtain ⟨h⟩ := h
  exact h

theorem Same.rounded (h : m.Same n) : m.rounded.Same n.rounded := h.amount.roundPlaces .toEven 2

theorem text_of_symbol {symbol : String} (h : m.symbol = some symbol) :
    m.text = (if m.rounded.isBelowZero then "-" else "") ++ symbol ++ m.rounded.abs.centsText := by
  simp only [text, h]
  rfl

theorem text_of_code (h : m.symbol = none) : m.text = m.rounded.centsText ++ " " ++ m.code := by
  simp only [text, h]
  rfl

theorem showsNegativeZero_iff (h : m.symbol = none) :
    m.ShowsNegativeZero ↔ m.rounded.negative = true ∧ m.rounded.cents = 0 := by
  rw [ShowsNegativeZero, rounded, negative_zero_roundPlaces_iff]
  simp [h]

/-- The symbols of the table are of this kind, so that those of all codes are. -/
theorem plainSymbol_ofCode (amount : Decimal) (code : String) :
    (ofCode amount code).PlainSymbol := by
  have hall : ∀ p ∈ symbols, p.1.toList.all (fun c => !c.isDigit && c != '-') = true := by decide
  intro symbol h c hc
  obtain ⟨p, hp, rfl⟩ := Option.map_eq_some_iff.mp h
  simpa using List.all_eq_true.mp (hall p (List.mem_of_find?_eq_some hp)) c hc

theorem Same.text_eq_iff (h : m.Same n) :
    m.text = n.text ↔ (m.ShowsNegativeZero ↔ n.ShowsNegativeZero) := by
  have hm := m.scale_rounded_le
  have hn := n.scale_rounded_le
  have hrounded := h.rounded
  cases hs : m.symbol with
  | some symbol =>
    have hs' := h.symbol_eq ▸ hs
    have habs : m.rounded.abs.centsText = n.rounded.abs.centsText :=
      (centsText_eq_iff hrounded.abs hm hn).mpr rfl
    rw [text_of_symbol hs, text_of_symbol hs', hrounded.isBelowZero_eq, habs]
    simp [ShowsNegativeZero, hs, hs']
  | none =>
    have hs' := h.symbol_eq ▸ hs
    rw [text_of_code hs, text_of_code hs', h.code_eq, String.append_left_inj,
      String.append_left_inj, centsText_eq_iff hrounded hm hn, showsNegativeZero_iff hs,
      showsNegativeZero_iff hs', hrounded.cents_eq hm hn]
    by_cases hz : n.rounded.cents = 0
    · rw [Bool.eq_iff_iff]
      simp [hz]
    · -- The signs of equal numbers other than zero are equal.
      have hzero : m.rounded.isZero = false := by
        rw [hrounded.isZero_eq]
        exact Bool.eq_false_iff.mpr (mt (cents_eq_zero_iff _).mpr hz)
      simp [hz, hrounded.negative_eq hzero]

theorem PlainSymbol.signEarned_text_iff (h : m.PlainSymbol) :
    SignEarned m.text ↔ ¬m.ShowsNegativeZero := by
  have hm := m.scale_rounded_le
  cases hs : m.symbol with
  | some symbol =>
    have hcents : Shows m.rounded.abs.centsText false m.rounded.cents := shows_centsText hm
    have hshows := (hcents.behind (h symbol hs)).signed m.rounded.isBelowZero
    rw [text_of_symbol hs, String.append_assoc, hshows.signEarned_iff]
    -- Behind a symbol the sign is that of the rounded amount, and only where it is below zero.
    refine iff_of_true (fun hbelow => ?_) (by simp [ShowsNegativeZero, hs])
    rw [Ne, cents_eq_zero_iff]
    rw [isBelowZero, Bool.and_eq_true, Bool.not_eq_true'] at hbelow
    simp [hbelow.2]
  | none =>
    have hcents := shows_centsText hm
    rw [text_of_code hs, (hcents.append_word m.code).signEarned_iff, showsNegativeZero_iff hs,
      not_and]

end Money

namespace Value

variable {v w : Value}

/-- Money whose text shows a zero with a minus sign. -/
def ShowsNegativeZero : Value → Prop
  | money m => m.ShowsNegativeZero
  | _ => False

/-- Money whose short text shows a zero with a minus sign. -/
def Vanishes (v : Value) (figures : ℕ) : Prop :=
  match v with
  | money m => m.Vanishes figures
  | _ => False

/-- Neither a digit nor a minus sign is in the symbol of money. -/
def PlainSymbol : Value → Prop
  | money m => m.PlainSymbol
  | _ => True

theorem Same.text_eq_iff (h : v.Same w) :
    v.text = w.text ↔ (v.ShowsNegativeZero ↔ w.ShowsNegativeZero) := by
  cases h with
  | money h => exact h.text_eq_iff
  | number h => exact iff_of_true h.rendered_eq .rfl
  | quantity h =>
    obtain ⟨h⟩ := h
    exact iff_of_true (by rw [text, Quantity.text, h.rendered_eq]; rfl) .rfl
  | rate h =>
    obtain ⟨⟨h⟩⟩ := h
    exact iff_of_true (by rw [text, Rate.text, h.rendered_eq]; rfl) .rfl
  | duration h =>
    obtain ⟨h⟩ := h
    exact iff_of_true (by rw [text, Duration.text, h.rendered_eq]; rfl) .rfl
  | _ => exact iff_of_true rfl .rfl

theorem signEarned_text_iff (v : Value) (hv : v.magnitude?.isSome = true) (hs : v.PlainSymbol) :
    SignEarned v.text ↔ ¬v.ShowsNegativeZero := by
  -- A number that is rendered has no sign if it is zero.
  have hrendered (a : Decimal) := Napkin.showsNumber_rendered a
  cases v with
  | money m => exact hs.signEarned_text_iff
  | number a => exact iff_of_true (hrendered a).signEarned not_false
  | quantity q => exact iff_of_true ((hrendered q.value).append_word _).signEarned not_false
  | rate r => exact iff_of_true ((hrendered r.amount.value).append_word _).signEarned not_false
  | duration d => exact iff_of_true ((hrendered d.value).append_word _).signEarned not_false
  | _ => cases hv

theorem Same.shortText_eq (h : v.Same w) (figures : ℕ) :
    Napkin.valueText v figures = Napkin.valueText w figures := by
  cases h with
  | number h => exact Napkin.numberText_eq h figures
  | money h =>
    obtain ⟨h⟩ := h
    simp only [Napkin.valueText, Napkin.numberText_eq h.abs figures, h.isBelowZero_eq]
  | quantity h =>
    obtain ⟨h⟩ := h
    simp only [Napkin.valueText, Napkin.numberText_eq h figures]
  | rate h =>
    obtain ⟨⟨h⟩⟩ := h
    simp only [Napkin.valueText, Napkin.numberText_eq h figures]
    rfl
  | duration h =>
    obtain ⟨h⟩ := h
    simp only [Napkin.valueText, Napkin.numberText_eq h figures]
  | _ => rfl

theorem gives_shortText_money {m : Money} (h : m.PlainSymbol) (figures : ℕ) :
    Gives (Napkin.valueText (money m) figures) fun s => SignEarned s ↔ ¬m.Vanishes figures := by
  refine gives_bind (Napkin.gives_numberText m.amount.abs figures) ?_
  rintro body ⟨r, hr, minus, n, hs, -, hzero⟩
  have hnonneg : 0 ≤ r.toRat := by
    refine (Napkin.gives_round ?_ figures r hr).1
    rw [toRat_abs]
    exact abs_nonneg _
  obtain ⟨rfl, hn⟩ := hzero hnonneg
  have hvanishes : m.Vanishes figures ↔ m.amount.isBelowZero = true ∧ n = 0 := by
    rw [Money.Vanishes, hr, hn]
    simp
  -- The sign is that of the amount, whatever is left of it.
  rw [hvanishes, not_and]
  cases hsymbol : m.symbol with
  | some symbol =>
    refine gives_ok ?_
    have hshows := (hs.behind (h symbol hsymbol)).signed m.amount.isBelowZero
    dsimp only
    rw [String.append_assoc]
    exact hshows.signEarned_iff
  | none =>
    refine gives_ok ?_
    dsimp only
    exact ((hs.signed m.amount.isBelowZero).append_word m.code).signEarned_iff

theorem gives_shortText (v : Value) (hv : v.magnitude?.isSome = true) (hs : v.PlainSymbol)
    (figures : ℕ) :
    Gives (Napkin.valueText v figures) fun s => SignEarned s ↔ ¬v.Vanishes figures := by
  have hunit (a : Decimal) (word : String) := Napkin.signEarned_numberText_append a figures word
  cases v with
  | money m => exact gives_shortText_money hs figures
  | number a =>
    exact (Napkin.signEarned_numberText a figures).imp fun _ hs => iff_of_true hs not_false
  | quantity q => exact (hunit q.value q.unit).imp fun _ hs => iff_of_true hs not_false
  | rate r => exact (hunit r.amount.value r.unitText).imp fun _ hs => iff_of_true hs not_false
  | duration d => exact (hunit d.value d.unit.name).imp fun _ hs => iff_of_true hs not_false
  | _ => cases hv

/-- Equal values have one short text, and one text unless only one of the two is a zero whose sign
is shown. Where no symbol looks like a sign or a digit, as those of all codes do not, a sign stands
in front of zeros in the text of just those zeros, and in the short texts of just those amounts that
vanish. -/
theorem text_of_same {v w : Value} (h : v.same w = true) (figures : ℕ) :
    Napkin.valueText v figures = Napkin.valueText w figures ∧
      (v.text = w.text ↔ (v.ShowsNegativeZero ↔ w.ShowsNegativeZero)) ∧
      (v.magnitude?.isSome = true → v.PlainSymbol →
        (SignEarned v.text ↔ ¬v.ShowsNegativeZero) ∧
          Gives (Napkin.valueText v figures) fun s => SignEarned s ↔ ¬v.Vanishes figures) ∧
      ∀ amount code, (money (.ofCode amount code)).PlainSymbol := by
  have hsame : v.Same w := same_iff.mp h
  refine ⟨hsame.shortText_eq figures, hsame.text_eq_iff, fun hv hs => ?_, Money.plainSymbol_ofCode⟩
  exact ⟨v.signEarned_text_iff hv hs, v.gives_shortText hv hs figures⟩

/-- A debt of a franc and a half, with two places and with one. -/
theorem text_of_same_debt :
    let v : Value := money (.ofCode (ofLiteral 150 2).neg "CHF")
    let w : Value := money (.ofCode (ofLiteral 15 1).neg "CHF")
    v.text = w.text ∧ SignEarned v.text := by
  intro v w
  obtain ⟨-, htext, hsign, hplain⟩ := text_of_same (v := v) (w := w) (by decide +kernel) 2
  have hv : ¬v.ShowsNegativeZero := by
    rintro ⟨-, hzero, -⟩
    revert hzero
    decide +kernel
  have hw : ¬w.ShowsNegativeZero := by
    rintro ⟨-, hzero, -⟩
    revert hzero
    decide +kernel
  exact ⟨htext.mpr (iff_of_false hv hw), (hsign rfl (hplain _ _)).1.mpr hv⟩

/-- No francs, with a minus sign or without. -/
def noFrancs (minus : Bool) : Value := money (.ofCode { zero with negative := minus } "CHF")

/-- A debt of the millionth part of a millionth of a dollar. -/
def vanishingDebt : Value := money (.ofCode (ofLiteral 1 12).neg "USD")

theorem text_negative_zero :
    (noFrancs true).same (noFrancs false) = true ∧ (noFrancs true).text = "-0.00 CHF" ∧
      (noFrancs false).text = "0.00 CHF" ∧ ¬SignEarned "-0.00 CHF" ∧
      Napkin.valueText vanishingDebt 2 = .ok "-$0" ∧ ¬SignEarned "-$0" :=
  ⟨by decide +kernel, by decide +kernel, by decide +kernel, by decide +kernel,
    eq_ok_of_toOption (by decide +kernel), by decide +kernel⟩

end Value
end Reckoner
