import Mathlib.Algebra.Order.BigOperators.Group.List
import Mathlib.Order.Bounds.Basic
import Reckoner.Proofs.Decimal.Divided
import Reckoner.Proofs.Decimal.Same
import Reckoner.Proofs.Gives
import Reckoner.Value.Aggregate
/-!
Sums, means and extremes of numbers that share their places and leave room for their sum. Main
statement: the sum is exact, the mean is the nearest decimal of the exact one and lies between the
extremes, and none of them depends on the order of the numbers.
-/
namespace Reckoner

namespace Decimal

/-- Counted in units of the `k`th place the numbers are whole, and together less than `2 ^ 96` in
size. -/
structure SharePlaces (k : ℕ) (as : List Decimal) : Prop where
  le : k ≤ 28
  whole : ∀ a ∈ as, ∃ i : ℤ, a.toRat * 10 ^ k = i
  room : (as.map fun a => |a.toRat|).sum * 10 ^ k < 2 ^ 96

section Sum

variable {k : ℕ} {a b : Decimal} {as bs : List Decimal}

theorem SharePlaces.perm (h : SharePlaces k as) (hperm : bs.Perm as) : SharePlaces k bs where
  le := h.le
  whole b hb := h.whole b (hperm.mem_iff.mp hb)
  room := by
    rw [(hperm.map fun a => |a.toRat|).sum_eq]
    exact h.room

theorem SharePlaces.zero_cons (h : SharePlaces k as) : SharePlaces k (zero :: as) where
  le := h.le
  whole := List.forall_mem_cons.mpr ⟨⟨0, by simp⟩, h.whole⟩
  room := by simpa using h.room

/-- A result with few enough digits is exact. -/
theorem exists_of_small {o : Option Decimal} {x : ℚ} {i : ℤ} (ho : o.map toRat = nearest? x)
    (hk : k ≤ 28) (hx : x * 10 ^ k = i) (hsmall : |x| * 10 ^ k < 2 ^ 96) :
    ∃ s, o = some s ∧ s.toRat = x := by
  have habs : |x| * 10 ^ k = |(i : ℚ)| := by
    rw [← hx, abs_mul, abs_of_pos (show (0 : ℚ) < 10 ^ k by positivity)]
  have hi : |i| < 2 ^ 96 := by
    rw [habs] at hsmall
    exact_mod_cast hsmall
  have hrange : InRange x := inRange_of_scaled (habs ▸ intCast_lt_limit.mpr hi)
  obtain ⟨s, hs, hval⟩ := exists_of_map_toRat ho hrange
  exact ⟨s, hs, hval.trans (nearest_eq_self hk hx hi)⟩

/-- Two of the numbers have an exact sum, which can stand in their place. -/
theorem SharePlaces.exists_add (h : SharePlaces k (a :: b :: as)) :
    ∃ s, a.add b = some s ∧ s.toRat = a.toRat + b.toRat ∧ SharePlaces k (s :: as) := by
  obtain ⟨⟨i, hi⟩, hwhole⟩ := List.forall_mem_cons.mp h.whole
  obtain ⟨⟨j, hj⟩, hwhole⟩ := List.forall_mem_cons.mp hwhole
  have hsum : (a.toRat + b.toRat) * 10 ^ k = (i + j : ℤ) := by
    rw [add_mul, hi, hj]
    push_cast
    rfl
  have hrest : 0 ≤ (as.map fun a => |a.toRat|).sum := by
    apply List.sum_nonneg
    intro x hx
    obtain ⟨c, -, rfl⟩ := List.mem_map.mp hx
    exact abs_nonneg _
  -- The sum takes at most the room of the two, so what follows still has its own.
  have hroom : (|a.toRat + b.toRat| + (as.map fun a => |a.toRat|).sum) * 10 ^ k < 2 ^ 96 := by
    refine lt_of_le_of_lt ?_ h.room
    rw [List.map_cons, List.map_cons, List.sum_cons, List.sum_cons, ← add_assoc]
    gcongr
    exact abs_add_le _ _
  have hsmall : |a.toRat + b.toRat| * 10 ^ k < 2 ^ 96 := by
    refine lt_of_le_of_lt ?_ hroom
    gcongr
    exact le_add_of_nonneg_right hrest
  obtain ⟨s, hs, hval⟩ := exists_of_small (map_toRat_add a b) h.le hsum hsmall
  refine ⟨s, hs, hval, h.le, List.forall_mem_cons.mpr ⟨⟨i + j, ?_⟩, hwhole⟩, ?_⟩
  · rw [hval, hsum]
  · rwa [List.map_cons, List.sum_cons, hval]

/-- No sum on the way is rounded: the sum so far shares the places of the numbers still to come. -/
theorem SharePlaces.exists_sumFrom (h : SharePlaces k (a :: as)) :
    ∃ s, sumFrom a as = .ok s ∧ s.toRat = a.toRat + (as.map toRat).sum := by
  induction as generalizing a with
  | nil => exact ⟨a, rfl, by simp⟩
  | cons b as ih =>
    obtain ⟨t, ht, hval, hshare⟩ := h.exists_add
    obtain ⟨s, hs, hsum⟩ := ih hshare
    refine ⟨s, ?_, ?_⟩
    · rw [sumFrom, ht, orError, ok_bind, hs]
    · rw [hsum, hval, List.map_cons, List.sum_cons, add_assoc]

theorem SharePlaces.exists_sum (h : SharePlaces k as) :
    ∃ s, sum as = .ok s ∧ s.toRat = (as.map toRat).sum := by
  obtain ⟨s, hs, hval⟩ := h.zero_cons.exists_sumFrom
  rw [toRat_zero, zero_add] at hval
  exact ⟨s, hs, hval⟩

end Sum

section Extremes

/-- The numbers that stand in a list. -/
def numbersOf (as : List Decimal) : Set ℚ := {x | ∃ a ∈ as, a.toRat = x}

theorem numbersOf_perm {as bs : List Decimal} (h : bs.Perm as) : numbersOf bs = numbersOf as := by
  ext x
  simp only [numbersOf, Set.mem_ofPred_eq, h.mem_iff]

/-- What is picked one by one from a list is a member of it, and none of the others is preferred. -/
theorem foldl_pick {α : Type} {pick : α → α → α} {R : α → α → Prop} (hrefl : ∀ a, R a a)
    (htrans : ∀ a b c, R a b → R b c → R a c) (hmem : ∀ a b, pick a b = a ∨ pick a b = b)
    (hleft : ∀ a b, R (pick a b) a) (hright : ∀ a b, R (pick a b) b) (a : α) (as : List α) :
    as.foldl pick a ∈ a :: as ∧ ∀ b ∈ a :: as, R (as.foldl pick a) b := by
  induction as generalizing a with
  | nil => simp [hrefl]
  | cons b as ih =>
    obtain ⟨hin, hall⟩ := ih (pick a b)
    obtain ⟨hfirst, hrest⟩ := List.forall_mem_cons.mp hall
    rw [List.foldl_cons]
    constructor
    · -- It is what was picked first, which is one of the two, or it comes later.
      rcases List.mem_cons.mp hin with h | h
      · rw [h]
        rcases hmem a b with h' | h' <;> simp [h']
      · simp [h]
    · refine List.forall_mem_cons.mpr ⟨htrans _ _ _ hfirst (hleft a b), ?_⟩
      exact List.forall_mem_cons.mpr ⟨htrans _ _ _ hfirst (hright a b), hrest⟩

variable {as : List Decimal}

theorem exists_least (hne : as ≠ []) :
    ∃ m, least as = .ok m ∧ IsLeast (numbersOf as) m.toRat := by
  obtain ⟨a, as, rfl⟩ := List.exists_cons_of_ne_nil hne
  have hpick : ∀ m b : Decimal, (if b.lt m then b else m).toRat ≤ m.toRat ∧
      (if b.lt m then b else m).toRat ≤ b.toRat := by
    intro m b
    split
    · next h => exact ⟨((lt_iff b m).mp h).le, le_rfl⟩
    · next h => exact ⟨le_rfl, not_lt.mp fun hlt => h ((lt_iff b m).mpr hlt)⟩
  obtain ⟨hin, hall⟩ := foldl_pick (R := fun m b : Decimal => m.toRat ≤ b.toRat)
    (fun _ => le_rfl) (fun _ _ _ => le_trans) (fun m b => (ite_eq_or_eq _ b m).symm)
    (fun m b => (hpick m b).1) (fun m b => (hpick m b).2) a as
  refine ⟨_, rfl, ⟨_, hin, rfl⟩, ?_⟩
  rintro x ⟨b, hb, rfl⟩
  exact hall b hb

theorem exists_greatest (hne : as ≠ []) :
    ∃ m, greatest as = .ok m ∧ IsGreatest (numbersOf as) m.toRat := by
  obtain ⟨a, as, rfl⟩ := List.exists_cons_of_ne_nil hne
  have hpick : ∀ m b : Decimal, m.toRat ≤ (if b.lt m then m else b).toRat ∧
      b.toRat ≤ (if b.lt m then m else b).toRat := by
    intro m b
    split
    · next h => exact ⟨le_rfl, ((lt_iff b m).mp h).le⟩
    · next h => exact ⟨not_lt.mp fun hlt => h ((lt_iff b m).mpr hlt), le_rfl⟩
  obtain ⟨hin, hall⟩ := foldl_pick (R := fun m b : Decimal => b.toRat ≤ m.toRat)
    (fun _ => le_rfl) (fun _ _ _ h h' => h'.trans h) (fun m b => ite_eq_or_eq _ m b)
    (fun m b => (hpick m b).1) (fun m b => (hpick m b).2) a as
  refine ⟨_, rfl, ⟨_, hin, rfl⟩, ?_⟩
  rintro x ⟨b, hb, rfl⟩
  exact hall b hb

end Extremes

section Mean

variable {k : ℕ} {as : List Decimal}

/-- The exact mean. -/
def meanOf (as : List Decimal) : ℚ := (as.map toRat).sum / as.length

theorem meanOf_perm {bs : List Decimal} (h : bs.Perm as) : meanOf bs = meanOf as := by
  rw [meanOf, meanOf, (h.map toRat).sum_eq, h.length_eq]

theorem SharePlaces.exists_mean (h : SharePlaces k as) (hne : as ≠ []) (hlt : as.length < 2 ^ 96) :
    ∃ a, mean as = .ok a ∧ a.toRat = nearest (meanOf as) := by
  obtain ⟨s, hs, hsum⟩ := h.exists_sum
  obtain ⟨n, hn, hlength⟩ := exists_ofNat? hlt
  -- A divisor of at least one cannot make the quotient overflow.
  have hone : 1 ≤ |n.toRat| := by
    rw [hlength, Nat.abs_cast]
    exact_mod_cast List.length_pos_iff.mpr hne
  have hquotient := hasQuotient_of_one_le s hone
  refine ⟨s.dividedBy n, ?_, ?_⟩
  · rw [mean, hs, ok_bind, hn, Option.bind_some, hquotient.div_eq, orError]
  · rw [hquotient.toRat_dividedBy, hsum, hlength, meanOf]

variable {x : ℚ}

theorem le_meanOf (hne : as ≠ []) (h : x ∈ lowerBounds (numbersOf as)) : x ≤ meanOf as := by
  have hlength : (0 : ℚ) < as.length := by exact_mod_cast List.length_pos_iff.mpr hne
  have hsum := List.card_nsmul_le_sum (as.map toRat) x (by simpa [lowerBounds, numbersOf] using h)
  rw [List.length_map, nsmul_eq_mul] at hsum
  rwa [meanOf, le_div_iff₀ hlength, mul_comm]

theorem meanOf_le (hne : as ≠ []) (h : x ∈ upperBounds (numbersOf as)) : meanOf as ≤ x := by
  have hlength : (0 : ℚ) < as.length := by exact_mod_cast List.length_pos_iff.mpr hne
  have hsum := List.sum_le_card_nsmul (as.map toRat) x (by simpa [upperBounds, numbersOf] using h)
  rw [List.length_map, nsmul_eq_mul] at hsum
  rwa [meanOf, div_le_iff₀ hlength, mul_comm]

end Mean
end Decimal

namespace Value

open Decimal

/-- The numbers in values, in their order. -/
def magnitudes (vs : List Value) : List Decimal := vs.filterMap magnitude?

/-- The values are all numbers, or all money of one currency whatever symbols stand beside them, and
a result of this kind is labelled so. -/
inductive Labels : (Decimal → Value) → List Value → Prop
  | number {vs : List Value} (h : ∀ v ∈ vs, ∃ a, v = .number a) : Labels .number vs
  | money {vs : List Value} (code : String) (h : ∀ v ∈ vs, ∃ m, v = .money m ∧ m.code = code) :
    Labels (fun a => .money (.ofCode a code)) vs

section Labels

variable {label : Decimal → Value} {vs ws : List Value}

theorem Labels.perm (h : Labels label vs) (hperm : ws.Perm vs) : Labels label ws := by
  cases h with
  | number h => exact .number fun v hv => h v (hperm.mem_iff.mp hv)
  | money code h => exact .money code fun v hv => h v (hperm.mem_iff.mp hv)

theorem Labels.length_eq (h : Labels label vs) : (magnitudes vs).length = vs.length := by
  rw [magnitudes, List.filterMap_length_eq_length]
  intro v hv
  cases h with
  | number h =>
    obtain ⟨a, rfl⟩ := h v hv
    rfl
  | money code h =>
    obtain ⟨m, rfl, -⟩ := h v hv
    rfl

theorem numbers_eq (h : ∀ v ∈ vs, ∃ a, v = number a) (function : String) (position : ℕ) :
    numbers function position vs = .ok (magnitudes vs) := by
  induction vs generalizing position with
  | nil => rfl
  | cons v vs ih =>
    obtain ⟨⟨a, rfl⟩, hvs⟩ := List.forall_mem_cons.mp h
    rw [numbers, ih hvs]
    rfl

theorem amounts_eq {code : String} (h : ∀ v ∈ vs, ∃ m, v = money m ∧ m.code = code)
    (function : String) (position : ℕ) :
    amounts function code position vs = .ok (magnitudes vs) := by
  induction vs generalizing position with
  | nil => rfl
  | cons v vs ih =>
    obtain ⟨⟨m, rfl, hcode⟩, hvs⟩ := List.forall_mem_cons.mp h
    rw [amounts, if_pos hcode, ih hvs]
    rfl

/-- Folding values is folding the numbers in them, with the label on the result. -/
theorem Labels.aggregate_eq (h : Labels label vs) (hne : vs ≠ []) (function : String)
    (fold : List Decimal → Except Error Decimal) :
    aggregate function fold vs = (fold (magnitudes vs)).map label := by
  obtain ⟨v, vs, rfl⟩ := List.exists_cons_of_ne_nil hne
  cases h with
  | number h =>
    obtain ⟨a, rfl⟩ := h v List.mem_cons_self
    rw [aggregate, numbers_eq h, ok_bind]
    generalize magnitudes (_ :: vs) = as
    cases fold as <;> rfl
  | money code h =>
    obtain ⟨m, rfl, rfl⟩ := h v List.mem_cons_self
    rw [aggregate, amounts_eq h, ok_bind]
    generalize magnitudes (_ :: vs) = as
    cases fold as <;> rfl

/-- The values have this aggregate, under this label. -/
def Aggregates (label : Decimal → Value) (fold : List Decimal → Except Error Decimal)
    (vs : List Value) (x : ℚ) : Prop :=
  ∀ function, ∃ n, aggregate function fold vs = .ok (label n) ∧ n.toRat = x

theorem Labels.aggregates (h : Labels label vs) (hne : vs ≠ [])
    {fold : List Decimal → Except Error Decimal} {x : ℚ}
    (hfold : ∃ n, fold (magnitudes vs) = .ok n ∧ n.toRat = x) : Aggregates label fold vs x := by
  intro function
  obtain ⟨n, hn, hx⟩ := hfold
  refine ⟨n, ?_, hx⟩
  rw [h.aggregate_eq hne, hn]
  rfl

end Labels

/-- Numbers, or amounts of one currency, that share their places and leave room for their sum have
the exact sum, the exact extremes and the nearest decimal of the exact mean, which lies between the
extremes, in whatever order they stand. The number of them is always below the limit: no list that
is held in memory is longer. -/
theorem aggregate_exact {label : Decimal → Value} {vs : List Value} (hlabel : Labels label vs)
    {k : ℕ} (h : SharePlaces k (magnitudes vs)) (hne : vs ≠ []) (hlt : vs.length < 2 ^ 96) :
    ∃ lo hi : ℚ, IsLeast (numbersOf (magnitudes vs)) lo ∧
      IsGreatest (numbersOf (magnitudes vs)) hi ∧
      lo ≤ nearest (meanOf (magnitudes vs)) ∧ nearest (meanOf (magnitudes vs)) ≤ hi ∧
      ∀ ws, ws.Perm vs →
        Aggregates label Decimal.sum ws ((magnitudes vs).map toRat).sum ∧
        Aggregates label Decimal.least ws lo ∧
        Aggregates label Decimal.greatest ws hi ∧
        Aggregates label Decimal.mean ws (nearest (meanOf (magnitudes vs))) := by
  have hnumbers {ws : List Value} (hws : Labels label ws) (h : ws ≠ []) : magnitudes ws ≠ [] := by
    rw [← List.length_pos_iff, hws.length_eq]
    exact List.length_pos_iff.mpr h
  have hmagnitudes := hnumbers hlabel hne
  obtain ⟨lo, -, hlo⟩ := exists_least hmagnitudes
  obtain ⟨hi, -, hhi⟩ := exists_greatest hmagnitudes
  refine ⟨lo.toRat, hi.toRat, hlo, hhi, ?_, ?_, fun ws hperm => ?_⟩
  · rw [← nearest_toRat lo]
    exact nearest_mono (le_meanOf hmagnitudes hlo.2)
  · rw [← nearest_toRat hi]
    exact nearest_mono (meanOf_le hmagnitudes hhi.2)
  · have hws : ws ≠ [] := by
      rintro rfl
      exact hne hperm.nil_eq.symm
    have hlabel := hlabel.perm hperm
    have hne := hnumbers hlabel hws
    -- The numbers in the values stand in the other order as well.
    have hperm' : (magnitudes ws).Perm (magnitudes vs) := hperm.filterMap magnitude?
    have hshare := h.perm hperm'
    have hlength : (magnitudes ws).length < 2 ^ 96 := by
      rwa [hlabel.length_eq, hperm.length_eq]
    obtain ⟨s, hs, hsum⟩ := hshare.exists_sum
    obtain ⟨lo', hleast, hlo'⟩ := exists_least hne
    obtain ⟨hi', hgreatest, hhi'⟩ := exists_greatest hne
    obtain ⟨avg, hmean, havg⟩ := hshare.exists_mean hne hlength
    rw [(hperm'.map toRat).sum_eq] at hsum
    rw [numbersOf_perm hperm'] at hlo' hhi'
    rw [meanOf_perm hperm'] at havg
    exact ⟨hlabel.aggregates hws ⟨s, hs, hsum⟩,
      hlabel.aggregates hws ⟨lo', hleast, hlo'.unique hlo⟩,
      hlabel.aggregates hws ⟨hi', hgreatest, hhi'.unique hhi⟩,
      hlabel.aggregates hws ⟨avg, hmean, havg⟩⟩

/-- The prices of 1.50, 2 and 0.25 dollars, from the last to the first, add up to 3.75 and have the
mean 1.25. -/
theorem aggregate_exact_prices :
    let label := fun a => money (Money.ofCode a "USD")
    let vs : List Value := [.ofLiteral 150 2, .ofLiteral 2 0, .ofLiteral 25 2].map label
    Labels label vs ∧ SharePlaces 2 (magnitudes vs) ∧
      Aggregates label Decimal.sum vs.reverse (15 / 4) ∧
      Aggregates label Decimal.mean vs.reverse (nearest (5 / 4)) := by
  intro label vs
  have hlabel : Labels label vs := .money "USD" fun v hv => by
    obtain ⟨a, -, rfl⟩ := List.mem_map.mp hv
    exact ⟨_, rfl, rfl⟩
  have hsum : ((magnitudes vs).map toRat).sum = 15 / 4 := by decide +kernel
  have hshare : SharePlaces 2 (magnitudes vs) := by
    refine ⟨by decide, ?_, by decide +kernel⟩
    have hall :
        ((magnitudes vs).all fun a => a.toRat * 10 ^ 2 == (a.toRat * 10 ^ 2).num) = true := by
      decide +kernel
    intro a ha
    exact ⟨_, eq_of_beq (List.all_eq_true.mp hall a ha)⟩
  obtain ⟨lo, hi, -, -, -, -, hws⟩ := aggregate_exact hlabel hshare (by simp [vs]) (by simp [vs])
  obtain ⟨htotal, -, -, hmean⟩ := hws vs.reverse vs.reverse_perm
  have hmeanOf : meanOf (magnitudes vs) = 5 / 4 := by
    rw [meanOf, hsum, hlabel.length_eq]
    norm_num [vs]
  rw [hsum] at htotal
  rw [hmeanOf] at hmean
  exact ⟨hlabel, hshare, htotal, hmean⟩

end Value
end Reckoner
