import Reckoner.Proofs.Planning.Escalation
/-!
Downtimes beside one another. Main statement: a higher availability leaves no longer a downtime and
a longer period no shorter one, also where the two downtimes are counted in different units, and
full availability leaves none.
-/
namespace Reckoner

open Decimal

/-- The length in seconds, without a rounding. -/
def Duration.exactSeconds (d : Duration) : ℚ := d.value.toRat * d.unit.seconds

namespace TimeUnit

/-- What `x` seconds are after they are counted in the unit. -/
def counted (u : TimeUnit) (x : ℚ) : ℚ := nearest (x / u.seconds) * u.seconds

variable {u v : TimeUnit} {x y : ℚ}

theorem exactSeconds_ofSeconds (s : Decimal) (u : TimeUnit) :
    (Duration.ofSeconds s u).exactSeconds = u.counted s.toRat := by
  rw [Duration.exactSeconds, Duration.toRat_ofSeconds]
  rfl

theorem counted_mono (u : TimeUnit) (h : x ≤ y) : u.counted x ≤ u.counted y := by
  have hpos := u.cast_seconds_pos
  unfold counted
  gcongr
  apply nearest_mono
  gcongr

@[simp] theorem counted_zero (u : TimeUnit) : u.counted 0 = 0 := by simp [counted]

/-- A whole number of units is counted without a rounding. -/
theorem counted_mul (u : TimeUnit) {n : ℕ} (hn : n < 2 ^ 96) :
    u.counted (n * u.seconds) = n * u.seconds := by
  rw [counted, mul_div_cancel_right₀ _ u.cast_seconds_pos.ne', nearest_natCast hn]

/-- Counting in two units keeps two lengths on their sides of one larger unit, if it is a multiple
of the smaller one. -/
theorem counted_le_counted {n : ℕ} (hv : v.seconds = n * u.seconds) (hx : x ≤ v.seconds)
    (hy : v.seconds ≤ y) : u.counted x ≤ v.counted y := by
  have hn : n < 2 ^ 96 := by
    have hle := Nat.le_mul_of_pos_right n u.seconds_pos
    have hyear := v.seconds_le
    omega
  have hsmall : u.counted v.seconds = v.seconds := by
    rw [hv]
    push_cast
    exact u.counted_mul hn
  have hlarge := v.counted_mul (n := 1) (by decide)
  rw [Nat.cast_one, one_mul] at hlarge
  calc u.counted x ≤ u.counted v.seconds := u.counted_mono hx
    _ = v.counted v.seconds := hsmall.trans hlarge.symm
    _ ≤ v.counted y := v.counted_mono hy

end TimeUnit

namespace Estimate

section Length

/-- The unit for `x` seconds of downtime. -/
def unitFor (x : ℚ) : TimeUnit := if x < 60 then .second else if x < 3600 then .minute else .hour

/-- What `x` seconds of downtime are after they are counted in their unit. -/
def counted (x : ℚ) : ℚ := (unitFor x).counted x

theorem downtimeUnit_eq (s : Decimal) : downtimeUnit s = unitFor s.toRat := by
  simp only [downtimeUnit, unitFor, lt_length_iff, cast_seconds_minute, cast_seconds_hour]

theorem unitFor_cases (x : ℚ) :
    unitFor x = .second ∧ x < 60 ∨ unitFor x = .minute ∧ 60 ≤ x ∧ x < 3600 ∨
      unitFor x = .hour ∧ 3600 ≤ x := by
  unfold unitFor
  split
  · next h => exact .inl ⟨rfl, h⟩
  · next h60 =>
    split
    · next h => exact .inr (.inl ⟨rfl, not_lt.mp h60, h⟩)
    · next h => exact .inr (.inr ⟨rfl, not_lt.mp h⟩)

/-- More seconds are not fewer after they are counted, whatever their units are. -/
theorem counted_mono {x y : ℚ} (h : x ≤ y) : counted x ≤ counted y := by
  have hminute := cast_seconds_minute
  have hhour := cast_seconds_hour
  unfold counted
  rcases unitFor_cases x with ⟨hx, hx60⟩ | ⟨hx, hx60, hx3600⟩ | ⟨hx, hx3600⟩ <;>
    rcases unitFor_cases y with ⟨hy, hy60⟩ | ⟨hy, hy60, hy3600⟩ | ⟨hy, hy3600⟩ <;> rw [hx, hy]
  case inl.inl => exact TimeUnit.counted_mono _ h
  case inl.inr.inl => exact TimeUnit.counted_le_counted (n := 60) rfl (by linarith) (by linarith)
  case inl.inr.inr => exact TimeUnit.counted_le_counted (n := 3600) rfl (by linarith) (by linarith)
  case inr.inl.inr.inl => exact TimeUnit.counted_mono _ h
  case inr.inl.inr.inr =>
    exact TimeUnit.counted_le_counted (n := 60) rfl (by linarith) (by linarith)
  case inr.inr.inr.inr => exact TimeUnit.counted_mono _ h
  -- The shorter time is not counted in the larger unit.
  all_goals linarith

end Length

section Monotone

variable {a b : Decimal} {p q : Duration} {s t : Decimal}

/-- The seconds that an availability leaves of `x` seconds, rounded twice. -/
def downFor (availability x : ℚ) : ℚ := nearest (nearest (1 - availability) * x)

theorem nearest_rest_mem {x : ℚ} (h0 : 0 ≤ x) (h1 : x ≤ 1) :
    0 ≤ nearest (1 - x) ∧ nearest (1 - x) ≤ 1 := by
  refine ⟨nearest_nonneg (by linarith), ?_⟩
  have hone := nearest_natCast (n := 1) (by decide)
  rw [Nat.cast_one] at hone
  exact (nearest_mono (by linarith)).trans_eq hone

theorem downFor_anti {x y z : ℚ} (h : x ≤ y) (hz : 0 ≤ z) : downFor y z ≤ downFor x z := by
  apply nearest_mono
  apply mul_le_mul_of_nonneg_right _ hz
  exact nearest_mono (by linarith)

theorem downFor_mono {x y z : ℚ} (h0 : 0 ≤ x) (h1 : x ≤ 1) (h : y ≤ z) :
    downFor x y ≤ downFor x z := by
  apply nearest_mono
  exact mul_le_mul_of_nonneg_left h (nearest_rest_mem h0 h1).1

/-- The downtime for an availability in its range is there whenever the period has a length. -/
theorem exists_downtime (h0 : 0 ≤ a.toRat) (h1 : a.toRat ≤ 1) (hp : p.seconds = .ok s) :
    ∃ d, downtime a p = .ok d ∧ d.exactSeconds = counted (downFor a.toRat s.toRat) := by
  obtain ⟨hrest0, hrest1⟩ := nearest_rest_mem h0 h1
  -- One less the availability is a decimal between zero and one.
  have hsub := map_toRat_sub one a
  rw [toRat_one] at hsub
  have hone : InRange (1 - a.toRat) := by
    rw [InRange, abs_of_nonneg (by linarith), limit]
    linarith
  obtain ⟨rest, hrest, hvalue⟩ := exists_of_map_toRat hsub hone
  -- What it leaves of the seconds is not more than they are.
  have hmul := map_toRat_mul rest s
  have hrange : InRange (rest.toRat * s.toRat) := by
    have hs := s.inRange_toRat
    rw [InRange] at hs ⊢
    rw [abs_mul, hvalue, abs_of_nonneg hrest0]
    exact (mul_le_of_le_one_left (abs_nonneg _) hrest1).trans_lt hs
  obtain ⟨down, hdown, hlength⟩ := exists_of_map_toRat hmul hrange
  have hseconds : downSeconds a p = .ok down := by
    rw [downSeconds, hp, ok_bind, hrest, Option.bind_some, hdown]
    rfl
  have hin : (a.lt .zero || Decimal.one.lt a) = false := by
    rw [Bool.or_eq_false_iff, Bool.eq_false_iff, Bool.eq_false_iff, Ne, Ne, lt_iff, lt_iff,
      toRat_zero, toRat_one, not_lt, not_lt]
    exact ⟨h0, h1⟩
  refine ⟨Duration.ofSeconds down.normalize (downtimeUnit down), ?_, ?_⟩
  · rw [downtime_eq_map, hin, if_neg Bool.false_ne_true, hseconds]
    rfl
  · rw [TimeUnit.exactSeconds_ofSeconds, toRat_normalize, downtimeUnit_eq, hlength, hvalue]
    rfl

/-- Downtime falls with the availability and grows with the period, by the exact lengths of what is
given, and full availability leaves no downtime of any period that has a length in seconds. -/
theorem downtime_monotone :
    (∀ {a b : Decimal} {p q : Duration} {s t : Decimal}, 0 ≤ a.toRat → a.toRat ≤ b.toRat →
      b.toRat ≤ 1 → p.seconds = .ok s → q.seconds = .ok t → 0 ≤ s.toRat → s.toRat ≤ t.toRat →
        ∃ x y z, downtime b p = .ok x ∧ downtime a p = .ok y ∧ downtime a q = .ok z ∧
          x.exactSeconds ≤ y.exactSeconds ∧ y.exactSeconds ≤ z.exactSeconds) ∧
    ∀ {a : Decimal} {p : Duration} {s : Decimal}, a.toRat = 1 → p.seconds = .ok s →
      ∃ d, downtime a p = .ok d ∧ d.exactSeconds = 0 := by
  constructor
  · intro a b p q s t ha hab hb hp hq hs hst
    obtain ⟨x, hx, hxlength⟩ := exists_downtime (ha.trans hab) hb hp
    obtain ⟨y, hy, hylength⟩ := exists_downtime ha (hab.trans hb) hp
    obtain ⟨z, hz, hzlength⟩ := exists_downtime ha (hab.trans hb) hq
    refine ⟨x, y, z, hx, hy, hz, ?_, ?_⟩
    · rw [hxlength, hylength]
      exact counted_mono (downFor_anti hab hs)
    · rw [hylength, hzlength]
      exact counted_mono (downFor_mono ha (hab.trans hb) hst)
  · intro a p s ha hp
    obtain ⟨d, hd, hlength⟩ := exists_downtime (by linarith) ha.le hp
    refine ⟨d, hd, ?_⟩
    rw [hlength, ha, downFor, sub_self, nearest_zero, zero_mul, nearest_zero, counted,
      TimeUnit.counted_zero]

/-- Four nines leave seconds of a day, three nines leave minutes of it and hours of a year. -/
theorem downtime_monotone_nines :
    let day : Duration := ⟨.one, .day⟩
    let year : Duration := ⟨.one, .year⟩
    (∃ x y z, downtime (.ofLiteral 9999 4) day = .ok x ∧ downtime (.ofLiteral 999 3) day = .ok y ∧
      downtime (.ofLiteral 999 3) year = .ok z ∧ x.exactSeconds ≤ y.exactSeconds ∧
        y.exactSeconds ≤ z.exactSeconds) ∧
      ∃ d, downtime (.ofLiteral 100 2) year = .ok d ∧ d.exactSeconds = 0 := by
  intro day year
  have hday : day.seconds = .ok TimeUnit.day.length := by decide +kernel
  have hyear : year.seconds = .ok TimeUnit.year.length := by decide +kernel
  have hfull : (ofLiteral 100 2).toRat = 1 := by decide +kernel
  exact ⟨downtime_monotone.1 (by decide +kernel) (by decide +kernel) (by decide +kernel) hday hyear
    (by decide +kernel) (by decide +kernel), downtime_monotone.2 hfull hyear⟩

end Monotone

end Estimate
end Reckoner
