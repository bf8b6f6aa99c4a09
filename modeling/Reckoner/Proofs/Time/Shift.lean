import Mathlib.Algebra.Order.Group.Unbundled.Abs
import Mathlib.Data.Int.ModEq
import Mathlib.Tactic.Linarith
import Reckoner.Time.Clock
/-!
Shifting a time around the clock. Main statements: what a shift leads to, whatever the fields of the
time are; that as far back leads to the second of the day that it started from; and when two shifts
lead to one second of the day.
-/
namespace Reckoner.TimeOfDay

/-- Every field has the size in which it is stored: one byte, and for the offset two bytes with a
sign. -/
structure Stored (t : TimeOfDay) : Prop where
  hour_lt : t.hour < 2 ^ 8
  minute_lt : t.minute < 2 ^ 8
  second_lt : t.second.getD 0 < 2 ^ 8
  le_offset : -2 ^ 15 ≤ t.offset.getD 0
  offset_lt : t.offset.getD 0 < 2 ^ 15

/-- A time inside a day. -/
structure Valid (t : TimeOfDay) : Prop extends Stored t where
  hour_lt_day : t.hour < 24
  minute_lt_hour : t.minute < 60
  second_lt_minute : t.second.getD 0 < 60

variable {t e f : TimeOfDay} {m n : ℤ}

theorem Stored.secondOfDay_bounds (h : t.Stored) : 0 ≤ t.secondOfDay ∧ t.secondOfDay < 2 ^ 20 := by
  obtain ⟨hh, hm, hs, -, -⟩ := h
  rw [secondOfDay]
  omega

theorem Valid.secondOfDay_lt (h : t.Valid) : t.secondOfDay < 86400 := by
  obtain ⟨-, hh, hm, hs⟩ := h
  rw [secondOfDay]
  omega

theorem second_atSecond (n : Nat) (always : Bool) (offset : Option Int) :
    (atSecond n always offset).second.getD 0 = n % 60 := by
  unfold atSecond
  dsimp only
  split
  · rfl
  · next h =>
    simp only [Bool.or_eq_true, bne_iff_ne, not_or, not_not] at h
    rw [h.2, Option.getD_none]

@[simp] theorem secondOfDay_atSecond (n : Nat) (always : Bool) (offset : Option Int) :
    (atSecond n always offset).secondOfDay = n := by
  rw [secondOfDay, second_atSecond]
  simp only [atSecond]
  omega

/-- `e` lies `n` seconds after `t` on the clock, inside a day. It keeps the offset, and has a second
if `t` has one. -/
structure LeadsTo (t : TimeOfDay) (n : ℤ) (e : TimeOfDay) : Prop where
  hour_lt : e.hour < 24
  minute_lt : e.minute < 60
  second_lt : ∀ s ∈ e.second, s < 60
  isSome_second : t.second.isSome = true → e.second.isSome = true
  offset_eq : e.offset = t.offset
  secondOfDay_eq : e.secondOfDay = (t.secondOfDay + n) % 86400

/-- Whatever the fields of a time are, those of a shifted time are inside a day. -/
theorem leadsTo_of_shift (h : t.shift n = .ok e) : t.LeadsTo n e := by
  unfold shift at h
  dsimp only at h
  split at h
  · cases h
    have hday : ((t.secondOfDay + n) % secondsPerDay).toNat < 86400 := by
      rw [secondsPerDay]
      omega
    refine ⟨atSecond_hour_lt _ _ _ hday, atSecond_minute_lt _ _ _, fun s hs => ?_, fun hs => ?_,
      rfl, ?_⟩
    · have hsecond := second_atSecond ((t.secondOfDay + n) % secondsPerDay).toNat t.second.isSome
        t.offset
      rw [Option.mem_def.mp hs, Option.getD_some] at hsecond
      rw [hsecond]
      exact Nat.mod_lt _ (by decide)
    · rw [atSecond, hs]
      rfl
    · rw [secondOfDay_atSecond, secondsPerDay]
      omega
  · cases h

theorem LeadsTo.stored (h : t.LeadsTo n e) (ht : t.Stored) : e.Stored := by
  refine ⟨h.hour_lt.trans (by norm_num), h.minute_lt.trans (by norm_num), ?_,
    h.offset_eq ▸ ht.le_offset, h.offset_eq ▸ ht.offset_lt⟩
  cases hs : e.second with
  | none => norm_num
  | some s => exact (h.second_lt s hs).trans (by norm_num)

theorem LeadsTo.modEq (h : t.LeadsTo n e) :
    e.secondOfDay ≡ t.secondOfDay + n [ZMOD 86400] := by
  rw [h.secondOfDay_eq]
  exact Int.mod_modEq _ _

/-- As far back as forward leads to the second of the day that it started from. -/
theorem LeadsTo.modEq_back (h : t.LeadsTo n e) (h' : e.LeadsTo (-n) f) :
    f.secondOfDay ≡ t.secondOfDay [ZMOD 86400] :=
  calc
    f.secondOfDay ≡ e.secondOfDay + -n [ZMOD 86400] := h'.modEq
    _ ≡ t.secondOfDay + n + -n [ZMOD 86400] := h.modEq.add_right _
    _ ≡ t.secondOfDay [ZMOD 86400] := by rw [add_neg_cancel_right]

/-- A time that is stored can be shifted by up to `2 ^ 62` seconds. -/
theorem Stored.exists_shift (h : t.Stored) (hn : |n| ≤ 2 ^ 62) : ∃ e, t.shift n = .ok e := by
  obtain ⟨h0, hd⟩ := h.secondOfDay_bounds
  obtain ⟨hl, hu⟩ := abs_le.mp hn
  have hc : countable (t.secondOfDay + n) = true := by
    simp only [countable, Bool.and_eq_true, decide_eq_true_eq]
    constructor <;> linarith
  exact ⟨_, by rw [shift, if_pos hc]⟩

/-- Two numbers of seconds that differ by one at most lead to one second of the day only if they are
the same. -/
theorem add_emod_day_eq_iff {s : ℤ} (h : |m - n| ≤ 1) :
    (s + m) % 86400 = (s + n) % 86400 ↔ m = n := by
  obtain ⟨hl, hu⟩ := abs_le.mp h
  omega

end Reckoner.TimeOfDay
