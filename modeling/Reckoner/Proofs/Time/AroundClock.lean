import Reckoner.Proofs.Gives
import Reckoner.Proofs.Time.Additive
/-!
A time beside a duration of any length and sign. Main statement: adding or subtracting the duration
leads around the clock by its whole seconds, wherever these can be counted, and the opposite leads
back.
-/
namespace Reckoner

open Decimal

namespace TimeOfDay

variable {t e : TimeOfDay} {p : Duration} {n : ℤ} {s : Decimal}

theorem exists_shift_iff : (∃ e, t.shift n = .ok e) ↔ countable (t.secondOfDay + n) = true := by
  unfold shift
  dsimp only
  split
  · next hc => exact iff_of_true ⟨_, rfl⟩ hc
  · next hc => exact iff_of_false nofun hc

/-- The whole seconds are those of the length in seconds, if they can be counted. -/
theorem wholeSeconds_eq_ok_iff :
    wholeSeconds p = .ok n ↔
      ∃ s, p.seconds = .ok s ∧ towardZero s.toRat = n ∧ countable n = true := by
  rw [wholeSeconds]
  cases p.seconds with
  | error x =>
    constructor
    · intro h
      cases h
    · rintro ⟨s, h, -⟩
      cases h
  | ok s =>
    rw [ok_bind, toInt64?_eq]
    simp only [Except.ok.injEq, exists_eq_left', countable, Bool.and_eq_true, decide_eq_true_eq]
    split
    · next hc =>
      rw [orError, Except.ok.injEq]
      exact ⟨fun h => ⟨h, h ▸ hc⟩, fun h => h.1⟩
    · next hc =>
      constructor
      · intro h
        cases h
      · rintro ⟨rfl, hn⟩
        exact absurd hn hc

theorem after_eq_ok_iff :
    t.after p = .ok e ↔
      ∃ s, p.seconds = .ok s ∧ countable (towardZero s.toRat) = true ∧
        t.shift (towardZero s.toRat) = .ok e := by
  constructor
  · intro h
    cases hn : wholeSeconds p with
    | error x =>
      rw [after, hn] at h
      cases h
    | ok n =>
      obtain ⟨s, hs, rfl, hc⟩ := wholeSeconds_eq_ok_iff.mp hn
      rw [after, hn, ok_bind] at h
      exact ⟨s, hs, hc, h⟩
  · rintro ⟨s, hs, hc, h⟩
    rwa [after, wholeSeconds_eq_ok_iff.mpr ⟨s, hs, rfl, hc⟩, ok_bind]

/-- The least of the signed numbers of 64 bits has no opposite among them. -/
theorem before_eq_ok_iff :
    t.before p = .ok e ↔
      ∃ s, p.seconds = .ok s ∧ countable (towardZero s.toRat) = true ∧
        countable (-towardZero s.toRat) = true ∧ t.shift (-towardZero s.toRat) = .ok e := by
  constructor
  · intro h
    cases hn : wholeSeconds p with
    | error x =>
      rw [before, hn] at h
      cases h
    | ok n =>
      obtain ⟨s, hs, rfl, hc⟩ := wholeSeconds_eq_ok_iff.mp hn
      rw [before, hn, ok_bind] at h
      split at h
      · next hneg => exact ⟨s, hs, hc, hneg, h⟩
      · cases h
  · rintro ⟨s, hs, hc, hneg, h⟩
    rw [before, wholeSeconds_eq_ok_iff.mpr ⟨s, hs, rfl, hc⟩, ok_bind, if_pos hneg, h]

theorem leadsTo_of_after (hs : p.seconds = .ok s) (h : t.after p = .ok e) :
    t.LeadsTo (towardZero s.toRat) e := by
  obtain ⟨s', hs', -, hshift⟩ := after_eq_ok_iff.mp h
  cases hs.symm.trans hs'
  exact leadsTo_of_shift hshift

theorem leadsTo_of_before (hs : p.seconds = .ok s) (h : t.before p = .ok e) :
    t.LeadsTo (-towardZero s.toRat) e := by
  obtain ⟨s', hs', -, -, hshift⟩ := before_eq_ok_iff.mp h
  cases hs.symm.trans hs'
  exact leadsTo_of_shift hshift

theorem exists_after_iff (hs : p.seconds = .ok s) :
    (∃ e, t.after p = .ok e) ↔
      countable (towardZero s.toRat) = true ∧
        countable (t.secondOfDay + towardZero s.toRat) = true := by
  simp only [after_eq_ok_iff, hs, Except.ok.injEq, exists_eq_left', exists_and_left,
    exists_shift_iff]

theorem exists_before_iff (hs : p.seconds = .ok s) :
    (∃ e, t.before p = .ok e) ↔
      countable (towardZero s.toRat) = true ∧ countable (-towardZero s.toRat) = true ∧
        countable (t.secondOfDay + -towardZero s.toRat) = true := by
  simp only [before_eq_ok_iff, hs, Except.ok.injEq, exists_eq_left', exists_and_left,
    exists_shift_iff]

end TimeOfDay

namespace Value

theorem combine_add_eq_ok_iff {t : TimeOfDay} {p : Duration} {env : Environment} {v : Value} :
    combine (time t) .add (duration p) env = .ok v ↔ ∃ e, t.after p = .ok e ∧ v = time e := by
  rw [combine_time_duration]
  cases t.after p <;> simp [Except.map, eq_comm]

theorem combine_subtract_eq_ok_iff {t : TimeOfDay} {p : Duration} {env : Environment}
    {v : Value} :
    combine (time t) .subtract (duration p) env = .ok v ↔
      ∃ e, t.before p = .ok e ∧ v = time e := by
  have hcombine : combine (time t) .subtract (duration p) env = (t.before p).map time := rfl
  rw [hcombine]
  cases t.before p <;> simp [Except.map, eq_comm]

/-- Whatever the fields of a time are, a duration that is added to it leads to a time inside a day,
with the offset of the first and with a second if that has one, as many seconds later around the
clock as the length of the duration has whole seconds. Subtracting leads as many back. The opposite
then leads to the second of the day that the first time has. There is a time to lead to exactly if
the seconds and the second that they lead to can be counted. -/
theorem time_shift_around_clock (t : TimeOfDay) (p : Duration) (env : Environment) :
    (∀ v, combine (time t) .add (duration p) env = .ok v →
      ∃ (s : Decimal) (e : TimeOfDay), p.seconds = .ok s ∧ v = time e ∧
        t.LeadsTo (towardZero s.toRat) e ∧
        ∀ w, combine v .subtract (duration p) env = .ok w →
          ∃ f : TimeOfDay, w = time f ∧ f.secondOfDay ≡ t.secondOfDay [ZMOD 86400]) ∧
    (∀ v, combine (time t) .subtract (duration p) env = .ok v →
      ∃ (s : Decimal) (e : TimeOfDay), p.seconds = .ok s ∧ v = time e ∧
        t.LeadsTo (-towardZero s.toRat) e ∧
        ∀ w, combine v .add (duration p) env = .ok w →
          ∃ f : TimeOfDay, w = time f ∧ f.secondOfDay ≡ t.secondOfDay [ZMOD 86400]) ∧
    ∀ s, p.seconds = .ok s →
      s.toRat = nearest (p.value.toRat * p.unit.seconds) ∧
      ((∃ v, combine (time t) .add (duration p) env = .ok v) ↔
        TimeOfDay.countable (towardZero s.toRat) = true ∧
          TimeOfDay.countable (t.secondOfDay + towardZero s.toRat) = true) ∧
      ((∃ v, combine (time t) .subtract (duration p) env = .ok v) ↔
        TimeOfDay.countable (towardZero s.toRat) = true ∧
          TimeOfDay.countable (-towardZero s.toRat) = true ∧
          TimeOfDay.countable (t.secondOfDay + -towardZero s.toRat) = true) := by
  simp only [combine_add_eq_ok_iff, combine_subtract_eq_ok_iff]
  refine ⟨?_, ?_, fun s hs => ⟨?_, ?_, ?_⟩⟩
  · rintro _ ⟨e, he, rfl⟩
    obtain ⟨s, hs, -⟩ := TimeOfDay.after_eq_ok_iff.mp he
    have hleads := TimeOfDay.leadsTo_of_after hs he
    refine ⟨s, e, hs, rfl, hleads, fun w hw => ?_⟩
    obtain ⟨f, hf, rfl⟩ := combine_subtract_eq_ok_iff.mp hw
    exact ⟨f, rfl, hleads.modEq_back (TimeOfDay.leadsTo_of_before hs hf)⟩
  · rintro _ ⟨e, he, rfl⟩
    obtain ⟨s, hs, -⟩ := TimeOfDay.before_eq_ok_iff.mp he
    have hleads := TimeOfDay.leadsTo_of_before hs he
    refine ⟨s, e, hs, rfl, hleads, fun w hw => ?_⟩
    obtain ⟨f, hf, rfl⟩ := combine_add_eq_ok_iff.mp hw
    have hback := TimeOfDay.leadsTo_of_after hs hf
    exact ⟨f, rfl, hleads.modEq_back (by rwa [Int.neg_neg])⟩
  · exact (of_map_toRat p.map_toRat_seconds (Duration.seconds_eq_ok_iff.mp hs)).2
  · rw [← TimeOfDay.exists_after_iff hs, exists_comm]
    simp
  · rw [← TimeOfDay.exists_before_iff hs, exists_comm]
    simp

/-- A time with its fields far outside a day, a day and a few hours back by a length that is not a
whole number of seconds, and on again by the same length; and a time that is a second too late for
the longest count of seconds. -/
theorem time_shift_outside_day :
    let t : TimeOfDay := ⟨250, 200, some 255, some 32767⟩
    let e : TimeOfDay := ⟨9, 37, some 35, some 32767⟩
    let p : Duration := ⟨(Decimal.ofLiteral 1000009 1).neg, .second⟩
    (combine (time t) .add (duration p) .initial = .ok (time e) ∧ t.LeadsTo (-100000) e ∧
      ∃ f : TimeOfDay, combine (time e) .subtract (duration p) .initial = .ok (time f) ∧
        e.LeadsTo 100000 f ∧ f.secondOfDay ≡ t.secondOfDay [ZMOD 86400]) ∧
    ¬∃ v, combine (time ⟨0, 0, some 1, none⟩) .add
      (duration ⟨.ofLiteral (2 ^ 63 - 1) 0, .second⟩) .initial = .ok v := by
  intro t e p
  have hforth : combine (time t) .add (duration p) .initial = .ok (time e) :=
    eq_ok_of_toOption (by decide +kernel)
  have hback : combine (time e) .subtract (duration p) .initial =
      .ok (time ⟨13, 24, some 15, some 32767⟩) := eq_ok_of_toOption (by decide +kernel)
  have hwhole {s : Decimal} (hs : p.seconds = .ok s) : towardZero s.toRat = -100000 := by
    have hlength : p.seconds = .ok p.value := eq_ok_of_toOption (by decide +kernel)
    cases hs.symm.trans hlength
    decide +kernel
  have hlongest : Duration.seconds ⟨.ofLiteral (2 ^ 63 - 1) 0, .second⟩ =
      .ok (.ofLiteral (2 ^ 63 - 1) 0) := eq_ok_of_toOption (by decide +kernel)
  obtain ⟨s, _, hs, hv, hleads, hopposite⟩ := (time_shift_around_clock t p .initial).1 _ hforth
  cases hv
  obtain ⟨s', f, hs', hv, hleads', -⟩ := (time_shift_around_clock e p .initial).2.1 _ hback
  cases hv
  obtain ⟨f, hf, hmod⟩ := hopposite _ hback
  cases hf
  rw [hwhole hs] at hleads
  rw [hwhole hs', Int.neg_neg] at hleads'
  refine ⟨⟨hforth, hleads, _, hback, hleads', hmod⟩, fun hsome => ?_⟩
  have htotal := (((time_shift_around_clock ⟨0, 0, some 1, none⟩
    ⟨.ofLiteral (2 ^ 63 - 1) 0, .second⟩ .initial).2.2 _ hlongest).2.1.mp hsome).2
  exact absurd htotal (by decide +kernel)

end Value
end Reckoner
