import Reckoner.Proofs.Calendar.DayNumber
import Reckoner.Proofs.Time.Counted
import Reckoner.Proofs.Time.Shift
import Reckoner.Proofs.Value.Reconvert
import Reckoner.Value.Arithmetic
/-!
Sums and conversions of durations beside dates and times. Main statement: a sum of durations shifts a
date or a time as its summands do one after the other, and a converted duration as the duration does,
exactly if the unit that the result is counted in keeps its days or seconds.
-/
namespace Reckoner

open Decimal

namespace Duration

variable {p q : Duration} {m n : ℤ}

theorem abs_mul_seconds_le (u : TimeUnit) (hm : |m| < 10 ^ 9) : |m * u.seconds| ≤ 2 ^ 55 := by
  have hu : (u.seconds : ℤ) ≤ 31536000 := by exact_mod_cast u.seconds_le
  rw [abs_mul, Nat.abs_cast]
  calc
    |m| * (u.seconds : ℤ) ≤ 10 ^ 9 * 31536000 := by gcongr
    _ ≤ 2 ^ 55 := by norm_num

theorem exists_seconds_of_toRat (hp : p.value.toRat = m) (hm : |m| < 10 ^ 9) :
    ∃ a, p.seconds = .ok a ∧ a.toRat = (m * p.unit.seconds : ℤ) := by
  have hle := abs_mul_seconds_le p.unit hm
  have hmul := p.map_toRat_seconds
  rw [hp] at hmul
  have hcast : (m : ℚ) * p.unit.seconds = (m * p.unit.seconds : ℤ) := by push_cast; ring
  have hfit : |m * (p.unit.seconds : ℤ)| < 2 ^ 96 := hle.trans_lt (by norm_num)
  rw [hcast] at hmul
  obtain ⟨a, ha, hval⟩ := exists_of_map_toRat hmul (intCast_lt_limit.mpr hfit)
  exact ⟨a, seconds_eq_ok_iff.mpr ha, by rw [hval, nearest_intCast hfit]⟩

/-- The sum of two durations is counted in the unit of the first. -/
theorem exists_sum (hp : p.value.toRat = m) (hq : q.value.toRat = n) (hm : |m| < 10 ^ 9)
    (hn : |n| < 10 ^ 9) :
    ∃ r, p.combine .add q = .ok (.duration r) ∧ r.unit = p.unit ∧
      r.Counts (m * p.unit.seconds + n * q.unit.seconds) := by
  obtain ⟨a, ha, hval⟩ := exists_seconds_of_toRat hp hm
  obtain ⟨b, hb, hval'⟩ := exists_seconds_of_toRat hq hn
  have hle := abs_mul_seconds_le p.unit hm
  have hle' := abs_mul_seconds_le q.unit hn
  have htri := abs_add_le (m * (p.unit.seconds : ℤ)) (n * q.unit.seconds)
  have hfit : |m * p.unit.seconds + n * (q.unit.seconds : ℤ)| < 2 ^ 96 :=
    (htri.trans (add_le_add hle hle')).trans_lt (by norm_num)
  have hadd := map_toRat_add a b
  rw [hval, hval', ← Int.cast_add] at hadd
  obtain ⟨c, hc, hval⟩ := exists_of_map_toRat hadd (intCast_lt_limit.mpr hfit)
  rw [nearest_intCast hfit] at hval
  refine ⟨ofSeconds c p.unit, ?_, rfl, counts_ofSeconds hval p.unit⟩
  rw [combine, combine.inSeconds, ha, hb]
  show (do let n ← orError (a.add b) _; pure _) = _
  rw [hc]
  rfl

theorem exists_inUnit (hp : p.value.toRat = m) (hm : |m| < 10 ^ 9) (u : TimeUnit) :
    ∃ r, p.inUnit u = .ok r ∧ r.unit = u ∧ r.Counts (m * p.unit.seconds) := by
  rw [inUnit]
  split
  · next h => exact ⟨p, rfl, h.symm, counts_of_toRat hp⟩
  · obtain ⟨a, ha, hval⟩ := exists_seconds_of_toRat hp hm
    exact ⟨ofSeconds a u, by rw [ha]; rfl, rfl, counts_ofSeconds hval u⟩

end Duration

namespace TimeOfDay

variable {t : TimeOfDay} {p : Duration} {s m : ℤ}

theorem Stored.exists_after (h : t.Stored) (hp : p.Counts s) (hs : |s| ≤ 2 ^ 57) :
    ∃ e, t.after p = .ok e ∧ e.Stored ∧
      e.secondOfDay = (t.secondOfDay + p.unit.keptSeconds s) % 86400 ∧ e.offset = t.offset := by
  have hkept := p.unit.abs_keptSeconds_sub_le s
  obtain ⟨e, he⟩ := h.exists_shift (n := p.unit.keptSeconds s) (by rw [abs_le] at *; omega)
  have hleads := leadsTo_of_shift he
  refine ⟨e, ?_, hleads.stored h, hleads.secondOfDay_eq, hleads.offset_eq⟩
  rw [after, hp.wholeSeconds_eq hs]
  exact he

theorem Stored.exists_after_of_toRat (h : t.Stored) (hp : p.value.toRat = m) (hm : |m| < 10 ^ 9) :
    ∃ e, t.after p = .ok e ∧ e.Stored ∧
      e.secondOfDay = (t.secondOfDay + m * p.unit.seconds) % 86400 := by
  have hle := Duration.abs_mul_seconds_le p.unit hm
  have hkeeps : p.unit.KeepsSeconds (m * p.unit.seconds) :=
    p.unit.keepsSeconds_of_dvd (k := 0) (by norm_num) (by simp) (by linarith)
  obtain ⟨e, he, hst, hval, -⟩ :=
    h.exists_after (Duration.counts_of_toRat hp) (hle.trans (by norm_num))
  rw [(p.unit.keptSeconds_eq_iff _).mpr hkeeps] at hval
  exact ⟨e, he, hst, hval⟩

end TimeOfDay

namespace Date

variable {d : Date} {p : Duration} {m n : ℤ}

theorem after_of_wholeDays (d : Date) (h : wholeDays p = .ok n) : d.after p = d.shift n := by
  rw [after, h]
  rfl

theorem before_of_wholeDays (d : Date) (h : wholeDays p = .ok n) (hn : |n| < 2 ^ 63) :
    d.before p = d.shift (-n) := by
  have hc : TimeOfDay.countable (-n) = true := by
    obtain ⟨hl, hu⟩ := abs_lt.mp hn
    simp only [TimeOfDay.countable, Bool.and_eq_true, decide_eq_true_eq]
    omega
  rw [before, h]
  exact if_pos hc

theorem after_eq_shift (d : Date) (hp : p.Counts (n * 86400)) (hn : |n * 86400| ≤ 2 ^ 57) :
    d.after p = d.shift (p.unit.keptDays n) :=
  d.after_of_wholeDays (hp.wholeDays_eq hn)

/-- The days of a whole number of units, if they are a whole number of days. -/
theorem wholeDays_of_toRat (hp : p.value.toRat = m) (hm : |m| < 10 ^ 9)
    (h : m * p.unit.seconds = n * 86400) : wholeDays p = .ok n := by
  have hle := Duration.abs_mul_seconds_le p.unit hm
  have hcount := Duration.counts_of_toRat hp
  have hdvd : (p.unit.seconds : ℤ) ∣ n * 86400 * 10 ^ 0 := by simp [← h]
  rw [h] at hle hcount
  have hkeeps : p.unit.KeepsDays n :=
    p.unit.keepsDays_of_dvd (by norm_num) hdvd (by linarith)
  rw [hcount.wholeDays_eq (hle.trans (by norm_num)), (p.unit.keptDays_eq_iff n).mpr hkeeps]

end Date

namespace Value

theorem combine_date_duration (d : Date) (p : Duration) (env : Environment) :
    combine (.date d) .add (.duration p) env = (d.after p).map date := rfl

theorem combine_time_duration (t : TimeOfDay) (p : Duration) (env : Environment) :
    combine (.time t) .add (.duration p) env = (t.after p).map time := rfl

theorem map_date_eq_ok {o : Except Error Date} {d : Date} :
    o.map date = .ok (date d) ↔ o = .ok d := by
  cases o <;> simp [Except.map]

/-- For durations of whole numbers of units: their sum shifts a time to the second of the day that
they lead to one after the other exactly if the unit of the first keeps the seconds of the sum, and
a date to the date that they lead to exactly if it keeps the days. Likewise for a duration converted
to another unit. -/
theorem durations_additive_iff (p q : Duration) (u : TimeUnit) (env : Environment)
    (target : String) {m n : ℤ} (hp : p.value.toRat = m) (hq : q.value.toRat = n)
    (hm : |m| < 10 ^ 9) (hn : |n| < 10 ^ 9)
    (hu : TimeUnit.ofString? (Text.trim target) = some u) :
    ∃ sum converted : Duration,
      combine (duration p) .add (duration q) env = .ok (duration sum) ∧
      (duration p).convert target env = .ok (duration converted) ∧
      (∀ t : TimeOfDay, t.Stored → ∃ t₁ t₂ t₃ t₄ : TimeOfDay,
        combine (time t) .add (duration p) env = .ok (time t₁) ∧
        combine (time t₁) .add (duration q) env = .ok (time t₂) ∧
        combine (time t) .add (duration sum) env = .ok (time t₃) ∧
        combine (time t) .add (duration converted) env = .ok (time t₄) ∧
        (t₃.secondOfDay = t₂.secondOfDay ↔
          p.unit.KeepsSeconds (m * p.unit.seconds + n * q.unit.seconds)) ∧
        (t₄.secondOfDay = t₁.secondOfDay ↔ u.KeepsSeconds (m * p.unit.seconds))) ∧
      ∀ i j : ℤ, m * p.unit.seconds = i * 86400 → n * q.unit.seconds = j * 86400 →
        ∀ d d₁ : Date, combine (date d) .add (duration p) env = .ok (date d₁) →
          (∀ d₂ d₃ : Date, combine (date d₁) .add (duration q) env = .ok (date d₂) →
            combine (date d) .add (duration sum) env = .ok (date d₃) →
            (d₃ = d₂ ↔ p.unit.KeepsDays (i + j))) ∧
          ∀ d₄ : Date, combine (date d) .add (duration converted) env = .ok (date d₄) →
            (d₄ = d₁ ↔ u.KeepsDays i) := by
  have hle := Duration.abs_mul_seconds_le p.unit hm
  have hle' := Duration.abs_mul_seconds_le q.unit hn
  have htri := abs_add_le (m * (p.unit.seconds : ℤ)) (n * q.unit.seconds)
  have hsum : |m * (p.unit.seconds : ℤ) + n * q.unit.seconds| ≤ 2 ^ 57 := by linarith
  have hone : |m * (p.unit.seconds : ℤ)| ≤ 2 ^ 57 := by linarith
  obtain ⟨sum, hsumOk, hsumUnit, hsumCounts⟩ := Duration.exists_sum hp hq hm hn
  obtain ⟨conv, hconvOk, hconvUnit, hconvCounts⟩ := Duration.exists_inUnit hp hm u
  refine ⟨sum, conv, hsumOk, by rw [convert_duration p hu, hconvOk]; rfl, ?_, ?_⟩
  · intro t ht
    obtain ⟨t₁, h₁, hst, hval₁⟩ := ht.exists_after_of_toRat hp hm
    obtain ⟨t₂, h₂, -, hval₂⟩ := hst.exists_after_of_toRat hq hn
    obtain ⟨t₃, h₃, -, hval₃, -⟩ := ht.exists_after hsumCounts hsum
    obtain ⟨t₄, h₄, -, hval₄, -⟩ := ht.exists_after hconvCounts hone
    -- The summands lose nothing one after the other; only what was divided can.
    rw [hsumUnit] at hval₃
    rw [hconvUnit] at hval₄
    refine ⟨t₁, t₂, t₃, t₄, by rw [combine_time_duration, h₁]; rfl,
      by rw [combine_time_duration, h₂]; rfl, by rw [combine_time_duration, h₃]; rfl,
      by rw [combine_time_duration, h₄]; rfl, ?_, ?_⟩
    · rw [hval₃, hval₂, hval₁, Int.emod_add_emod, add_assoc,
        TimeOfDay.add_emod_day_eq_iff (p.unit.abs_keptSeconds_sub_le _),
        TimeUnit.keptSeconds_eq_iff]
    · rw [hval₄, hval₁, TimeOfDay.add_emod_day_eq_iff (u.abs_keptSeconds_sub_le _),
        TimeUnit.keptSeconds_eq_iff]
  · -- Whole days stay whole days when they are added, so both sides are shifts of one date.
    intro i j hi hj d d₁ h₁
    rw [hi] at hconvCounts hone
    rw [hi, hj, ← add_mul] at hsumCounts hsum
    rw [combine_date_duration, map_date_eq_ok,
      d.after_of_wholeDays (Date.wholeDays_of_toRat hp hm hi)] at h₁
    constructor
    · intro d₂ d₃ h₂ h₃
      rw [combine_date_duration, map_date_eq_ok,
        d₁.after_of_wholeDays (Date.wholeDays_of_toRat hq hn hj)] at h₂
      rw [combine_date_duration, map_date_eq_ok, d.after_eq_shift hsumCounts hsum, hsumUnit] at h₃
      rw [Date.shift_shift_eq_iff h₁ h₂ h₃, TimeUnit.keptDays_eq_iff]
    · intro d₄ h₄
      rw [combine_date_duration, map_date_eq_ok, d.after_eq_shift hconvCounts hone, hconvUnit] at h₄
      rw [Date.shift_eq_iff h₁ h₄, TimeUnit.keptDays_eq_iff]

/-- A minute and two seconds reach one second less as a sum than one after the other, while the
minute keeps its length in hours. -/
theorem durations_additive_minute :
    ∃ sum converted : Duration,
      combine (duration ⟨.one, .minute⟩) .add (duration ⟨.two, .second⟩) .initial =
        .ok (duration sum) ∧
      (duration ⟨.one, .minute⟩).convert "hours" .initial = .ok (duration converted) ∧
      ∃ t₁ t₂ t₃ t₄ : TimeOfDay,
        combine (time ⟨0, 0, none, none⟩) .add (duration ⟨.one, .minute⟩) .initial =
          .ok (time t₁) ∧
        combine (time t₁) .add (duration ⟨.two, .second⟩) .initial = .ok (time t₂) ∧
        combine (time ⟨0, 0, none, none⟩) .add (duration sum) .initial = .ok (time t₃) ∧
        combine (time ⟨0, 0, none, none⟩) .add (duration converted) .initial = .ok (time t₄) ∧
        t₃.secondOfDay ≠ t₂.secondOfDay ∧ t₄.secondOfDay = t₁.secondOfDay := by
  obtain ⟨sum, converted, hsum, hconv, htime, -⟩ :=
    durations_additive_iff ⟨.one, .minute⟩ ⟨.two, .second⟩ .hour .initial "hours"
      (m := 1) (n := 2) (by decide +kernel) (by decide +kernel) (by decide) (by decide)
      (by decide +kernel)
  obtain ⟨t₁, t₂, t₃, t₄, h₁, h₂, h₃, h₄, hs, hc⟩ :=
    htime ⟨0, 0, none, none⟩ ⟨by decide, by decide, by decide, by decide, by decide⟩
  exact ⟨sum, converted, hsum, hconv, t₁, t₂, t₃, t₄, h₁, h₂, h₃, h₄,
    fun h => absurd (hs.mp h) (by decide +kernel), hc.mpr (by decide +kernel)⟩

/-- The sum of a minute and two seconds takes midnight to 00:01:01, though one after the other they
take it to 00:01:02. Ten days converted to months take a date nine days further. -/
theorem durations_not_additive :
    ((combine (duration ⟨.one, .minute⟩) .add (duration ⟨.two, .second⟩) .initial).bind fun sum =>
      combine (time ⟨0, 0, none, none⟩) .add sum .initial) = .ok (time ⟨0, 1, some 1, none⟩) ∧
    ((combine (time ⟨0, 0, none, none⟩) .add (duration ⟨.one, .minute⟩) .initial).bind fun t =>
      combine t .add (duration ⟨.two, .second⟩) .initial) = .ok (time ⟨0, 1, some 2, none⟩) ∧
    (((duration ⟨.ofUInt64 10, .day⟩).convert "months" .initial).bind fun converted =>
      combine (date ⟨2024, 1, 1, by decide⟩) .add converted .initial) =
        .ok (date ⟨2024, 1, 10, by decide⟩) ∧
    combine (date ⟨2024, 1, 1, by decide⟩) .add (duration ⟨.ofUInt64 10, .day⟩) .initial =
      .ok (date ⟨2024, 1, 11, by decide⟩) := by
  refine ⟨by rfl, by rfl, ?_, by rfl⟩
  rw [convert_duration (u := .month) _ (by decide +kernel)]
  rfl

end Value
end Reckoner
