import Reckoner.Planning.Estimate
import Reckoner.Proofs.Decimal.FloatSign
import Reckoner.Proofs.Decimal.Same
import Reckoner.Proofs.Time.Counted
/-!
The unit that an estimated time is given in. Main statement: a time fills at least one of its unit,
apart from seconds, and less than one of the next unit, also after the division by the unit's length
is rounded.
-/
namespace Reckoner

open Decimal

section Boundary

/-- A decimal below `n` keeps one unit of its last place away from it. -/
theorem Decimal.unit_le_sub {a : Decimal} {n : ℕ} (h : a.toRat < n) :
    1 / 10 ^ a.scale ≤ n - a.toRat := by
  have hpow : (0 : ℚ) < 10 ^ a.scale := by positivity
  have hscaled : (a.signed : ℚ) < n * 10 ^ a.scale := by
    rw [← toRat_mul_pow]
    exact mul_lt_mul_of_pos_right h hpow
  have hone : a.signed + 1 ≤ n * 10 ^ a.scale := by exact_mod_cast hscaled
  have hone' : (a.signed : ℚ) + 1 ≤ n * 10 ^ a.scale := by exact_mod_cast hone
  rw [← toRat_mul_pow] at hone'
  rw [div_le_iff₀ hpow, sub_mul]
  linarith

/-- With many places a decimal is small. -/
theorem Decimal.abs_toRat_lt {a : Decimal} {p : ℕ} (h : p ≤ a.scale) :
    |a.toRat| < 2 ^ 96 / 10 ^ p := by
  have hc : (a.coefficient : ℚ) < 2 ^ 96 := by exact_mod_cast a.coefficient_lt
  calc |a.toRat| = a.coefficient / 10 ^ a.scale := a.abs_toRat
    _ ≤ a.coefficient / 10 ^ p := by
        apply div_le_div_of_nonneg_left (Nat.cast_nonneg _) (by positivity)
        exact pow_le_pow_right₀ (by norm_num) h
    _ < 2 ^ 96 / 10 ^ p := by gcongr

/-- Sixty has 27 places to spare, and seconds that reach so close to an hour have too few. -/
theorem nearest_div_sixty_lt {s : Decimal} (h : s.toRat < 3600) : nearest (s.toRat / 60) < 60 := by
  have hlimit : ((60 : ℕ) : ℚ) * 10 < limit := by
    rw [limit]
    norm_num
  have hplaces : placesFor ((60 : ℕ) : ℚ) = 27 := by
    apply placesFor_eq (by norm_num)
    · rw [limit]
      norm_num
    · right
      rw [limit]
      norm_num
  by_contra hge
  have hclose := (natCast_le_nearest_iff hlimit).mp (by exact_mod_cast not_lt.mp hge)
  rw [hplaces] at hclose
  push_cast at hclose
  -- To come up to sixty, the seconds would have to be this close to an hour.
  have hgap : 3600 - s.toRat ≤ 30 / 10 ^ 27 := by linarith
  have hunit := unit_le_sub (n := 3600) (by exact_mod_cast h)
  push_cast at hunit
  rcases Nat.lt_or_ge s.scale 26 with hfew | hmany
  · -- One unit of the last place is more than that.
    have hpow : (1 : ℚ) / 10 ^ 25 ≤ 1 / 10 ^ s.scale := by
      apply one_div_le_one_div_of_le (by positivity)
      exact pow_le_pow_right₀ (by norm_num) (by omega)
    have hlt : (30 : ℚ) / 10 ^ 27 < 1 / 10 ^ 25 := by norm_num
    linarith
  · -- With so many places there is no room for so many seconds.
    have hsmall := (le_abs_self _).trans_lt (abs_toRat_lt hmany)
    norm_num at hsmall hgap
    linarith

end Boundary

namespace Duration

variable {s : Decimal} {u : TimeUnit}

theorem toRat_ofSeconds (s : Decimal) (u : TimeUnit) :
    (ofSeconds s u).value.toRat = nearest (s.toRat / u.seconds) :=
  TimeUnit.toRat_dividedBy_length s u

theorem toRat_ofSeconds_second (s : Decimal) : (ofSeconds s .second).value.toRat = s.toRat := by
  rw [toRat_ofSeconds]
  simp [TimeUnit.seconds]

/-- At one of its unit or more, a time does not round to less. -/
theorem one_le_ofSeconds (h : (u.seconds : ℚ) ≤ s.toRat) : 1 ≤ (ofSeconds s u).value.toRat := by
  have hone : (1 : ℚ) ≤ s.toRat / u.seconds := by rwa [one_le_div u.cast_seconds_pos]
  have hmono := nearest_mono hone
  rwa [← Nat.cast_one, nearest_natCast (by norm_num), Nat.cast_one, ← toRat_ofSeconds] at hmono

theorem ofSeconds_minute_lt (h : s.toRat < 3600) : (ofSeconds s .minute).value.toRat < 60 := by
  rw [toRat_ofSeconds]
  exact nearest_div_sixty_lt h

end Duration

namespace Estimate

section Seconds

/-- The seconds of `period` that an availability leaves for being down. -/
def downSeconds (availability : Decimal) (period : Duration) : Except Error Decimal := do
  let seconds ← period.seconds
  orError ((Decimal.one.sub availability).bind fun rest => rest.mul seconds) (.overflow "downtime")

/-- The seconds to bring data over a link. -/
def transferSeconds (size : Quantity) (scope : Scope) (link : Link) : Except Error Decimal := do
  let n ← megabytes "transfer_time" size
  orError ((n.div link.throughput).bind fun wire => wire.add scope.roundTrip)
    (.overflow "transfer time")

/-- The seconds to read data in sequence. -/
def readSeconds (size : Quantity) (drive : Drive) : Except Error Decimal := do
  let n ← megabytes "read" size
  orError (n.div drive.throughput) (.overflow "read time")

theorem downtime_eq_map (availability : Decimal) (period : Duration) :
    downtime availability period =
      if availability.lt .zero || Decimal.one.lt availability then
        .error (.outOfRange "availability" availability .fraction)
      else (downSeconds availability period).map fun down =>
        Duration.ofSeconds down.normalize (downtimeUnit down) := by
  rw [downtime, downSeconds]
  cases period.seconds with
  | error e => rfl
  | ok seconds =>
    simp only [ok_bind]
    cases (Decimal.one.sub availability).bind fun rest => rest.mul seconds <;> rfl

theorem transferTime_eq_map (size : Quantity) (scope : Scope) (link : Link) :
    transferTime size scope link = (transferSeconds size scope link).map secondsOrMinutes := by
  rw [transferTime, transferSeconds]
  cases megabytes "transfer_time" size with
  | error e => rfl
  | ok n =>
    simp only [ok_bind]
    cases (n.div link.throughput).bind fun wire => wire.add scope.roundTrip <;> rfl

theorem readTime_eq_map (size : Quantity) (drive : Drive) :
    readTime size drive = (readSeconds size drive).map secondsOrMinutes := by
  rw [readTime, readSeconds]
  cases megabytes "read" size with
  | error e => rfl
  | ok n =>
    simp only [ok_bind]
    cases n.div drive.throughput <;> rfl

end Seconds

section Sign

variable {period : Duration}

theorem toRat_nonneg_of_map_toRat {o : Option Decimal} {x : ℚ} {a : Decimal}
    (h : o.map toRat = nearest? x) (hx : 0 ≤ x) (ho : o = some a) : 0 ≤ a.toRat := by
  rw [(of_map_toRat h ho).2]
  exact nearest_nonneg hx

theorem gives_downSeconds_nonneg {a : Decimal} (ha : a.toRat ≤ 1) (hp : 0 ≤ period.value.toRat) :
    Gives (downSeconds a period) fun s => 0 ≤ s.toRat := by
  have hseconds : Gives period.seconds fun s => 0 ≤ s.toRat := fun s hs =>
    toRat_nonneg_of_map_toRat period.map_toRat_seconds
      (mul_nonneg hp period.unit.cast_seconds_pos.le) (Duration.seconds_eq_ok_iff.mp hs)
  refine gives_bind hseconds fun seconds hs => gives_orError fun down hdown => ?_
  obtain ⟨rest, hrest, hdown⟩ := Option.bind_eq_some_iff.mp hdown
  have hsub := map_toRat_sub one a
  rw [toRat_one] at hsub
  exact toRat_nonneg_of_map_toRat (map_toRat_mul rest seconds)
    (mul_nonneg (toRat_nonneg_of_map_toRat hsub (by linarith) hrest) hs) hdown

theorem gives_megabytes_nonneg (function : String) (size : Quantity) :
    Gives (megabytes function size) fun n => 0 ≤ n.toRat := by
  refine gives_ite (fun _ => gives_error _) fun hbelow => ?_
  have htarget : (KnownUnit.lookup "MB").map KnownUnit.category = some .dataSize := by
    decide +kernel
  obtain ⟨v, hv, hcategory⟩ := Option.map_eq_some_iff.mp htarget
  exact gives_convertUnit_nonneg hv (by rw [hcategory]; decide) (by simpa using hbelow)

theorem throughput_pos_link (link : Link) : 0 < link.throughput.toRat := by
  rw [← toRat_zero, ← lt_iff]
  cases link <;> decide

theorem throughput_pos_drive (drive : Drive) : 0 < drive.throughput.toRat := by
  rw [← toRat_zero, ← lt_iff]
  cases drive <;> decide

theorem roundTrip_pos (scope : Scope) : 0 < scope.roundTrip.toRat := by
  rw [← toRat_zero, ← lt_iff]
  cases scope <;> decide

theorem toRat_div_nonneg {n b q : Decimal} (hn : 0 ≤ n.toRat) (hb : 0 < b.toRat)
    (h : n.div b = some q) : 0 ≤ q.toRat :=
  toRat_nonneg_of_map_toRat (map_toRat_div n b hb.ne') (div_nonneg hn hb.le) h

theorem gives_transferSeconds_nonneg (size : Quantity) (scope : Scope) (link : Link) :
    Gives (transferSeconds size scope link) fun s => 0 ≤ s.toRat := by
  refine gives_bind (gives_megabytes_nonneg _ size) fun n hn => gives_orError fun s hs => ?_
  obtain ⟨wire, hwire, hsum⟩ := Option.bind_eq_some_iff.mp hs
  have hwire' := toRat_div_nonneg hn (throughput_pos_link link) hwire
  exact toRat_nonneg_of_map_toRat (map_toRat_add wire scope.roundTrip)
    (add_nonneg hwire' (roundTrip_pos scope).le) hsum

theorem gives_readSeconds_nonneg (size : Quantity) (drive : Drive) :
    Gives (readSeconds size drive) fun s => 0 ≤ s.toRat :=
  gives_bind (gives_megabytes_nonneg _ size) fun _ hn =>
    gives_orError fun _ hs => toRat_div_nonneg hn (throughput_pos_drive drive) hs

end Sign

section Brackets

variable {s : Decimal}

theorem lt_length_iff (s : Decimal) (u : TimeUnit) :
    s.lt u.length = true ↔ s.toRat < u.seconds := by
  rw [lt_iff, TimeUnit.toRat_length]

theorem cast_seconds_minute : (TimeUnit.minute.seconds : ℚ) = 60 := by norm_num [TimeUnit.seconds]

theorem cast_seconds_hour : (TimeUnit.hour.seconds : ℚ) = 3600 := by norm_num [TimeUnit.seconds]

/-- Below a minute a time is counted in seconds, as it is. -/
theorem bracket_second (hs : 0 ≤ s.toRat) (h : s.lt TimeUnit.minute.length = true) :
    0 ≤ (Duration.ofSeconds s .second).value.toRat ∧
      (Duration.ofSeconds s .second).value.toRat < 60 := by
  rw [lt_length_iff, cast_seconds_minute] at h
  rw [Duration.toRat_ofSeconds_second]
  exact ⟨hs, h⟩

theorem bracket_from {u : TimeUnit} (h : ¬s.lt u.length = true) :
    1 ≤ (Duration.ofSeconds s u).value.toRat := by
  rw [lt_length_iff, not_lt] at h
  exact Duration.one_le_ofSeconds h

theorem bracket_secondsOrMinutes (hs : 0 ≤ s.toRat) :
    (secondsOrMinutes s).unit = .second ∧ 0 ≤ (secondsOrMinutes s).value.toRat ∧
        (secondsOrMinutes s).value.toRat < 60 ∨
      (secondsOrMinutes s).unit = .minute ∧ 1 ≤ (secondsOrMinutes s).value.toRat := by
  unfold secondsOrMinutes
  split
  · next h => exact .inl ⟨rfl, bracket_second hs h⟩
  · next h => exact .inr ⟨rfl, bracket_from h⟩

/-- The unit of a downtime is chosen with the zeros behind its seconds, and they do not matter. -/
theorem bracket_downtimeUnit (hs : 0 ≤ s.toRat) {d : Duration}
    (hd : d = Duration.ofSeconds s.normalize (downtimeUnit s)) :
    d.unit = .second ∧ 0 ≤ d.value.toRat ∧ d.value.toRat < 60 ∨
      d.unit = .minute ∧ 1 ≤ d.value.toRat ∧ d.value.toRat < 60 ∨
        d.unit = .hour ∧ 1 ≤ d.value.toRat := by
  have hsame : s.normalize.Same s := toRat_normalize s
  have hs' : 0 ≤ s.normalize.toRat := by rwa [toRat_normalize]
  rw [hd]
  unfold downtimeUnit
  rw [← hsame.lt_eq (.refl _), ← hsame.lt_eq (.refl _)]
  split
  · next h => exact .inl ⟨rfl, bracket_second hs' h⟩
  · next hminute =>
    split
    · next h =>
      rw [lt_length_iff, cast_seconds_hour] at h
      exact .inr (.inl ⟨rfl, bracket_from hminute, Duration.ofSeconds_minute_lt h⟩)
    · next h => exact .inr (.inr ⟨rfl, bracket_from h⟩)

/-- Estimated times are in the bracket of their unit, and their number is the number of seconds
divided by the length of the unit, correctly rounded. -/
theorem time_in_bracket :
    (∀ (availability : Decimal) (period : Duration), 0 ≤ period.value.toRat →
      Gives (downtime availability period) fun d =>
        (∃ s, downSeconds availability period = .ok s ∧
          d.value.toRat = nearest (s.toRat / d.unit.seconds)) ∧
        (d.unit = .second ∧ 0 ≤ d.value.toRat ∧ d.value.toRat < 60 ∨
          d.unit = .minute ∧ 1 ≤ d.value.toRat ∧ d.value.toRat < 60 ∨
            d.unit = .hour ∧ 1 ≤ d.value.toRat)) ∧
    (∀ (size : Quantity) (scope : Scope) (link : Link),
      Gives (transferTime size scope link) fun d =>
        (∃ s, transferSeconds size scope link = .ok s ∧
          d.value.toRat = nearest (s.toRat / d.unit.seconds)) ∧
        (d.unit = .second ∧ 0 ≤ d.value.toRat ∧ d.value.toRat < 60 ∨
          d.unit = .minute ∧ 1 ≤ d.value.toRat)) ∧
    ∀ (size : Quantity) (drive : Drive),
      Gives (readTime size drive) fun d =>
        (∃ s, readSeconds size drive = .ok s ∧
          d.value.toRat = nearest (s.toRat / d.unit.seconds)) ∧
        (d.unit = .second ∧ 0 ≤ d.value.toRat ∧ d.value.toRat < 60 ∨
          d.unit = .minute ∧ 1 ≤ d.value.toRat) := by
  refine ⟨fun availability period hp => ?_, fun size scope link => ?_, fun size drive => ?_⟩
  · rw [downtime_eq_map]
    refine gives_ite (fun _ => gives_error _) fun hrange => gives_map fun s hs => ?_
    have hone : availability.toRat ≤ 1 := by
      have hlt := (Bool.or_eq_false_iff.mp (by simpa using hrange)).2
      rwa [Bool.eq_false_iff, Ne, lt_iff, not_lt, toRat_one] at hlt
    refine ⟨⟨s, hs, ?_⟩, bracket_downtimeUnit (gives_downSeconds_nonneg hone hp s hs) rfl⟩
    rw [Duration.toRat_ofSeconds, toRat_normalize]
    rfl
  · rw [transferTime_eq_map]
    refine gives_map fun s hs => ?_
    exact ⟨⟨s, hs, Duration.toRat_ofSeconds s _⟩,
      bracket_secondsOrMinutes (gives_transferSeconds_nonneg size scope link s hs)⟩
  · rw [readTime_eq_map]
    refine gives_map fun s hs => ?_
    exact ⟨⟨s, hs, Duration.toRat_ofSeconds s _⟩,
      bracket_secondsOrMinutes (gives_readSeconds_nonneg size drive s hs)⟩

/-- The last time that is counted in minutes stays below sixty of them. -/
theorem time_in_bracket_below_hour :
    let period : Duration := ⟨.ofLiteral 35999999999999999999999999999 25, .second⟩
    ∃ d, downtime .zero period = .ok d ∧ d.unit = .minute ∧ d.value.toRat < 60 := by
  intro period
  have hp : 0 ≤ period.value.toRat := (isBelowZero_eq_false_iff _).mp (by decide)
  have hd : downtime .zero period =
      .ok ⟨.ofLiteral 59999999999999999999999999998 27, .minute⟩ := by decide +kernel
  obtain ⟨-, hsecond | hminute | hhour⟩ := time_in_bracket.1 .zero period hp _ hd
  · cases hsecond.1
  · exact ⟨_, hd, hminute.1, hminute.2.2⟩
  · cases hhour.1

end Brackets

end Estimate
end Reckoner
