import Reckoner.Proofs.Calendar.Difference
import Reckoner.Proofs.Decimal.Divided
import Reckoner.Proofs.Evaluation.NeverInternal
import Reckoner.Proofs.Literal.Denotation
import Reckoner.Proofs.Napkin
import Reckoner.Proofs.Time.Difference
/-!
Arithmetic without a check: quotients, a difference and numbers made of seconds and days, which the
program goes on with as they are. Main statement: they are always there, whatever values are
combined, and with them no operation comes to a state that no input leads to.
-/
namespace Reckoner

open Decimal

/-- The divisor is not zero, the exact quotient is in range, and `q` is the quotient. -/
structure Decimal.Divides (a b q : Decimal) : Prop extends HasQuotient a b where
  div_eq_some : a.div b = some q

theorem Decimal.HasQuotient.divides {a b : Decimal} (h : HasQuotient a b) :
    Divides a b (a.dividedBy b) :=
  ⟨h, h.div_eq⟩

/-- A whole number of at least one. -/
theorem Decimal.divides_natCast (a : Decimal) {b : Decimal} {n : ℕ} (hb : b.toRat = n)
    (hn : 1 ≤ n) : Divides a b (a.dividedBy b) := by
  refine (hasQuotient_of_one_le a ?_).divides
  rw [hb, Nat.abs_cast]
  exact_mod_cast hn

theorem Duration.divides_ofSeconds (s : Decimal) (u : TimeUnit) :
    Divides s u.length (Duration.ofSeconds s u).value :=
  (TimeUnit.hasQuotient_length s u).divides

theorem Rate.divides_perSeconds (a : Decimal) {r : Rate} {seconds : Decimal}
    (h : r.perSeconds = .ok seconds) : Divides a seconds (a.dividedBy seconds) := by
  unfold Rate.perSeconds at h
  cases hu : r.perUnit with
  | ok u =>
    rw [hu] at h
    cases h
    exact (TimeUnit.hasQuotient_length a u).divides
  | error e =>
    rw [hu] at h
    cases h

/-- What an availability leaves of a whole. -/
theorem Decimal.exists_one_sub {a : Decimal} (h : (a.lt .zero || one.lt a) = false) :
    ∃ rest, one.sub a = some rest ∧ rest.toRat = nearest (1 - a.toRat) := by
  obtain ⟨hlow, hhigh⟩ := Bool.or_eq_false_iff.mp h
  rw [Bool.eq_false_iff, Ne, lt_iff, not_lt] at hlow hhigh
  rw [toRat_zero] at hlow
  rw [toRat_one] at hhigh
  have hrange : InRange (1 - a.toRat) := by
    rw [InRange, abs_of_nonneg (by linarith), limit]
    linarith
  have hsub := map_toRat_sub one a
  rw [toRat_one] at hsub
  exact exists_of_map_toRat hsub hrange

namespace Date

theorem wholeDays_eq {p : Duration} {s : Decimal} (h : p.seconds = .ok s) :
    wholeDays p =
      orError (s.dividedBy TimeUnit.day.length).toInt64? (.overflow "date arithmetic") := by
  rw [wholeDays, h, ok_bind]

end Date

namespace TimeOfDay

theorem Stored.exists_since {t u : TimeOfDay} (ht : t.Stored) (hu : u.Stored) :
    ∃ n, countable (t.universalSecond - u.universalSecond) = true ∧
      ofInt? (t.universalSecond - u.universalSecond) = some n ∧
        t.since u = Duration.ofSeconds n .minute := by
  have hbound : |t.universalSecond - u.universalSecond| < 2 ^ 62 := by
    have htday := ht.secondOfDay_bounds
    have huday := hu.secondOfDay_bounds
    have htlow := ht.le_offset
    have hthigh := ht.offset_lt
    have hulow := hu.le_offset
    have huhigh := hu.offset_lt
    rw [abs_lt, universalSecond, universalSecond]
    omega
  obtain ⟨n, hn, -⟩ := exists_ofInt? (hbound.trans (by norm_num))
  have hc : countable (t.universalSecond - u.universalSecond) = true := by
    obtain ⟨hl, hu⟩ := abs_lt.mp hbound
    simp only [countable, Bool.and_eq_true, decide_eq_true_eq]
    omega
  exact ⟨n, hc, hn, by rw [since, hn, Option.getD_some]⟩

end TimeOfDay

namespace Capacity

theorem bitsPerSecond_eq {r : Rate} {bits seconds : Decimal}
    (hbits : r.amount.value.toBaseUnit r.amount.unit = .ok bits) (hs : r.perSeconds = .ok seconds) :
    bitsPerSecond r = .ok (bits.dividedBy seconds) := by
  rw [bitsPerSecond, hbits, ok_bind, hs, ok_bind]
  rfl

theorem comparable_rates_eq {l c : Rate} {n ls cs : Decimal}
    (hn : c.amount.value.convertUnit c.amount.unit l.amount.unit = .ok n)
    (hls : l.perSeconds = .ok ls) (hcs : c.perSeconds = .ok cs) :
    comparable (.rate l) (.rate c) = .ok (l.amount.value.dividedBy ls, n.dividedBy cs) := by
  rw [comparable, hn, ok_bind, hls, ok_bind, hcs, ok_bind]
  rfl

/-- What stands beside a bare number has a number in it. -/
theorem magnitude_of_bareNumber {v : Value} {position : ℕ} {n : Decimal}
    (h : bareNumber v position = .ok n) : v.magnitude? = some n := by
  cases v <;> cases h <;> rfl

end Capacity

theorem Environment.exchangeRate?_inverse {env : Environment} {source target : String} {r : Decimal}
    (hself : Text.sameLetters source target = false) (hnone : env.rate? source target = none)
    (hr : env.rate? target source = some r) (hzero : r.isZero = false) :
    env.exchangeRate? source target = some (one.dividedBy r) := by
  unfold exchangeRate?
  simp [hself, hnone, hr, hzero]

namespace NumberLiteral

/-- The number of a literal in front of its percent sign. -/
def unscaled? (p : Parts) : Option Decimal := do
  let m ← mantissa? p
  match p.suffix with
  | none => some m
  | some c => (ofNat? (multiplier c)).bind m.mul

theorem read_percent {text : String} {p : Parts} {n : Decimal}
    (hp : split ((Text.trimChars text.toList).filter fun c => !isSeparator c) = some p)
    (hn : unscaled? p = some n) (hpercent : p.percent = true) :
    read text = .ok (n.dividedBy hundred) := by
  obtain ⟨m, hm, hscaled⟩ := Option.bind_eq_some_iff.mp hn
  rw [read_of_split hp hm, hpercent]
  cases hsuffix : p.suffix with
  | none =>
    rw [hsuffix] at hscaled
    cases hscaled
    rfl
  | some c =>
    rw [hsuffix] at hscaled
    dsimp only at hscaled
    rw [scaledUp, hscaled]
    rfl

end NumberLiteral

namespace Estimate

theorem downtime_eq {a rest : Decimal} (h : (a.lt .zero || one.lt a) = false)
    (hrest : one.sub a = some rest) (period : Duration) :
    downtime a period = (do
      let seconds ← period.seconds
      let down ← orError (rest.mul seconds) (.overflow "downtime")
      pure (Duration.ofSeconds down.normalize (downtimeUnit down))) := by
  rw [downtime, h, if_neg Bool.false_ne_true, hrest]
  rfl

end Estimate

/-- Every operator without a check has a result where the program comes to it, and the program goes
on with that result. -/
structure OperatorsDefined : Prop where
  /-- Counting seconds in a unit of time. -/
  ofSeconds : ∀ (s : Decimal) (u : TimeUnit), Divides s u.length (Duration.ofSeconds s u).value
  wholeDays : ∀ (p : Duration) (s : Decimal), p.seconds = .ok s →
    ∃ q, Divides s TimeUnit.day.length q ∧
      Date.wholeDays p = orError q.toInt64? (.overflow "date arithmetic")
  bitsPerSecond : ∀ (r : Rate) (bits seconds : Decimal),
    r.amount.value.toBaseUnit r.amount.unit = .ok bits → r.perSeconds = .ok seconds →
      ∃ q, Divides bits seconds q ∧ Capacity.bitsPerSecond r = .ok q
  /-- Load and capacity for one second. -/
  comparable : ∀ (l c : Rate) (n ls cs : Decimal),
    c.amount.value.convertUnit c.amount.unit l.amount.unit = .ok n →
      l.perSeconds = .ok ls → c.perSeconds = .ok cs →
        ∃ x y, Divides l.amount.value ls x ∧ Divides n cs y ∧
          Capacity.comparable (.rate l) (.rate c) = .ok (x, y)
  /-- The inverse of a rate, whatever rate was set. -/
  exchangeRate? : ∀ (env : Environment) (source target : String) (r : Decimal),
    Text.sameLetters source target = false → env.rate? source target = none →
      env.rate? target source = some r → r.isZero = false →
        ∃ q, Divides one r q ∧ env.exchangeRate? source target = some q
  /-- A percent sign behind a number. -/
  read : ∀ (text : String) (p : NumberLiteral.Parts) (n : Decimal),
    NumberLiteral.split
        ((Text.trimChars text.toList).filter fun c => !NumberLiteral.isSeparator c) = some p →
      NumberLiteral.unscaled? p = some n → p.percent = true →
        ∃ q, Divides n NumberLiteral.hundred q ∧ NumberLiteral.read text = .ok q
  downtime : ∀ (a : Decimal) (period : Duration), (a.lt .zero || one.lt a) = false →
    ∃ rest, one.sub a = some rest ∧ Estimate.downtime a period = (do
      let seconds ← period.seconds
      let down ← orError (rest.mul seconds) (.overflow "downtime")
      pure (Duration.ofSeconds down.normalize (Estimate.downtimeUnit down)))
  /-- A rounded number before a letter for a power of a thousand. -/
  scaledText : ∀ (a : Decimal) (figures n : ℕ) (letter : String) (rest : List (ℕ × String)),
    (n, letter) ∈ Napkin.suffixes →
      ∃ power q, ofNat? n = some power ∧ Divides a power q ∧
        Napkin.scaledText a figures ((n, letter) :: rest) =
          if power.le a.abs then (Napkin.round q figures).map (·.rendered ++ letter)
          else Napkin.scaledText a figures rest
  /-- The days between any two dates are a decimal. -/
  since : ∀ d e : Date, ∃ n, ofInt? (d.number - e.number) = some n ∧ d.since e = ⟨n, .day⟩
  /-- So are the seconds between two times with any fields that a time can be stored with. -/
  timeSince : ∀ t u : TimeOfDay, t.Stored → u.Stored →
    ∃ n, TimeOfDay.countable (t.universalSecond - u.universalSecond) = true ∧
      ofInt? (t.universalSecond - u.universalSecond) = some n ∧
        t.since u = Duration.ofSeconds n .minute
  shift : ∀ (t e : TimeOfDay) (k : ℤ), t.shift k = .ok e →
    e.hour < 24 ∧ e.minute < 60 ∧ ∀ s ∈ e.second, s < 60
  bareNumber : ∀ (v : Value) (position : ℕ) (n : Decimal),
    Capacity.bareNumber v position = .ok n → v.magnitude? = some n

theorem operatorsDefined : OperatorsDefined where
  ofSeconds := Duration.divides_ofSeconds
  wholeDays p s h := ⟨_, Duration.divides_ofSeconds s .day, Date.wholeDays_eq h⟩
  bitsPerSecond r bits seconds hbits hs :=
    ⟨_, r.divides_perSeconds bits hs, Capacity.bitsPerSecond_eq hbits hs⟩
  comparable l c n ls cs hn hls hcs :=
    ⟨_, _, l.divides_perSeconds _ hls, c.divides_perSeconds n hcs,
      Capacity.comparable_rates_eq hn hls hcs⟩
  exchangeRate? env source target r hself hnone hr hzero :=
    ⟨_, (hasQuotient_one ((isZero_eq_false_iff r).mp hzero)).divides,
      Environment.exchangeRate?_inverse hself hnone hr hzero⟩
  read text p n hp hn hpercent :=
    ⟨_, divides_natCast n NumberLiteral.toRat_hundred (by norm_num),
      NumberLiteral.read_percent hp hn hpercent⟩
  downtime a period h := by
    obtain ⟨rest, hrest, -⟩ := exists_one_sub h
    exact ⟨rest, hrest, Estimate.downtime_eq h hrest period⟩
  scaledText a figures n letter rest h := by
    obtain ⟨hone, hlt, -⟩ := Napkin.isScale_of_mem_suffixes h
    obtain ⟨power, hpower, hvalue⟩ := exists_ofNat? hlt
    exact ⟨power, _, hpower, divides_natCast a hvalue hone,
      Napkin.scaledText_cons hpower figures letter rest⟩
  since := Date.exists_since
  timeSince _ _ ht hu := ht.exists_since hu
  shift _ _ _ h :=
    have hleads := TimeOfDay.leadsTo_of_shift h
    ⟨hleads.hour_lt, hleads.minute_lt, hleads.second_lt⟩
  bareNumber _ _ _ h := Capacity.magnitude_of_bareNumber h

/-- Nothing that is calculated without a check is divided by zero or out of range, and nothing comes
to a state that no input leads to. -/
theorem unchecked_defined_and_never_internal : OperatorsDefined ∧ NothingInternal :=
  ⟨operatorsDefined, nothingInternal⟩

end Reckoner
