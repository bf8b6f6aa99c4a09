import Reckoner.Proofs.Environment.RateKey
/-!
The table of exchange rates after rates have been set one after another. Main statement: it gives
the rate that was set last for a pair, unless a later one was set for another pair that makes the
same key.
-/
namespace Reckoner

/-- A rate to be set: how many units of `target` there are for one of `source`. -/
structure Quote where
  source : String
  target : String
  rate : Decimal

namespace Environment

section Clash

/-- Two different pairs of codes are one text with an underscore between the codes: the first code
of one pair goes on where that of the other pair ends. -/
def Clash (p q : String × String) : Prop :=
  ∃ middle, (p.1 = q.1 ++ "_" ++ middle ∧ q.2 = middle ++ "_" ++ p.2) ∨
    (q.1 = p.1 ++ "_" ++ middle ∧ p.2 = middle ++ "_" ++ q.2)

variable {p q : String × String}

theorem Clash.symm (h : Clash p q) : Clash q p :=
  h.imp fun _ hm => hm.symm

theorem Clash.append_eq (h : Clash p q) : p.1 ++ "_" ++ p.2 = q.1 ++ "_" ++ q.2 := by
  obtain ⟨m, ⟨h, h'⟩ | ⟨h, h'⟩⟩ := h
  · rw [h, h']
    simp only [String.append_assoc]
  · rw [h, h']
    simp only [String.append_assoc]

/-- What is behind the first code of one pair, if the first code of the other is longer. -/
theorem eq_or_clash_of_append {l : List Char} (hq : q.1.toList = p.1.toList ++ l)
    (hp : '_' :: p.2.toList = l ++ '_' :: q.2.toList) : p = q ∨ Clash p q := by
  rcases l with - | ⟨x, m⟩
  · refine Or.inl (Prod.ext ?_ ?_)
    · apply String.toList_inj.mp
      simpa using hq.symm
    · apply String.toList_inj.mp
      simpa using hp
  · rw [List.cons_append, List.cons_eq_cons] at hp
    obtain ⟨rfl, hm⟩ := hp
    refine Or.inr ⟨String.ofList m, Or.inr ⟨?_, ?_⟩⟩
    · apply String.toList_inj.mp
      simpa using hq
    · apply String.toList_inj.mp
      simpa using hm

theorem append_underscore_eq_iff :
    p.1 ++ "_" ++ p.2 = q.1 ++ "_" ++ q.2 ↔ p = q ∨ Clash p q := by
  constructor
  · intro h
    have hlist : p.1.toList ++ '_' :: p.2.toList = q.1.toList ++ '_' :: q.2.toList := by
      simpa using congrArg String.toList h
    rcases List.append_eq_append_iff.mp hlist with ⟨l, hq, hp⟩ | ⟨l, hp, hq⟩
    · exact eq_or_clash_of_append hq hp
    · exact (eq_or_clash_of_append hp hq).imp Eq.symm Clash.symm
  · rintro (rfl | h)
    · rfl
    · exact h.append_eq

/-- Two pairs have one key if their codes are the same or clash. -/
theorem rateKey_eq_iff_clash (source target source' target' : String) :
    rateKey source target = rateKey source' target' ↔
      currencies source target = currencies source' target' ∨
        Clash (currencies source target) (currencies source' target') :=
  append_underscore_eq_iff (p := currencies source target) (q := currencies source' target')

theorem Clash.underscore_mem (h : Clash p q) : '_' ∈ q.1.toList ∨ '_' ∈ q.2.toList := by
  obtain ⟨m, ⟨-, h⟩ | ⟨h, -⟩⟩ := h
  · right
    simp [h]
  · left
    simp [h]

end Clash

end Environment

namespace Quote

/-- The codes of a quote without blanks around them and in upper case. -/
def pair (q : Quote) : String × String := Environment.currencies q.source q.target

/-- The last quote with a property. -/
def last? (P : Quote → Prop) [DecidablePred P] (qs : List Quote) : Option Quote :=
  qs.reverse.find? fun q => P q

variable {P : Quote → Prop} [DecidablePred P] {qs : List Quote} {q : Quote}

theorem last?_eq_some_iff : last? P qs = some q ↔
    P q ∧ ∃ before after, qs = before ++ q :: after ∧ ∀ p ∈ after, ¬ P p := by
  rw [last?, List.find?_eq_some_iff_append]
  simp only [decide_eq_true_eq, Bool.not_eq_true', decide_eq_false_iff_not]
  refine and_congr_right fun _ => ⟨?_, ?_⟩
  · rintro ⟨as, bs, hqs, has⟩
    refine ⟨bs.reverse, as.reverse, ?_, fun p hp => has p (List.mem_reverse.mp hp)⟩
    rw [← qs.reverse_reverse, hqs]
    simp
  · rintro ⟨before, after, rfl, hafter⟩
    refine ⟨after.reverse, before.reverse, by simp, fun p hp => ?_⟩
    exact hafter p (List.mem_reverse.mp hp)

theorem last?_eq_none_iff : last? P qs = none ↔ ∀ q ∈ qs, ¬ P q := by
  simp [last?]

theorem last?_cons (q : Quote) (qs : List Quote) :
    last? P (q :: qs) = (last? P qs).or (if P q then some q else none) := by
  rw [last?, last?, List.reverse_cons, List.find?_append]
  by_cases h : P q <;> simp [h]

end Quote

namespace Environment

variable {s t : String}

theorem rate?_setRate (env : Environment) (a b : String) (r : Decimal) (s t : String) :
    (env.setRate a b r).rate? s t =
      if rateKey a b = rateKey s t then some r else env.rate? s t := by
  unfold setRate rate?
  split
  · next h => rw [h, Dictionary.get?_insert_self]
  · next h => rw [Dictionary.get?_insert_of_ne _ _ _ _ (Ne.symm h)]

/-- The environment after rates have been set in their order. -/
def quoteAll (env : Environment) : List Quote → Environment
  | [] => env
  | q :: qs => (env.setRate q.source q.target q.rate).quoteAll qs

/-- The rate that was set last for a pair of codes, whatever blanks are around them and in whatever
case they are. -/
def quoted? (qs : List Quote) (source target : String) : Option Decimal :=
  (Quote.last? (fun q => q.pair = currencies source target) qs).map Quote.rate

/-- Setting rates is remembering the last one for each key. -/
theorem rate?_quoteAll (env : Environment) (qs : List Quote) (s t : String) :
    (env.quoteAll qs).rate? s t =
      ((Quote.last? (fun q => rateKey q.source q.target = rateKey s t) qs).map Quote.rate).or
        (env.rate? s t) := by
  induction qs generalizing env with
  | nil => rfl
  | cons q qs ih =>
    rw [quoteAll, ih, rate?_setRate, Quote.last?_cons, Option.map_or, Option.or_assoc]
    refine congrArg _ ?_
    split
    · rfl
    · rfl

/-- No pair clashes with one whose codes have no underscore. -/
theorem not_clash {source target : String} (hs : '_' ∉ source.toList) (ht : '_' ∉ target.toList)
    (p : String × String) : ¬ Clash p (currencies source target) := by
  intro h
  rcases h.underscore_mem with h | h
  · exact Text.underscore_notMem_upper_trim hs h
  · exact Text.underscore_notMem_upper_trim ht h

/-- A rate that is set for one pair is not the rate of another exactly if the two do not clash. -/
theorem rate?_setRate_iff {q : Quote} (hne : q.pair ≠ currencies s t) :
    (∀ env : Environment, (env.setRate q.source q.target q.rate).rate? s t = env.rate? s t) ↔
      ¬ Clash q.pair (currencies s t) := by
  have hkey : rateKey q.source q.target = rateKey s t ↔ Clash q.pair (currencies s t) := by
    rw [rateKey_eq_iff_clash]
    exact or_iff_right hne
  constructor
  · intro h hclash
    have hset := h initial
    rw [rate?_setRate, if_pos (hkey.mpr hclash)] at hset
    cases hset
  · intro h env
    rw [rate?_setRate, if_neg (mt hkey.mp h)]

/-- The table is right about a pair exactly if the last quote under the key of the pair is one of
the pair or has the rate that was set for it. -/
theorem rate?_quoteAll_initial_iff (qs : List Quote) (s t : String) :
    (initial.quoteAll qs).rate? s t = quoted? qs s t ↔
      ∀ before q after, qs = before ++ q :: after → Clash q.pair (currencies s t) →
        (∀ p ∈ after, p.pair ≠ currencies s t ∧ ¬ Clash p.pair (currencies s t)) →
        quoted? qs s t = some q.rate := by
  have hkey (q : Quote) : rateKey q.source q.target = rateKey s t ↔
      q.pair = currencies s t ∨ Clash q.pair (currencies s t) := rateKey_eq_iff_clash _ _ _ _
  have htable : (initial.quoteAll qs).rate? s t =
      (Quote.last? (fun q => rateKey q.source q.target = rateKey s t) qs).map Quote.rate := by
    rw [rate?_quoteAll]
    exact Option.or_none
  rw [htable]
  constructor
  · intro h before q after hqs hclash hafter
    have hlast : Quote.last? (fun q => rateKey q.source q.target = rateKey s t) qs = some q := by
      apply Quote.last?_eq_some_iff.mpr
      refine ⟨(hkey q).mpr (Or.inr hclash), before, after, hqs, fun p hp => ?_⟩
      rw [hkey, not_or]
      exact hafter p hp
    rw [← h, hlast]
    rfl
  · intro h
    rcases hlast : Quote.last? (fun q => rateKey q.source q.target = rateKey s t) qs with - | q
    · -- No quote has the key, so none is of the pair.
      have hnone := Quote.last?_eq_none_iff.mp hlast
      have hown : Quote.last? (fun q => q.pair = currencies s t) qs = none :=
        Quote.last?_eq_none_iff.mpr fun q hq hpair => hnone q hq ((hkey q).mpr (.inl hpair))
      rw [quoted?, hown]
    · obtain ⟨hq, before, after, hqs, hafter⟩ := Quote.last?_eq_some_iff.mp hlast
      simp only [hkey, not_or] at hq hafter
      rcases hq with hpair | hclash
      · have hown : Quote.last? (fun q => q.pair = currencies s t) qs = some q :=
          Quote.last?_eq_some_iff.mpr
            ⟨hpair, before, after, hqs, fun p hp => (hafter p hp).1⟩
        rw [quoted?, hown]
      · exact (h before q after hqs hclash hafter).symm

/-- Behind any quotes, the table gives the rate that was set last for a pair unless the last quote
of the pair and those that clash with it is of another pair and has another rate. Setting the rate
of another pair leaves that of a pair alone exactly if the two do not clash, and none clashes with
a pair without underscores. -/
theorem rate?_quoteAll_clash_iff (qs : List Quote) (s t : String) :
    ((initial.quoteAll qs).rate? s t = quoted? qs s t ↔
      ∀ before q after, qs = before ++ q :: after → Clash q.pair (currencies s t) →
        (∀ p ∈ after, p.pair ≠ currencies s t ∧ ¬ Clash p.pair (currencies s t)) →
        quoted? qs s t = some q.rate) ∧
    (∀ q : Quote, q.pair ≠ currencies s t →
      ((∀ env : Environment,
          (env.setRate q.source q.target q.rate).rate? s t = env.rate? s t) ↔
        ¬ Clash q.pair (currencies s t))) ∧
    ('_' ∉ s.toList → '_' ∉ t.toList → ∀ p, ¬ Clash p (currencies s t)) :=
  ⟨rate?_quoteAll_initial_iff qs s t, fun _ hne => rate?_setRate_iff hne,
    fun hs ht => not_clash hs ht⟩

/-- The rates from dollars and from pounds to euros. -/
def toEuros : List Quote := [⟨" usd", "eur ", .ofLiteral 92 2⟩, ⟨"GBP", "EUR", .ofLiteral 117 2⟩]

theorem rate?_quoteAll_dollar :
    '_' ∉ "USD".toList ∧ '_' ∉ "EUR".toList ∧
      (initial.quoteAll toEuros).rate? "USD" "EUR" = some (.ofLiteral 92 2) := by
  have hs : '_' ∉ "USD".toList := by decide
  have ht : '_' ∉ "EUR".toList := by decide
  obtain ⟨htable, -, hclash⟩ := rate?_quoteAll_clash_iff toEuros "USD" "EUR"
  have hright := htable.mpr fun _ q _ _ h => absurd h (hclash hs ht q.pair)
  exact ⟨hs, ht, hright.trans (by decide +kernel)⟩

/-- A rate from `A_B` to `C` is given out as one from `A` to `B_C`, which was never set. -/
theorem rate?_quoteAll_crossed :
    let qs : List Quote := [⟨"A_B", "C", .ofLiteral 2 0⟩]
    currencies "A_B" "C" ≠ currencies "A" "B_C" ∧ quoted? qs "A" "B_C" = none ∧
      (initial.quoteAll qs).rate? "A" "B_C" = some (.ofLiteral 2 0) := by
  decide +kernel

end Environment
end Reckoner
