import Reckoner.Proofs.Decimal.Same
import Reckoner.Proofs.Environment.RateKey
import Reckoner.Proofs.Environment.Setting
import Reckoner.Proofs.Evaluation.Invariant
import Reckoner.Proofs.Value.WellFormed
/-!
Well-formed environments. Main statement: all through a session that begins with the environment of
a new one, every result and everything that the environment holds is well-formed, whatever calls the
session makes and whichever of them fail.
-/
namespace Reckoner

namespace Environment

/-- A code as it stands in the key of an exchange rate: some text in upper case. -/
structure KeyCode (s : String) : Prop where
  ne_empty : s ≠ ""
  underscore_notMem : '_' ∉ s.toList
  upper_eq : Text.upper s = s

/-- Every value that is bound is well-formed, and every rate is above zero and stands under the key
of two codes. -/
structure WellFormed (env : Environment) : Prop where
  value : ∀ {name v}, env.get? name = some v → v.WellFormed
  rate_pos : ∀ {key r}, env.rates.get? key = some r → 0 < r.toRat
  key_eq : ∀ {key r}, env.rates.get? key = some r →
    ∃ source target, key = source ++ "_" ++ target ∧ KeyCode source ∧ KeyCode target

/-- Only numbers are bound in a new environment. -/
theorem exists_number_of_get?_initial {name : String} {v : Value}
    (h : initial.get? name = some v) : ∃ n, v = .number n := by
  by_cases hname : name = "E"
  · subst hname
    cases h
    exact ⟨_, rfl⟩
  · by_cases hpi : name = "PI"
    · subst hpi
      cases h
      exact ⟨_, rfl⟩
    · rw [initial, get?, Dictionary.get?_insert_of_ne _ _ _ _ hname,
        Dictionary.get?_insert_of_ne _ _ _ _ hpi] at h
      cases h

theorem wellFormed_initial : initial.WellFormed := by
  refine ⟨fun {name v} h => ?_, nofun, nofun⟩
  obtain ⟨n, rfl⟩ := exists_number_of_get?_initial h
  exact .number n

theorem WellFormed.bind {env : Environment} (h : env.WellFormed) (name : String) {v : Value}
    (hv : v.WellFormed) : (env.bind name v).WellFormed := by
  refine ⟨fun {key w} hw => ?_, h.rate_pos, h.key_eq⟩
  by_cases hkey : key = name
  · rw [hkey, get?_bind_self] at hw
    cases hw
    exact hv
  · rw [env.get?_bind_of_ne hkey] at hw
    exact h.value hw

theorem WellFormed.resolve {env : Environment} (h : env.WellFormed) (name : String) :
    Gives (env.resolve name) Value.WellFormed := by
  unfold Environment.resolve
  split
  · next v hv => exact gives_ok (h.value hv)
  · refine gives_orError fun v hv => ?_
    obtain ⟨b, -, rfl⟩ := Option.map_eq_some_iff.mp hv
    exact .boolean b

/-- Each of the two codes of a key has a character that is not a blank: the first one begins where
the trimmed key begins, and the second one ends where it ends. -/
theorem gives_codes_not_blank (key : String) :
    Gives (codes key) fun p => (∃ c ∈ p.1.toList, Text.isBlank c = false) ∧
      ∃ c ∈ p.2.toList, Text.isBlank c = false := by
  have htrimmed := Text.trimmed_trimChars key.toList
  unfold codes
  split
  · next source target hparts =>
    have hkey := eq_of_partsOf hparts
    rw [List.flatMap_singleton] at hkey
    rw [hkey] at htrimmed
    refine gives_ite (fun _ => gives_error _) fun hempty => gives_ok ?_
    simp only [Bool.or_eq_true, List.isEmpty_iff, not_or] at hempty
    obtain ⟨hsource, htarget⟩ := hempty
    rw [String.toList_ofList, String.toList_ofList]
    refine ⟨⟨source.head hsource, List.head_mem _, htrimmed.head? _ ?_⟩,
      target.getLast htarget, List.getLast_mem _, htrimmed.getLast? _ ?_⟩
    · rw [List.head?_append, List.head?_eq_some_head hsource]
      rfl
    · rw [List.getLast?_append, List.getLast?_cons, List.getLast?_eq_some_getLast htarget]
      rfl
  · exact gives_error _

theorem keyCode_upper_trim {s : String} (hs : '_' ∉ s.toList)
    (hblank : ∃ c ∈ s.toList, Text.isBlank c = false) : KeyCode (Text.upper (Text.trim s)) := by
  obtain ⟨c, hc, hb⟩ := hblank
  refine ⟨?_, Text.underscore_notMem_upper_trim hs, Text.upper_upper _⟩
  intro hempty
  have hchars := congrArg String.toList hempty
  rw [Text.upper, Text.trim, String.toList_ofList, String.toList_ofList] at hchars
  exact Text.upperChars_ne_nil (Text.trimChars_ne_nil hc hb) hchars

theorem WellFormed.setRate {env : Environment} (h : env.WellFormed) {source target : String}
    (hsource : KeyCode (Text.upper (Text.trim source)))
    (htarget : KeyCode (Text.upper (Text.trim target))) {r : Decimal} (hr : 0 < r.toRat) :
    (env.setRate source target r).WellFormed := by
  -- Whatever is found afterwards is the new rate or has been there before.
  have hget {key : String} {s : Decimal}
      (hs : (env.setRate source target r).rates.get? key = some s) :
      (key = rateKey source target ∧ s = r) ∨ env.rates.get? key = some s := by
    by_cases hkey : key = rateKey source target
    · rw [hkey, Environment.setRate, Dictionary.get?_insert_self] at hs
      exact Or.inl ⟨hkey, (Option.some.inj hs).symm⟩
    · rw [Environment.setRate, Dictionary.get?_insert_of_ne _ _ _ _ hkey] at hs
      exact Or.inr hs
  refine ⟨h.value, fun {key s} hs => ?_, fun {key s} hs => ?_⟩
  · rcases hget hs with ⟨-, rfl⟩ | hs
    · exact hr
    · exact h.rate_pos hs
  · rcases hget hs with ⟨rfl, -⟩ | hs
    · exact ⟨_, _, rfl, hsource, htarget⟩
    · exact h.key_eq hs

theorem WellFormed.declare {env : Environment} (h : env.WellFormed) (space key : String) {v : Value}
    (hv : v.WellFormed) : Gives (env.declare space key v) WellFormed := by
  unfold Environment.declare
  refine gives_ite (fun _ => gives_ok (h.bind _ hv)) fun _ => ?_
  refine gives_ite (fun _ => ?_) fun _ => gives_error _
  refine gives_bind (gives_self _) fun codes hcodes => ?_
  obtain ⟨hsource, htarget⟩ := gives_codes_not_blank key codes hcodes
  obtain ⟨hsource', htarget'⟩ := gives_codes key codes hcodes
  cases v with
  -- Only a number above zero is taken for a rate.
  | number r =>
    refine gives_ite (fun hpos => gives_ok ?_) fun _ => gives_error _
    rw [Decimal.lt_iff, Decimal.toRat_zero] at hpos
    exact h.setRate (keyCode_upper_trim hsource' hsource) (keyCode_upper_trim htarget' htarget) hpos
  | _ => exact gives_error _

end Environment

namespace Invariant

/-- Environments, and what is read from arguments, are well-formed. -/
def wellFormed : Invariant where
  environments := Environment.WellFormed
  meanings := Parameter.WellFormed

end Invariant

theorem Function.gives_apply_wellFormed (limits : Limits) (word : String) (f : Function)
    {a : Arguments f.slots} (h : Invariant.wellFormed.arguments f.slots a) :
    Gives (f.apply limits word a) Value.WellFormed := by
  cases f with
  | requires => exact gives_map fun n _ => .number n
  | capacityAt => exact gives_map fun q _ => .quantity q
  | downtime => exact gives_map fun d _ => .duration d
  | accumulate =>
    obtain ⟨rate, period, ⟨⟩⟩ := a
    show Gives ((Rate.accumulate rate period).map Value.quantity) _
    exact gives_map fun q _ => .quantity q
  | convertRate =>
    obtain ⟨rate, target, ⟨⟩⟩ := a
    have hretime := Rate.gives_retime_wellFormed rate target
    show Gives ((Rate.retime rate target).map Value.rate) _
    exact gives_map fun r hr => .rate (hretime r hr)
  | roundTrip => exact gives_ok (.duration _)
  | throughput =>
    obtain ⟨link, ⟨⟩⟩ := a
    have hmake := Rate.gives_make_wellFormed ⟨Link.throughput link, "MB"⟩ "s"
    show Gives ((Estimate.linkThroughput link).map Value.rate) _
    exact gives_map fun r hr => .rate (hmake r hr)
  | transferTime => exact gives_map fun d _ => .duration d
  | read => exact gives_map fun d _ => .duration d
  | seek => exact gives_ok (.duration _)
  | compress => exact Value.gives_compress_wellFormed h.1 _
  | napkin => exact Value.gives_napkin_wellFormed h.1 _
  | average => exact Value.gives_aggregate_wellFormed h.1 _ _
  | sum => exact Value.gives_aggregate_wellFormed h.1 _ _
  | least => exact Value.gives_aggregate_wellFormed h.1 _ _
  | greatest => exact Value.gives_aggregate_wellFormed h.1 _ _
  | root => exact gives_map fun n _ => .number n
  | abs => exact Value.gives_mapMagnitude_wellFormed h.1 _ _
  | floor => exact Value.gives_mapMagnitude_wellFormed h.1 _ _
  | ceil => exact Value.gives_mapMagnitude_wellFormed h.1 _ _
  | round => exact Value.gives_mapMagnitude_wellFormed h.1 _ _

theorem Invariant.wellFormed_kept (limits : Limits) : wellFormed.Kept limits where
  literal he := Value.gives_literal_wellFormed he
  resolve name henv := henv.resolve name
  bind name henv hv := henv.bind name hv
  declare space key henv hv := henv.declare space key hv
  combine op _ hl hr := Value.gives_combine_wellFormed hl hr op _
  compare _ _ _ := gives_map fun b _ => .boolean b
  signed op hv := Value.gives_signed_wellFormed hv op
  convert target _ _ := Value.gives_convert_wellFormed _ target _
  portion _ hr := Value.gives_portion_wellFormed _ hr
  napkin figures hv := Value.gives_napkin_wellFormed hv figures
  taken ht := Parameter.gives_taken_wellFormed ht
  ofValue p word position hv := Parameter.gives_ofValue_wellFormed p word position hv
  apply word ha := Function.gives_apply_wellFormed limits word _ ha

/-- Whatever calls a session makes, with whatever expressions and limits: all values among its
results are well-formed, and so is the environment that it leaves, also behind calls that fail. -/
theorem session_wellFormed (calls : List Call) :
    (∀ r ∈ (session .initial calls).1, Gives r fun vs => ∀ v ∈ vs, v.WellFormed) ∧
      (session .initial calls).2.WellFormed :=
  session_keeps Invariant.wellFormed_kept calls Environment.wellFormed_initial

end Reckoner
