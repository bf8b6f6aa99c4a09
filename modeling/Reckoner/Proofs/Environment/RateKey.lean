import Mathlib.Data.List.Basic
import Reckoner.Environment
import Reckoner.Proofs.Gives
/-!
The keys under which exchange rates are kept. Main statement: the key of a pair that a declaration
names is the key of no other pair.
-/
namespace Reckoner

namespace Text

theorem ofNat_eq_underscore {n : Nat} (h : Char.ofNat n = '_') : n = 95 := by
  by_cases hvalid : n.isValidChar
  · have hn : Char.ofNat n = Char.ofNatAux n hvalid := dif_pos hvalid
    exact congrArg Char.toNat (hn.symm.trans h)
  · have hn : Char.ofNat n = Char.ofNat 0 := dif_neg hvalid
    exact absurd (hn.symm.trans h) (by decide)

theorem ascii_miss_underscore : ∀ n < 128, (Char.ofNat n).toUpper = '_' → n = 95 := by
  decide +kernel

/-- A run of the table leads past the underscore or stops short of it. -/
theorem upperRuns_miss_underscore :
    ∀ r ∈ upperRuns, 95 < (r.first : Int) + r.shift ∨ (r.last : Int) + r.shift < 95 := by
  decide +kernel

theorem upperExpansions_miss_underscore :
    ∀ p ∈ upperExpansions, 95 ∉ p.2 := by
  decide +kernel

/-- No other character has an underscore in its upper case. -/
theorem eq_underscore_of_mem_upperChar {c : Char} (h : '_' ∈ upperChar c) : c = '_' := by
  unfold upperChar at h
  split at h
  · have hc : c.toUpper = '_' := (List.mem_singleton.mp h).symm
    rw [← Char.ofNat_toNat c] at hc
    have hn := ascii_miss_underscore c.toNat (by assumption) hc
    rw [← Char.ofNat_toNat c, hn]
  · unfold mapCase at h
    split at h
    · next p hp =>
      obtain ⟨n, hn, hc⟩ := List.mem_map.mp h
      rw [ofNat_eq_underscore hc] at hn
      exact absurd hn (upperExpansions_miss_underscore p (List.mem_of_find?_eq_some hp))
    · split at h
      · next r hr =>
        have hc := ofNat_eq_underscore (List.mem_singleton.mp h).symm
        have hcontains := List.find?_some hr
        have hmiss := upperRuns_miss_underscore r (List.mem_of_find?_eq_some hr)
        simp only [CaseRun.contains, Bool.and_eq_true, decide_eq_true_eq] at hcontains
        omega
      · exact (List.mem_singleton.mp h).symm

theorem mem_of_mem_trimChars {c : Char} {cs : List Char} (h : c ∈ trimChars cs) : c ∈ cs := by
  unfold trimChars trimEnd trimStart at h
  rw [List.mem_reverse] at h
  have hstart := List.mem_reverse.mp ((List.dropWhile_sublist _).mem h)
  exact (List.dropWhile_sublist _).mem hstart

theorem underscore_notMem_upper_trim {s : String} (h : '_' ∉ s.toList) :
    '_' ∉ (upper (trim s)).toList := by
  intro hmem
  apply h
  rw [upper, trim, String.toList_ofList, String.toList_ofList, upperChars, List.mem_flatMap]
    at hmem
  obtain ⟨c, hc, hu⟩ := hmem
  rw [eq_underscore_of_mem_upperChar hu] at hc
  exact mem_of_mem_trimChars hc

end Text

namespace Environment

/-- The codes of two currencies as they stand in the key of their rate. -/
def currencies (source target : String) : String × String :=
  (Text.upper (Text.trim source), Text.upper (Text.trim target))

theorem partsOf_ne_nil (cs : List Char) : partsOf cs ≠ [] := by
  cases cs with
  | nil => exact List.cons_ne_nil _ _
  | cons c cs =>
    rw [partsOf]
    split
    · exact List.cons_ne_nil _ _
    · split <;> exact List.cons_ne_nil _ _

/-- A text is its first part, and then each other part behind an underscore. -/
theorem eq_of_partsOf {cs part : List Char} {parts : List (List Char)}
    (h : partsOf cs = part :: parts) : cs = part ++ parts.flatMap ('_' :: ·) := by
  induction cs generalizing part parts with
  | nil =>
    cases h
    rfl
  | cons c cs ih =>
    -- A character is put in front of the first part, or is the underscore in front of it.
    obtain ⟨first, rest, hfirst⟩ := List.exists_cons_of_ne_nil (partsOf_ne_nil cs)
    have hcs := ih hfirst
    rw [partsOf, hfirst] at h
    split at h
    · next hc =>
      cases h
      rw [hc, List.nil_append, List.flatMap_cons, List.cons_append, ← hcs]
    · cases h
      rw [List.cons_append, ← hcs]

theorem partsOf_of_notMem {cs : List Char} (h : '_' ∉ cs) : partsOf cs = [cs] := by
  induction cs with
  | nil => rfl
  | cons c cs ih =>
    rw [List.mem_cons, not_or] at h
    rw [partsOf, if_neg (Ne.symm h.1), ih h.2]

/-- The first part ends at the first underscore. -/
theorem partsOf_append {part : List Char} (h : '_' ∉ part) (cs : List Char) :
    partsOf (part ++ '_' :: cs) = part :: partsOf cs := by
  induction part with
  | nil => rw [List.nil_append, partsOf, if_pos rfl]
  | cons c part ih =>
    rw [List.mem_cons, not_or] at h
    rw [List.cons_append, partsOf, if_neg (Ne.symm h.1), ih h.2]

theorem underscore_notMem_of_mem_partsOf (cs : List Char) : ∀ part ∈ partsOf cs, '_' ∉ part := by
  induction cs with
  | nil => simp [partsOf]
  | cons c cs ih =>
    rw [partsOf]
    split
    · intro part hpart
      rcases List.mem_cons.mp hpart with rfl | hpart
      · exact List.not_mem_nil
      · exact ih part hpart
    · next hc =>
      split
      · simpa using Ne.symm hc
      · next first rest hparts =>
        rw [hparts] at ih
        intro part hpart
        rcases List.mem_cons.mp hpart with rfl | hpart
        · simpa [Ne.symm hc] using ih first List.mem_cons_self
        · exact ih part (List.mem_cons_of_mem _ hpart)

/-- Two parts are what stands on either side of the only underscore. -/
theorem partsOf_eq_pair_iff {cs source target : List Char} : partsOf cs = [source, target] ↔
    cs = source ++ '_' :: target ∧ '_' ∉ source ∧ '_' ∉ target := by
  constructor
  · intro h
    have hmem := underscore_notMem_of_mem_partsOf cs
    rw [h] at hmem
    refine ⟨?_, hmem _ List.mem_cons_self, hmem _ (List.mem_cons_of_mem _ List.mem_cons_self)⟩
    simpa using eq_of_partsOf h
  · rintro ⟨rfl, hsource, htarget⟩
    rw [partsOf_append hsource, partsOf_of_notMem htarget]

theorem gives_codes (key : String) :
    Gives (codes key) fun p => '_' ∉ p.1.toList ∧ '_' ∉ p.2.toList := by
  have hparts := underscore_notMem_of_mem_partsOf (Text.trimChars key.toList)
  unfold codes
  split
  · next source target h =>
    rw [h] at hparts
    refine gives_ite (fun _ => gives_error _) fun _ => gives_ok ?_
    simpa using hparts
  · exact gives_error _

/-- Texts without an underscore are told by what they make with one between them. -/
theorem append_underscore_inj {l r : String} (hl : '_' ∉ l.toList) (hr : '_' ∉ r.toList)
    (l' r' : String) : l' ++ "_" ++ r' = l ++ "_" ++ r ↔ l' = l ∧ r' = r := by
  constructor
  · intro h
    have hlist : l.toList ++ '_' :: r.toList = l'.toList ++ '_' :: r'.toList := by
      simpa using (congrArg String.toList h).symm
    obtain ⟨hll, -, hrr⟩ := (List.append_cons_inj_of_notMem hl hr).mp hlist
    exact ⟨String.toList_inj.mp hll.symm, String.toList_inj.mp hrr.symm⟩
  · rintro ⟨rfl, rfl⟩
    rfl

/-- Two keys are one only if the pairs are, where the codes of one pair have no underscore. -/
theorem rateKey_eq_iff {source target : String} (hs : '_' ∉ source.toList)
    (ht : '_' ∉ target.toList) (source' target' : String) :
    rateKey source' target' = rateKey source target ↔
      currencies source' target' = currencies source target := by
  rw [currencies, currencies, Prod.mk.injEq]
  apply append_underscore_inj
  · exact Text.underscore_notMem_upper_trim hs
  · exact Text.underscore_notMem_upper_trim ht

end Environment
end Reckoner
