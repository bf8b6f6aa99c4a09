import Reckoner.Proofs.Planning.Dimension
import Reckoner.Proofs.Text.Trim
import Reckoner.Proofs.Value.Congruence
import Reckoner.Proofs.Value.Reconvert
/-!
Targets of rates that name a unit beside a unit of time, with a slash between the two or with a
word. Main statement: a rate is converted alike to either spelling, unless there is a slash in the
unit itself. Then the spelling with the word is not understood, and the other one is.
-/
namespace Reckoner

section SplitLast

variable {mark : List Char}

/-- A mark does not occur where one of its characters does not. -/
theorem splitLast_eq_none {c : Char} (hc : c ∈ mark) {cs : List Char} (h : c ∉ cs) :
    splitLast mark cs = none := by
  induction cs with
  | nil => rfl
  | cons d cs ih =>
    rw [splitLast, ih fun hmem => h (List.mem_cons_of_mem d hmem)]
    refine if_neg fun hprefix => h ?_
    exact (List.isPrefixOf_iff_prefix.mp hprefix).subset hc

/-- A text is split at the occurrence of the mark behind whose beginning there is no other. -/
theorem splitLast_append {c : Char} {rest r : List Char}
    (h : splitLast (c :: rest) (rest ++ r) = none) (l : List Char) :
    splitLast (c :: rest) (l ++ (c :: rest ++ r)) = some (l, r) := by
  induction l with
  | nil =>
    rw [List.nil_append, List.cons_append, splitLast, h]
    have hprefix : (c :: rest).isPrefixOf (c :: (rest ++ r)) = true :=
      List.isPrefixOf_iff_prefix.mpr ⟨r, rfl⟩
    rw [if_pos hprefix, ← List.cons_append, List.drop_left]
  | cons d l ih => rw [List.cons_append, splitLast, ih]

theorem splitLast_slash {r : List Char} (h : '/' ∉ r) (l : List Char) :
    splitLast ['/'] (l ++ '/' :: r) = some (l, r) :=
  splitLast_append (splitLast_eq_none (List.mem_singleton_self _) h) l

/-- Where the word occurs once more behind its beginning there is one more `p`. -/
theorem splitLast_word {r : List Char} (h : 'p' ∉ r) (l : List Char) :
    splitLast " per ".toList (l ++ (" per ".toList ++ r)) = some (l, r) := by
  refine @splitLast_append ' ' "per ".toList r ?_ l
  have hrest : splitLast " per ".toList ("er ".toList ++ r) = none :=
    splitLast_eq_none (c := 'p') (by decide) (by simpa using h)
  -- The word begins with a blank, so that it does not occur at the `p` of its own either.
  show splitLast " per ".toList ('p' :: ("er ".toList ++ r)) = none
  rw [splitLast, hrest]
  rfl

end SplitLast

namespace Text

/-- A character stays that is its own lower case. -/
theorem mem_lowerChars {c : Char} (hlower : lowerChar c = [c]) (hsigma : c ≠ 'Σ') {cs : List Char}
    (hc : c ∈ cs) : c ∈ lowerChars cs := by
  rw [lowerChars]
  generalize [] = before
  induction cs generalizing before with
  | nil => cases hc
  | cons d cs ih =>
    rw [lowerAfter, List.mem_append]
    rcases List.mem_cons.mp hc with rfl | hcs
    · apply Or.inl
      rw [if_neg hsigma, hlower]
      exact List.mem_singleton_self c
    · exact Or.inr (ih hcs _)

end Text

namespace TimeUnit

/-- No unit of time is spelled with a slash or with a small `p`. -/
theorem notMem_of_isSome {s : String} (h : (ofString? s).isSome = true) {c : Char}
    (hc : c = '/' ∨ c = 'p') : c ∉ s.toList := by
  obtain ⟨u, -, hu⟩ := List.find?_isSome.mp h
  have hspellings : ∀ word ∈ u.spellings, '/' ∉ word.toList ∧ 'p' ∉ word.toList := by
    cases u <;> decide +kernel
  obtain ⟨hslash, hp⟩ := hspellings _ (List.contains_iff_mem.mp hu)
  have hsettled : Text.isBlank c = false ∧ Text.lowerChar c = [c] ∧ c ≠ 'Σ' := by
    rcases hc with rfl | rfl <;> decide
  obtain ⟨hblank, hlower, hsigma⟩ := hsettled
  intro hmem
  have hword : c ∈ (Text.lower (Text.trim s)).toList := by
    rw [Text.lower, Text.trim, String.toList_ofList, String.toList_ofList]
    exact Text.mem_lowerChars hlower hsigma (Text.mem_trimChars hmem hblank)
  rcases hc with rfl | rfl
  · exact hslash hword
  · exact hp hword

end TimeUnit

namespace Rate

theorem splitTarget_of_split {target : String} {l r : List Char}
    (h : ((splitLast ['/'] target.toList).orElse fun _ =>
      splitLast " per ".toList target.toList) = some (l, r)) :
    splitTarget target =
      if (String.ofList (Text.trimChars l)).isEmpty ||
          (TimeUnit.ofString? (String.ofList (Text.trimChars r))).isNone then none
      else some (String.ofList (Text.trimChars l), String.ofList (Text.trimChars r)) := by
  rw [splitTarget]
  simp only [h]
  rfl

/-- A unit and a unit of time that make a target together. -/
structure Compound (unit per : String) : Prop where
  trim_eq : Text.trim unit = unit
  ne_empty : unit ≠ ""
  isSome : (TimeUnit.ofString? per).isSome = true

namespace Compound

variable {unit per : String} (h : Compound unit per)
include h

/-- The unit of time is not a text of blanks. -/
theorem exists_notBlank : ∃ c ∈ per.toList, Text.isBlank c = false := by
  by_contra hall
  push Not at hall
  have hnil : Text.trimChars per.toList = [] := by
    have hstart : Text.trimStart per.toList = [] :=
      List.dropWhile_eq_nil_iff.mpr fun c hc => by simpa using hall c hc
    rw [Text.trimChars, hstart]
    rfl
  have hsome := h.isSome
  rw [TimeUnit.ofString?, Text.trim, hnil] at hsome
  exact absurd hsome (by decide +kernel)

theorem trimChars_unit : Text.trimChars unit.toList = unit.toList := by
  have htrim := congrArg String.toList h.trim_eq
  rwa [Text.trim, String.toList_ofList] at htrim

/-- Only behind the unit of time there may be blanks to cut off. -/
theorem toList_trim (mark : String) :
    (Text.trim (unit ++ mark ++ per)).toList =
      unit.toList ++ (mark.toList ++ Text.trimEnd per.toList) := by
  obtain ⟨c, hc, hblank⟩ := h.exists_notBlank
  have hne : unit.toList ≠ [] := by
    intro hnil
    exact h.ne_empty (String.toList_eq_nil_iff.mp hnil)
  have hfront : Text.trimStart (unit.toList ++ (mark.toList ++ per.toList)) =
      unit.toList ++ (mark.toList ++ per.toList) := by
    apply Text.trimStart_eq_self
    rw [List.head?_append_of_ne_nil _ hne]
    exact (h.trimChars_unit ▸ Text.trimmed_trimChars unit.toList).head?
  calc (Text.trim (unit ++ mark ++ per)).toList
      = Text.trimEnd (Text.trimStart (unit.toList ++ (mark.toList ++ per.toList))) := by
        rw [Text.trim, String.toList_ofList, String.toList_append, String.toList_append,
          List.append_assoc, Text.trimChars]
    _ = unit.toList ++ (mark.toList ++ Text.trimEnd per.toList) := by
        rw [hfront, ← List.append_assoc, Text.trimEnd_append hc hblank, List.append_assoc]

theorem trimChars_per : String.ofList (Text.trimChars (Text.trimEnd per.toList)) = Text.trim per := by
  obtain ⟨c, hc, hblank⟩ := h.exists_notBlank
  rw [Text.trimChars_trimEnd hc hblank, Text.trim]

/-- A mark with a slash or with a small `p` keeps the target from being a unit of time. -/
theorem isSome_trim_eq_false (mark : String) {c : Char} (hc : c = '/' ∨ c = 'p')
    (hmark : c ∈ mark.toList) :
    (TimeUnit.ofString? (Text.trim (unit ++ mark ++ per))).isSome = false := by
  rw [← Bool.not_eq_true]
  intro hsome
  apply TimeUnit.notMem_of_isSome hsome hc
  rw [h.toList_trim, List.mem_append, List.mem_append]
  exact Or.inr (Or.inl hmark)

theorem notMem_trimEnd {c : Char} (hc : c = '/' ∨ c = 'p') : c ∉ Text.trimEnd per.toList := by
  intro hmem
  apply TimeUnit.notMem_of_isSome h.isSome hc
  exact List.mem_reverse.mp ((List.dropWhile_suffix _).subset (List.mem_reverse.mp hmem))

/-- A target that is split between its unit and its unit of time names the two. -/
theorem splitTarget_of_split {target : String}
    (hsplit : ((splitLast ['/'] target.toList).orElse fun _ =>
      splitLast " per ".toList target.toList) = some (unit.toList, Text.trimEnd per.toList)) :
    splitTarget target = some (unit, Text.trim per) := by
  have hsome : (TimeUnit.ofString? (Text.trim per)).isNone = false := by
    have hisSome := h.isSome
    rw [TimeUnit.ofString?, ← Text.trim_trim, ← TimeUnit.ofString?] at hisSome
    simpa using hisSome
  have hempty : unit.isEmpty = false := by simpa using h.ne_empty
  rw [Rate.splitTarget_of_split hsplit, h.trimChars_unit, String.ofList_toList, h.trimChars_per,
    hsome, hempty]
  rfl

theorem splitTarget_slash :
    splitTarget (Text.trim (unit ++ "/" ++ per)) = some (unit, Text.trim per) := by
  apply h.splitTarget_of_split
  rw [h.toList_trim]
  show (splitLast ['/'] (unit.toList ++ '/' :: Text.trimEnd per.toList)).orElse _ = _
  rw [splitLast_slash (h.notMem_trimEnd (Or.inl rfl))]
  rfl

theorem splitTarget_word (hunit : '/' ∉ unit.toList) :
    splitTarget (Text.trim (unit ++ " per " ++ per)) = some (unit, Text.trim per) := by
  have hper := h.notMem_trimEnd (Or.inl rfl)
  apply h.splitTarget_of_split
  rw [h.toList_trim, splitLast_eq_none (List.mem_singleton_self '/') (by simp [hunit, hper])]
  exact splitLast_word (h.notMem_trimEnd (Or.inr rfl)) _

/-- A target with a slash is split there, and what is behind the last slash of the unit is no unit of
time, for it has the word in it. -/
theorem splitTarget_word_of_mem (hunit : '/' ∈ unit.toList) :
    splitTarget (Text.trim (unit ++ " per " ++ per)) = none := by
  obtain ⟨back, front, hsplit, hback⟩ := List.eq_append_cons_of_mem (List.mem_reverse.mpr hunit)
  have hchars : unit.toList = front.reverse ++ '/' :: back.reverse := by
    rw [← List.reverse_reverse unit.toList, hsplit]
    simp
  set rest := back.reverse ++ (" per ".toList ++ Text.trimEnd per.toList)
  have hslash : '/' ∉ rest := by
    have hper := h.notMem_trimEnd (Or.inl rfl)
    simp [rest, hback, hper]
  have hlast : splitLast ['/'] (Text.trim (unit ++ " per " ++ per)).toList =
      some (front.reverse, rest) := by
    rw [h.toList_trim, hchars, List.append_assoc, List.cons_append]
    exact splitLast_slash hslash _
  have hword : 'p' ∈ Text.trimChars rest := Text.mem_trimChars (by simp [rest]) (by decide)
  have hnone : (TimeUnit.ofString? (String.ofList (Text.trimChars rest))).isNone = true := by
    rw [← Bool.not_eq_false, Option.isNone_eq_false_iff]
    intro hsome
    apply TimeUnit.notMem_of_isSome hsome (Or.inr rfl)
    rwa [String.toList_ofList]
  rw [Rate.splitTarget_of_split (by rw [hlast]; rfl), hnone, Bool.or_true]
  rfl

end Compound

theorem retime_trim (r : Rate) (target : String) : r.retime (Text.trim target) = r.retime target := by
  have hread : TimeUnit.read (Text.trim target) = TimeUnit.read target := by
    rw [TimeUnit.read, TimeUnit.read, TimeUnit.ofString?, TimeUnit.ofString?, Text.trim_trim]
  have hmake (amount : Quantity) : make amount (Text.trim target) = make amount target := by
    rw [make, make, Text.trim_trim]
  simp only [retime, hread, hmake]

section Refuses

theorem not_refuses_make (amount : Quantity) (per : String) : ¬Refuses (make amount per) := by
  rw [make, refuses_bind_pure_iff]
  exact TimeUnit.not_refuses_read _

/-- Another unit of time is no matter of the unit of the amount. -/
theorem not_refuses_retime (r : Rate) (target : String) : ¬Refuses (r.retime target) := by
  rw [retime, refuses_bind_iff, not_or, not_exists]
  refine ⟨TimeUnit.not_refuses_read target, fun unit => ?_⟩
  rintro ⟨-, h⟩
  rw [refuses_bind_iff] at h
  obtain h | ⟨seconds, -, h⟩ := h
  · exact Capacity.not_refuses_perSeconds r h
  rw [refuses_bind_iff] at h
  obtain h | ⟨value, -, h⟩ := h
  · exact not_refuses_orError _ (by simp) h
  · exact not_refuses_make _ _ h

end Refuses

namespace Compound

variable {unit per : String} (h : Compound unit per) (r : Rate)
include h

theorem convert_slash :
    r.convert (Text.trim (unit ++ "/" ++ per)) =
      r.retime per >>= fun t => t.amount.convert unit >>= fun q => make q (Text.trim per) := by
  have hbare := h.isSome_trim_eq_false "/" (Or.inl rfl) (by decide)
  rw [convert_of_splitTarget hbare h.splitTarget_slash, retime_trim]

/-- Without a slash in the unit both spellings are one target. -/
theorem convert_word (hunit : '/' ∉ unit.toList) :
    r.convert (Text.trim (unit ++ " per " ++ per)) = r.convert (Text.trim (unit ++ "/" ++ per)) := by
  have hslash := h.isSome_trim_eq_false "/" (Or.inl rfl) (by decide)
  have hword := h.isSome_trim_eq_false " per " (Or.inr rfl) (by decide)
  rw [convert_of_splitTarget hword (h.splitTarget_word hunit),
    convert_of_splitTarget hslash h.splitTarget_slash]

/-- With a slash in the unit the spelling with the word is no target of any rate. -/
theorem convert_word_of_mem (hunit : '/' ∈ unit.toList) :
    r.convert (Text.trim (unit ++ " per " ++ per)) =
      .error (.incompatibleUnits r.unitText (Text.trim (unit ++ " per " ++ per))) := by
  have hword := h.isSome_trim_eq_false " per " (Or.inr rfl) (by decide)
  rw [convert, if_neg (by simp [hword]), h.splitTarget_word_of_mem hunit]
  rfl

/-- With a slash between the two the units are refused that do not convert into each other, if the
rate has a number for the unit of time at all. -/
theorem refuses_convert_slash_iff :
    Refuses (r.convert (Text.trim (unit ++ "/" ++ per))) ↔
      (∃ s, r.retime per = .ok s) ∧ ¬SameDimension r.amount.unit unit := by
  rw [h.convert_slash r, refuses_bind_iff, or_iff_right (not_refuses_retime r per),
    ← exists_and_right]
  refine exists_congr fun s => and_congr_right fun hs => ?_
  have hmake : ¬∃ q, s.amount.convert unit = .ok q ∧ Refuses (make q (Text.trim per)) := by
    rintro ⟨q, -, hq⟩
    exact not_refuses_make _ _ hq
  rw [refuses_bind_iff, or_iff_left hmake, Quantity.convert, refuses_bind_pure_iff,
    Decimal.refuses_convertUnit_iff, r.gives_retime per s hs]

end Compound

end Rate

/-- Beside a refusal only a refusal is the same result. -/
theorem sameResult_incompatibleUnits_iff {α β : Type} {V : α → β → Prop} (x : Except Error α)
    (source target : String) :
    SameResult V x (.error (.incompatibleUnits source target)) ↔ Refuses x := by
  constructor
  · intro h
    cases h with
    | error he =>
      have hindex := he.ctorIdx_eq
      rename_i e
      cases e with
      | incompatibleUnits s t => exact refuses_incompatibleUnits s t
      | _ => cases hindex
  · rintro ⟨s, t, rfl⟩
    exact .error ⟨rfl, rfl⟩

namespace Value

/-- A rate is converted alike to the two spellings of a unit beside a unit of time exactly if there
is no slash in the unit, or if it has the number for that unit of time and its unit does not convert
into the one named. -/
theorem compound_targets_iff (r : Rate) {unit per : String} (h : Rate.Compound unit per)
    (env : Environment) :
    SameResult Same (convert (rate r) (unit ++ "/" ++ per) env)
        (convert (rate r) (unit ++ " per " ++ per) env) ↔
      '/' ∉ unit.toList ∨ ((∃ s, r.retime per = .ok s) ∧ ¬SameDimension r.amount.unit unit) := by
  by_cases hunit : '/' ∈ unit.toList
  · have hword : convert (rate r) (unit ++ " per " ++ per) env =
        .error (.incompatibleUnits r.unitText (Text.trim (unit ++ " per " ++ per))) := by
      rw [convert_rate, h.convert_word_of_mem r hunit]
      rfl
    rw [hword, sameResult_incompatibleUnits_iff, convert_rate, refuses_map_iff,
      h.refuses_convert_slash_iff, or_iff_right (not_not_intro hunit)]
  · have hword : convert (rate r) (unit ++ " per " ++ per) env =
        convert (rate r) (unit ++ "/" ++ per) env := by
      rw [convert_rate, convert_rate, h.convert_word r hunit]
    rw [hword]
    exact iff_of_true (Same.convert (.refl env) (.refl _) _ (convertsAlike_refl _ _)) (Or.inl hunit)

/-- Three hundred requests a minute are five a second under both spellings. -/
theorem compound_targets_requests :
    let r : Rate := ⟨⟨.ofLiteral 300 0, "req"⟩, "min"⟩
    let s : Rate := ⟨⟨.ofLiteral 5 0, "req"⟩, "s"⟩
    Rate.Compound "req" "s" ∧ convert (rate r) "req per s" .initial = .ok (rate s) ∧
      SameResult Same (convert (rate r) ("req" ++ "/" ++ "s") .initial)
        (convert (rate r) ("req" ++ " per " ++ "s") .initial) := by
  intro r s
  have h : Rate.Compound "req" "s" := ⟨by decide +kernel, by decide, by decide +kernel⟩
  exact ⟨h, eq_ok_of_toOption (by decide +kernel),
    (compound_targets_iff r h .initial).mpr (Or.inl (by decide))⟩

/-- Metres a second, counted for each second, are a target with a second slash only. -/
theorem compound_targets_metres :
    let r : Rate := ⟨⟨.ofLiteral 60 0, "m/s"⟩, "min"⟩
    let s : Rate := ⟨⟨.ofLiteral 1 0, "m/s"⟩, "s"⟩
    Rate.Compound "m/s" "s" ∧ KnownUnit.isKnown "m/s" = true ∧
      convert (rate r) "m/s/s" .initial = .ok (rate s) ∧
      convert (rate r) "m/s per s" .initial =
        .error (.incompatibleUnits "m/s/min" "m/s per s") := by
  intro r s
  refine ⟨⟨?_, ?_, ?_⟩, ?_, eq_ok_of_toOption ?_, ?_⟩ <;> decide +kernel

end Value

end Reckoner
