import Mathlib.Data.List.Basic
import Reckoner.Text.Case
/-!
Texts in upper case. Main statement: a text in upper case is its own upper case, for every script
that the tables of letter case know.
-/
namespace Reckoner.Text

/-- Whether a run has none of the numbers from `low` to `high`, or none of every second of them. -/
def CaseRun.misses (r : CaseRun) (low high : Nat) (second : Bool) : Bool :=
  Nat.blt high r.first || Nat.blt r.last low ||
    ((second || Nat.beq low high) && Nat.beq r.step 2 && Nat.beq ((low + r.first) % 2) 1)

/-- Whether none of these numbers has an upper case other than itself. -/
def isSettled (low high : Nat) (second : Bool) : Bool :=
  (upperRuns.all fun r => r.misses low high second) &&
    upperExpansions.all fun p => Nat.blt p.1 low || Nat.blt high p.1

theorem CaseRun.not_contains_of_misses {r : CaseRun} {low high n : Nat} {second : Bool}
    (h : r.misses low high second = true) (hl : low ≤ n) (hh : n ≤ high)
    (hn : second = true → (n - low) % 2 = 0) : r.contains n = false := by
  simp only [misses, Bool.or_eq_true, Bool.and_eq_true, Nat.blt_eq, Nat.beq_eq] at h
  rw [← Bool.not_eq_true, contains]
  simp only [Bool.and_eq_true, decide_eq_true_eq, beq_iff_eq, not_and]
  intro hrange hmod
  rcases h with (h | h) | ⟨⟨hsecond, hstep⟩, hodd⟩
  · omega
  · omega
  · -- Both go in steps of two, the one over odd numbers and the other over even ones.
    rw [hstep] at hmod
    rcases hsecond with hsecond | hsecond
    · have := hn hsecond
      omega
    · omega

theorem toUpper_eq_self {c : Char} (h : ¬(97 ≤ c.toNat ∧ c.toNat ≤ 122)) : c.toUpper = c := by
  unfold Char.toUpper
  apply dif_neg
  rw [UInt32.le_iff_toNat_le, UInt32.le_iff_toNat_le]
  exact h

theorem upperChar_ofNat_zero : upperChar (Char.ofNat 0) = [Char.ofNat 0] := by decide +kernel

theorem upperChar_of_settled {low high n : Nat} {second : Bool}
    (h : isSettled low high second = true) (hl : low ≤ n) (hh : n ≤ high)
    (hn : second = true → (n - low) % 2 = 0) : upperChar (Char.ofNat n) = [Char.ofNat n] := by
  simp only [isSettled, Bool.and_eq_true, List.all_eq_true, Bool.or_eq_true, Nat.blt_eq] at h
  obtain ⟨hruns, hexpansions⟩ := h
  by_cases hvalid : n.isValidChar
  · have hc : (Char.ofNat n).toNat = n := by
      rw [show Char.ofNat n = Char.ofNatAux n hvalid from dif_pos hvalid]
      rfl
    have hmiss (r : CaseRun) (hr : r ∈ upperRuns) : r.contains n = false :=
      CaseRun.not_contains_of_misses (hruns r hr) hl hh hn
    unfold upperChar
    split
    · -- The first run of the table holds the small letters of ASCII.
      have hletters := hmiss ⟨97, 122, 1, -32⟩ List.mem_cons_self
      rw [toUpper_eq_self]
      rw [hc]
      intro hsmall
      simp [CaseRun.contains, hsmall, Nat.mod_one] at hletters
    · unfold mapCase
      have hexpansion : upperExpansions.find? (fun p => p.1 == (Char.ofNat n).toNat) = none := by
        rw [List.find?_eq_none, hc]
        intro p hp
        have := hexpansions p hp
        rw [beq_iff_eq]
        omega
      have hrun : upperRuns.find? (fun r => r.contains (Char.ofNat n).toNat) = none := by
        rw [List.find?_eq_none, hc]
        intro r hr
        simp [hmiss r hr]
      rw [hexpansion, hrun]
  · rw [show Char.ofNat n = Char.ofNat 0 from dif_neg hvalid]
    exact upperChar_ofNat_zero

theorem upperRuns_settled :
    (upperRuns.all fun r => decide (0 ≤ (r.first : Int) + r.shift) &&
      isSettled (r.first + r.shift).toNat (r.last + r.shift).toNat (Nat.beq r.step 2)) = true := by
  decide +kernel

theorem upperExpansions_settled :
    (upperExpansions.all fun p => p.2.all fun n => isSettled n n false) = true := by
  decide +kernel

theorem ascii_settled : ∀ n < 128, upperChar (Char.ofNat n).toUpper = [(Char.ofNat n).toUpper] := by
  decide +kernel

theorem upperExpansions_ne_nil : ∀ p ∈ upperExpansions, p.2 ≠ [] := by
  decide +kernel

/-- What stands in the upper case of a character is in upper case. -/
theorem upperChar_of_mem_upperChar {c d : Char} (h : d ∈ upperChar c) : upperChar d = [d] := by
  unfold upperChar at h
  split at h
  · have hascii := ascii_settled c.toNat (by assumption)
    rw [Char.ofNat_toNat] at hascii
    rwa [List.mem_singleton.mp h]
  · unfold mapCase at h
    split at h
    · next p hp =>
      obtain ⟨n, hn, rfl⟩ := List.mem_map.mp h
      have hsettled := List.all_eq_true.mp upperExpansions_settled p (List.mem_of_find?_eq_some hp)
      exact upperChar_of_settled (List.all_eq_true.mp hsettled n hn) (Nat.le_refl n) (Nat.le_refl n)
        nofun
    · next hnone =>
      split at h
      · next r hr =>
        rw [List.mem_singleton.mp h]
        have hcontains := List.find?_some hr
        have hsettled := List.all_eq_true.mp upperRuns_settled r (List.mem_of_find?_eq_some hr)
        simp only [CaseRun.contains, Bool.and_eq_true, decide_eq_true_eq, beq_iff_eq]
          at hcontains hsettled
        obtain ⟨⟨hfirst, hlast⟩, hstep⟩ := hcontains
        obtain ⟨hpos, hsettled⟩ := hsettled
        apply upperChar_of_settled hsettled
        · omega
        · omega
        · intro htwo
          rw [Nat.beq_eq] at htwo
          rw [htwo] at hstep
          omega
      · next hrun =>
        -- A character that no table knows is left alone.
        rw [List.mem_singleton.mp h]
        simp only [upperChar, mapCase, hnone, hrun]
        exact if_neg (by assumption)

theorem upperChar_ne_nil (c : Char) : upperChar c ≠ [] := by
  unfold upperChar
  split
  · exact List.cons_ne_nil _ _
  · unfold mapCase
    split
    · next p hp =>
      simpa using upperExpansions_ne_nil p (List.mem_of_find?_eq_some hp)
    · split <;> exact List.cons_ne_nil _ _

theorem upperChars_eq_self {cs : List Char} (h : ∀ c ∈ cs, upperChar c = [c]) :
    upperChars cs = cs := by
  induction cs with
  | nil => rfl
  | cons c cs ih =>
    rw [upperChars, List.flatMap_cons, h c List.mem_cons_self]
    exact congrArg (c :: ·) (ih fun d hd => h d (List.mem_cons_of_mem _ hd))

theorem upperChars_upperChars (cs : List Char) : upperChars (upperChars cs) = upperChars cs := by
  apply upperChars_eq_self
  intro d hd
  obtain ⟨c, -, hc⟩ := List.mem_flatMap.mp hd
  exact upperChar_of_mem_upperChar hc

@[simp] theorem upper_upper (s : String) : upper (upper s) = upper s := by
  rw [upper, upper, String.toList_ofList, upperChars_upperChars]

theorem upperChars_ne_nil {cs : List Char} (h : cs ≠ []) : upperChars cs ≠ [] := by
  obtain ⟨c, cs, rfl⟩ := List.exists_cons_of_ne_nil h
  rw [upperChars, List.flatMap_cons]
  exact List.append_ne_nil_of_left_ne_nil (upperChar_ne_nil c) _

end Reckoner.Text
