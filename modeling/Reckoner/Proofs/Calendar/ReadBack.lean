import Reckoner.Proofs.Time.ReadBack
import Reckoner.Proofs.Value.Listing
/-!
Dates read back from their written form. Main statement: a date is read from its own text, and no
layout finds another date there.
-/
namespace Reckoner.Date

open Decimal

section Number

variable {width : Option ℕ} {w n : ℕ} {rest : List Char}

theorem digitsValue_paddedDigits (w n : ℕ) : digitsValue (paddedDigits w n) = n := by
  have hvalue (ds : List Char) : digitsValue ds = Nat.ofDigitChars 10 ds 0 := by
    simp only [digitsValue, Nat.ofDigitChars_eq_foldl, mul_comm]
  rw [hvalue, ofDigitChars_paddedDigits]

/-- A number whose digits are not more than the width is read as a whole. -/
theorem readNumber_paddedDigits (hw : 0 < w) (hwidth : ∀ k ∈ width, (paddedDigits w n).length ≤ k)
    (hrest : ∀ c ∈ rest.head?, c.isDigit = false) :
    readNumber width (paddedDigits w n ++ rest) = some (n, rest) := by
  have hrun : (paddedDigits w n ++ rest).takeWhile Char.isDigit = paddedDigits w n :=
    takeWhile_append_of_head (fun c hc => isDigit_of_mem_paddedDigits hc) hrest
  have hne : (paddedDigits w n).isEmpty = false := by
    rw [List.isEmpty_eq_false_iff, ← List.length_pos_iff]
    exact hw.trans_le (le_length_paddedDigits w n)
  have hread (ds : List Char) (hds : ds = paddedDigits w n) :
      (if ds.isEmpty then none
        else some (digitsValue ds, (paddedDigits w n ++ rest).drop ds.length)) =
          some (n, rest) := by
    rw [hds, hne, if_neg Bool.false_ne_true, digitsValue_paddedDigits, List.drop_left]
  unfold readNumber
  dsimp only
  rw [hrun]
  cases width with
  | none => exact hread _ rfl
  | some k => exact hread _ (List.take_of_length_le (hwidth k rfl))

end Number

section Month

variable {c : Char} {cs : List Char}

theorem isAlpha_of_isLower_toLower (h : c.toLower.isLower = true) : c.isAlpha = true := by
  by_cases hupper : c.isUpper = true
  · rw [Char.isAlpha, hupper, Bool.true_or]
  · rw [Char.toLower_eq_of_not_isUpper hupper] at h
    rw [Char.isAlpha, h, Bool.or_true]

theorem behind?_eq_none {word : String} (hword : word.toList.head?.any Char.isLower = true)
    (hc : c.isAlpha = false) : behind? word (c :: cs) = none := by
  cases hlist : word.toList with
  | nil =>
    rw [hlist] at hword
    cases hword
  | cons l letters =>
    rw [hlist, List.head?_cons, Option.any_some] at hword
    rw [behind?, if_neg]
    intro h
    rw [← String.length_toList, hlist, List.length_cons, List.take_succ_cons, List.map_cons,
      List.cons.injEq] at h
    rw [← h.1] at hword
    rw [isAlpha_of_isLower_toLower hword] at hc
    cases hc

/-- No name of a month begins with anything but a letter. -/
theorem readMonth_eq_none (full : Bool) (hc : c.isAlpha = false) :
    readMonth full (c :: cs) = none := by
  have hgo (names : List (String × String))
      (hnames : names.all (fun p => p.1.toList.head?.any Char.isLower) = true) (month : ℕ) :
      readMonth.go full (c :: cs) month names = none := by
    induction names generalizing month with
    | nil => rfl
    | cons p names ih =>
      rw [List.all_cons, Bool.and_eq_true] at hnames
      rw [readMonth.go, behind?_eq_none hnames.1 hc]
      exact ih hnames.2 _
  exact hgo monthNames (by decide) 1

end Month

section Written

variable {year : ℤ} {month day : ℕ}

/-- The text of a year, a month and a day, whether or not they are those of a date. -/
def written (year : ℤ) (month day : ℕ) : List Char :=
  yearSign year ++ (paddedDigits 4 year.natAbs ++
    '-' :: (paddedDigits 2 month ++ '-' :: paddedDigits 2 day))

theorem toList_text (d : Date) : d.text.toList = written d.year d.month d.day := by
  simp only [text, TimeOfDay.twoDigits, String.toList_append, toList_yearText, String.toList_ofList,
    List.append_assoc]
  rfl

theorem length_paddedDigits_le {w n : ℕ} (hw : 0 < w) (hn : n < 10 ^ w) :
    (paddedDigits w n).length ≤ w := by
  have hlength := (Nat.length_toDigits_le_iff (b := 10) (by decide) hw).mpr hn
  rw [paddedDigits, List.length_append, List.length_replicate]
  omega

theorem exists_head_paddedDigits {w : ℕ} (hw : 0 < w) (n : ℕ) :
    ∃ c cs, paddedDigits w n = c :: cs ∧ c.isDigit = true := by
  have hlength := le_length_paddedDigits w n
  cases hds : paddedDigits w n with
  | nil =>
    rw [hds, List.length_nil] at hlength
    omega
  | cons c cs => exact ⟨c, cs, rfl, isDigit_of_mem_paddedDigits (hds ▸ List.mem_cons_self)⟩

/-- Without a sign the year has four digits at most. -/
theorem readYear_of_isDigit {c : Char} {cs : List Char} (hc : c.isDigit = true) :
    readYear (c :: cs) = (readNumber (some 4) (c :: cs)).map fun p => ((p.1 : ℤ), p.2) := by
  unfold readYear
  split
  · next h =>
    cases h
    cases hc
  · next h =>
    cases h
    cases hc
  · rfl

/-- The year is read with its sign, or with its four digits if it has none. -/
theorem readYear_written {rest : List Char} (hrest : ∀ c ∈ rest.head?, c.isDigit = false) :
    readYear (yearSign year ++ (paddedDigits 4 year.natAbs ++ rest)) = some (year, rest) := by
  have hnumber {width : Option ℕ} (h : ∀ k ∈ width, (paddedDigits 4 year.natAbs).length ≤ k) :=
    readNumber_paddedDigits (show 0 < 4 by decide) h hrest
  unfold yearSign
  split
  · next hneg =>
    show (readNumber none (paddedDigits 4 year.natAbs ++ rest)).map _ = _
    rw [hnumber (by simp)]
    simp [abs_of_neg hneg]
  · next hnonneg =>
    have habs : ((year.natAbs : ℕ) : ℤ) = year := Int.natAbs_of_nonneg (not_lt.mp hnonneg)
    split
    · show (readNumber none (paddedDigits 4 year.natAbs ++ rest)).map _ = _
      rw [hnumber (by simp), Option.map_some, habs]
    · have hlength := length_paddedDigits_le (w := 4) (n := year.natAbs) (by decide) (by omega)
      have hread : readNumber (some 4) (paddedDigits 4 year.natAbs ++ rest) =
          some (year.natAbs, rest) := hnumber (by simpa using hlength)
      -- What begins with a digit has neither sign in front.
      obtain ⟨c, cs, hlist, hc⟩ := exists_head_paddedDigits (show 0 < 4 by decide) year.natAbs
      rw [hlist] at hread
      rw [List.nil_append, hlist, List.cons_append, readYear_of_isDigit hc, ← List.cons_append,
        hread, Option.map_some, habs]

theorem not_isAlpha_of_isDigit {c : Char} (h : c.isDigit = true) : c.isAlpha = false := by
  refine Text.of_ascii (P := fun c => c.isDigit = true → c.isAlpha = false) ?_ ?_ h
  · decide +kernel
  · have hle := (isDigit_iff.mp h).2
    omega

/-- The text begins with a sign or a digit. -/
theorem exists_head_written (year : ℤ) (month day : ℕ) : ∃ c cs,
    written year month day = c :: cs ∧ c.isAlpha = false := by
  obtain ⟨c, cs, hlist, hc⟩ := exists_head_paddedDigits (show 0 < 4 by decide) year.natAbs
  unfold written yearSign
  split
  · exact ⟨_, _, rfl, rfl⟩
  · split
    · exact ⟨_, _, rfl, rfl⟩
    · rw [hlist]
      exact ⟨_, _, rfl, not_isAlpha_of_isDigit hc⟩

theorem trimmed_written (year : ℤ) (month day : ℕ) : Text.Trimmed (written year month day) := by
  have hpadded (w n : ℕ) : ∀ c ∈ paddedDigits w n, Text.isBlank c = false :=
    fun c hc => Text.isBlank_of_isDigit (isDigit_of_mem_paddedDigits hc)
  have hsign : ∀ c ∈ yearSign year, Text.isBlank c = false := by
    unfold yearSign
    split
    · exact List.forall_mem_singleton.mpr rfl
    · split
      · exact List.forall_mem_singleton.mpr rfl
      · exact nofun
  apply Text.trimmed_of_forall
  rw [written, List.forall_mem_append, List.forall_mem_append, List.forall_mem_cons,
    List.forall_mem_append, List.forall_mem_cons]
  exact ⟨hsign, hpadded _ _, rfl, hpadded _ _, rfl, hpadded _ _⟩

theorem trimStart_written (year : ℤ) (month day : ℕ) :
    Text.trimStart (written year month day) = written year month day :=
  Text.trimStart_eq_self (trimmed_written year month day).head?

theorem trimStart_paddedDigits {w : ℕ} (hw : 0 < w) (n : ℕ) (rest : List Char) :
    Text.trimStart (paddedDigits w n ++ rest) = paddedDigits w n ++ rest := by
  obtain ⟨c, cs, hlist, hc⟩ := exists_head_paddedDigits hw n
  apply Text.trimStart_eq_self
  rw [hlist]
  rintro _ ⟨⟩
  exact Text.isBlank_of_isDigit hc

/-- The layout of the written form finds the parts that were written. -/
theorem readFields_written (hm : month < 100) (hd : day < 100) :
    readFields [.year, .mark '-', .month, .mark '-', .day] ⟨0, 0, 0⟩ (written year month day) =
      some ⟨year, month, day⟩ := by
  have htwo {n : ℕ} (hn : n < 100) : ∀ k ∈ some 2, (paddedDigits 2 n).length ≤ k := by
    simpa using length_paddedDigits_le (w := 2) (n := n) (by decide) (by omega)
  have hend : readNumber (some 2) (paddedDigits 2 day ++ []) = some (day, []) :=
    readNumber_paddedDigits (by decide) (htwo hd) (by simp)
  have hdaytrim := trimStart_paddedDigits (show 0 < 2 by decide) day []
  rw [List.append_nil] at hend hdaytrim
  rw [readFields, trimStart_written, written, readYear_written (by rintro _ ⟨⟩; rfl)]
  dsimp only
  rw [readFields, if_pos rfl, readFields, trimStart_paddedDigits (by decide),
    readNumber_paddedDigits (by decide) (htwo hm) (by rintro _ ⟨⟩; rfl)]
  dsimp only
  rw [readFields, if_pos rfl, readFields, hdaytrim, hend]
  rfl

/-- A day in front takes two digits of the year, and more digits follow. -/
theorem readNumber_two_written (year : ℤ) (month day : ℕ) :
    readNumber (some 2) (written year month day) = none ∨
      ∃ n c cs, readNumber (some 2) (written year month day) = some (n, c :: cs) ∧
        c.isDigit = true := by
  unfold written yearSign
  split
  · -- No digit stands in front of the sign.
    exact .inl rfl
  · split
    · exact .inl rfl
    · right
      have hrun (rest : List Char) (hrest : ∀ c ∈ rest.head?, c.isDigit = false) :
          (paddedDigits 4 year.natAbs ++ rest).takeWhile Char.isDigit =
            paddedDigits 4 year.natAbs :=
        takeWhile_append_of_head (fun c hc => isDigit_of_mem_paddedDigits hc) hrest
      have hlength := le_length_paddedDigits 4 year.natAbs
      have hdigit (c : Char) (hc : c ∈ paddedDigits 4 year.natAbs) : c.isDigit = true :=
        isDigit_of_mem_paddedDigits hc
      rw [List.nil_append, readNumber, hrun _ (by rintro _ ⟨⟩; rfl)]
      generalize paddedDigits 4 year.natAbs = ds at hlength hdigit ⊢
      match ds with
      | a :: b :: c :: ds => exact ⟨_, c, _, rfl, hdigit c (by simp)⟩

theorem readFields_month_eq_none {field : Field} (hfield : field ∈ [.shortMonth, .longMonth])
    (fields : List Field) (f : Found) {c : Char} (hc : c.isAlpha = false) (cs : List Char) :
    readFields (field :: fields) f (c :: cs) = none := by
  rcases List.mem_pair.mp hfield with rfl | rfl
  · rw [readFields, readMonth_eq_none false hc]
  · rw [readFields, readMonth_eq_none true hc]

/-- The layouts with a slash or with the name of a month do not fit. -/
theorem readFields_written_eq_none {layout : List Field} (h : layout ∈ layouts.tail) :
    readFields layout ⟨0, 0, 0⟩ (written year month day) = none := by
  have hfront {field : Field} (hfield : field ∈ [.shortMonth, .longMonth]) (fields : List Field) :
      readFields (field :: fields) ⟨0, 0, 0⟩ (written year month day) = none := by
    obtain ⟨c, cs, hlist, hc⟩ := exists_head_written year month day
    rw [hlist]
    exact readFields_month_eq_none hfield fields _ hc cs
  have hbehind {field : Field} (hfield : field ∈ [.shortMonth, .longMonth]) (fields : List Field) :
      readFields (.day :: .blanks :: field :: fields) ⟨0, 0, 0⟩ (written year month day) =
        none := by
    rw [readFields, trimStart_written]
    rcases readNumber_two_written year month day with hnone | ⟨n, c, cs, hsome, hc⟩
    · rw [hnone]
    · rw [hsome]
      dsimp only
      rw [readFields, Text.trimStart_eq_self (by rintro _ ⟨⟩; exact Text.isBlank_of_isDigit hc)]
      exact readFields_month_eq_none hfield fields _ (not_isAlpha_of_isDigit hc) cs
  have hslash : readFields [.year, .mark '/', .month, .mark '/', .day] ⟨0, 0, 0⟩
      (written year month day) = none := by
    rw [readFields, trimStart_written, written, readYear_written (by rintro _ ⟨⟩; rfl)]
    dsimp only
    rw [readFields, if_neg (by decide)]
  simp only [layouts, List.tail_cons, List.mem_cons, List.not_mem_nil, or_false] at h
  rcases h with rfl | rfl | rfl | rfl | rfl
  · exact hslash
  · exact hfront (by decide) _
  · exact hfront (by decide) _
  · exact hbehind (by decide) _
  · exact hbehind (by decide) _

/-- Numbers written like a date are read exactly if they are those of a date. -/
theorem ofString?_written (hm : month < 100) (hd : day < 100) :
    ofString? (String.ofList (written year month day)) = ofParts? year month day := by
  have hrest : layouts.tail.findSome? (readLayout · (written year month day)) = none := by
    rw [List.findSome?_eq_none_iff]
    intro layout hlayout
    rw [readLayout, readFields_written_eq_none hlayout]
  have hfirst : readLayout [.year, .mark '-', .month, .mark '-', .day] (written year month day) =
      ofParts? year month day := by
    rw [readLayout, readFields_written hm hd]
  rw [ofString?, String.toList_ofList, (trimmed_written year month day).trimChars_eq]
  show ([Field.year, .mark '-', .month, .mark '-', .day] :: layouts.tail).findSome?
    (readLayout · (written year month day)) = _
  rw [List.findSome?_cons, hfirst, hrest]
  cases ofParts? year month day <;> rfl

/-- A leap day is read where the year has one. -/
example : (ofString? "-0004-02-29").isSome ∧ ofString? "1900-02-29" = none := by decide +kernel

theorem ofParts?_self (d : Date) : ofParts? d.year d.month d.day = some d := dif_pos d.isDate

/-- A date is read from its own text, and no layout finds another date in it. -/
theorem read_text_unambiguous (d : Date) :
    read (Value.date d).text = .ok d ∧
      ∀ layout ∈ layouts, ∀ e,
        readLayout layout (Text.trimChars (Value.date d).text.toList) = some e → e = d := by
  have htext : (Value.date d).text = String.ofList (written d.year d.month d.day) := by
    rw [← toList_text, String.ofList_toList]
    rfl
  obtain ⟨hm, hd⟩ := d.month_day_lt
  constructor
  · rw [read, htext, ofString?_written hm hd, ofParts?_self]
    rfl
  · intro layout hlayout e he
    rw [htext, String.toList_ofList, (trimmed_written _ _ _).trimChars_eq, readLayout] at he
    rcases List.mem_cons.mp hlayout with rfl | htail
    · rw [readFields_written hm hd] at he
      dsimp only at he
      rw [ofParts?_self] at he
      exact (Option.some.inj he).symm
    · rw [readFields_written_eq_none htail] at he
      cases he

end Written

end Reckoner.Date
