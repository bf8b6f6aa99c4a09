import Reckoner.Proofs.Literal.Spelling
import Reckoner.Proofs.Value.WellFormed
/-!
Times of day read back from their written form. Main statement: the times that some text is read as
are those within a day with an offset in range, and each of them is read from its own text.
-/
namespace Reckoner

theorem Text.isBlank_of_isDigit {c : Char} (h : c.isDigit = true) : Text.isBlank c = false := by
  rw [← Bool.not_eq_true]
  intro hblank
  have hscript := Text.isScriptDigit_of_isDigit c h
  rw [Text.isScriptDigit_of_isBlank hblank] at hscript
  cases hscript

namespace TimeOfDay

section DigitPair

/-- The two digits of a number below one hundred. -/
def digitPair (n : ℕ) : List Char := [Nat.digitChar (n / 10), Nat.digitChar (n % 10)]

variable {n : ℕ}

theorem exists_digitPair (hn : n < 100) :
    ∃ a b, digitPair n = [a, b] ∧ a.isDigit = true ∧ b.isDigit = true := by
  refine ⟨_, _, rfl, ?_, ?_⟩
  · rw [Nat.isDigit_digitChar, decide_eq_true_eq]
    omega
  · rw [Nat.isDigit_digitChar, decide_eq_true_eq]
    omega

theorem toList_twoDigits (hn : n < 100) : (twoDigits n).toList = digitPair n := by
  have hunits : n % 10 < 10 := Nat.mod_lt n (by decide)
  rw [twoDigits, String.toList_ofList, Decimal.paddedDigits, Nat.toDigits_eq_if (by decide)]
  split
  · next hlt =>
    rw [digitPair, Nat.div_eq_of_lt hlt, Nat.mod_eq_of_lt hlt]
    rfl
  · rw [Nat.toDigits_eq_if (by decide), if_pos (by omega)]
    rfl

theorem digit?_digitChar : ∀ d < 10, Decimal.digit? (Nat.digitChar d) = some d := by decide

theorem mapM_digitPair_append (hn : n < 100) (cs : List Char) :
    (digitPair n ++ cs).mapM Decimal.digit? =
      (cs.mapM Decimal.digit?).map fun ds => n / 10 :: n % 10 :: ds := by
  rw [digitPair, List.cons_append, List.cons_append, List.nil_append, List.mapM_cons,
    List.mapM_cons, digit?_digitChar _ (by omega), digit?_digitChar _ (by omega)]
  cases cs.mapM Decimal.digit? <;> rfl

theorem field?_digitPair (hn : n < 100) : field? (digitPair n) = some n := by
  have hdigits := mapM_digitPair_append hn []
  rw [List.append_nil] at hdigits
  rw [field?, hdigits]
  show some ((0 * 10 + n / 10) * 10 + n % 10) = some n
  congr 1
  omega

theorem twoAtFront_digitPair (hn : n < 100) (rest : List Char) :
    twoAtFront (digitPair n ++ rest) = some (digitPair n, rest) := by
  obtain ⟨a, b, hpair, ha, hb⟩ := exists_digitPair hn
  simp [hpair, twoAtFront, Text.isScriptDigit_of_isDigit, ha, hb]

theorem hourAtFront_digitPair (hn : n < 100) (rest : List Char) :
    hourAtFront (digitPair n ++ ':' :: rest) = some (digitPair n, rest) := by
  obtain ⟨a, b, hpair, ha, hb⟩ := exists_digitPair hn
  have hcolon : b ≠ ':' := by
    rintro rfl
    cases hb
  rw [hpair, List.cons_append, List.cons_append, List.nil_append, hourAtFront]
  · simp [Text.isScriptDigit_of_isDigit, ha, hb]
  · exact hcolon

end DigitPair

section Offset

variable {o : ℤ}

theorem div_lt_of_natAbs_le (ho : o.natAbs ≤ 14 * 60 + 59) :
    o.natAbs / 60 < 100 ∧ o.natAbs % 60 < 100 := by
  omega

/-- An offset other than zero is written as a sign, hours and minutes. -/
theorem toList_offsetText (ho : o.natAbs ≤ 14 * 60 + 59) (h0 : o ≠ 0) :
    (offsetText (some o)).toList = (if 0 ≤ o then '+' else '-') ::
      (digitPair (o.natAbs / 60) ++ ':' :: digitPair (o.natAbs % 60)) := by
  obtain ⟨hhours, hminutes⟩ := div_lt_of_natAbs_le ho
  rw [offsetText, if_neg h0, String.toList_append, String.toList_append, String.toList_append,
    toList_twoDigits hhours, toList_twoDigits hminutes, List.append_assoc, List.append_assoc]
  split <;> rfl

theorem isSignedOffset_offsetText (ho : o.natAbs ≤ 14 * 60 + 59) (h0 : o ≠ 0) :
    isSignedOffset (offsetText (some o)).toList = true := by
  obtain ⟨hhours, hminutes⟩ := div_lt_of_natAbs_le ho
  obtain ⟨a, b, hhourPair, ha, hb⟩ := exists_digitPair hhours
  obtain ⟨c, d, hminutePair, hc, hd⟩ := exists_digitPair hminutes
  rw [toList_offsetText ho h0, hhourPair, hminutePair]
  split <;> simp [isSignedOffset, Text.isScriptDigit_of_isDigit, ha, hb, hc, hd]

theorem offset?_offsetText (ho : o.natAbs ≤ 14 * 60 + 59) :
    offset? (offsetText (some o)).toList = some o := by
  by_cases h0 : o = 0
  · rw [h0]
    decide
  · obtain ⟨hhours, hminutes⟩ := div_lt_of_natAbs_le ho
    have huniversal : isUniversal (offsetText (some o)).toList = false := by
      rw [toList_offsetText ho h0]
      simp [isUniversal, digitPair]
    have hfilter : (offsetText (some o)).toList.filter Char.isDigit =
        digitPair (o.natAbs / 60) ++ (digitPair (o.natAbs % 60) ++ []) := by
      obtain ⟨a, b, hhourPair, ha, hb⟩ := exists_digitPair hhours
      obtain ⟨c, d, hminutePair, hc, hd⟩ := exists_digitPair hminutes
      rw [toList_offsetText ho h0, hhourPair, hminutePair]
      split <;> simp [ha, hb, hc, hd]
    rw [offset?, huniversal, if_neg Bool.false_ne_true, hfilter, mapM_digitPair_append hhours,
      mapM_digitPair_append hminutes, List.mapM_nil, toList_offsetText ho h0]
    have hvalue : o.natAbs / 60 / 10 * 10 + o.natAbs / 60 % 10 = o.natAbs / 60 := by omega
    have hvalue' : o.natAbs % 60 / 10 * 10 + o.natAbs % 60 % 10 = o.natAbs % 60 := by omega
    show (if o.natAbs / 60 / 10 * 10 + o.natAbs / 60 % 10 ≤ 14 ∧
        o.natAbs % 60 / 10 * 10 + o.natAbs % 60 % 10 ≤ 59 then _ else none) = some o
    rw [hvalue, hvalue', if_pos (by omega), Nat.div_add_mod']
    rcases lt_or_ge o 0 with hneg | hpos
    · simp [not_le.mpr hneg, abs_of_neg hneg]
    · simp [hpos]

/-- An offset begins with neither a colon nor a letter of a half of the day. -/
theorem offsetText_cases (offset : Option ℤ) (ho : ∀ o ∈ offset, o.natAbs ≤ 14 * 60 + 59) :
    (offsetText offset).toList = [] ∨ (offsetText offset).toList = ['Z'] ∨
      ∃ sign d rest, sign ∈ ['+', '-'] ∧ d < 10 ∧
        (offsetText offset).toList = sign :: Nat.digitChar d :: rest := by
  cases offset with
  | none => exact .inl rfl
  | some o =>
    by_cases h0 : o = 0
    · rw [h0]
      exact .inr (.inl rfl)
    · have hle := ho o rfl
      refine .inr (.inr ⟨_, o.natAbs / 60 / 10, _, ?_, by omega, toList_offsetText hle h0⟩)
      split <;> decide

end Offset

section Written

variable {second : Option ℕ} {offset : Option ℤ} {t : TimeOfDay}

/-- The second as it is written, with its colon. -/
def secondText (second : Option ℕ) : String :=
  match second with | some s => ":" ++ twoDigits s | none => ""

theorem secondAtFront_text (hs : ∀ s ∈ second, s < 60)
    (ho : ∀ o ∈ offset, o.natAbs ≤ 14 * 60 + 59) :
    secondAtFront ((secondText second).toList ++ (offsetText offset).toList) =
      (second.map digitPair, (offsetText offset).toList) := by
  cases second with
  | none =>
    rcases offsetText_cases offset ho with h | h | ⟨sign, d, rest, hsign, -, h⟩
    · rw [h]
      rfl
    · rw [h]
      rfl
    · have hcolon : sign ≠ ':' := by
        rintro rfl
        exact absurd hsign (by decide)
      rw [h]
      simp [secondText, secondAtFront, hcolon]
  | some s =>
    have hlt : s < 100 := (hs s rfl).trans (by decide)
    rw [secondText, String.toList_append, toList_twoDigits hlt]
    show secondAtFront (':' :: (digitPair s ++ (offsetText offset).toList)) = _
    rw [secondAtFront, twoAtFront_digitPair hlt]
    rfl

theorem halfAtFront_offsetText (ho : ∀ o ∈ offset, o.natAbs ≤ 14 * 60 + 59) :
    halfAtFront (offsetText offset).toList = (none, (offsetText offset).toList) := by
  have hletter : ∀ d < 10, (Nat.digitChar d).toLower ≠ 'm' := by decide
  rcases offsetText_cases offset ho with h | h | ⟨sign, d, rest, -, hd, h⟩
  · rw [h]
    rfl
  · rw [h]
    rfl
  · rw [h, halfAtFront, if_neg (hletter d hd)]

theorem toList_text (h : t.WellFormed) :
    t.text.toList = digitPair t.hour ++ ':' :: (digitPair t.minute ++
      ((secondText t.second).toList ++ (offsetText t.offset).toList)) := by
  have hhour := h.hour_lt
  have hminute := h.minute_lt
  rw [text, String.toList_append, String.toList_append, String.toList_append, String.toList_append,
    toList_twoDigits (by omega), toList_twoDigits (by omega)]
  simp only [List.append_assoc]
  rfl

theorem isBlank_of_mem_digitPair {n : ℕ} (hn : n < 100) :
    ∀ c ∈ digitPair n, Text.isBlank c = false := by
  obtain ⟨a, b, hpair, ha, hb⟩ := exists_digitPair hn
  simp [hpair, Text.isBlank_of_isDigit, ha, hb]

theorem isBlank_of_mem_secondText (hs : ∀ s ∈ second, s < 60) :
    ∀ c ∈ (secondText second).toList, Text.isBlank c = false := by
  cases second with
  | none => simp [secondText]
  | some s =>
    have hlt : s < 100 := (hs s rfl).trans (by decide)
    rw [secondText, String.toList_append, toList_twoDigits hlt]
    exact List.forall_mem_cons.mpr ⟨rfl, isBlank_of_mem_digitPair hlt⟩

theorem isBlank_of_mem_offsetText (ho : ∀ o ∈ offset, o.natAbs ≤ 14 * 60 + 59) :
    ∀ c ∈ (offsetText offset).toList, Text.isBlank c = false := by
  cases offset with
  | none => simp [offsetText]
  | some o =>
    by_cases h0 : o = 0
    · rw [h0]
      exact List.forall_mem_singleton.mpr rfl
    · obtain ⟨hhours, hminutes⟩ := div_lt_of_natAbs_le (ho o rfl)
      rw [toList_offsetText (ho o rfl) h0, List.forall_mem_cons, List.forall_mem_append,
        List.forall_mem_cons]
      refine ⟨?_, isBlank_of_mem_digitPair hhours, rfl, isBlank_of_mem_digitPair hminutes⟩
      split <;> rfl

theorem trimmed_text (h : t.WellFormed) : Text.Trimmed t.text.toList := by
  have hhour := h.hour_lt
  have hminute := h.minute_lt
  apply Text.trimmed_of_forall
  rw [toList_text h, List.forall_mem_append, List.forall_mem_cons, List.forall_mem_append,
    List.forall_mem_append]
  exact ⟨isBlank_of_mem_digitPair (by omega), rfl, isBlank_of_mem_digitPair (by omega),
    isBlank_of_mem_secondText h.second_lt, isBlank_of_mem_offsetText h.offset_le⟩

/-- The parts that a time is written with: no half of the day is among them. -/
def writtenParts (t : TimeOfDay) : Parts where
  hour := digitPair t.hour
  minute := digitPair t.minute
  second := t.second.map digitPair
  afternoon := none
  offset := t.offset.map fun o => (offsetText (some o)).toList

theorem split_text (h : t.WellFormed) : split t.text.toList = some t.writtenParts := by
  have hhour := h.hour_lt
  have hminute := h.minute_lt
  have htrim : Text.trimStart (offsetText t.offset).toList = (offsetText t.offset).toList :=
    Text.trimStart_eq_self fun c hc =>
      isBlank_of_mem_offsetText h.offset_le c (List.mem_of_mem_head? hc)
  -- The parts are taken off the front one after another.
  rw [toList_text h, split, hourAtFront_digitPair (by omega), Option.bind_eq_bind,
    Option.bind_some]
  dsimp only
  rw [twoAtFront_digitPair (by omega), Option.bind_some,
    secondAtFront_text h.second_lt h.offset_le]
  dsimp only
  rw [htrim, halfAtFront_offsetText h.offset_le]
  dsimp only
  rw [htrim]
  cases hoffset : t.offset with
  | none => simp [writtenParts, offsetText, hoffset]
  | some o =>
    have hle := h.offset_le o hoffset
    obtain ⟨hne, hread⟩ : (offsetText (some o)).toList.isEmpty = false ∧
        (isUniversal (offsetText (some o)).toList ||
          isSignedOffset (offsetText (some o)).toList) = true := by
      by_cases h0 : o = 0
      · rw [h0]
        decide
      · rw [isSignedOffset_offsetText hle h0, Bool.or_true, toList_offsetText hle h0]
        exact ⟨rfl, rfl⟩
    rw [hne, if_neg Bool.false_ne_true, if_pos hread, writtenParts, hoffset]
    rfl

theorem ofParts?_writtenParts (h : t.WellFormed) : ofParts? t.writtenParts = some t := by
  obtain ⟨hour, minute, second, offset⟩ := t
  obtain ⟨hhour, hminute, hsecond, hoffset⟩ := h
  replace hhour : hour ≤ 23 := Nat.le_of_lt_succ hhour
  replace hminute : minute ≤ 59 := Nat.le_of_lt_succ hminute
  replace hsecond : ∀ s ∈ second, s ≤ 59 := fun s hs => Nat.le_of_lt_succ (hsecond s hs)
  rw [ofParts?, writtenParts]
  dsimp only
  rw [field?_digitPair (show hour < 100 by omega), field?_digitPair (show minute < 100 by omega)]
  -- Both the second and the offset may be left out.
  cases second with
  | none =>
    cases offset with
    | none => simp [hourOfDay?, hhour, hminute]
    | some o => simp [hourOfDay?, hhour, hminute, offset?_offsetText (hoffset o rfl)]
  | some s =>
    have hs := hsecond s rfl
    have hfield := field?_digitPair (show s < 100 by omega)
    cases offset with
    | none => simp [hourOfDay?, hhour, hminute, hs, hfield]
    | some o => simp [hourOfDay?, hhour, hminute, hs, hfield, offset?_offsetText (hoffset o rfl)]

theorem read_text (h : t.WellFormed) : read t.text = .ok t := by
  rw [read, ofString?, (trimmed_text h).trimChars_eq, split_text h, Option.bind_some,
    ofParts?_writtenParts h]
  rfl

/-- What is read lies within a day, and so it is read from its own text; and every time within a day
whose offset is in range is read from its own text. -/
theorem read_text_iff (t : TimeOfDay) :
    ((∃ s, read s = .ok t) ↔ t.WellFormed) ∧ (read t.text = .ok t ↔ t.WellFormed) := by
  have hread (s : String) (h : read s = .ok t) : t.WellFormed := gives_read_wellFormed s t h
  exact ⟨⟨fun ⟨s, h⟩ => hread s h, fun h => ⟨t.text, read_text h⟩⟩, hread t.text, read_text⟩

/-- Behind universal time by less than an hour. -/
example : text ⟨23, 59, some 59, some (-59)⟩ = "23:59:59-00:59" := rfl

end Written

end TimeOfDay
end Reckoner
