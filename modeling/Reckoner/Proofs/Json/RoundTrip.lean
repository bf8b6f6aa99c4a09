import Mathlib.Tactic.Ring
import Reckoner.Json.Reader
import Reckoner.Proofs.Text.Digits
/-!
Reading JSON that was written with a part a line. Main statement: every value whose numbers are
integers is read back as it was written.
-/
namespace Reckoner.Json

section Strings

variable {c : Char}

theorem readString_quote (acc rest : List Char) :
    readString acc none ('"' :: rest) = some (String.ofList acc.reverse, rest) := by
  rw [readString.eq_def]
  simp

theorem readString_plain (hquote : c ≠ '"') (hslash : c ≠ '\\') (hlow : 32 ≤ c.toNat)
    (acc rest : List Char) : readString acc none (c :: rest) = readString (c :: acc) none rest := by
  rw [readString.eq_def]
  simp [hquote, hslash, Nat.not_lt.mpr hlow]

theorem readString_letter {e : Char} (h : unescape? e = some c) (acc rest : List Char) :
    readString acc none ('\\' :: e :: rest) = readString (c :: acc) none rest := by
  have hu : e ≠ 'u' := by
    rintro rfl
    cases h
  rw [readString.eq_def]
  simp [h, hu]

theorem readString_unit {x y z w : Char} {n : ℕ} (h : hexUnit? x y z w = some n) (hn : n < 0xD800)
    (acc rest : List Char) :
    readString acc none ('\\' :: 'u' :: x :: y :: z :: w :: rest) =
      readString (Char.ofNat n :: acc) none rest := by
  have hhigh : ¬ (0xD800 ≤ n ∧ n < 0xDC00) := by omega
  have hlow : ¬ (0xDC00 ≤ n ∧ n < 0xE000) := by omega
  rw [readString.eq_def]
  simp only [h, if_neg hhigh, if_neg hlow]

theorem hexUnit?_hexDigit : ∀ n < 32,
    hexUnit? '0' '0' (hexDigit (n / 16)) (hexDigit (n % 16)) = some n := by
  decide

/-- The escaped form of a character is read as the character. -/
theorem readString_escape (c : Char) (acc rest : List Char) :
    readString acc none (escape c ++ rest) = readString (c :: acc) none rest := by
  have hletter {e d : Char} (h : unescape? e = some d) (hc : c = d) :
      readString acc none ('\\' :: e :: rest) = readString (c :: acc) none rest := by
    rw [hc]
    exact readString_letter h acc rest
  unfold escape
  -- The characters with a letter of their own first, then the other controls and all the rest.
  split
  · next h => exact hletter rfl h
  split
  · next h => exact hletter rfl h
  split
  · next h => exact hletter rfl h
  split
  · next h => exact hletter rfl h
  split
  · next h => exact hletter rfl h
  split
  · next h => exact hletter rfl h
  split
  · next h => exact hletter rfl h
  split
  · next h =>
    have hread := readString_unit (hexUnit?_hexDigit c.toNat h) (by omega) acc rest
    rwa [Char.ofNat_toNat] at hread
  · next hquote hslash _ _ _ _ _ hlow =>
    exact readString_plain hquote hslash (by omega) acc rest

theorem readString_flatMap_escape (cs acc rest : List Char) :
    readString acc none (cs.flatMap escape ++ '"' :: rest) =
      some (String.ofList (acc.reverse ++ cs), rest) := by
  induction cs generalizing acc with
  | nil => rw [List.flatMap_nil, List.nil_append, readString_quote, List.append_nil]
  | cons c cs ih =>
    rw [List.flatMap_cons, List.append_assoc, readString_escape, ih, List.reverse_cons,
      List.append_assoc]
    rfl

/-- A text in quotes is read behind the first of them. -/
theorem readString_quoted (s : String) (rest : List Char) :
    ∃ cs, quoted s ++ rest = '"' :: cs ∧ readString [] none cs = some (s, rest) := by
  refine ⟨s.toList.flatMap escape ++ '"' :: rest, ?_, ?_⟩
  · simp [quoted]
  · rw [readString_flatMap_escape, List.reverse_nil, List.nil_append, String.ofList_toList]

end Strings

section Numbers

theorem isWhole_toDigits (n : ℕ) : isWhole (Nat.toDigits 10 n) = true := by
  rcases Nat.eq_zero_or_pos n with rfl | hn
  · rfl
  · have hhead := head?_toDigits_ne_zero hn
    cases hds : Nat.toDigits 10 n with
    | nil => exact absurd hds Nat.toDigits_ne_nil
    | cons d ds =>
      rw [hds] at hhead
      unfold isWhole
      split
      · next h => cases h
      · rfl
      · next h => exact absurd (congrArg List.head? h) hhead
      · rfl

theorem digitsValue_toDigits (n : ℕ) : digitsValue (Nat.toDigits 10 n) = n := by
  have hvalue (ds : List Char) : digitsValue ds = Nat.ofDigitChars 10 ds 0 := by
    simp only [digitsValue, Nat.ofDigitChars_eq_foldl, mul_comm]
  rw [hvalue, Nat.ofDigitChars_ten_toDigits]

/-- A number can end here: it does not go on with what follows. -/
def Ends (rest : List Char) : Prop :=
  ∀ c ∈ rest.head?, c.isDigit = false ∧ c ≠ '.' ∧ c ≠ 'e' ∧ c ≠ 'E'

section

variable {ds rest : List Char}

theorem takeWhile_isDigit_append (hds : ∀ c ∈ ds, c.isDigit = true) (hrest : Ends rest) :
    (ds ++ rest).takeWhile Char.isDigit = ds :=
  takeWhile_append_of_head hds fun c hc => (hrest c hc).1

theorem readNumber_of_digits (hds : ∀ c ∈ ds, c.isDigit = true) (hwhole : isWhole ds = true)
    (hrest : Ends rest) : readNumber (ds ++ rest) = some (integer (digitsValue ds), rest) := by
  have htake := takeWhile_isDigit_append hds hrest
  cases ds with
  | nil => cases hwhole
  | cons d ds =>
    have hd : d ≠ '-' := by
      rintro rfl
      cases hds '-' List.mem_cons_self
    rw [List.cons_append] at htake ⊢
    cases rest with
    | nil =>
      rw [List.append_nil] at htake ⊢
      simp [readNumber, hd, htake, hwhole]
    | cons c rest =>
      obtain ⟨-, hpoint, he, hE⟩ := hrest c rfl
      simp [readNumber, hd, htake, hwhole, hpoint, he, hE]

theorem readNumber_minus (hds : ∀ c ∈ ds, c.isDigit = true) (hwhole : isWhole ds = true)
    (hzero : ds ≠ ['0']) (hrest : Ends rest) :
    readNumber ('-' :: (ds ++ rest)) = some (integer (-digitsValue ds), rest) := by
  have htake := takeWhile_isDigit_append hds hrest
  cases rest with
  | nil =>
    rw [List.append_nil] at htake ⊢
    simp [readNumber, htake, hwhole, hzero]
  | cons c rest =>
    obtain ⟨-, hpoint, he, hE⟩ := hrest c rfl
    simp [readNumber, htake, hwhole, hzero, hpoint, he, hE]

end

theorem readNumber_toString (i : ℤ) {rest : List Char} (hrest : Ends rest) :
    readNumber ((toString i).toList ++ rest) = some (integer i, rest) := by
  have hdigits (n : ℕ) : ∀ c ∈ Nat.toDigits 10 n, c.isDigit = true :=
    fun _ => isDigit_of_mem_toDigits
  rw [Int.toString_eq_repr, Int.repr_eq_if]
  split
  · next hi =>
    rw [Nat.toList_repr, readNumber_of_digits (hdigits _) (isWhole_toDigits _) hrest,
      digitsValue_toDigits, Int.toNat_of_nonneg hi]
  · next hi =>
    -- A negative zero would be no integer, but there is none to write.
    have hzero : Nat.toDigits 10 (-i).toNat ≠ ['0'] := by
      intro h
      have hhead := head?_toDigits_ne_zero (n := (-i).toNat) (by omega)
      rw [h] at hhead
      exact hhead rfl
    have hread := readNumber_minus (hdigits _) (isWhole_toDigits _) hzero hrest
    rw [digitsValue_toDigits, Int.toNat_of_nonneg (by omega), Int.neg_neg] at hread
    rw [String.toList_append, Nat.toList_repr]
    exact hread

end Numbers

section Values

/-- Every number in a value is an integer. -/
inductive Integral : Json → Prop
  | null : Integral null
  | boolean (b : Bool) : Integral (boolean b)
  | integer (i : ℤ) : Integral (integer i)
  | string (s : String) : Integral (string s)
  | array {items : List Json} (h : ∀ j ∈ items, Integral j) : Integral (array items)
  | object {fields : List (String × Json)} (h : ∀ p ∈ fields, Integral p.2) :
    Integral (object fields)

theorem skipSpace_cons {c : Char} (hc : isSpace c = false) (cs : List Char) :
    skipSpace (c :: cs) = c :: cs :=
  List.dropWhile_cons_of_neg (by simp [hc])

theorem skipSpace_newline (level : ℕ) (cs : List Char) :
    skipSpace (newline level ++ cs) = skipSpace cs := by
  rw [skipSpace, List.dropWhile_append_of_pos]
  · rfl
  · intro c hc
    rcases List.mem_cons.mp hc with rfl | hc
    · rfl
    · rw [List.eq_of_mem_replicate hc]
      rfl

/-- Blanks in front of a value are passed over. -/
theorem readValue_of_skipSpace {cs cs' : List Char} (h : skipSpace cs = skipSpace cs') (fuel : ℕ) :
    readValue fuel cs = readValue fuel cs' := by
  cases fuel with
  | zero => rw [readValue, readValue]
  | succ fuel => rw [readValue, readValue, h]

theorem readItems_of_skipSpace {cs cs' : List Char} (h : skipSpace cs = skipSpace cs') (fuel : ℕ)
    (acc : List Json) : readItems fuel acc cs = readItems fuel acc cs' := by
  cases fuel with
  | zero => rw [readItems, readItems]
  | succ fuel => rw [readItems, readItems, readValue_of_skipSpace h]

theorem readFields_of_skipSpace {cs cs' : List Char} (h : skipSpace cs = skipSpace cs') (fuel : ℕ)
    (acc : List (String × Json)) : readFields fuel acc cs = readFields fuel acc cs' := by
  cases fuel with
  | zero => rw [readFields, readFields]
  | succ fuel => rw [readFields, readFields, h]

/-- A value is read from what is written of it at a level, whatever follows. -/
def Reads (level : ℕ) (j : Json) : Prop :=
  ∀ fuel rest, (indented level j).length ≤ fuel → Ends rest →
    readValue fuel (indented level j ++ rest) = some (j, rest)

theorem ends_cons {c : Char} (hc : c.isDigit = false ∧ c ≠ '.' ∧ c ≠ 'e' ∧ c ≠ 'E')
    (cs : List Char) : Ends (c :: cs) := by
  intro d hd
  cases hd
  exact hc

theorem ends_newline (level : ℕ) (cs : List Char) : Ends (newline level ++ cs) :=
  ends_cons (by decide) _

theorem reads_null (level : ℕ) : Reads level null := by
  intro fuel rest hfuel _
  cases fuel with
  | zero => cases hfuel
  | succ fuel =>
    rw [readValue]
    rfl

theorem reads_boolean (level : ℕ) (b : Bool) : Reads level (boolean b) := by
  intro fuel rest hfuel _
  cases fuel with
  | zero => cases b <;> cases hfuel
  | succ fuel =>
    cases b with
    | true =>
      rw [readValue]
      rfl
    | false =>
      rw [readValue]
      rfl

theorem reads_string (level : ℕ) (s : String) : Reads level (string s) := by
  intro fuel rest hfuel _
  cases fuel with
  | zero => cases hfuel
  | succ fuel =>
    obtain ⟨cs, hcs, hread⟩ := readString_quoted s rest
    show readValue (fuel + 1) (quoted s ++ rest) = _
    rw [hcs, readValue, skipSpace_cons (by rfl)]
    simp [hread]

theorem exists_head_toString (i : ℤ) :
    ∃ c cs, (toString i).toList = c :: cs ∧ (c.isDigit = true ∨ c = '-') := by
  rw [Int.toString_eq_repr, Int.repr_eq_if]
  split
  · rw [Nat.toList_repr]
    cases hds : Nat.toDigits 10 i.toNat with
    | nil => exact absurd hds Nat.toDigits_ne_nil
    | cons d ds =>
      have hd : d ∈ Nat.toDigits 10 i.toNat := by
        rw [hds]
        exact List.mem_cons_self
      exact ⟨d, ds, rfl, Or.inl (isDigit_of_mem_toDigits hd)⟩
  · rw [String.toList_append]
    exact ⟨'-', _, rfl, Or.inr rfl⟩

/-- The characters that a number begins with begin nothing else. -/
theorem notMem_of_isDigit_or_minus {c : Char} (hc : c.isDigit = true ∨ c = '-') :
    c ∉ [' ', '\n', '\r', '\t', ']', '"', '[', '\x7b', 'n', 't', 'f'] := by
  intro hmem
  rcases hc with hc | rfl
  · have hall : ([' ', '\n', '\r', '\t', ']', '"', '[', '\x7b', 'n', 't', 'f'].all
        fun c => !c.isDigit) = true := by decide
    have hnot := List.all_eq_true.mp hall c hmem
    rw [hc] at hnot
    cases hnot
  · revert hmem
    decide

theorem reads_integer (level : ℕ) (i : ℤ) : Reads level (integer i) := by
  intro fuel rest hfuel hrest
  obtain ⟨c, cs, hcs, hc⟩ := exists_head_toString i
  have hread := readNumber_toString i hrest
  have hleaf : indented level (integer i) = c :: cs := hcs
  rw [hcs] at hread
  rw [hleaf] at hfuel ⊢
  have hne := notMem_of_isDigit_or_minus hc
  simp only [List.mem_cons, List.not_mem_nil, or_false, not_or] at hne
  cases fuel with
  | zero => cases hfuel
  | succ fuel =>
    have hbrace : "\x7b".front = '\x7b' := rfl
    have hspace : isSpace c = false := by simp [isSpace, hne]
    rw [List.cons_append] at hread ⊢
    rw [readValue, skipSpace_cons hspace]
    simp only [hbrace, hne, if_false, hread]

/-- The items behind the first are read one after another up to the end of the array. -/
theorem readItems_indented {level : ℕ} {items : List Json} (hitems : ∀ k ∈ items, Reads level k)
    {j : Json} (hj : Reads level j) (closing : ℕ) {fuel : ℕ}
    (hfuel : (indented level j).length + (indentedItems level items).length < fuel)
    (acc : List Json) (rest : List Char) :
    readItems fuel acc
        (indented level j ++ (indentedItems level items ++ (newline closing ++ ']' :: rest))) =
      some (array (acc.reverse ++ j :: items), rest) := by
  obtain ⟨fuel, rfl⟩ := Nat.exists_eq_succ_of_ne_zero (Nat.ne_zero_of_lt hfuel)
  induction items generalizing j fuel acc with
  | nil =>
    rw [indentedItems, List.nil_append, readItems, hj fuel _ (by omega) (ends_newline _ _)]
    simp only [skipSpace_newline, skipSpace_cons (show isSpace ']' = false from rfl),
      List.reverse_cons]
  | cons k items ih =>
    simp only [indentedItems, newline, List.length_cons, List.length_append] at hfuel
    obtain ⟨fuel, rfl⟩ := Nat.exists_eq_succ_of_ne_zero (show fuel ≠ 0 by omega)
    have hk := ih (fun x hx => hitems x (List.mem_cons_of_mem _ hx)) (hitems k List.mem_cons_self)
      (j :: acc) fuel (by omega)
    rw [indentedItems, readItems, List.cons_append]
    rw [hj (fuel + 1) _ (by omega) (ends_cons (by decide) _)]
    simp only [skipSpace_cons (show isSpace ',' = false from rfl), List.append_assoc]
    rw [readItems_of_skipSpace (skipSpace_newline _ _), hk, List.reverse_cons, List.append_assoc]
    rfl

/-- A field is read up to its value. -/
theorem readFields_field {level : ℕ} {j : Json} (hj : Reads level j) {fuel : ℕ}
    (hfuel : (indented level j).length ≤ fuel) (name : String) (acc : List (String × Json))
    {more : List Char} (hmore : Ends more) :
    readFields (fuel + 1) acc (quoted name ++ ':' :: ' ' :: (indented level j ++ more)) =
      match skipSpace more with
      | [] => none
      | c :: rest =>
        if c = ',' then readFields fuel ((name, j) :: acc) rest
        else if c = '\x7d' then some (object ((name, j) :: acc).reverse, rest)
        else none := by
  obtain ⟨cs, hcs, hname⟩ := readString_quoted name (':' :: ' ' :: (indented level j ++ more))
  have hblank : skipSpace (' ' :: (indented level j ++ more)) =
      skipSpace (indented level j ++ more) := rfl
  rw [hcs, readFields, skipSpace_cons (by rfl)]
  simp only [hname, skipSpace_cons (show isSpace ':' = false from rfl)]
  rw [readValue_of_skipSpace hblank, hj fuel more hfuel hmore]
  rfl

/-- The fields behind the first are read one after another up to the end of the object. -/
theorem readFields_indented {level : ℕ} {fields : List (String × Json)}
    (hfields : ∀ p ∈ fields, Reads level p.2) {j : Json} (hj : Reads level j) (closing : ℕ)
    {fuel : ℕ} (hfuel : (indented level j).length + (indentedFields level fields).length < fuel)
    (name : String) (acc : List (String × Json)) (rest : List Char) :
    readFields fuel acc (quoted name ++ ':' :: ' ' :: (indented level j ++
        (indentedFields level fields ++ (newline closing ++ '\x7d' :: rest)))) =
      some (object (acc.reverse ++ (name, j) :: fields), rest) := by
  obtain ⟨fuel, rfl⟩ := Nat.exists_eq_succ_of_ne_zero (Nat.ne_zero_of_lt hfuel)
  induction fields generalizing j name fuel acc with
  | nil =>
    rw [indentedFields, List.nil_append,
      readFields_field hj (by omega) name acc (ends_newline _ _)]
    simp only [skipSpace_newline, skipSpace_cons (show isSpace '\x7d' = false from rfl),
      List.reverse_cons]
    rfl
  | cons p fields ih =>
    obtain ⟨name', k⟩ := p
    simp only [indentedFields, newline, List.length_cons, List.length_append] at hfuel
    obtain ⟨fuel, rfl⟩ := Nat.exists_eq_succ_of_ne_zero (show fuel ≠ 0 by omega)
    have hreads : Reads level k := hfields (name', k) List.mem_cons_self
    have hk := ih (fun x hx => hfields x (List.mem_cons_of_mem _ hx)) hreads name'
      ((name, j) :: acc) fuel (by omega)
    rw [indentedFields, List.cons_append,
      readFields_field hj (by omega) name acc (ends_cons (by decide) _)]
    simp only [skipSpace_cons (show isSpace ',' = false from rfl), if_true, List.append_assoc,
      List.cons_append]
    rw [readFields_of_skipSpace (skipSpace_newline _ _), hk, List.reverse_cons, List.append_assoc]
    rfl

theorem readValue_open_array {fuel : ℕ} {cs cs' : List Char} {c : Char}
    (h : skipSpace cs = c :: cs') (hc : c ≠ ']') :
    readValue (fuel + 1) ('[' :: cs) = readItems fuel [] (c :: cs') := by
  rw [readValue, skipSpace_cons (by rfl)]
  simp [h, hc]

theorem readValue_open_object {fuel : ℕ} {cs cs' : List Char} {c : Char}
    (h : skipSpace cs = c :: cs') (hc : c ≠ '\x7d') :
    readValue (fuel + 1) ('\x7b' :: cs) = readFields fuel [] (c :: cs') := by
  have hopen : "\x7b".front = '\x7b' := rfl
  have hclose : "\x7d".front = '\x7d' := rfl
  rw [readValue, skipSpace_cons (by rfl)]
  simp only [hopen, hclose, h, hc, if_true, if_false, Char.reduceEq]

theorem Integral.exists_head {j : Json} (h : Integral j) (level : ℕ) :
    ∃ c cs, indented level j = c :: cs ∧ isSpace c = false ∧ c ≠ ']' := by
  cases h with
  | null => exact ⟨'n', _, rfl, rfl, by decide⟩
  | boolean b =>
    cases b with
    | true => exact ⟨'t', _, rfl, rfl, by decide⟩
    | false => exact ⟨'f', _, rfl, rfl, by decide⟩
  | integer i =>
    obtain ⟨c, cs, hcs, hc⟩ := exists_head_toString i
    have hne := notMem_of_isDigit_or_minus hc
    simp only [List.mem_cons, List.not_mem_nil, or_false, not_or] at hne
    exact ⟨c, cs, hcs, by simp [isSpace, hne], hne.2.2.2.2.1⟩
  | string s => exact ⟨'"', _, rfl, rfl, by decide⟩
  | @array items _ =>
    cases items with
    | nil => exact ⟨'[', _, rfl, rfl, by decide⟩
    | cons j items => exact ⟨'[', _, rfl, rfl, by decide⟩
  | @object fields _ =>
    cases fields with
    | nil => exact ⟨'\x7b', _, rfl, rfl, by decide⟩
    | cons p fields => exact ⟨'\x7b', _, rfl, rfl, by decide⟩

theorem reads_array {level : ℕ} {items : List Json} (hitems : ∀ j ∈ items, Integral j)
    (h : ∀ j ∈ items, Reads (level + 1) j) : Reads level (array items) := by
  intro fuel rest hfuel _
  cases items with
  | nil =>
    cases fuel with
    | zero => cases hfuel
    | succ fuel =>
      rw [readValue]
      rfl
  | cons j items =>
    simp only [indented, newline, List.length_append, List.length_cons] at hfuel
    obtain ⟨fuel, rfl⟩ := Nat.exists_eq_succ_of_ne_zero (show fuel ≠ 0 by omega)
    have hread := readItems_indented (fun x hx => h x (List.mem_cons_of_mem _ hx))
      (h j List.mem_cons_self) level
      (show (indented (level + 1) j).length + (indentedItems (level + 1) items).length < fuel by
        omega) [] rest
    obtain ⟨c, cs, hcs, hspace, hc⟩ := (hitems j List.mem_cons_self).exists_head (level + 1)
    rw [hcs] at hread
    have hskip := (skipSpace_newline (level + 1) _).trans (skipSpace_cons hspace
      (cs ++ (indentedItems (level + 1) items ++ (newline level ++ ']' :: rest))))
    rw [indented, hcs]
    simp only [List.cons_append, List.append_assoc, List.nil_append] at hskip hread ⊢
    rw [readValue_open_array hskip hc, hread]
    rfl

theorem reads_object {level : ℕ} {fields : List (String × Json)}
    (h : ∀ p ∈ fields, Reads (level + 1) p.2) : Reads level (object fields) := by
  intro fuel rest hfuel _
  cases fields with
  | nil =>
    cases fuel with
    | zero => cases hfuel
    | succ fuel =>
      rw [readValue]
      rfl
  | cons p fields =>
    obtain ⟨name, j⟩ := p
    have hopen : "\x7b".toList = ['\x7b'] := rfl
    have hclose : "\x7d".toList = ['\x7d'] := rfl
    have hj : Reads (level + 1) j := h (name, j) List.mem_cons_self
    simp only [indented, newline, hopen, hclose, List.length_append, List.length_cons] at hfuel
    obtain ⟨fuel, rfl⟩ := Nat.exists_eq_succ_of_ne_zero (show fuel ≠ 0 by omega)
    have hread := readFields_indented (fun x hx => h x (List.mem_cons_of_mem _ hx)) hj level
      (show (indented (level + 1) j).length + (indentedFields (level + 1) fields).length < fuel by
        omega) name [] rest
    obtain ⟨cs, hcs, -⟩ := readString_quoted name (':' :: ' ' :: (indented (level + 1) j ++
      (indentedFields (level + 1) fields ++ (newline level ++ '\x7d' :: rest))))
    have hskip := (skipSpace_newline (level + 1) ('"' :: cs)).trans (skipSpace_cons (by rfl) cs)
    rw [indented, hopen, hclose]
    simp only [List.cons_append, List.append_assoc, List.nil_append]
    rw [hcs] at hread ⊢
    rw [readValue_open_object hskip (by decide), hread]
    rfl

/-- Every value whose numbers are integers is read back from what is written of it, whatever level
it is written at and whatever follows. -/
theorem Integral.reads {j : Json} (h : Integral j) (level : ℕ) : Reads level j := by
  induction h generalizing level with
  | null => exact reads_null level
  | boolean b => exact reads_boolean level b
  | integer i => exact reads_integer level i
  | string s => exact reads_string level s
  | array hitems ih => exact reads_array hitems fun j hj => ih j hj (level + 1)
  | object _ ih => exact reads_object fun p hp => ih p hp (level + 1)

theorem Integral.ofString?_pretty {j : Json} (h : Integral j) : ofString? j.pretty = some j := by
  have hread := h.reads 0 (2 * (indented 0 j).length + 2) [] (by omega) nofun
  rw [List.append_nil] at hread
  simp only [ofString?, pretty, String.toList_ofList, hread]
  rfl

end Values

end Reckoner.Json
