import Reckoner.Calendar.Date
/-!
Writing and reading dates. A date is written as year, month and day; it is read in that order or
with the month in words.
-/
namespace Reckoner.Date

/-- The year with at least four digits; one that has more or is below zero has a sign. -/
def yearText (year : Int) : String :=
  let digits := String.ofList (Decimal.paddedDigits 4 year.natAbs)
  if year < 0 then "-" ++ digits
  else if 9999 < year then "+" ++ digits
  else digits

def text (d : Date) : String :=
  yearText d.year ++ "-" ++ TimeOfDay.twoDigits d.month ++ "-" ++ TimeOfDay.twoDigits d.day

/-- A part of a date layout. -/
inductive Field where
  | year
  | month
  | day
  /-- The month in three letters. -/
  | shortMonth
  /-- The month in three letters or in full. -/
  | longMonth
  /-- This character. -/
  | mark (c : Char)
  /-- Any number of blanks, even none. -/
  | blanks
deriving DecidableEq, Repr

/-- The layouts of a date, in the order in which they are tried. -/
def layouts : List (List Field) :=
  [[.year, .mark '-', .month, .mark '-', .day],
   [.year, .mark '/', .month, .mark '/', .day],
   [.shortMonth, .blanks, .day, .mark ',', .blanks, .year],
   [.longMonth, .blanks, .day, .mark ',', .blanks, .year],
   [.day, .blanks, .shortMonth, .blanks, .year],
   [.day, .blanks, .longMonth, .blanks, .year]]

/-- The names of the months in lower case, the first three letters apart from the rest. -/
def monthNames : List (String × String) :=
  [("jan", "uary"), ("feb", "ruary"), ("mar", "ch"), ("apr", "il"), ("may", ""), ("jun", "e"),
   ("jul", "y"), ("aug", "ust"), ("sep", "tember"), ("oct", "ober"), ("nov", "ember"),
   ("dec", "ember")]

/-- The value of a run of ASCII digits. -/
def digitsValue (ds : List Char) : Nat := ds.foldl (fun n c => n * 10 + (c.toNat - '0'.toNat)) 0

/-- The number at the front of a text, of at most `width` digits if there is a width. -/
def readNumber (width : Option Nat) (cs : List Char) : Option (Nat × List Char) :=
  let run := cs.takeWhile Char.isDigit
  let ds := match width with | some w => run.take w | none => run
  if ds.isEmpty then none else some (digitsValue ds, cs.drop ds.length)

/-- The year at the front of a text: after a sign as many digits as there are, else at most four. -/
def readYear : List Char → Option (Int × List Char)
  | '-' :: cs => (readNumber none cs).map fun p => (-(p.1 : Int), p.2)
  | '+' :: cs => (readNumber none cs).map fun p => ((p.1 : Int), p.2)
  | cs => (readNumber (some 4) cs).map fun p => ((p.1 : Int), p.2)

/-- What is left of a text behind `word`, in any case. -/
def behind? (word : String) (cs : List Char) : Option (List Char) :=
  let n := word.length
  if (cs.take n).map Char.toLower = word.toList then some (cs.drop n) else none

/-- The month whose name is at the front of a text: its three letters and, if `full` is set, the
rest of the name where it follows. The months count from one. -/
def readMonth (full : Bool) (cs : List Char) : Option (Nat × List Char) :=
  let rec go (month : Nat) : List (String × String) → Option (Nat × List Char)
    | [] => none
    | (short, rest) :: names =>
      match behind? short cs with
      | none => go (month + 1) names
      | some cs' => some (month, if full then (behind? rest cs').getD cs' else cs')
  go 1 monthNames

/-- The fields found so far. -/
structure Found where
  year : Int
  month : Nat
  day : Nat

/-- Reads the fields of a layout one after another. Blanks may stand in front of a number. -/
def readFields : List Field → Found → List Char → Option Found
  | [], f, cs => if cs.isEmpty then some f else none
  | .year :: fields, f, cs =>
    match readYear (Text.trimStart cs) with
    | some (n, cs) => readFields fields { f with year := n } cs
    | none => none
  | .month :: fields, f, cs =>
    match readNumber (some 2) (Text.trimStart cs) with
    | some (n, cs) => readFields fields { f with month := n } cs
    | none => none
  | .day :: fields, f, cs =>
    match readNumber (some 2) (Text.trimStart cs) with
    | some (n, cs) => readFields fields { f with day := n } cs
    | none => none
  | .shortMonth :: fields, f, cs =>
    match readMonth false cs with
    | some (n, cs) => readFields fields { f with month := n } cs
    | none => none
  | .longMonth :: fields, f, cs =>
    match readMonth true cs with
    | some (n, cs) => readFields fields { f with month := n } cs
    | none => none
  | .mark m :: fields, f, c :: cs => if c = m then readFields fields f cs else none
  | .mark _ :: _, _, [] => none
  | .blanks :: fields, f, cs => readFields fields f (Text.trimStart cs)

/-- The date that a text shows in one layout. -/
def readLayout (layout : List Field) (cs : List Char) : Option Date :=
  match readFields layout ⟨0, 0, 0⟩ cs with
  | some f => ofParts? f.year f.month f.day
  | none => none

/-- The date that a text shows in the first layout that fits it. -/
def ofString? (s : String) : Option Date :=
  let cs := Text.trimChars s.toList
  layouts.findSome? fun layout => readLayout layout cs

/-- Reads a date literal. -/
def read (s : String) : Except Error Date := orError (ofString? s) (.invalidLiteral .date s)

end Reckoner.Date
