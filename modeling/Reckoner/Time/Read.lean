import Reckoner.Time.Clock
import Reckoner.Text.Digit
/-!
Reading times of day: hour and minute, then an optional second, an optional half of the day and an
optional offset. Main statement: a time that was read lies within a day.
-/
namespace Reckoner.TimeOfDay

/-- What a time literal is made of before its parts are checked. -/
structure Parts where
  hour : List Char
  minute : List Char
  second : Option (List Char)
  /-- `some true` for the second half of the day. -/
  afternoon : Option Bool
  offset : Option (List Char)

/-- Two digits of any script. -/
def twoAtFront : List Char → Option (List Char × List Char)
  | a :: b :: rest =>
    if Text.isScriptDigit a && Text.isScriptDigit b then some ([a, b], rest) else none
  | _ => none

/-- One digit or two in front of a colon; what is returned as the rest follows the colon. -/
def hourAtFront : List Char → Option (List Char × List Char)
  | a :: ':' :: rest => if Text.isScriptDigit a then some ([a], rest) else none
  | a :: b :: ':' :: rest =>
    if Text.isScriptDigit a && Text.isScriptDigit b then some ([a, b], rest) else none
  | _ => none

/-- A second behind its colon, if there is one. -/
def secondAtFront (cs : List Char) : Option (List Char) × List Char :=
  match cs with
  | ':' :: rest =>
    match twoAtFront rest with
    | some (ds, rest) => (some ds, rest)
    | none => (none, cs)
  | _ => (none, cs)

/-- The marker of a half of the day, if there is one. -/
def halfAtFront (cs : List Char) : Option Bool × List Char :=
  match cs with
  | a :: m :: rest =>
    if m.toLower = 'm' then
      if a.toLower = 'a' then (some false, rest)
      else if a.toLower = 'p' then (some true, rest)
      else (none, cs)
    else (none, cs)
  | _ => (none, cs)

/-- Whether a text is a sign and four digits, with or without a colon between the second and the
third. -/
def isSignedOffset : List Char → Bool
  | sign :: a :: b :: rest =>
    (sign == '+' || sign == '-') && Text.isScriptDigit a && Text.isScriptDigit b &&
      (match rest with
        | [':', c, d] => Text.isScriptDigit c && Text.isScriptDigit d
        | [c, d] => Text.isScriptDigit c && Text.isScriptDigit d
        | _ => false)
  | _ => false

/-- Whether a text names universal time. -/
def isUniversal (cs : List Char) : Bool :=
  cs.map Char.toLower == ['z'] || cs.map Char.toLower == ['u', 't', 'c']

/-- Takes a time literal apart. -/
def split (cs : List Char) : Option Parts := do
  let (hour, cs) ← hourAtFront cs
  let (minute, cs) ← twoAtFront cs
  let (second, cs) := secondAtFront cs
  let (afternoon, cs) := halfAtFront (Text.trimStart cs)
  let cs := Text.trimStart cs
  if cs.isEmpty then some ⟨hour, minute, second, afternoon, none⟩
  else if isUniversal cs || isSignedOffset cs then some ⟨hour, minute, second, afternoon, some cs⟩
  else none

/-- The value of one or two digits, if they are ASCII digits. -/
def field? (ds : List Char) : Option Nat :=
  (ds.mapM Decimal.digit?).map fun vs => vs.foldl (fun n d => n * 10 + d) 0

/-- The hour of the day for an hour of one of its halves. -/
def hourOfDay? (hour : Nat) : Option Bool → Option Nat
  | none => some hour
  | some afternoon =>
    if 1 ≤ hour ∧ hour ≤ 12 then some (hour % 12 + if afternoon then 12 else 0) else none

/-- The minutes of an offset of at most fourteen hours and fifty-nine minutes. -/
def offset? (cs : List Char) : Option Int :=
  if isUniversal cs then some 0
  else
    match (cs.filter Char.isDigit).mapM Decimal.digit? with
    | some [a, b, c, d] =>
      let hours := a * 10 + b
      let minutes := c * 10 + d
      if hours ≤ 14 ∧ minutes ≤ 59 then
        let n : Int := (hours * 60 + minutes : Nat)
        some (if cs.head? = some '-' then -n else n)
      else none
    | _ => none

/-- The time that the parts of a literal stand for, if each is in range. -/
def ofParts? (p : Parts) : Option TimeOfDay := do
  let hour ← field? p.hour
  let minute ← field? p.minute
  let second ← (match p.second with | some ds => (field? ds).map some | none => some none)
  let hour ← hourOfDay? hour p.afternoon
  if 23 < hour ∨ 59 < minute ∨ 59 < second.getD 0 then none
  else
    let offset ← (match p.offset with | some cs => (offset? cs).map some | none => some none)
    some ⟨hour, minute, second, offset⟩

/-- The time that a text shows. -/
def ofString? (s : String) : Option TimeOfDay := (split (Text.trimChars s.toList)).bind ofParts?

/-- Reads a time literal. -/
def read (s : String) : Except Error TimeOfDay := orError (ofString? s) (.invalidLiteral .time s)

end Reckoner.TimeOfDay
