import Reckoner.Text.Blank
import Reckoner.Text.CaseTable
/-!
Upper and lower case of texts in all scripts. Case may change the length of a text, and the Greek
sigma has a lower case of its own at the end of a word.
-/
namespace Reckoner.Text

def inRanges (rs : List (Nat × Nat)) (c : Char) : Bool :=
  rs.any fun r => decide (r.1 ≤ c.toNat) && decide (c.toNat ≤ r.2)

/-- The other case of a character by a table of runs and one of expansions. -/
def mapCase (runs : List CaseRun) (expansions : List (Nat × List Nat)) (c : Char) : List Char :=
  match expansions.find? fun p => p.1 == c.toNat with
  | some p => p.2.map Char.ofNat
  | none =>
    match runs.find? fun r => r.contains c.toNat with
    | some r => [Char.ofNat (c.toNat + r.shift).toNat]
    | none => [c]

/-- The upper case of a character. -/
def upperChar (c : Char) : List Char :=
  if c.toNat < 128 then [c.toUpper] else mapCase upperRuns upperExpansions c

/-- The lower case of a character that is not followed or preceded by others. -/
def lowerChar (c : Char) : List Char :=
  if c.toNat < 128 then [c.toLower] else mapCase lowerRuns lowerExpansions c

def upperChars (cs : List Char) : List Char := cs.flatMap upperChar

/-- Whether the first character that is not passed over is a letter with case. -/
def beginsCased (cs : List Char) : Bool :=
  match cs.dropWhile (inRanges caseIgnorableRanges) with
  | [] => false
  | c :: _ => inRanges casedRanges c

/-- The lower case of a text whose beginning, reversed, is `before`. -/
def lowerAfter (before : List Char) : List Char → List Char
  | [] => []
  | c :: rest =>
    let cs :=
      if c = 'Σ' then
        if beginsCased before && !beginsCased rest then ['ς'] else ['σ']
      else lowerChar c
    cs ++ lowerAfter (c :: before) rest

def lowerChars (cs : List Char) : List Char := lowerAfter [] cs

/-- The text in upper case. -/
def upper (s : String) : String := String.ofList (upperChars s.toList)

/-- The text in lower case. -/
def lower (s : String) : String := String.ofList (lowerChars s.toList)

/-- Equality up to the case of ASCII letters. -/
def sameLetters (s t : String) : Bool :=
  s.toList.map Char.toLower == t.toList.map Char.toLower

/-- A word as the tables of words have it: trimmed, in lower case, and with `_` for `-`. -/
def keyword (s : String) : String :=
  String.ofList ((lowerChars (trimChars s.toList)).map fun c => if c = '-' then '_' else c)

end Reckoner.Text
