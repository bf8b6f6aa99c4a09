import Reckoner.Json.Basic
/-!
Reading JSON. Numbers keep the distinction between integers and others.
-/
namespace Reckoner.Json

/-- The characters that may stand between the parts of a value. -/
def isSpace (c : Char) : Bool := c == ' ' || c == '\n' || c == '\r' || c == '\t'

def skipSpace (cs : List Char) : List Char := cs.dropWhile isSpace

/-- The value of a hexadecimal digit. -/
def hexValue? (c : Char) : Option Nat :=
  if c.isDigit then some (c.toNat - '0'.toNat)
  else if 'a' ≤ c ∧ c ≤ 'f' then some (c.toNat - 'a'.toNat + 10)
  else if 'A' ≤ c ∧ c ≤ 'F' then some (c.toNat - 'A'.toNat + 10)
  else none

/-- The value of four hexadecimal digits. -/
def hexUnit? (a b c d : Char) : Option Nat := do
  let a ← hexValue? a
  let b ← hexValue? b
  let c ← hexValue? c
  let d ← hexValue? d
  pure (((a * 16 + b) * 16 + c) * 16 + d)

/-- The character that a letter behind a backslash stands for. -/
def unescape? (c : Char) : Option Char :=
  if c = 'n' then some '\n'
  else if c = 't' then some '\t'
  else if c = 'r' then some '\r'
  else if c = 'b' then some '\x08'
  else if c = 'f' then some '\x0c'
  else if c = '"' ∨ c = '\\' ∨ c = '/' then some c
  else none

/-- Reads a text behind its opening quote. `acc` holds the characters read so far, the last first,
and `high` the first half of a surrogate pair whose second half must follow. -/
def readString (acc : List Char) (high : Option Nat) : List Char → Option (String × List Char)
  | [] => none
  | '\\' :: 'u' :: a :: b :: c :: d :: rest =>
    match hexUnit? a b c d, high with
    | none, _ => none
    | some n, some h =>
      if 0xDC00 ≤ n ∧ n < 0xE000 then
        readString (Char.ofNat (0x10000 + (h - 0xD800) * 0x400 + (n - 0xDC00)) :: acc) none rest
      else none
    | some n, none =>
      if 0xD800 ≤ n ∧ n < 0xDC00 then readString acc (some n) rest
      else if 0xDC00 ≤ n ∧ n < 0xE000 then none
      else readString (Char.ofNat n :: acc) none rest
  | c :: rest =>
    if high.isSome then none
    else if c = '"' then some (String.ofList acc.reverse, rest)
    else if c = '\\' then
      match rest with
      | e :: rest =>
        match unescape? e with
        | some c => readString (c :: acc) none rest
        | none => none
      | [] => none
    else if c.toNat < 32 then none
    else readString (c :: acc) none rest

/-- The value of a run of digits. -/
def digitsValue (ds : List Char) : Nat := ds.foldl (fun n c => n * 10 + (c.toNat - '0'.toNat)) 0

/-- Whether a run of digits is one that an integer may start with. -/
def isWhole : List Char → Bool
  | [] => false
  | ['0'] => true
  | '0' :: _ => false
  | _ => true

/-- The number at the front of a text. -/
def readNumber (cs : List Char) : Option (Json × List Char) :=
  let (sign, cs) := match cs with | '-' :: rest => (['-'], rest) | _ => ([], cs)
  let whole := cs.takeWhile Char.isDigit
  let rest := cs.drop whole.length
  if !isWhole whole then none
  else
    let (point, rest, pointOk) :=
      match rest with
      | '.' :: r =>
        let ds := r.takeWhile Char.isDigit
        ('.' :: ds, r.drop ds.length, !ds.isEmpty)
      | _ => ([], rest, true)
    let (power, rest, powerOk) :=
      match rest with
      | e :: r =>
        if e = 'e' ∨ e = 'E' then
          let (s, r) :=
            match r with
            | '+' :: r => (['+'], r)
            | '-' :: r => (['-'], r)
            | _ => ([], r)
          let ds := r.takeWhile Char.isDigit
          (e :: (s ++ ds), r.drop ds.length, !ds.isEmpty)
        else ([], rest, true)
      | [] => ([], rest, true)
    if !pointOk || !powerOk then none
    else if point.isEmpty && power.isEmpty && !(sign == ['-'] && whole == ['0']) then
      let n : Int := digitsValue whole
      some (integer (if sign.isEmpty then n else -n), rest)
    else some (real (String.ofList (sign ++ whole ++ point ++ power)), rest)

/-- What follows `word` at the front of a text. -/
def behind? (word : String) (cs : List Char) : Option (List Char) :=
  let n := word.length
  if cs.take n = word.toList then some (cs.drop n) else none

mutual

/-- Reads a value; `fuel` bounds how many values are read. -/
def readValue : (fuel : Nat) → List Char → Option (Json × List Char)
  | 0, _ => none
  | fuel + 1, cs =>
    match skipSpace cs with
    | [] => none
    | c :: rest =>
      if c = '"' then (readString [] none rest).map fun p => (string p.1, p.2)
      else if c = '[' then
        match skipSpace rest with
        | ']' :: rest => some (array [], rest)
        | rest => readItems fuel [] rest
      else if c = "\x7b".front then
        match skipSpace rest with
        | [] => none
        | d :: rest' =>
          if d = "\x7d".front then some (object [], rest') else readFields fuel [] (d :: rest')
      else if c = 'n' then (behind? "ull" rest).map fun r => (null, r)
      else if c = 't' then (behind? "rue" rest).map fun r => (boolean true, r)
      else if c = 'f' then (behind? "alse" rest).map fun r => (boolean false, r)
      else readNumber (c :: rest)

/-- Reads the items of an array up to its end; `acc` holds those read so far, the last first. -/
def readItems : (fuel : Nat) → List Json → List Char → Option (Json × List Char)
  | 0, _, _ => none
  | fuel + 1, acc, cs =>
    match readValue fuel cs with
    | none => none
    | some (j, rest) =>
      match skipSpace rest with
      | ',' :: rest => readItems fuel (j :: acc) rest
      | ']' :: rest => some (array (j :: acc).reverse, rest)
      | _ => none

/-- Reads the fields of an object up to its end. -/
def readFields : (fuel : Nat) → List (String × Json) → List Char → Option (Json × List Char)
  | 0, _, _ => none
  | fuel + 1, acc, cs =>
    match skipSpace cs with
    | '"' :: rest =>
      match readString [] none rest with
      | none => none
      | some (name, rest) =>
        match skipSpace rest with
        | ':' :: rest =>
          match readValue fuel rest with
          | none => none
          | some (j, rest) =>
            match skipSpace rest with
            | [] => none
            | c :: rest =>
              if c = ',' then readFields fuel ((name, j) :: acc) rest
              else if c = "\x7d".front then some (object ((name, j) :: acc).reverse, rest)
              else none
        | _ => none
    | _ => none

end

/-- The value that a text shows, if it shows one and nothing else. -/
def ofString? (s : String) : Option Json :=
  let cs := s.toList
  match readValue (2 * cs.length + 2) cs with
  | some (j, rest) => if (skipSpace rest).isEmpty then some j else none
  | none => none

end Reckoner.Json
