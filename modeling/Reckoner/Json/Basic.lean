/-!
JSON values and writing them, on one line or indented by two blanks a level. Fields are written in
the order in which an object has them.
-/
namespace Reckoner

inductive Json where
  | null
  | boolean (b : Bool)
  | integer (i : Int)
  /-- A number that is not written as an integer, by its text. -/
  | real (text : String)
  | string (s : String)
  | array (items : List Json)
  | object (fields : List (String × Json))
deriving Inhabited, Repr

namespace Json

def hexDigit (n : Nat) : Char := (Nat.toDigits 16 n).headD '0'

/-- A character inside a quoted text: quotes, backslashes and control characters are escaped, the
common ones by a letter and the others by four hexadecimal digits. -/
def escape (c : Char) : List Char :=
  if c = '"' then ['\\', '"']
  else if c = '\\' then ['\\', '\\']
  else if c = '\n' then ['\\', 'n']
  else if c = '\r' then ['\\', 'r']
  else if c = '\t' then ['\\', 't']
  else if c = '\x08' then ['\\', 'b']
  else if c = '\x0c' then ['\\', 'f']
  else if c.toNat < 32 then ['\\', 'u', '0', '0', hexDigit (c.toNat / 16), hexDigit (c.toNat % 16)]
  else [c]

/-- A text in quotes. -/
def quoted (s : String) : List Char := '"' :: (s.toList.flatMap escape ++ ['"'])

/-- A number, a word or a text. -/
def leaf : Json → List Char
  | null => "null".toList
  | boolean true => "true".toList
  | boolean false => "false".toList
  | integer i => (toString i).toList
  | real text => text.toList
  | string s => quoted s
  | array _ => []
  | object _ => []

mutual

/-- The characters of a value on one line. -/
def line : Json → List Char
  | array items => '[' :: (lineItems items ++ [']'])
  | object fields => "\x7b".toList ++ lineFields fields ++ "\x7d".toList
  | j => leaf j

def lineItems : List Json → List Char
  | [] => []
  | [j] => line j
  | j :: k :: rest => line j ++ ',' :: lineItems (k :: rest)

def lineFields : List (String × Json) → List Char
  | [] => []
  | [(name, j)] => quoted name ++ ':' :: line j
  | (name, j) :: f :: rest => quoted name ++ ':' :: (line j ++ ',' :: lineFields (f :: rest))

end

/-- A line break and the indentation of a level. -/
def newline (level : Nat) : List Char := '\n' :: List.replicate (2 * level) ' '

mutual

/-- The characters of a value, each item and each field of it on a line of its own. -/
def indented (level : Nat) : Json → List Char
  | array [] => ['[', ']']
  | array (j :: rest) =>
    '[' :: (newline (level + 1) ++ indented (level + 1) j ++ indentedItems (level + 1) rest ++
      newline level ++ [']'])
  | object [] => "\x7b\x7d".toList
  | object ((name, j) :: rest) =>
    "\x7b".toList ++ newline (level + 1) ++ quoted name ++ ':' :: ' ' :: indented (level + 1) j ++
      indentedFields (level + 1) rest ++ newline level ++ "\x7d".toList
  | j => leaf j

def indentedItems (level : Nat) : List Json → List Char
  | [] => []
  | j :: rest => ',' :: (newline level ++ indented level j ++ indentedItems level rest)

def indentedFields (level : Nat) : List (String × Json) → List Char
  | [] => []
  | (name, j) :: rest =>
    ',' :: (newline level ++ quoted name ++ ':' :: ' ' :: indented level j ++
      indentedFields level rest)

end

/-- The value on one line. -/
def text (j : Json) : String := String.ofList j.line

/-- The value with an item or a field a line. -/
def pretty (j : Json) : String := String.ofList (j.indented 0)

/-- A text, or null if there is none. -/
def ofOption {α : Type} (f : α → Json) : Option α → Json
  | some a => f a
  | none => null

/-- The value of a field of an object; the last one counts if there are several. -/
def field? (name : String) : Json → Option Json
  | object fields => (fields.reverse.find? fun p => p.1 == name).map Prod.snd
  | _ => none

end Json
end Reckoner
