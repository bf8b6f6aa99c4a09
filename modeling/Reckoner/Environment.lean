import Reckoner.Value.Basic
/-!
What a session remembers: the values of names and the exchange rates that were declared. Main
statements: looking a name up gives what was bound to it last, and binding one name leaves all
others alone.
-/
namespace Reckoner

/-- A finite map from texts, the entries in the order in which their keys came. -/
structure Dictionary (α : Type) where
  entries : List (String × α)
deriving Repr

namespace Dictionary

variable {α : Type}

def empty : Dictionary α := ⟨[]⟩

/-- The entry of a key in a list of entries. -/
def find (key : String) : List (String × α) → Option α
  | [] => none
  | (k, a) :: rest => if k = key then some a else find key rest

/-- Puts an entry in the place of the one with its key, or behind all others. -/
def put (key : String) (a : α) : List (String × α) → List (String × α)
  | [] => [(key, a)]
  | (k, b) :: rest => if k = key then (key, a) :: rest else (k, b) :: put key a rest

def get? (d : Dictionary α) (key : String) : Option α := find key d.entries

def insert (d : Dictionary α) (key : String) (a : α) : Dictionary α := ⟨put key a d.entries⟩

def keys (d : Dictionary α) : List String := d.entries.map Prod.fst

theorem find_put_self (key : String) (a : α) (es : List (String × α)) :
    find key (put key a es) = some a := by
  induction es with
  | nil => simp [put, find]
  | cons e rest ih =>
    obtain ⟨k, b⟩ := e
    by_cases h : k = key <;> simp [put, find, h, ih]

theorem find_put_of_ne (key key' : String) (a : α) (es : List (String × α)) (h : key' ≠ key) :
    find key' (put key a es) = find key' es := by
  induction es with
  | nil => simp [put, find, Ne.symm h]
  | cons e rest ih =>
    obtain ⟨k, b⟩ := e
    by_cases hk : k = key
    · subst hk
      simp [put, find, Ne.symm h]
    · simp [put, find, hk, ih]

@[simp] theorem get?_insert_self (d : Dictionary α) (key : String) (a : α) :
    (d.insert key a).get? key = some a :=
  find_put_self key a d.entries

theorem get?_insert_of_ne (d : Dictionary α) (key key' : String) (a : α) (h : key' ≠ key) :
    (d.insert key a).get? key' = d.get? key' :=
  find_put_of_ne key key' a d.entries h

/-- Equality of what every key is bound to, by `eq`. -/
def sameBy (eq : α → α → Bool) (d e : Dictionary α) : Bool :=
  (d.keys ++ e.keys).all fun key =>
    match d.get? key, e.get? key with
    | some a, some b => eq a b
    | none, none => true
    | _, _ => false

/-- The entries in the order of their keys. -/
def sorted (d : Dictionary α) : List (String × α) :=
  d.entries.mergeSort fun p q => decide (p.1 ≤ q.1)

end Dictionary

structure Environment where
  bindings : Dictionary Value
  /-- The units of the second currency for one of the first, by `rateKey`. -/
  rates : Dictionary Decimal
deriving Repr

namespace Environment

/-- The environment of a new session knows two constants. -/
def initial : Environment where
  bindings := (Dictionary.empty.insert "PI" (.number .pi)).insert "E" (.number .e)
  rates := Dictionary.empty

def get? (env : Environment) (name : String) : Option Value := env.bindings.get? name

def bind (env : Environment) (name : String) (v : Value) : Environment :=
  { env with bindings := env.bindings.insert name v }

/-- The key under which the rate from one currency to another is kept. -/
def rateKey (source target : String) : String :=
  Text.upper (Text.trim source) ++ "_" ++ Text.upper (Text.trim target)

def setRate (env : Environment) (source target : String) (rate : Decimal) : Environment :=
  { env with rates := env.rates.insert (rateKey source target) rate }

/-- The rate as it was declared. -/
def rate? (env : Environment) (source target : String) : Option Decimal :=
  env.rates.get? (rateKey source target)

/-- The rate as it was declared, or the inverse of the one declared the other way round. -/
def exchangeRate? (env : Environment) (source target : String) : Option Decimal :=
  if Text.sameLetters source target then some .one
  else
    match env.rate? source target with
    | some r => some r
    | none =>
      match env.rate? target source with
      | some r => if r.isZero then none else some (Decimal.one.dividedBy r)
      | none => none

/-- The parts of a text between underscores. -/
def partsOf : List Char → List (List Char)
  | [] => [[]]
  | c :: cs =>
    if c = '_' then [] :: partsOf cs
    else
      match partsOf cs with
      | [] => [[c]]
      | part :: parts => (c :: part) :: parts

/-- The two codes that a key of the form `FROM_TO` names. -/
def codes (key : String) : Except Error (String × String) :=
  match partsOf (Text.trimChars key.toList) with
  | [source, target] =>
    if source.isEmpty || target.isEmpty then .error (.malformedExchangeKey key)
    else .ok (String.ofList source, String.ofList target)
  | _ => .error (.malformedExchangeKey key)

/-- The spaces in which settings can be declared. -/
def spaces : List String := ["global", "exchange"]

/-- Applies a setting: a name for the whole document, or an exchange rate. -/
def declare (env : Environment) (space key : String) (v : Value) : Except Error Environment :=
  let word := Text.lower (Text.trim space)
  if word = "global" then .ok (env.bind (Text.trim key) v)
  else if word = "exchange" then do
    let (source, target) ← codes key
    match v with
    | .number r =>
      if Decimal.zero.lt r then pure (env.setRate source target r)
      else .error (.outOfRange ("exchange rate " ++ key) r .positive)
    | v => .error (.wrongArgumentType ("exchange." ++ key) 1 "a number" v.describe)
  else .error (.unknownKeyword "frontmatter namespace" word spaces)

/-- Equality of bindings and rates; places of decimals do not count. -/
def same (env env' : Environment) : Bool :=
  env.bindings.sameBy Value.same env'.bindings && env.rates.sameBy Decimal.same env'.rates

end Environment
end Reckoner
