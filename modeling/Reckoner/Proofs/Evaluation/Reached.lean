import Reckoner.Evaluation.Evaluate
/-!
What an evaluation may come to: the parts of an expression, without the bare words that functions
take as they stand and without the arguments of calls that are refused. Main statement: every place
at which a function takes a word belongs to a parameter that reads the word without looking it up.
-/
namespace Reckoner

namespace Function

/-- The positions at which a function takes any bare word as it stands. -/
def wordPositions : Function → List Nat
  | roundTrip => [1]
  | throughput => [1]
  | seek => [1]
  | read => [2]
  | compress => [2]
  | transferTime => [2, 3]
  | capacityAt => [3]
  | convertRate => [2]
  | _ => []

/-- The positions at which a function takes a bare word as it stands if it spells a unit of time. -/
def periodPositions : Function → List Nat
  | downtime => [2]
  | accumulate => [2]
  | _ => []

def takesWord (f : Function) (position : Nat) (word : String) : Bool :=
  f.wordPositions.contains position ||
    f.periodPositions.contains position && (TimeUnit.ofString? word).isSome

/-- Whether an argument is a bare word that the function takes as it stands. -/
def takes (f : Function) (position : Nat) (e : Expression) : Bool :=
  e.word?.any (f.takesWord position)

end Function

namespace Expression

mutual

/-- The parts of an expression, itself among them, that its evaluation may come to. -/
def reached : Expression → List Expression
  | assignment name value => assignment name value :: reached value
  | arithmetic left op right => arithmetic left op right :: (reached left ++ reached right)
  | comparison left op right => comparison left op right :: (reached left ++ reached right)
  | unary op operand => unary op operand :: reached operand
  | conversion value target => conversion value target :: reached value
  | percentage fraction base => percentage fraction base :: (reached fraction ++ reached base)
  | napkin value figures => napkin value figures :: reached value
  | call function arguments =>
    call function arguments ::
      match Function.named? (Text.keyword function) with
      | some f => if f.arity.allows arguments.length then reachedFrom f 1 arguments else []
      | none => []
  | declaration space key value => declaration space key value :: reached value
  | e => [e]

/-- The same for the arguments of a function; `position` is that of the first. -/
def reachedFrom (f : Function) (position : Nat) : List Expression → List Expression
  | [] => []
  | e :: rest =>
    (if f.takes position e then [] else reached e) ++ reachedFrom f (position + 1) rest

end

/-- The names that an evaluation may look up. -/
def reads (e : Expression) : List String := e.reached.filterMap word?

/-- What a literal is read as. -/
def literal? : Expression → Option (Except Error Value)
  | number text => some ((NumberLiteral.read text).map .number)
  | boolean text => some ((Value.readTruth text).map .boolean)
  | date text => some ((Date.read text).map .date)
  | time text => some ((TimeOfDay.read text).map .time)
  | currency amount code => some ((Money.read amount code).map .money)
  | duration amount unit => some ((Duration.read amount unit).map .duration)
  | quantity amount unit => some (Value.readQuantity amount unit)
  | rate amount unit per => some ((Rate.read amount unit per).map .rate)
  | _ => none

theorem self_mem_reached (e : Expression) : e ∈ e.reached := by
  cases e <;> simp [reached]

section reachedFrom

variable {f : Function} {position : Nat} {e part : Expression} {rest : List Expression}

theorem mem_reachedFrom_head (h : f.takes position e = false) (hp : part ∈ e.reached) :
    part ∈ reachedFrom f position (e :: rest) := by
  simp [reachedFrom, h, hp]

theorem mem_reachedFrom_tail (hp : part ∈ reachedFrom f (position + 1) rest) :
    part ∈ reachedFrom f position (e :: rest) := by
  simp [reachedFrom, hp]

end reachedFrom

end Expression

namespace Parameter

/-- What a parameter reads off an argument without evaluating it. -/
def taken? (function : String) (position : Nat) (e : Expression) :
    (p : Parameter) → Option (Except Error p.Meaning)
  | .period => (unitWord? e).map .ok
  | .target => e.word?.map .ok
  | .word => some (wordOf function position e)
  | .scope => some (wordOf function position e >>= Scope.read)
  | .link => some (wordOf function position e >>= Link.read)
  | .drive => some (wordOf function position e >>= Drive.read)
  | .compression => some (wordOf function position e >>= Compression.read)
  | _ => none

/-- What a parameter makes of the value of an argument. -/
def ofValue (function : String) (position : Nat) (v : Value) :
    (p : Parameter) → Except Error p.Meaning
  | .value => .ok v
  | .number => numberOf function position v
  | .quantity => quantityOf function position v
  | .rate => rateOf function position v
  | .period => durationOf function position v
  | .target => (durationOf function position v).map fun d => d.unit.name
  | .count what range => do
    let n ← numberOf function position v
    orError n.toCount? (.outOfRange what n range)
  | .word => .error (wrongType function position "a keyword" v)
  | .scope => .error (wrongType function position "a keyword" v)
  | .link => .error (wrongType function position "a keyword" v)
  | .drive => .error (wrongType function position "a keyword" v)
  | .compression => .error (wrongType function position "a keyword" v)

theorem isSome_taken? (function : String) (position : Nat) (e : Expression) (p : Parameter) :
    (p.taken? function position e).isSome =
      match p with
      | .period => e.word?.any fun word => (TimeUnit.ofString? word).isSome
      | .target => e.word?.isSome
      | .word | .scope | .link | .drive | .compression => true
      | _ => false := by
  cases p
  case period =>
    simp only [taken?, unitWord?]
    cases e.word? with
    | none => rfl
    | some w =>
      simp only [Option.bind_some, Option.any_some]
      cases TimeUnit.ofString? w <;> rfl
  case target =>
    simp only [taken?]
    cases e.word? <;> rfl
  all_goals rfl

theorem read_eq (function : String) (position : Nat) (e : Expression) (value : Evaluation Value)
    (p : Parameter) :
    p.read function position e value =
      match p.taken? function position e with
      | some r => Evaluation.result r
      | none => value >>= fun v => Evaluation.result (p.ofValue function position v) := by
  cases p
  case value => exact (bind_pure value).symm
  case period =>
    simp only [read, taken?]
    cases unitWord? e <;> rfl
  case target =>
    simp only [read, taken?]
    cases e.word? <;> rfl
  case count what range =>
    refine bind_congr fun v => ?_
    simp only [ofValue]
    cases numberOf function position v <;> rfl
  all_goals rfl

end Parameter

namespace Function

/-- From a position on, the parameters that are left read without evaluating it whatever the
function takes as it stands. -/
def Fits (f : Function) : List Slot → Nat → Prop
  | [], _ => True
  | .one p :: slots, position =>
    (∀ word e, f.takes position e → (p.taken? word position e).isSome) ∧
      f.Fits slots (position + 1)
  | .optional p :: slots, position =>
    (∀ word e, f.takes position e → (p.taken? word position e).isSome) ∧
      f.Fits slots (position + 1)
  | .values :: _, _ => ∀ position e, f.takes position e = false

theorem takes_iff {f : Function} {position : Nat} {e : Expression} :
    f.takes position e ↔ ∃ word, e.word? = some word ∧
      (position ∈ f.wordPositions ∨
        position ∈ f.periodPositions ∧ (TimeUnit.ofString? word).isSome) := by
  simp only [takes, Option.any_eq_true_iff_get, takesWord]
  cases e.word? <;> simp

theorem not_takes_iff {f : Function} {position : Nat} {e : Expression} :
    f.takes position e = false ↔ ∀ word, e.word? = some word →
      position ∉ f.wordPositions ∧
        (position ∈ f.periodPositions → TimeUnit.ofString? word = none) := by
  rw [← Bool.not_eq_true, takes_iff]
  simp

/-- What a parameter does not read off an argument is no word that the function takes. -/
theorem not_takes_of_not_taken {f : Function} {position : Nat} {e : Expression} {p : Parameter}
    {word : String}
    (h : ∀ word e, f.takes position e → (p.taken? word position e).isSome)
    (ht : (p.taken? word position e).isSome = false) : f.takes position e = false := by
  rw [← Bool.not_eq_true] at ht ⊢
  exact mt (h word e) ht

theorem fits_slots (f : Function) : f.Fits f.slots 1 := by
  -- One case a function: at its word positions stands a parameter that reads words, and at its
  -- period positions one that reads units of time.
  cases f <;>
    simp [Fits, slots, takes_iff, not_takes_iff, wordPositions, periodPositions,
      Parameter.isSome_taken?]
  all_goals
    intro e word hw
    simp [hw]

end Function
end Reckoner
