import Reckoner.Evaluation.Evaluate
import Reckoner.Proofs.Gives
/-!
The shape of a value: its kind, with the unit of a quantity or of what a rate counts and with the
code of a currency, but without any number and without any unit of time. Main statement: the shape
of what an operation or a function gives follows from the shapes of what it is given.
-/
namespace Reckoner

inductive Shape where
  | number
  | money (code : String)
  | quantity (unit : String)
  | rate (unit : String)
  | duration
  | date
  | time
  | boolean
deriving DecidableEq, Repr

def Value.shape : Value → Shape
  | .number _ => .number
  | .money m => .money m.code
  | .quantity q => .quantity q.unit
  | .rate r => .rate r.amount.unit
  | .duration _ => .duration
  | .date _ => .date
  | .time _ => .time
  | .boolean _ => .boolean

namespace Shape

/-- The shape of what an operator makes of two values, where it makes anything of them. -/
def combine (op : ArithmeticOperator) : Shape → Shape → Shape
  | date, date => duration
  | date, _ => date
  | _, date => date
  | time, time => duration
  | time, _ => time
  | _, time => time
  | left, number => left
  | number, right => right
  | money code, money _ => if op = .divide then number else money code
  | rate unit, rate _ => if op = .divide then number else rate unit
  | rate unit, duration => quantity unit
  | duration, rate unit => quantity unit
  | left, _ => left

/-- The shape of a value in another unit. A bare number takes its shape from the target. -/
def convert (target : String) : Shape → Shape
  | number => (Value.ofNumber .zero target).shape
  | money code => money ((Money.code? target).elim code Text.upper)
  | quantity _ => quantity target
  | rate unit =>
    if (TimeUnit.ofString? target).isSome then rate unit
    else rate ((Rate.splitTarget target).elim unit Prod.fst)
  | s => s

/-- The shape of a sum, a mean or an extreme: the first value decides. -/
def aggregate : List Shape → Shape
  | money code :: _ => money (Text.upper code)
  | _ => number

end Shape

theorem Quantity.gives_convert (q : Quantity) (target : String) :
    Gives (q.convert target) (·.unit = target) :=
  gives_after fun _ => gives_ok rfl

namespace Rate

theorem gives_make (amount : Quantity) (per : String) :
    Gives (make amount per) (·.amount = amount) :=
  gives_after fun _ => gives_ok rfl

theorem gives_accumulate (r : Rate) (period : Duration) :
    Gives (r.accumulate period) (·.unit = r.amount.unit) :=
  gives_after fun _ => gives_after fun _ => gives_after fun _ => gives_ok rfl

theorem gives_retime (r : Rate) (target : String) :
    Gives (r.retime target) (·.amount.unit = r.amount.unit) := by
  refine gives_after fun _ => gives_after fun _ => gives_after fun n => ?_
  exact (gives_make _ _).imp fun s hs => by rw [hs]

/-- A target that is no unit of time names the unit of the amount as well. -/
theorem gives_convert (r : Rate) (target : String) :
    Gives (r.convert target) fun s =>
      (Value.rate s).shape = (Shape.rate r.amount.unit).convert target := by
  rw [convert, Shape.convert]
  split
  · exact (r.gives_retime target).imp fun s hs => congrArg Shape.rate hs
  · refine gives_bind (gives_orError fun units h => h) fun units h => ?_
    rw [h]
    refine gives_after fun retimed => ?_
    refine gives_bind (Quantity.gives_convert _ _) fun amount hamount => ?_
    exact (gives_make _ _).imp fun s hs => by rw [Value.shape, hs, hamount]; rfl

end Rate

namespace Money

theorem gives_exchange (m : Money) (target : String) (env : Environment) :
    Gives (m.exchange target env) fun n =>
      (Value.money n).shape = (Shape.money m.code).convert target := by
  refine gives_bind (gives_orError fun code h => h) fun code h => ?_
  refine gives_after fun _ => gives_after fun _ => gives_ok ?_
  rw [Shape.convert, h]
  rfl

theorem gives_combine (l : Money) (op : ArithmeticOperator) (r : Money) (env : Environment) :
    Gives (l.combine op r env)
      (·.shape = (Shape.money l.code).combine op (.money r.code)) := by
  refine gives_ite (fun _ => gives_error _) fun _ => ?_
  refine gives_after fun _ => gives_after fun _ => gives_ok ?_
  rw [Shape.combine]
  split <;> rfl

end Money

theorem Quantity.gives_combine (l : Quantity) (op : ArithmeticOperator) (r : Quantity) :
    Gives (l.combine op r) (·.shape = .quantity l.unit) :=
  gives_ite (fun _ => gives_error _) fun _ => gives_after fun _ => gives_after fun _ => gives_ok rfl

theorem Rate.gives_combine (l : Rate) (op : ArithmeticOperator) (r : Rate) :
    Gives (l.combine op r)
      (·.shape = (Shape.rate l.amount.unit).combine op (.rate r.amount.unit)) := by
  refine gives_ite (fun _ => ?_) fun _ => gives_error _
  refine gives_after fun _ => gives_after fun _ => gives_ok ?_
  rw [Shape.combine]
  split <;> rfl

theorem Duration.gives_combine (l : Duration) (op : ArithmeticOperator) (r : Duration) :
    Gives (l.combine op r) (·.shape = .duration) := by
  have inSeconds : Gives (combine.inSeconds l op r) (·.shape = .duration) :=
    gives_after fun _ => gives_after fun _ => gives_after fun _ => gives_ok rfl
  cases op with
  | add => exact inSeconds
  | subtract => exact inSeconds
  | power => exact gives_error _
  | _ => exact gives_after fun _ => gives_after fun _ => gives_ok rfl

namespace Value

theorem gives_withMagnitude (v : Value) (n : Decimal) :
    Gives (v.withMagnitude n) (·.shape = v.shape) := by
  cases v <;> first | exact gives_ok rfl | exact gives_error _

theorem gives_combineDates (l : Value) (op : ArithmeticOperator) (r : Value) :
    Gives (combineDates l op r)
      (·.shape = if l.shape = .date ∧ r.shape = .date then .duration else .date) := by
  unfold combineDates
  split
  · exact gives_map fun _ _ => rfl
  · exact gives_map fun _ _ => rfl
  · exact gives_map fun _ _ => rfl
  · exact gives_ok rfl
  · exact gives_error _

theorem gives_combineTimes (l : Value) (op : ArithmeticOperator) (r : Value) :
    Gives (combineTimes l op r)
      (·.shape = if l.shape = .time ∧ r.shape = .time then .duration else .time) := by
  unfold combineTimes
  split
  · exact gives_map fun _ _ => rfl
  · exact gives_map fun _ _ => rfl
  · exact gives_map fun _ _ => rfl
  · exact gives_ok rfl
  · exact gives_error _

theorem gives_combineNumber (l : Value) (op : ArithmeticOperator) (n : Decimal) :
    Gives (l.combineNumber op n) (·.shape = l.shape) := by
  refine gives_ite (fun _ => ?_) fun _ => gives_error _
  cases l.magnitude? with
  | none => exact gives_error _
  | some m => exact gives_after fun k => l.gives_withMagnitude k

theorem gives_combineNumberBefore (n : Decimal) (op : ArithmeticOperator) (r : Value) :
    Gives (combineNumberBefore n op r) (·.shape = r.shape) := by
  refine gives_ite (fun _ => ?_) fun _ => gives_error _
  cases r.magnitude? with
  | none => exact gives_error _
  | some m => exact gives_after fun k => r.gives_withMagnitude k

theorem gives_combine (l : Value) (op : ArithmeticOperator) (r : Value) (env : Environment) :
    Gives (l.combine op r env) (·.shape = l.shape.combine op r.shape) := by
  -- Dates and times of day come before numbers, and numbers before operands of one kind.
  cases l with
  | date d => cases r <;> exact gives_combineDates (date d) op _
  | time t =>
    cases r with
    | date d => exact gives_combineDates (time t) op (date d)
    | _ => exact gives_combineTimes (time t) op _
  | number n =>
    cases r with
    | date d => exact gives_combineDates (number n) op (date d)
    | time t => exact gives_combineTimes (number n) op (time t)
    | number m => exact gives_combineNumber (number n) op m
    | _ => exact gives_combineNumberBefore n op _
  | money l =>
    cases r with
    | date d => exact gives_combineDates (money l) op (date d)
    | time t => exact gives_combineTimes (money l) op (time t)
    | number n => exact gives_combineNumber (money l) op n
    | money r => exact l.gives_combine op r env
    | _ => exact gives_error _
  | quantity l =>
    cases r with
    | date d => exact gives_combineDates (quantity l) op (date d)
    | time t => exact gives_combineTimes (quantity l) op (time t)
    | number n => exact gives_combineNumber (quantity l) op n
    | quantity r => exact l.gives_combine op r
    | _ => exact gives_error _
  | rate l =>
    cases r with
    | date d => exact gives_combineDates (rate l) op (date d)
    | time t => exact gives_combineTimes (rate l) op (time t)
    | number n => exact gives_combineNumber (rate l) op n
    | rate r => exact l.gives_combine op r
    | duration p =>
      refine gives_ite (fun _ => gives_map ?_) fun _ => gives_error _
      exact (l.gives_accumulate p).imp fun q hq => congrArg Shape.quantity hq
    | _ => exact gives_error _
  | duration l =>
    cases r with
    | date d => exact gives_combineDates (duration l) op (date d)
    | time t => exact gives_combineTimes (duration l) op (time t)
    | number n => exact gives_combineNumber (duration l) op n
    | duration r => exact l.gives_combine op r
    | rate r =>
      refine gives_ite (fun _ => gives_map ?_) fun _ => gives_error _
      exact (r.gives_accumulate l).imp fun q hq => congrArg Shape.quantity hq
    | _ => exact gives_error _
  | boolean b =>
    cases r with
    | date d => exact gives_combineDates (boolean b) op (date d)
    | time t => exact gives_combineTimes (boolean b) op (time t)
    | number n => exact gives_combineNumber (boolean b) op n
    | _ => exact gives_error _

theorem gives_compare (l : Value) (op : ComparisonOperator) (r : Value) :
    Gives ((l.compare op r).map boolean) (·.shape = .boolean) :=
  gives_map fun _ _ => rfl

theorem gives_signed (op : UnaryOperator) (v : Value) : Gives (v.signed op) (·.shape = v.shape) := by
  unfold signed
  split
  · exact gives_ok rfl
  · exact gives_ok rfl
  · exact gives_ok rfl
  · exact gives_ok rfl
  · exact gives_error _

theorem gives_portion (fraction base : Value) :
    Gives (portion fraction base) (·.shape = base.shape) := by
  unfold portion
  split
  · exact gives_after fun n => base.gives_withMagnitude n
  · exact gives_error _

theorem shape_ofNumber (n m : Decimal) (target : String) :
    (ofNumber n target).shape = (ofNumber m target).shape := by
  unfold ofNumber
  cases TimeUnit.ofString? target with
  | some unit => rfl
  | none =>
    cases Money.targetCode? target with
    | some code =>
      dsimp only
      split <;> rfl
    | none => rfl

theorem gives_convert (v : Value) (target : String) (env : Environment) :
    Gives (v.convert target env) (·.shape = v.shape.convert (Text.trim target)) := by
  unfold convert
  generalize Text.trim target = target
  cases v with
  | number n => exact gives_ok (shape_ofNumber n .zero _)
  | money m => exact gives_map (m.gives_exchange target env)
  | quantity q =>
    exact gives_map ((q.gives_convert target).imp fun p hp => congrArg Shape.quantity hp)
  | rate r => exact gives_map (r.gives_convert target)
  | duration d =>
    dsimp only
    split
    · exact gives_map fun _ _ => rfl
    · exact gives_error _
  | date d => exact gives_error _
  | time t => exact gives_error _
  | boolean b => exact gives_error _

theorem gives_napkin (v : Value) (figures : Nat) :
    Gives (Napkin.roundValue v figures) (·.shape = v.shape) :=
  gives_after fun _ => gives_after fun n => v.gives_withMagnitude n

theorem gives_mapMagnitude (function : String) (f : Decimal → Decimal) (v : Value) :
    Gives (v.mapMagnitude function f) (·.shape = v.shape) :=
  gives_after fun n => v.gives_withMagnitude (f n)

theorem gives_compress (size : Value) (compression : Compression) :
    Gives (Estimate.compress size compression) (·.shape = size.shape) :=
  gives_after fun _ => gives_ite (fun _ => gives_error _) fun _ =>
    gives_after fun n => size.gives_withMagnitude n

theorem gives_aggregate (function : String) (fold : List Decimal → Except Error Decimal)
    (vs : List Value) :
    Gives (aggregate function fold vs) (·.shape = Shape.aggregate (vs.map shape)) := by
  cases vs with
  | nil => exact gives_error _
  | cons v rest =>
    cases v with
    | number n => exact gives_after fun _ => gives_after fun _ => gives_ok rfl
    | money m => exact gives_after fun _ => gives_after fun _ => gives_ok rfl
    | _ => exact gives_error _

end Value

namespace Function

/-- The shape of what a function gives for its arguments. -/
def shape : (f : Function) → Arguments f.slots → Shape
  | requires, _ => .number
  | capacityAt, (_, _, unit, _, ()) => .quantity (Text.trim unit)
  | downtime, _ => .duration
  | accumulate, (rate, _, ()) => .quantity (Rate.amount rate).unit
  | convertRate, (rate, _, ()) => .rate (Rate.amount rate).unit
  | roundTrip, _ => .duration
  | throughput, _ => .rate "MB"
  | transferTime, _ => .duration
  | read, _ => .duration
  | seek, _ => .duration
  | compress, (size, _, ()) => Value.shape size
  | napkin, (value, _, ()) => Value.shape value
  | average, (values, ()) => .aggregate (values.map Value.shape)
  | sum, (values, ()) => .aggregate (values.map Value.shape)
  | least, (values, ()) => .aggregate (values.map Value.shape)
  | greatest, (values, ()) => .aggregate (values.map Value.shape)
  | root, _ => .number
  | abs, (value, ()) => Value.shape value
  | floor, (value, ()) => Value.shape value
  | ceil, (value, ()) => Value.shape value
  | round, (value, _, ()) => Value.shape value

theorem gives_apply (limits : Limits) (word : String) (f : Function) (a : Arguments f.slots) :
    Gives (f.apply limits word a) (·.shape = f.shape a) := by
  cases f with
  | requires => exact gives_map fun _ _ => rfl
  | capacityAt =>
    obtain ⟨load, capacity, unit, buffer, ⟨⟩⟩ := a
    have h : Gives (Capacity.capacityAt load capacity unit buffer) (·.unit = Text.trim unit) :=
      gives_after fun n => gives_ok rfl
    exact gives_map (h.imp fun q hq => congrArg Shape.quantity hq)
  | downtime => exact gives_map fun _ _ => rfl
  | accumulate =>
    obtain ⟨rate, period, ⟨⟩⟩ := a
    have h := Rate.gives_accumulate rate period
    show Gives ((Rate.accumulate rate period).map Value.quantity) _
    exact gives_map (h.imp fun q hq => congrArg Shape.quantity hq)
  | convertRate =>
    obtain ⟨rate, target, ⟨⟩⟩ := a
    have h := Rate.gives_retime rate target
    show Gives ((Rate.retime rate target).map Value.rate) _
    exact gives_map (h.imp fun r hr => congrArg Shape.rate hr)
  | roundTrip => exact gives_ok rfl
  | throughput =>
    obtain ⟨link, ⟨⟩⟩ := a
    have h := Rate.gives_make ⟨Link.throughput link, "MB"⟩ "s"
    show Gives ((Estimate.linkThroughput link).map Value.rate) (·.shape = .rate "MB")
    refine gives_map (h.imp fun r hr => ?_)
    rw [Value.shape, hr]
  | transferTime => exact gives_map fun _ _ => rfl
  | read => exact gives_map fun _ _ => rfl
  | seek => exact gives_ok rfl
  | compress => exact Value.gives_compress _ _
  | napkin => exact Value.gives_napkin _ _
  | average => exact Value.gives_aggregate _ _ _
  | sum => exact Value.gives_aggregate _ _ _
  | least => exact Value.gives_aggregate _ _ _
  | greatest => exact Value.gives_aggregate _ _ _
  | root => exact gives_map fun _ _ => rfl
  | abs => exact Value.gives_mapMagnitude _ _ _
  | floor => exact Value.gives_mapMagnitude _ _ _
  | ceil => exact Value.gives_mapMagnitude _ _ _
  | round => exact Value.gives_mapMagnitude _ _ _

end Function
end Reckoner
