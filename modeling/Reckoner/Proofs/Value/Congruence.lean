import Reckoner.Proofs.Decimal.SamePower
import Reckoner.Proofs.Value.Same
/-!
Operations on equal values. Main statement: the results are equal, or fail for one cause, except
where a number is converted in binary floating point, which may see how many places it is written
with, and in powers of zero, which see its sign.
-/
namespace Reckoner

section Units

namespace Decimal

/-- The conversion from one unit to another does not tell two numbers apart. -/
def ConvertsAlike (source target : String) (a b : Decimal) : Prop :=
  SameResult Same (a.convertUnit source target) (b.convertUnit source target)

/-- The conversion of a unit to the base unit does not tell two numbers apart. -/
def BasesAlike (unit : String) (a b : Decimal) : Prop :=
  SameResult Same (a.toBaseUnit unit) (b.toBaseUnit unit)

theorem sameResult_ofResult (x : Float) (operation : String) :
    SameResult Same (ofResult x operation) (ofResult x operation) :=
  alike_orError (rel_same_refl _) ⟨rfl, rfl⟩

variable {a b : Decimal}

/-- Numbers that are one in binary floating point are converted alike. -/
theorem convertsAlike_of_toFloat (h : a.Same b) (hf : a.toFloat = b.toFloat)
    (source target : String) : ConvertsAlike source target a b := by
  rw [ConvertsAlike, convertUnit, convertUnit, ← hf]
  refine alike_ite .rfl (fun _ => .ok h) fun _ => ?_
  generalize KnownUnit.lookup source = s
  generalize KnownUnit.lookup target = t
  cases s with
  | none => exact .error ⟨rfl, rfl⟩
  | some u =>
    cases t with
    | none => exact .error ⟨rfl, rfl⟩
    | some v =>
      refine alike_ite .rfl (fun _ => .error ⟨rfl, rfl⟩) fun _ => ?_
      exact alike_ite .rfl (fun _ => .ok h) fun _ => sameResult_ofResult _ _

theorem basesAlike_of_toFloat (hf : a.toFloat = b.toFloat) (unit : String) :
    BasesAlike unit a b := by
  rw [BasesAlike, toBaseUnit, toBaseUnit, ← hf]
  generalize KnownUnit.lookup unit = u
  cases u with
  | none => exact .error ⟨rfl, rfl⟩
  | some u => exact sameResult_ofResult _ _

theorem ConvertsAlike.refl (source target : String) (a : Decimal) :
    ConvertsAlike source target a a :=
  convertsAlike_of_toFloat (.refl a) rfl source target

theorem BasesAlike.refl (unit : String) (a : Decimal) : BasesAlike unit a a :=
  basesAlike_of_toFloat rfl unit

end Decimal

theorem TimeUnit.sameResult_read (s : String) : SameResult Eq (read s) (read s) :=
  sameResult_orError _ ⟨rfl, rfl⟩

end Units

section Duration

namespace Duration.Same

variable {d e : Duration} (h : d.Same e)

include h

theorem seconds : SameResult Decimal.Same d.seconds e.seconds := by
  obtain ⟨h⟩ := h
  exact alike_orError (h.mul (.refl _)) ⟨rfl, rfl⟩

theorem inUnit (unit : TimeUnit) : SameResult Duration.Same (d.inUnit unit) (e.inUnit unit) := by
  obtain ⟨h⟩ := h
  refine alike_ite .rfl (fun _ => .ok (.intro h)) fun _ => ?_
  refine (Duration.Same.intro h).seconds.bind fun s t hs => .ok ?_
  exact .intro (hs.dividedBy (.refl _))

end Duration.Same

theorem Duration.same_ofSeconds {a b : Decimal} (h : a.Same b) (unit : TimeUnit) :
    (Duration.ofSeconds a unit).Same (Duration.ofSeconds b unit) :=
  .intro (h.dividedBy (.refl _))

theorem Duration.Same.inSeconds {l l' r r' : Duration} (hl : l.Same l') (hr : r.Same r')
    {op : ArithmeticOperator} (hop : op ≠ .power) :
    SameResult Value.Same (Duration.combine.inSeconds l op r)
      (Duration.combine.inSeconds l' op r') := by
  refine hl.seconds.bind fun s s' hs => hr.seconds.bind fun t t' ht => ?_
  refine (hs.combine ht op fun h => absurd h hop).bind fun n n' hn => ?_
  cases hl with
  | intro _ => exact .ok (.duration (Duration.same_ofSeconds hn _))

theorem Duration.Same.combine {l l' r r' : Duration} (hl : l.Same l') (hr : r.Same r')
    (op : ArithmeticOperator) : SameResult Value.Same (l.combine op r) (l'.combine op r') := by
  have inUnit (hop : op ≠ .power) : SameResult Value.Same
      (r.inUnit l.unit >>= fun o => l.value.combine op o.value >>= fun n =>
        pure (.duration ⟨n, l.unit⟩))
      (r'.inUnit l'.unit >>= fun o => l'.value.combine op o.value >>= fun n =>
        pure (.duration ⟨n, l'.unit⟩)) := by
    cases hl with
    | intro hn =>
      refine (hr.inUnit _).bind fun o o' ho => ?_
      cases ho with
      | intro ho =>
        exact (hn.combine ho op fun h => absurd h hop).bind fun _ _ hk => .ok (.duration (.intro hk))
  cases op with
  | power => exact .error (.unsupportedOperation _ _ _ _)
  | add => exact hl.inSeconds hr (by decide)
  | subtract => exact hl.inSeconds hr (by decide)
  | _ => exact inUnit (by decide)

namespace TimeOfDay

variable {p q : Duration} (h : p.Same q)

theorem sameResult_shift (t : TimeOfDay) (n : ℤ) : SameResult Eq (t.shift n) (t.shift n) :=
  alike_ite .rfl (fun _ => .ok rfl) fun _ => .error ⟨rfl, rfl⟩

include h

theorem sameResult_wholeSeconds : SameResult Eq (wholeSeconds p) (wholeSeconds q) := by
  refine h.seconds.bind fun s t hs => ?_
  rw [hs.toInt64?_eq]
  exact sameResult_orError _ ⟨rfl, rfl⟩

theorem sameResult_after (t : TimeOfDay) : SameResult Eq (t.after p) (t.after q) :=
  (sameResult_wholeSeconds h).bind_eq t.sameResult_shift

theorem sameResult_before (t : TimeOfDay) : SameResult Eq (t.before p) (t.before q) := by
  refine (sameResult_wholeSeconds h).bind_eq fun n => ?_
  exact alike_ite .rfl (fun _ => t.sameResult_shift _) fun _ => .error ⟨rfl, rfl⟩

end TimeOfDay

namespace Date

variable {p q : Duration} (h : p.Same q)

theorem sameResult_shift (d : Date) (n : ℤ) : SameResult Eq (d.shift n) (d.shift n) :=
  sameResult_orError _ ⟨rfl, rfl⟩

include h

theorem sameResult_wholeDays : SameResult Eq (wholeDays p) (wholeDays q) := by
  refine h.seconds.bind fun s t hs => ?_
  rw [(hs.dividedBy (.refl TimeUnit.day.length)).toInt64?_eq]
  exact sameResult_orError _ ⟨rfl, rfl⟩

theorem sameResult_after (d : Date) : SameResult Eq (d.after p) (d.after q) :=
  (sameResult_wholeDays h).bind_eq d.sameResult_shift

theorem sameResult_before (d : Date) : SameResult Eq (d.before p) (d.before q) := by
  refine (sameResult_wholeDays h).bind_eq fun n => ?_
  exact alike_ite .rfl (fun _ => d.sameResult_shift _) fun _ => .error ⟨rfl, rfl⟩

end Date

end Duration

section Rate

namespace Rate

variable {r s : Rate} {a a' b b' c c' : Decimal}

theorem rel_scaled (ha : a.Same a') (hb : b.Same b') (hc : c.Same c') :
    Option.Rel Decimal.Same (scaled a b c) (scaled a' b' c') :=
  Decimal.rel_bind (ha.mul hb) fun _ _ h => h.div hc

theorem sameResult_make {p q : Quantity} (h : p.Same q) (per : String) :
    SameResult Rate.Same (make p per) (make q per) :=
  (TimeUnit.sameResult_read _).bind_eq fun _ => .ok (.intro h)

theorem Same.amount (h : r.Same s) : r.amount.value.Same s.amount.value := by
  obtain ⟨h⟩ := h
  obtain ⟨h⟩ := h
  exact h

theorem Same.unit_eq (h : r.Same s) : r.amount.unit = s.amount.unit := by
  obtain ⟨h⟩ := h
  obtain ⟨-⟩ := h
  rfl

theorem Same.amountWith (h : r.Same s) (hab : a.Same b) :
    Quantity.Same { r.amount with value := a } { s.amount with value := b } := by
  obtain ⟨h⟩ := h
  obtain ⟨-⟩ := h
  exact .intro hab

theorem Same.perSeconds (h : r.Same s) : SameResult Decimal.Same r.perSeconds s.perSeconds := by
  obtain ⟨-⟩ := h
  exact (TimeUnit.sameResult_read _).bind_eq fun u => .ok (.refl u.length)

theorem Same.withValue (h : r.Same s) (hab : a.Same b) :
    (r.withValue a).Same (s.withValue b) := by
  have hamount := h.amountWith hab
  obtain ⟨-⟩ := h
  exact .intro hamount

theorem Same.accumulate {p q : Duration} (h : r.Same s) (hp : p.Same q) :
    SameResult Quantity.Same (r.accumulate p) (s.accumulate q) := by
  refine h.perSeconds.bind fun t t' ht => hp.seconds.bind fun u u' hu => ?_
  refine (alike_orError (rel_scaled h.amount hu ht) ⟨rfl, rfl⟩).bind fun n n' hn => ?_
  exact .ok (h.amountWith hn)

theorem Same.retime (h : r.Same s) (target : String) :
    SameResult Rate.Same (r.retime target) (s.retime target) := by
  refine (TimeUnit.sameResult_read _).bind_eq fun u => ?_
  refine h.perSeconds.bind fun t t' ht => ?_
  refine (alike_orError (rel_scaled h.amount (.refl u.length) ht) ⟨rfl, rfl⟩).bind fun n n' hn => ?_
  exact sameResult_make (h.amountWith hn) target

/-- The amount of a rate is converted alike, once the rate is for another unit of time, if the
target names a unit beside a unit of time. -/
def ConvertsAlike (target : String) (r s : Rate) : Prop :=
  ∀ unit per r' s', splitTarget target = some (unit, per) → r.retime per = .ok r' →
    s.retime per = .ok s' → Decimal.ConvertsAlike r'.amount.unit unit r'.amount.value s'.amount.value

theorem ConvertsAlike.refl (target : String) (r : Rate) : ConvertsAlike target r r := by
  intro unit per r' s' _ hr hs
  rw [Except.ok.inj (hr.symm.trans hs)]
  exact .refl _ _ _

end Rate

theorem Quantity.Same.convert {p q : Quantity} (h : p.Same q) (target : String)
    (hc : Decimal.ConvertsAlike p.unit target p.value q.value) :
    SameResult Quantity.Same (p.convert target) (q.convert target) := by
  obtain ⟨-⟩ := h
  exact Alike.bind hc fun _ _ hv => .ok (.intro hv)

theorem Rate.sameResult_splitTarget (target : String) {x y : Error} (h : x.SameCause y) :
    SameResult (fun p q => p = q ∧ splitTarget target = some p)
      (orError (splitTarget target) x) (orError (splitTarget target) y) := by
  generalize splitTarget target = o
  cases o with
  | some p => exact .ok ⟨rfl, rfl⟩
  | none => exact .error h

theorem Rate.Same.convert {r s : Rate} (h : r.Same s) (target : String)
    (hc : Rate.ConvertsAlike target r s) :
    SameResult Rate.Same (r.convert target) (s.convert target) := by
  unfold Rate.convert
  refine alike_ite .rfl (fun _ => h.retime target) fun _ => ?_
  have hsplit := sameResult_splitTarget target (x := .incompatibleUnits r.unitText target)
    (y := .incompatibleUnits s.unitText target) ⟨rfl, rfl⟩
  refine hsplit.bind fun p q hpq => ?_
  obtain ⟨rfl, htarget⟩ := hpq
  obtain ⟨unit, per⟩ := p
  dsimp only
  refine (h.retime per).and_eq.bind fun r' s' hrs => ?_
  -- What is converted is the amount of the rate for the new unit of time.
  obtain ⟨hr, hs, ⟨hamount⟩⟩ := hrs
  have hconverts := hc unit per _ _ htarget hr hs
  refine (hamount.convert unit hconverts).bind fun p q hq => ?_
  exact sameResult_make hq per

end Rate

section Combine

variable {env env' : Environment} (henv : env.Same env')

include henv

theorem Money.Same.inCurrencyOf {l l' r r' : Money} (hl : l.Same l') (hr : r.Same r') :
    SameResult Decimal.Same (r.inCurrencyOf l env) (r'.inCurrencyOf l' env') := by
  obtain ⟨-⟩ := hl
  obtain ⟨hr⟩ := hr
  refine alike_ite .rfl (fun _ => .ok hr) fun _ => ?_
  refine (alike_orError (henv.exchangeRate? _ _) ⟨rfl, rfl⟩).bind fun x y hxy => ?_
  exact alike_orError (hr.mul hxy) ⟨rfl, rfl⟩

theorem Money.Same.combine {l l' r r' : Money} (hl : l.Same l') (hr : r.Same r')
    (op : ArithmeticOperator) :
    SameResult Value.Same (l.combine op r env) (l'.combine op r' env') := by
  refine alike_ite .rfl (fun _ => .error (.unsupportedOperation _ _ _ _)) fun hop => ?_
  refine (hl.inCurrencyOf henv hr).bind fun x y hxy => ?_
  obtain ⟨hn⟩ := hl
  refine (hn.combine hxy op fun h => absurd (Or.inr h) hop).bind fun n n' hn => .ok ?_
  split
  · exact .number hn
  · exact .money (.intro hn)

theorem Money.Same.exchange {m n : Money} (h : m.Same n) (target : String) :
    SameResult Money.Same (m.exchange target env) (n.exchange target env') := by
  obtain ⟨h⟩ := h
  unfold Money.exchange
  generalize Money.code? target = code
  cases code with
  | none => exact .error ⟨rfl, rfl⟩
  | some code =>
    refine (alike_orError (henv.exchangeRate? _ _) ⟨rfl, rfl⟩).bind fun x y hxy => ?_
    exact (alike_orError (h.mul hxy) ⟨rfl, rfl⟩).bind fun a b hab => .ok (.intro hab)

omit henv

theorem Quantity.Same.combine {l l' r r' : Quantity} (hl : l.Same l') (op : ArithmeticOperator)
    (hc : op ≠ .power → Decimal.ConvertsAlike r.unit l.unit r.value r'.value) (hr : r.Same r') :
    SameResult Value.Same (l.combine op r) (l'.combine op r') := by
  obtain ⟨hn⟩ := hl
  obtain ⟨-⟩ := hr
  refine alike_ite .rfl (fun _ => .error (.unsupportedOperation _ _ _ _)) fun hop => ?_
  refine Alike.bind (hc hop) fun x y hxy => ?_
  exact (hn.combine hxy op fun h => absurd h hop).bind fun _ _ hk => .ok (.quantity (.intro hk))

theorem Rate.Same.inUnitsOf {l l' r r' : Rate} (hl : l.Same l') (hr : r.Same r')
    (hc : Decimal.ConvertsAlike r.amount.unit l.amount.unit r.amount.value r'.amount.value) :
    SameResult Decimal.Same (r.inUnitsOf l) (r'.inUnitsOf l') := by
  have hamount : SameResult Decimal.Same
      (r.amount.value.convertUnit r.amount.unit l.amount.unit)
      (r'.amount.value.convertUnit r'.amount.unit l'.amount.unit) := by
    rw [← hl.unit_eq, ← hr.unit_eq]
    exact hc
  refine hamount.bind fun x y hxy => hl.perSeconds.bind fun s s' hs => ?_
  refine hr.perSeconds.bind fun t t' ht => ?_
  exact alike_orError (rel_scaled hxy hs ht) ⟨rfl, rfl⟩

theorem Rate.Same.combine {l l' r r' : Rate} (hl : l.Same l') (hr : r.Same r')
    (op : ArithmeticOperator)
    (hc : op = .add ∨ op = .subtract ∨ op = .divide →
      Decimal.ConvertsAlike r.amount.unit l.amount.unit r.amount.value r'.amount.value) :
    SameResult Value.Same (l.combine op r) (l'.combine op r') := by
  refine alike_ite .rfl (fun hop => ?_) fun _ => .error (.unsupportedOperation _ _ _ _)
  have hpower : op ≠ .power := by rintro rfl; simp at hop
  refine (hl.inUnitsOf hr (hc hop)).bind fun x y hxy => ?_
  refine (hl.amount.combine hxy op fun h => absurd h hpower).bind fun n n' hn => .ok ?_
  split
  · exact .number hn
  · exact .rate (hl.withValue hn)

namespace Value

/-- What an operator makes of two operands does not tell them from two others: neither does a power
of numbers, nor the conversion of the right one of two quantities or rates. -/
def CombinesAlike (op : ArithmeticOperator) : (l r l' r' : Value) → Prop
  | .number a, .number b, .number a', .number b' =>
    op = .power → Decimal.PowersAlike a b a' b'
  | .quantity l, .quantity r, _, .quantity r' =>
    op ≠ .power → Decimal.ConvertsAlike r.unit l.unit r.value r'.value
  | .rate l, .rate r, _, .rate r' =>
    op = .add ∨ op = .subtract ∨ op = .divide →
      Decimal.ConvertsAlike r.amount.unit l.amount.unit r.amount.value r'.amount.value
  | _, _, _, _ => True

theorem combinesAlike_refl (op : ArithmeticOperator) (l r : Value) : CombinesAlike op l r l r := by
  cases l with
  | number a =>
    cases r with
    | number b => exact fun _ => .refl a b
    | _ => exact True.intro
  | quantity p =>
    cases r with
    | quantity q => exact fun _ => .refl _ _ _
    | _ => exact True.intro
  | rate s =>
    cases r with
    | rate t => exact fun _ => .refl _ _ _
    | _ => exact True.intro
  | _ => exact True.intro

variable {l l' r r' : Value} {a b : Decimal}

theorem Same.combineNumber (hl : l.Same l') (hab : a.Same b) (op : ArithmeticOperator)
    (hp : l.takesNumber op = true → op = .power → ∀ m m', l.magnitude? = some m →
      l'.magnitude? = some m' → Decimal.PowersAlike m a m' b) :
    SameResult Same (l.combineNumber op a) (l'.combineNumber op b) := by
  have htakes : l.takesNumber op = l'.takesNumber op := by cases hl <;> rfl
  have hmagnitude := hl.magnitude
  have hwith (x y : Decimal) := hl.withMagnitude (a := x) (b := y)
  unfold Value.combineNumber
  refine alike_ite (by rw [htakes]) (fun ht => ?_) fun _ => .error (.unsupportedOperation _ _ _ _)
  generalize l.magnitude? = o at hmagnitude hp hwith
  generalize l'.magnitude? = o' at hmagnitude hp
  cases hmagnitude with
  | some hm =>
    refine (hm.combine hab op fun hop => hp ht hop _ _ rfl rfl).bind fun n n' hn => ?_
    exact hwith n n' rfl hn
  | none => exact .error (.unsupportedOperation _ _ _ _)

theorem Same.combineNumberBefore (hr : r.Same r') (hab : a.Same b) (op : ArithmeticOperator)
    (hp : takesNumberBefore op r = true → op ≠ .power) :
    SameResult Same (combineNumberBefore a op r) (combineNumberBefore b op r') := by
  have htakes : takesNumberBefore op r = takesNumberBefore op r' := by cases hr <;> rfl
  have hmagnitude := hr.magnitude
  have hwith (x y : Decimal) := hr.withMagnitude (a := x) (b := y)
  unfold Value.combineNumberBefore
  refine alike_ite (by rw [htakes]) (fun ht => ?_) fun _ => .error (.unsupportedOperation _ _ _ _)
  generalize r.magnitude? = o at hmagnitude hwith
  generalize r'.magnitude? = o' at hmagnitude
  cases hmagnitude with
  | some hm =>
    refine (hab.combine hm op fun hop => absurd hop (hp ht)).bind fun n n' hn => ?_
    exact hwith n n' rfl hn
  | none => exact .error (.unsupportedOperation _ _ _ _)

theorem sameResult_map {α : Type} {x y : Except Error α} (h : SameResult Eq x y) (f : α → Value) :
    SameResult Same (x.map f) (y.map f) := by
  refine h.map ?_
  rintro a _ rfl
  exact .refl _

theorem Same.combineDates (hl : l.Same l') (hr : r.Same r') (op : ArithmeticOperator) :
    SameResult Same (combineDates l op r) (combineDates l' op r') := by
  cases hl with
  | date d =>
    cases op with
    | add =>
      cases hr with
      | duration h => exact sameResult_map (d.sameResult_after h) Value.date
      | _ => exact .error (.unsupportedOperation _ _ _ _)
    | subtract =>
      cases hr with
      | duration h => exact sameResult_map (d.sameResult_before h) Value.date
      | date e => exact .ok (.refl (Value.duration (d.since e)))
      | _ => exact .error (.unsupportedOperation _ _ _ _)
    | _ => exact .error (.unsupportedOperation _ _ _ _)
  | duration h =>
    cases op with
    | add =>
      cases hr with
      | date d => exact sameResult_map (d.sameResult_after h) Value.date
      | _ => exact .error (.unsupportedOperation _ _ _ _)
    | _ => exact .error (.unsupportedOperation _ _ _ _)
  | _ => exact .error (.unsupportedOperation _ _ _ _)

theorem Same.combineTimes (hl : l.Same l') (hr : r.Same r') (op : ArithmeticOperator) :
    SameResult Same (combineTimes l op r) (combineTimes l' op r') := by
  cases hl with
  | time t =>
    cases op with
    | add =>
      cases hr with
      | duration h => exact sameResult_map (t.sameResult_after h) Value.time
      | _ => exact .error (.unsupportedOperation _ _ _ _)
    | subtract =>
      cases hr with
      | duration h => exact sameResult_map (t.sameResult_before h) Value.time
      | time u => exact .ok (.refl (Value.duration (t.since u)))
      | _ => exact .error (.unsupportedOperation _ _ _ _)
    | _ => exact .error (.unsupportedOperation _ _ _ _)
  | duration h =>
    cases op with
    | add =>
      cases hr with
      | time t => exact sameResult_map (t.sameResult_after h) Value.time
      | _ => exact .error (.unsupportedOperation _ _ _ _)
    | _ => exact .error (.unsupportedOperation _ _ _ _)
  | _ => exact .error (.unsupportedOperation _ _ _ _)

/-- Equal operands in equal environments. -/
theorem Same.combine (henv : env.Same env') (hl : l.Same l') (hr : r.Same r')
    (op : ArithmeticOperator) (hc : CombinesAlike op l r l' r') :
    SameResult Same (l.combine op r env) (l'.combine op r' env') := by
  -- The cases are those of the operators: dates, then times, then numbers, then two of a kind.
  have hdates := hl.combineDates hr op
  have htimes := hl.combineTimes hr op
  cases hl with
  | date d => exact hdates
  | time t =>
    cases hr with
    | date d => exact hdates
    | _ => exact htimes
  | number hl =>
    cases hr with
    | date d => exact hdates
    | time t => exact htimes
    | number hr =>
      refine (Same.number hl).combineNumber hr op fun _ hop m m' hm hm' => ?_
      rw [← Option.some.inj hm, ← Option.some.inj hm']
      exact hc hop
    | boolean b => exact .error (.unsupportedOperation _ _ _ _)
    | money hr => exact (Same.money hr).combineNumberBefore hl op (by cases op <;> nofun)
    | quantity hr => exact (Same.quantity hr).combineNumberBefore hl op (by cases op <;> nofun)
    | rate hr => exact (Same.rate hr).combineNumberBefore hl op (by cases op <;> nofun)
    | duration hr => exact (Same.duration hr).combineNumberBefore hl op (by cases op <;> nofun)
  | money hl =>
    cases hr with
    | date d => exact hdates
    | time t => exact htimes
    | number hr => exact (Same.money hl).combineNumber hr op (by cases op <;> nofun)
    | money hr => exact hl.combine henv hr op
    | _ => exact .error (.unsupportedOperation _ _ _ _)
  | quantity hl =>
    cases hr with
    | date d => exact hdates
    | time t => exact htimes
    | number hr => exact (Same.quantity hl).combineNumber hr op (by cases op <;> nofun)
    | quantity hr => exact hl.combine op hc hr
    | duration _ => exact .error ⟨rfl, rfl⟩
    | _ => exact .error (.unsupportedOperation _ _ _ _)
  | rate hl =>
    cases hr with
    | date d => exact hdates
    | time t => exact htimes
    | number hr => exact (Same.rate hl).combineNumber hr op (by cases op <;> nofun)
    | rate hr => exact hl.combine hr op hc
    | duration hr =>
      exact alike_ite .rfl (fun _ => (hl.accumulate hr).map fun _ _ hq => .quantity hq)
        fun _ => .error (.unsupportedOperation _ _ _ _)
    | _ => exact .error (.unsupportedOperation _ _ _ _)
  | duration hl =>
    cases hr with
    | date d => exact hdates
    | time t => exact htimes
    | number hr => exact (Same.duration hl).combineNumber hr op (by cases op <;> nofun)
    | duration hr => exact hl.combine hr op
    | quantity _ => exact .error ⟨rfl, rfl⟩
    | rate hr =>
      exact alike_ite .rfl (fun _ => (hr.accumulate hl).map fun _ _ hq => .quantity hq)
        fun _ => .error (.unsupportedOperation _ _ _ _)
    | _ => exact .error (.unsupportedOperation _ _ _ _)
  | boolean b =>
    cases hr with
    | date d => exact hdates
    | time t => exact htimes
    | number hr => exact .error (.unsupportedOperation _ _ _ _)
    | _ => exact .error (.unsupportedOperation _ _ _ _)

end Value

end Combine

namespace Value

variable {l l' r r' v w : Value}

theorem Same.compare (hl : l.Same l') (hr : r.Same r') (op : ComparisonOperator) :
    SameResult Eq (l.compare op r) (l'.compare op r') := by
  cases hl with
  | number hl =>
    cases hr with
    | number hr => exact .ok (by rw [hl.compare_eq hr])
    | _ => exact .error (.unsupportedOperation _ _ _ _)
  | money hl =>
    cases hr with
    | money hr =>
      obtain ⟨hl⟩ := hl
      obtain ⟨hr⟩ := hr
      exact alike_ite .rfl (fun _ => .ok (by rw [hl.compare_eq hr])) fun _ => .error ⟨rfl, rfl⟩
    | _ => exact .error (.unsupportedOperation _ _ _ _)
  | boolean b =>
    cases hr with
    | boolean c =>
      cases op with
      | equal => exact .ok rfl
      | notEqual => exact .ok rfl
      | _ => exact .error (.unsupportedOperation _ _ _ _)
    | _ => exact .error (.unsupportedOperation _ _ _ _)
  | _ => exact .error (.unsupportedOperation _ _ _ _)

theorem Same.signed (h : v.Same w) (op : UnaryOperator) :
    SameResult Same (v.signed op) (w.signed op) := by
  cases op with
  | negate =>
    cases h with
    | number h => exact .ok (.number h.neg)
    | money h => cases h with | intro h => exact .ok (.money (.intro h.neg))
    | _ => exact .error (.unsupportedOperation _ _ _ _)
  | plus =>
    cases h with
    | number h => exact .ok (.number h)
    | money h => exact .ok (.money h)
    | _ => exact .error (.unsupportedOperation _ _ _ _)

theorem Same.portion (hl : l.Same l') (hr : r.Same r') :
    SameResult Same (portion l r) (portion l' r') := by
  cases hl with
  | number hp =>
    have hmagnitude := hr.magnitude
    have hwith (x y : Decimal) := hr.withMagnitude (a := x) (b := y)
    unfold Value.portion
    generalize r.magnitude? = o at hmagnitude hwith
    generalize r'.magnitude? = o' at hmagnitude
    cases hmagnitude with
    | some hm =>
      refine (alike_orError (hm.mul hp) ⟨rfl, rfl⟩).bind fun n n' hn => ?_
      exact hwith n n' rfl hn
    | none => exact .error (.unsupportedOperation _ _ _ _)
  | _ => exact .error (.unsupportedOperation _ _ _ _)

theorem same_ofNumber {a b : Decimal} (h : a.Same b) (target : String) :
    (ofNumber a target).Same (ofNumber b target) := by
  unfold ofNumber
  generalize TimeUnit.ofString? target = u
  generalize Money.targetCode? target = code
  cases u with
  | some u => exact .duration (.intro h)
  | none =>
    cases code with
    | none => exact .quantity (.intro h)
    | some code =>
      dsimp only
      split
      · exact .quantity (.intro h)
      · exact .money (.intro h)

/-- The conversion to a target does not tell two values apart. -/
def ConvertsAlike (target : String) : (v w : Value) → Prop
  | .quantity p, .quantity q => Decimal.ConvertsAlike p.unit target p.value q.value
  | .rate r, .rate s => Rate.ConvertsAlike target r s
  | _, _ => True

theorem convertsAlike_refl (target : String) (v : Value) : ConvertsAlike target v v := by
  cases v with
  | quantity q => exact .refl _ _ _
  | rate r => exact .refl _ _
  | _ => exact True.intro

theorem Same.convert {env env' : Environment} (henv : env.Same env') (h : v.Same w)
    (target : String) (hc : ConvertsAlike (Text.trim target) v w) :
    SameResult Same (v.convert target env) (w.convert target env') := by
  unfold Value.convert
  generalize Text.trim target = target at hc
  cases h with
  | number h => exact .ok (same_ofNumber h target)
  | money h => exact (h.exchange henv target).map fun _ _ hm => .money hm
  | quantity h => exact (h.convert target hc).map fun _ _ hq => .quantity hq
  | rate h => exact (h.convert target hc).map fun _ _ hs => .rate hs
  | duration h =>
    dsimp only
    generalize TimeUnit.ofString? target = u
    cases u with
    | some u => exact (h.inUnit u).map fun _ _ hd => .duration hd
    | none => exact .error ⟨rfl, rfl⟩
  | _ => exact .error (.unsupportedOperation _ _ _ _)

end Value
end Reckoner
