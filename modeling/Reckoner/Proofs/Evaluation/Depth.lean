import Reckoner.Proofs.Evaluation.Descent
/-!
The limit on the depth. Main statement: it is exact, and apart from it the limit changes nothing. A
run fails on it just if it comes to an expression that is nested deeper than it allows, with the
first depth beyond the limit; a run that does not fail on it is the run under every larger limit.
-/
namespace Reckoner

open Evaluation (outcome)

namespace Limits

/-- The same limits with another one on the depth. -/
def withDepth (limits : Limits) (depth : Nat) : Limits := { limits with depth }

/-- The error of a run that comes to an expression beyond the limit on the depth. -/
def tooDeep (limits : Limits) : Error := .limitExceeded .depth limits.depth (limits.depth + 1)

end Limits

/-- A result is the error that an expression is nested too deep. -/
def ReportsDepth {α : Type} (r : Except Error α) : Prop :=
  ∃ allowed actual, r = .error (.limitExceeded .depth allowed actual)

/-- An error that tells about what is evaluated does not tell about its depth. -/
theorem not_reportsDepth {α : Type} {r : Except Error α}
    (h : ∀ x, r = .error x → x.isOrdinary = true) : ¬ReportsDepth r := by
  rintro ⟨allowed, actual, hr⟩
  cases h _ hr

section LikeOrStops

variable {α β : Type} {stop : Error} {c : Context}

/-- A run is another one, unless it stops with this error. -/
def LikeOrStops (stop : Error) (o u : Except Error α × Context) : Prop :=
  o = u ∨ o.1 = .error stop

theorem likeOrStops_bind {x y : Evaluation α} {f g : α → Evaluation β}
    (h : LikeOrStops stop (outcome x c) (outcome y c))
    (hf : ∀ a d, outcome x c = (.ok a, d) → LikeOrStops stop (outcome (f a) d) (outcome (g a) d)) :
    LikeOrStops stop (outcome (x >>= f) c) (outcome (y >>= g) c) := by
  rcases h with h | h
  · rcases Evaluation.outcome_bind x f c with ⟨a, d, hx, hxf⟩ | ⟨e, d, hx, hxf⟩
    · rw [hxf, Evaluation.outcome_bind_of_ok (h ▸ hx)]
      exact hf a d hx
    · rw [hxf, Evaluation.outcome_bind_of_error (h ▸ hx)]
      exact Or.inl rfl
  · exact Or.inr (Evaluation.outcome_bind_fst h f)

end LikeOrStops

section Larger

variable {limits : Limits} {D : Nat}

theorem Function.apply_withDepth (f : Function) (a : Arguments f.slots) (word : String) :
    f.apply (limits.withDepth D) word a = f.apply limits word a := by
  cases f <;> rfl

theorem Task.perform_withDepth (t : Task) (a : Arguments t.slots) (env : Environment) :
    t.perform (limits.withDepth D) a env = t.perform limits a env := by
  cases t with
  | apply f word => exact congrArg (Except.map (·, env)) (f.apply_withDepth a word)
  | _ => rfl

theorem Task.act_withDepth (t : Task) : t.act (limits.withDepth D) = t.act limits := by
  funext a
  exact bind_congr fun env => by rw [t.perform_withDepth]

namespace Expression

theorem read_likeOrStops {e : Expression} {c : Context}
    (h : LikeOrStops limits.tooDeep (outcome (evaluate limits e) c)
      (outcome (evaluate (limits.withDepth D) e) c)) (p : Parameter) (word : String)
    (position : Nat) :
    LikeOrStops limits.tooDeep (outcome (p.read word position e (evaluate limits e)) c)
      (outcome (p.read word position e (evaluate (limits.withDepth D) e)) c) := by
  rw [Parameter.read_eq, Parameter.read_eq]
  cases p.taken? word position e with
  | some r => exact Or.inl rfl
  | none => exact likeOrStops_bind h fun _ _ _ => Or.inl rfl

theorem readArguments_likeOrStops {es : List Expression}
    (h : ∀ e ∈ es, ∀ c : Context, c.depth ≤ limits.depth →
      LikeOrStops limits.tooDeep (outcome (evaluate limits e) c)
        (outcome (evaluate (limits.withDepth D) e) c))
    (word : String) (slots : List Slot) (position : Nat) {c : Context}
    (hc : c.depth ≤ limits.depth) :
    LikeOrStops limits.tooDeep (outcome (readArguments limits word slots position es) c)
      (outcome (readArguments (limits.withDepth D) word slots position es) c) := by
  induction es generalizing slots position c with
  | nil =>
    rw [readArguments, readArguments]
    exact Or.inl rfl
  | cons e rest ih =>
    cases slots with
    | nil =>
      rw [readArguments, readArguments]
      exact Or.inl rfl
    | cons s slots =>
      rw [readArguments_cons, readArguments_cons]
      have he := h e List.mem_cons_self c hc
      refine likeOrStops_bind (read_likeOrStops he _ _ _) fun a d ha => ?_
      -- The arguments behind this one run at the same depth.
      have hd := balanced_read limits word s.parameter position e c
      rw [ha] at hd
      have hrest := ih (fun x hx => h x (List.mem_cons_of_mem e hx)) (s.rest slots) (position + 1)
        (hd.le.trans hc)
      exact likeOrStops_bind hrest fun _ _ _ => Or.inl rfl

/-- A run is the one under a larger limit, unless it fails on the depth. -/
theorem evaluate_likeOrStops (hD : limits.depth ≤ D) (e : Expression) {c : Context}
    (hc : c.depth ≤ limits.depth) :
    LikeOrStops limits.tooDeep (outcome (evaluate limits e) c)
      (outcome (evaluate (limits.withDepth D) e) c) := by
  induction e using operands_induction generalizing c with
  | h e ih =>
    -- At the limit the run stops here; below it the operands run one level deeper.
    rcases Nat.eq_or_lt_of_le hc with hc | hc
    · refine Or.inr ?_
      rw [evaluate_eq, Evaluation.outcome_nested_of_lt (by omega), Limits.tooDeep, hc]
    · have hsteps : LikeOrStops limits.tooDeep
          (outcome (e.readOperands limits >>= e.task.act limits) c.deeper)
          (outcome (e.readOperands (limits.withDepth D) >>= e.task.act (limits.withDepth D))
            c.deeper) := by
        rw [Task.act_withDepth]
        refine likeOrStops_bind ?_ fun _ _ _ => Or.inl rfl
        exact readArguments_likeOrStops (fun x hx c hc => ih x hx hc) _ _ 1 hc
      rcases hx : outcome (e.readOperands limits >>= e.task.act limits) c.deeper with ⟨r, d⟩
      rw [hx] at hsteps
      rw [evaluate_eq, evaluate_eq, Evaluation.outcome_nested_of_le hc hx]
      rcases hsteps with hsteps | hstops
      · rw [Evaluation.outcome_nested_of_le (hc.trans_le hD) hsteps.symm]
        exact Or.inl rfl
      · exact Or.inr hstops

/-- Where a run under a larger limit awaits an operand, this one gets to it too or has failed on the
depth before: in both cases a failure of the operand on the depth is one of the arguments. -/
theorem Awaits.stops {word : String} {slots : List Slot} {position : Nat} {es : List Expression}
    {c d : Context} {i : Nat} {p : Parameter} {x : Expression} (hD : limits.depth ≤ D)
    (h : Awaits (limits.withDepth D) word slots position es c i p x d)
    (hc : c.depth ≤ limits.depth)
    (hx : (outcome (evaluate limits x) d).1 = .error limits.tooDeep) :
    (outcome (readArguments limits word slots position es) c).1 = .error limits.tooDeep := by
  induction h with
  | @head s _ position x _ c ht =>
    rw [readArguments_cons, Parameter.read_eq, ht]
    exact Evaluation.outcome_bind_fst (Evaluation.outcome_bind_fst hx _) _
  | @tail s slots position e rest c c' a _ _ _ _ hread _ ih =>
    have hlike := read_likeOrStops (evaluate_likeOrStops hD e hc) s.parameter word position
    rw [readArguments_cons]
    rw [hread] at hlike
    -- This run has read the argument just as the other one has, or has stopped at it.
    rcases hlike with hlike | hstops
    · have hc' := balanced_read limits word s.parameter position e c
      rw [hlike] at hc'
      have hrest := ih (hc'.le.trans hc) hx
      rw [Evaluation.outcome_bind_of_ok hlike]
      exact Evaluation.outcome_bind_fst hrest _
    · exact Evaluation.outcome_bind_fst hstops _

theorem evaluate_tooDeep_of_here {e : Expression} {c : Context} (hc : c.depth = limits.depth) :
    (outcome (evaluate limits e) c).1 = .error limits.tooDeep := by
  rw [evaluate_eq, Evaluation.outcome_nested_of_lt (by omega), Limits.tooDeep, hc]

theorem evaluate_fst_of_readOperands {e : Expression} {c : Context} {x : Error}
    (hc : c.depth < limits.depth)
    (h : (outcome (e.readOperands limits) c.deeper).1 = .error x) :
    (outcome (evaluate limits e) c).1 = .error x := by
  have hsteps := Evaluation.outcome_bind_fst h (e.task.act limits)
  rcases hx : outcome (e.readOperands limits >>= e.task.act limits) c.deeper with ⟨r, d⟩
  rw [hx] at hsteps
  rw [evaluate_eq, Evaluation.outcome_nested_of_le hc hx]
  exact hsteps

/-- Whoever would come to an expression beyond the limit, were it larger, fails on it. -/
theorem Descends.stops {path : List Nat} {e part : Expression} {c d : Context}
    (hD : limits.depth ≤ D) (h : Descends (limits.withDepth D) path e c part d)
    (hc : c.depth ≤ limits.depth) (hpath : limits.depth ≤ c.depth + path.length) :
    (outcome (evaluate limits e) c).1 = .error limits.tooDeep := by
  induction h with
  | here e c => exact evaluate_tooDeep_of_here (Nat.le_antisymm hc hpath)
  | @operand i path e c p x d part d' _ hx _ ih =>
    rcases Nat.eq_or_lt_of_le hc with hc | hc
    · exact evaluate_tooDeep_of_here hc
    · -- The operand has used up one step of the way and one level of the limit.
      have hd : d.depth = c.depth + 1 := hx.depth
      rw [List.length_cons] at hpath
      exact evaluate_fst_of_readOperands hc (hx.stops hD hc (ih (by omega) (by omega)))

end Expression

end Larger

section Reported

variable {limits : Limits}

/-- Two steps report the depth only where one of them does. -/
theorem reportsDepth_bind {α β : Type} {x : Evaluation α} {f : α → Evaluation β} {c : Context}
    (h : ReportsDepth (outcome (x >>= f) c).1) :
    ReportsDepth (outcome x c).1 ∨
      ∃ a d, outcome x c = (.ok a, d) ∧ ReportsDepth (outcome (f a) d).1 := by
  rcases Evaluation.outcome_bind x f c with ⟨a, d, hx, hxf⟩ | ⟨e, d, hx, hxf⟩
  · rw [hxf] at h
    exact Or.inr ⟨a, d, hx, h⟩
  · obtain ⟨allowed, actual, he⟩ := h
    rw [hxf] at he
    rw [hx, Except.error.inj he]
    exact Or.inl ⟨allowed, actual, rfl⟩

theorem Task.not_reportsDepth_act (t : Task) (a : Arguments t.slots) (c : Context) :
    ¬ReportsDepth (outcome (t.act limits a) c).1 := by
  rw [t.outcome_act]
  have hperform (x : Error) (hx : t.perform limits a c.environment = .error x) :
      x.isOrdinary = true := Task.isOrdinary_of_perform hx
  generalize t.perform limits a c.environment = r at hperform
  cases r with
  | ok p => exact not_reportsDepth fun x hx => by cases hx
  | error y =>
    refine not_reportsDepth fun x hx => ?_
    cases hx
    exact hperform y rfl

namespace Expression

/-- Reading an argument reports the depth only where evaluating it does. -/
theorem reportsDepth_of_read {p : Parameter} {word : String} {position : Nat} {e : Expression}
    {c : Context}
    (h : ReportsDepth (outcome (p.read word position e (evaluate limits e)) c).1) :
    p.taken? word position e = none ∧ ReportsDepth (outcome (evaluate limits e) c).1 := by
  rw [Parameter.read_eq] at h
  cases ht : p.taken? word position e with
  | some r =>
    rw [ht] at h
    exact absurd h (not_reportsDepth fun x hx => (Parameter.sameResult_taken ht).isOrdinary hx)
  | none =>
    rw [ht] at h
    rcases reportsDepth_bind h with h | ⟨v, d, -, h⟩
    · exact ⟨rfl, h⟩
    · have hvalue := Parameter.sameResult_ofValue (.refl v) word position (p.readsAlike_refl v)
      exact absurd h (not_reportsDepth fun x hx => hvalue.isOrdinary hx)

/-- Reading arguments reports the depth only where evaluating one of them does. -/
theorem exists_awaits {word : String} {slots : List Slot} {position : Nat}
    {es : List Expression} {c : Context}
    (h : ReportsDepth (outcome (readArguments limits word slots position es) c).1) :
    ∃ i p x d, Awaits limits word slots position es c i p x d ∧
      ReportsDepth (outcome (evaluate limits x) d).1 := by
  induction es generalizing slots position c with
  | nil =>
    rw [readArguments] at h
    exact absurd h (not_reportsDepth fun x hx => (sameResult_orError _ ⟨rfl, rfl⟩).isOrdinary hx)
  | cons e rest ih =>
    cases slots with
    | nil =>
      rw [readArguments] at h
      exact absurd h (not_reportsDepth fun x hx => by cases hx)
    | cons s slots =>
      rw [readArguments_cons] at h
      rcases reportsDepth_bind h with h | ⟨a, c', ha, h⟩
      · obtain ⟨ht, hreports⟩ := reportsDepth_of_read h
        exact ⟨0, s.parameter, e, c, .head ht, hreports⟩
      · rcases reportsDepth_bind h with h | ⟨as, d, -, h⟩
        · obtain ⟨i, p, x, d, hawaits, hreports⟩ := ih h
          exact ⟨i + 1, p, x, d, .tail ha hawaits, hreports⟩
        · exact absurd h (not_reportsDepth fun x hx => by cases hx)

/-- A run reports the depth only where it comes to an expression just beyond the limit. -/
theorem exists_descends (e : Expression) {c : Context} (hc : c.depth ≤ limits.depth)
    (h : ReportsDepth (outcome (evaluate limits e) c).1) :
    ∃ path part d, Descends limits path e c part d ∧ c.depth + path.length = limits.depth := by
  induction e using operands_induction generalizing c with
  | h e ih =>
    rcases Nat.eq_or_lt_of_le hc with hc | hc
    · exact ⟨[], e, c, .here e c, hc⟩
    · rcases hx : outcome (e.readOperands limits >>= e.task.act limits) c.deeper with ⟨r, d⟩
      rw [evaluate_eq, Evaluation.outcome_nested_of_le hc hx,
        show r = (outcome (e.readOperands limits >>= e.task.act limits) c.deeper).1 by rw [hx]] at h
      -- Of the two parts of an evaluation only reading the operands may report the depth.
      rcases reportsDepth_bind h with h | ⟨a, d, -, h⟩
      · obtain ⟨i, p, x, d, hawaits, hreports⟩ := exists_awaits h
        have hd : d.depth = c.depth + 1 := hawaits.depth
        obtain ⟨path, part, d', hdescends, hlength⟩ := ih x hawaits.mem (by omega) hreports
        refine ⟨i :: path, part, d', .operand hc hawaits hdescends, ?_⟩
        rw [List.length_cons]
        omega
      · exact absurd h (e.task.not_reportsDepth_act a d)

end Expression

end Reported

namespace Expression

variable {limits : Limits} {e : Expression} {env : Environment}

theorem value_eq (limits : Limits) (e : Expression) (env : Environment) :
    value limits e env = ((outcome (evaluate limits e) (.start env)).1,
      (outcome (evaluate limits e) (.start env)).2.environment) := rfl

theorem value_withDepth (limits : Limits) {D : Nat} (hD : limits.depth ≤ D)
    (h : ¬ReportsDepth (value limits e env).1) :
    value (limits.withDepth D) e env = value limits e env := by
  rcases evaluate_likeOrStops hD e (c := .start env) (Nat.zero_le _) with hlike | hstops
  · rw [value_eq, value_eq, hlike]
  · exact absurd ⟨_, _, hstops⟩ h

theorem not_reportsDepth_value (h : e.height ≤ limits.depth) :
    ¬ReportsDepth (value limits e env).1 := by
  intro hreports
  obtain ⟨path, part, d, hdescends, hlength⟩ :=
    exists_descends e (c := .start env) (Nat.zero_le _) hreports
  have hlt := hdescends.length_lt
  have hstart : (Context.start env).depth = 0 := rfl
  omega

theorem value_tooDeep {D : Nat} (hD : limits.depth ≤ D) {path : List Nat} {part : Expression}
    {d : Context} (h : Descends (limits.withDepth D) path e (.start env) part d)
    (hpath : limits.depth < path.length + 1) :
    (value limits e env).1 = .error limits.tooDeep :=
  h.stops hD (Nat.zero_le _) ((Nat.le_of_lt_succ hpath).trans (Nat.le_add_left _ _))

/-- The limit on the depth. An expression that is no higher than the limit never fails on it, and
has one outcome under all limits that are no lower than it is high. A run that does not fail on the
limit is the run under every larger one. A run fails on it just if it comes to an expression that
is nested deeper, and then it tells the first depth beyond the limit; so does a run that would come
to such an expression if the limit were larger. -/
theorem value_depth_exact (limits : Limits) (e : Expression) (env : Environment) :
    (∀ D, e.height ≤ D → ¬ReportsDepth (value (limits.withDepth D) e env).1 ∧
      value (limits.withDepth D) e env = value (limits.withDepth e.height) e env) ∧
    (∀ D, limits.depth ≤ D → ¬ReportsDepth (value limits e env).1 →
      value (limits.withDepth D) e env = value limits e env) ∧
    (∀ D path part d, limits.depth ≤ D →
      Descends (limits.withDepth D) path e (.start env) part d → limits.depth < path.length + 1 →
      (value limits e env).1 = .error (.limitExceeded .depth limits.depth (limits.depth + 1))) ∧
    (ReportsDepth (value limits e env).1 ↔
      ∃ path part d, Descends limits path e (.start env) part d ∧
        limits.depth < path.length + 1) := by
  refine ⟨fun D hD => ⟨not_reportsDepth_value hD, ?_⟩, fun D hD h => value_withDepth limits hD h,
    fun D path part d hD h hpath => value_tooDeep hD h hpath, fun h => ?_, ?_⟩
  · exact value_withDepth (limits.withDepth e.height) hD (not_reportsDepth_value le_rfl)
  · obtain ⟨path, part, d, hdescends, hlength⟩ :=
      exists_descends e (c := .start env) (Nat.zero_le _) h
    have hstart : (Context.start env).depth = 0 := rfl
    exact ⟨path, part, d, hdescends, by omega⟩
  · rintro ⟨path, part, d, hdescends, hpath⟩
    exact ⟨_, _, value_tooDeep (D := limits.depth) le_rfl hdescends hpath⟩

/-- The operands of a sum are nested one deeper than the sum: a limit of two allows them, and under
a limit of one the run fails at the first of them. -/
theorem value_sum_too_deep :
    let sum : Expression := .arithmetic (.number "1") .add (.number "2")
    let limits := Limits.standard.withDepth 1
    sum.height ≤ 2 ∧ ¬ReportsDepth (value (limits.withDepth 2) sum .initial).1 ∧
      limits.depth ≤ 2 ∧
      Descends (limits.withDepth 2) [0] sum (.start .initial) (.number "1") ⟨.initial, 1⟩ ∧
      (value limits sum .initial).1 = .error (.limitExceeded .depth 1 2) := by
  intro sum limits
  have hdescends :
      Descends (limits.withDepth 2) [0] sum (.start .initial) (.number "1") ⟨.initial, 1⟩ :=
    .operand (by decide) (.head rfl) (.here _ _)
  obtain ⟨hhigh, -, htooDeep, -⟩ := value_depth_exact limits sum .initial
  exact ⟨by decide, (hhigh 2 (by decide)).1, by decide, hdescends,
    htooDeep 2 [0] _ _ (by decide) hdescends (by decide)⟩

end Expression
end Reckoner
