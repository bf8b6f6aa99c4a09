import Reckoner.Proofs.Evaluation.Task
/-!
Where a run comes to: from an expression to those of its operands that it evaluates, after those in
front of them have given values. Main statement: a way down has fewer steps than the expression is
high.
-/
namespace Reckoner.Expression

open Evaluation (outcome)

variable {limits : Limits} {word : String}

/-- Reading arguments comes to the evaluation of the one with number `i`, which is `x` and is read
by `p`, in the context `d`. -/
inductive Awaits (limits : Limits) (word : String) :
    (slots : List Slot) → (position : Nat) → List Expression → Context → (i : Nat) → Parameter →
      (x : Expression) → (d : Context) → Prop
  | head {s : Slot} {slots : List Slot} {position : Nat} {x : Expression} {rest : List Expression}
      {c : Context} (h : s.parameter.taken? word position x = none) :
      Awaits limits word (s :: slots) position (x :: rest) c 0 s.parameter x c
  | tail {s : Slot} {slots : List Slot} {position : Nat} {e : Expression} {rest : List Expression}
      {c c' : Context} {a : s.parameter.Meaning} {i : Nat} {p : Parameter} {x : Expression}
      {d : Context}
      (h : outcome (s.parameter.read word position e (evaluate limits e)) c = (.ok a, c'))
      (hx : Awaits limits word (s.rest slots) (position + 1) rest c' i p x d) :
      Awaits limits word (s :: slots) position (e :: rest) c (i + 1) p x d

/-- The evaluation of `e` in the context `c` comes to that of `part` in the context `d`; the path
tells the numbers of the operands on the way down. Whether the limit then allows `part` is left
open. -/
inductive Descends (limits : Limits) :
    (path : List Nat) → Expression → Context → (part : Expression) → (d : Context) → Prop
  | here (e : Expression) (c : Context) : Descends limits [] e c e c
  | operand {i : Nat} {path : List Nat} {e : Expression} {c : Context} {p : Parameter}
      {x : Expression} {d : Context} {part : Expression} {d' : Context}
      (hc : c.depth < limits.depth)
      (hx : Awaits limits e.task.word e.task.slots 1 e.operands c.deeper i p x d)
      (h : Descends limits path x d part d') : Descends limits (i :: path) e c part d'

section Awaits

variable {slots : List Slot} {position : Nat} {es : List Expression} {c d : Context} {i : Nat}
  {p : Parameter} {x : Expression}

theorem Awaits.mem (h : Awaits limits word slots position es c i p x d) : x ∈ es := by
  induction h with
  | head _ => exact List.mem_cons_self
  | tail _ _ ih => exact List.mem_cons_of_mem _ ih

/-- Arguments are evaluated side by side, at one depth. -/
theorem Awaits.depth (h : Awaits limits word slots position es c i p x d) : d.depth = c.depth := by
  induction h with
  | head _ => rfl
  | @tail s _ position e _ c _ _ _ _ _ _ h _ ih =>
    have hread := balanced_read limits word s.parameter position e c
    rw [h] at hread
    exact ih.trans hread

end Awaits

variable {path : List Nat} {e part : Expression} {c d : Context}

theorem Descends.length_lt (h : Descends limits path e c part d) : path.length < e.height := by
  induction h with
  | here e c => exact e.height_pos
  | operand _ hx _ ih =>
    have hlower := height_lt_of_mem_operands hx.mem
    rw [List.length_cons]
    omega

end Reckoner.Expression
