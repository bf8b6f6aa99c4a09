import Reckoner.Evaluation.Evaluate
/-!
What actions come to and the context they leave, step by step. Main statements: an action of two
steps stops where its first step fails, and one that is nested gives the depth back.
-/
namespace Reckoner

/-- The same environment one level deeper. -/
def Context.deeper (c : Context) : Context := { c with depth := c.depth + 1 }

@[simp] theorem Context.deeper_environment (c : Context) : c.deeper.environment = c.environment :=
  rfl

@[simp] theorem Context.deeper_depth (c : Context) : c.deeper.depth = c.depth + 1 := rfl

namespace Evaluation

variable {α β : Type} {c d : Context}

@[simp] theorem outcome_result (r : Except Error α) (c : Context) :
    outcome (result r) c = (r, c) := rfl

theorem outcome_bind_of_ok {x : Evaluation α} {a : α} (h : outcome x c = (.ok a, d))
    (f : α → Evaluation β) : outcome (x >>= f) c = outcome (f a) d := by
  show StateT.bind x.run (ExceptT.bindCont f) c = _
  unfold StateT.bind
  rw [show x.run c = (.ok a, d) from h]
  rfl

theorem outcome_bind_of_error {x : Evaluation α} {e : Error} (h : outcome x c = (.error e, d))
    (f : α → Evaluation β) : outcome (x >>= f) c = (.error e, d) := by
  show StateT.bind x.run (ExceptT.bindCont f) c = _
  unfold StateT.bind
  rw [show x.run c = (.error e, d) from h]
  rfl

theorem outcome_bind_fst {x : Evaluation α} {e : Error} (h : (outcome x c).1 = .error e)
    (f : α → Evaluation β) : (outcome (x >>= f) c).1 = .error e := by
  rcases hx : outcome x c with ⟨r, d⟩
  rw [hx] at h
  cases h
  rw [outcome_bind_of_error hx]

theorem outcome_nested_of_lt {limits : Limits} (h : limits.depth < c.depth + 1)
    (x : Evaluation α) :
    outcome (nested limits x) c =
      (.error (.limitExceeded .depth limits.depth (c.depth + 1)), c) :=
  if_pos h

theorem outcome_nested_of_le {limits : Limits} (h : c.depth + 1 ≤ limits.depth)
    {x : Evaluation α} {r : Except Error α} (hx : outcome x c.deeper = (r, d)) :
    outcome (nested limits x) c = (r, { d with depth := d.depth - 1 }) := by
  have hn : outcome (nested limits x) c =
      ((outcome x c.deeper).1, { (outcome x c.deeper).2 with
        depth := (outcome x c.deeper).2.depth - 1 }) := if_neg (Nat.not_lt.mpr h)
  rw [hn, hx]

theorem outcome_nested_congr {limits : Limits} {x y : Evaluation α}
    (h : outcome x c.deeper = outcome y c.deeper) :
    outcome (nested limits x) c = outcome (nested limits y) c := by
  rcases Nat.lt_or_ge limits.depth (c.depth + 1) with hlt | hle
  · rw [outcome_nested_of_lt hlt, outcome_nested_of_lt hlt]
  · rcases hy : outcome y c.deeper with ⟨r, d⟩
    rw [outcome_nested_of_le hle (h.trans hy), outcome_nested_of_le hle hy]

/-- A second step that does not depend on the context leaves what the first one leaves. -/
theorem outcome_bind_result {y : Evaluation α} {r : Except Error α} (h : outcome y c = (r, d))
    (g : α → Except Error β) :
    outcome (y >>= fun a => result (g a)) c = (r >>= g, d) := by
  rcases r with err | a
  · exact outcome_bind_of_error h _
  · exact outcome_bind_of_ok h _

/-- Two steps, case by case over how the first one ends. -/
theorem outcome_bind (x : Evaluation α) (f : α → Evaluation β) (c : Context) :
    (∃ a d, outcome x c = (.ok a, d) ∧ outcome (x >>= f) c = outcome (f a) d) ∨
      ∃ e d, outcome x c = (.error e, d) ∧ outcome (x >>= f) c = (.error e, d) := by
  rcases hx : outcome x c with ⟨a | a, d⟩
  · exact Or.inr ⟨_, _, rfl, outcome_bind_of_error hx f⟩
  · exact Or.inl ⟨_, _, rfl, outcome_bind_of_ok hx f⟩

/-- Two steps beside two others that begin alike. -/
theorem outcome_bind_congr {x y : Evaluation α} {f g : α → Evaluation β}
    (hx : outcome x c = outcome y c)
    (hf : ∀ a d, outcome x c = (.ok a, d) → outcome (f a) d = outcome (g a) d) :
    outcome (x >>= f) c = outcome (y >>= g) c := by
  rcases outcome_bind x f c with ⟨a, d, ha, h⟩ | ⟨e, d, he, h⟩
  · rw [h, hf a d ha, outcome_bind_of_ok (hx.symm.trans ha)]
  · rw [h, outcome_bind_of_error (hx.symm.trans he)]

section Balanced

/-- An action gives the depth back, however it ends. -/
def Balanced (x : Evaluation α) : Prop := ∀ c, (outcome x c).2.depth = c.depth

theorem balanced_result (r : Except Error α) : Balanced (result r) := fun _ => rfl

theorem balanced_bind {x : Evaluation α} {f : α → Evaluation β} (hx : Balanced x)
    (hf : ∀ a, Balanced (f a)) : Balanced (x >>= f) := by
  intro c
  have hc := hx c
  rcases outcome_bind x f c with ⟨a, d, hxc, h⟩ | ⟨e, d, hxc, h⟩
  · rw [h, hf a d, ← hc, hxc]
  · rw [h, ← hc, hxc]

end Balanced

end Evaluation
end Reckoner
