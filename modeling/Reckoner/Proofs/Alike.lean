import Mathlib.Data.Option.Defs
import Mathlib.Data.List.Forall2
import Reckoner.Error
/-!
Two computations side by side: both give something, and what they give is related, or both fail, and
their errors are related. One rule for each way in which computations are put together.
-/
namespace Reckoner

/-- Two results are both there and related, or are both errors and related. -/
inductive Alike {α β : Type} (E : Error → Error → Prop) (V : α → β → Prop) :
    Except Error α → Except Error β → Prop
  | ok {a : α} {b : β} (h : V a b) : Alike E V (.ok a) (.ok b)
  | error {x y : Error} (h : E x y) : Alike E V (.error x) (.error y)

section Alike

variable {α β γ δ : Type} {E : Error → Error → Prop} {V : α → β → Prop} {W : γ → δ → Prop}
  {x : Except Error α} {y : Except Error β}

theorem Alike.imp {V' : α → β → Prop} (h : Alike E V x y) (hV : ∀ a b, V a b → V' a b) :
    Alike E V' x y := by
  cases h with
  | ok h => exact .ok (hV _ _ h)
  | error h => exact .error h

/-- What is related is what the two computations give. -/
theorem Alike.and_eq (h : Alike E V x y) :
    Alike E (fun a b => x = .ok a ∧ y = .ok b ∧ V a b) x y := by
  cases h with
  | ok h => exact .ok ⟨rfl, rfl, h⟩
  | error h => exact .error h

theorem Alike.bind {f : α → Except Error γ} {g : β → Except Error δ} (h : Alike E V x y)
    (hf : ∀ a b, V a b → Alike E W (f a) (g b)) : Alike E W (x >>= f) (y >>= g) := by
  cases h with
  | ok h => exact hf _ _ h
  | error h => exact .error h

theorem Alike.map {f : α → γ} {g : β → δ} (h : Alike E V x y)
    (hf : ∀ a b, V a b → W (f a) (g b)) : Alike E W (x.map f) (y.map g) := by
  cases h with
  | ok h => exact .ok (hf _ _ h)
  | error h => exact .error h

theorem alike_orError {o : Option α} {p : Option β} {e e' : Error} (h : Option.Rel V o p)
    (he : E e e') : Alike E V (orError o e) (orError p e') := by
  cases h with
  | some h => exact .ok h
  | none => exact .error he

/-- Two conditions that hold together choose alike. -/
theorem alike_ite {c d : Prop} [Decidable c] [Decidable d] {x' : Except Error α}
    {y' : Except Error β} (hcd : c ↔ d) (h : c → Alike E V x y) (h' : ¬c → Alike E V x' y') :
    Alike E V (if c then x else x') (if d then y else y') := by
  by_cases hc : c
  · rw [if_pos hc, if_pos (hcd.mp hc)]
    exact h hc
  · rw [if_neg hc, if_neg (mt hcd.mpr hc)]
    exact h' hc

end Alike

/-- Whether an error tells about what is evaluated: neither about a limit nor about a state that no
input leads to. -/
def Error.isOrdinary : Error → Bool
  | limitExceeded _ _ _ => false
  | internal _ => false
  | _ => true

/-- Two errors that tell about what is evaluated have one cause, whatever texts and numbers they
name. -/
structure Error.SameCause (x y : Error) : Prop where
  isOrdinary : x.isOrdinary = true
  ctorIdx_eq : x.ctorIdx = y.ctorIdx

namespace Error.SameCause

/-- The descriptions of operands do not matter. -/
theorem unsupportedOperation (operator operator' operands operands' : String) :
    SameCause (.unsupportedOperation operator operands)
      (.unsupportedOperation operator' operands') :=
  ⟨rfl, rfl⟩

theorem wrongArgumentType (function function' : String) (position position' : Nat)
    (expected expected' found found' : String) :
    SameCause (.wrongArgumentType function position expected found)
      (.wrongArgumentType function' position' expected' found') :=
  ⟨rfl, rfl⟩

end Error.SameCause

/-- Two results are of one cause or are related. -/
abbrev SameResult {α β : Type} (V : α → β → Prop) : Except Error α → Except Error β → Prop :=
  Alike Error.SameCause V

/-- What fails for one cause with another computation fails with an error that tells about what is
evaluated. -/
theorem SameResult.isOrdinary {α β : Type} {V : α → β → Prop} {r : Except Error α}
    {s : Except Error β} (h : SameResult V r s) {x : Error} (hx : r = .error x) :
    x.isOrdinary = true := by
  subst hx
  cases h with
  | error h => exact h.isOrdinary

theorem sameResult_orError {α : Type} (o : Option α) {x y : Error} (h : x.SameCause y) :
    SameResult Eq (orError o x) (orError o y) := by
  cases o with
  | some a => exact .ok rfl
  | none => exact .error h

/-- Two equal results that are the same before something is made of them are the same after it. -/
theorem SameResult.bind_eq {α γ δ : Type} {W : γ → δ → Prop} {x y : Except Error α}
    {f : α → Except Error γ} {g : α → Except Error δ} (h : SameResult Eq x y)
    (hf : ∀ a, SameResult W (f a) (g a)) : SameResult W (x >>= f) (y >>= g) := by
  refine h.bind ?_
  rintro a _ rfl
  exact hf a

end Reckoner
