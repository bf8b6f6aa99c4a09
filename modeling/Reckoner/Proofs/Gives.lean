import Reckoner.Error
/-!
What a computation gives, if it gives anything: one rule for each way in which computations are put
together.
-/
namespace Reckoner

theorem ok_bind {α β : Type} (a : α) (f : α → Except Error β) : (Except.ok a >>= f) = f a := rfl

/-- Whatever a computation gives has a property. -/
def Gives {α : Type} (x : Except Error α) (P : α → Prop) : Prop := ∀ a, x = .ok a → P a

section Gives

variable {α β : Type} {P : α → Prop} {Q : β → Prop} {x : Except Error α}

theorem gives_error (e : Error) : Gives (.error e) P := by
  intro a h
  cases h

theorem gives_ok {a : α} (h : P a) : Gives (.ok a) P := by
  intro b hb
  cases hb
  exact h

theorem gives_self (x : Except Error α) : Gives x (x = .ok ·) := fun _ h => h

theorem Gives.imp {P' : α → Prop} (hx : Gives x P) (h : ∀ a, P a → P' a) : Gives x P' :=
  fun a ha => h a (hx a ha)

theorem gives_bind {f : α → Except Error β} (hx : Gives x P) (hf : ∀ a, P a → Gives (f a) Q) :
    Gives (x >>= f) Q := by
  cases x with
  | ok a => exact hf a (hx a rfl)
  | error e => exact gives_error e

/-- A step whose result does not matter. -/
theorem gives_after {f : α → Except Error β} (hf : ∀ a, Gives (f a) Q) : Gives (x >>= f) Q :=
  gives_bind (gives_self x) fun a _ => hf a

theorem gives_map {f : α → β} (h : Gives x fun a => Q (f a)) : Gives (x.map f) Q := by
  cases x with
  | ok a => exact gives_ok (h a rfl)
  | error e => exact gives_error e

theorem Gives.of_map {f : α → β} (h : Gives x P) : Gives (x.map f) fun b => ∃ a, b = f a ∧ P a :=
  gives_map fun a ha => ⟨a, rfl, h a ha⟩

theorem gives_orError {o : Option α} {e : Error} (h : ∀ a, o = some a → P a) :
    Gives (orError o e) P := by
  cases o with
  | some a => exact gives_ok (h a rfl)
  | none => exact gives_error e

theorem gives_ite {c : Prop} [Decidable c] {y : Except Error α} (hx : c → Gives x P)
    (hy : ¬c → Gives y P) : Gives (if c then x else y) P := by
  split
  · next h => exact hx h
  · next h => exact hy h

theorem eq_ok_of_toOption {x : Except Error α} {a : α} (h : x.toOption = some a) : x = .ok a := by
  cases x with
  | ok b => exact congrArg Except.ok (Option.some.inj h)
  | error e => cases h

end Gives
end Reckoner
