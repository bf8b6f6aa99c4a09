import Reckoner.Proofs.Gives
/-!
What a computation fails with, if it fails: one rule for each way in which computations are put
together.
-/
namespace Reckoner

/-- Whatever a computation fails with has a property. -/
def Fails {α : Type} (x : Except Error α) (P : Error → Prop) : Prop := ∀ e, x = .error e → P e

section Fails

variable {α β : Type} {P : Error → Prop} {x : Except Error α}

theorem fails_ok (a : α) : Fails (.ok a) P := nofun

theorem fails_error {e : Error} (h : P e) : Fails (.error e : Except Error α) P := by
  intro e' he
  cases he
  exact h

theorem fails_bind {f : α → Except Error β} (hx : Fails x P) (hf : ∀ a, x = .ok a → Fails (f a) P) :
    Fails (x >>= f) P := by
  cases x with
  | ok a => exact hf a rfl
  | error e => exact fails_error (hx e rfl)

theorem fails_map {f : α → β} (hx : Fails x P) : Fails (x.map f) P := by
  cases x with
  | ok a => exact fails_ok _
  | error e => exact fails_error (hx e rfl)

theorem fails_orError (o : Option α) {e : Error} (h : P e) : Fails (orError o e) P := by
  cases o with
  | some a => exact fails_ok a
  | none => exact fails_error h

theorem fails_ite {c : Prop} [Decidable c] {y : Except Error α} (hx : c → Fails x P)
    (hy : ¬c → Fails y P) : Fails (if c then x else y) P := by
  split
  · next h => exact hx h
  · next h => exact hy h

end Fails
end Reckoner
