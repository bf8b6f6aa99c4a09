import Reckoner.Environment
import Reckoner.Proofs.Gives
/-!
Settings, which are read from a declaration before they change an environment. Main statements:
what a declaration sets is told by its text and its value alone, and it is the name or the exchange
rate that its key spells.
-/
namespace Reckoner

/-- The change that a declaration makes. -/
inductive Setting where
  | name (name : String) (v : Value)
  | rate (source target : String) (r : Decimal)

namespace Setting

def apply (env : Environment) : Setting → Environment
  | name n v => env.bind n v
  | rate source target r => env.setRate source target r

/-- The word for the space in which a declaration sets something. -/
def spaceWord (space : String) : String := Text.lower (Text.trim space)

/-- The change that a declaration with this value makes, in any environment. -/
def read (space key : String) (v : Value) : Except Error Setting :=
  if spaceWord space = "global" then .ok (name (Text.trim key) v)
  else if spaceWord space = "exchange" then do
    let codes ← Environment.codes key
    match v with
    | .number r =>
      if Decimal.zero.lt r then pure (rate codes.1 codes.2 r)
      else .error (.outOfRange ("exchange rate " ++ key) r .positive)
    | v => .error (.wrongArgumentType ("exchange." ++ key) 1 "a number" v.describe)
  else .error (.unknownKeyword "frontmatter namespace" (spaceWord space) Environment.spaces)

theorem gives_read (space key : String) (v : Value) :
    Gives (read space key v) fun s =>
      (spaceWord space = "global" ∧ s = name (Text.trim key) v) ∨
        (spaceWord space = "exchange" ∧ ∃ source target r,
          Environment.codes key = .ok (source, target) ∧ v = .number r ∧
            s = rate source target r) := by
  refine gives_ite (fun hg => gives_ok (Or.inl ⟨hg, rfl⟩)) fun _ => ?_
  refine gives_ite (fun hx => ?_) fun _ => gives_error _
  refine gives_bind (gives_self _) fun codes hcodes => ?_
  cases v with
  | number r =>
    refine gives_ite (fun _ => gives_ok (Or.inr ?_)) fun _ => gives_error _
    exact ⟨hx, codes.1, codes.2, r, hcodes, rfl, rfl⟩
  | _ => exact gives_error _

end Setting

namespace Environment

@[simp] theorem get?_bind_self (env : Environment) (name : String) (v : Value) :
    (env.bind name v).get? name = some v :=
  Dictionary.get?_insert_self _ _ _

theorem get?_bind_of_ne (env : Environment) {key name : String} (h : key ≠ name) (v : Value) :
    (env.bind name v).get? key = env.get? key :=
  Dictionary.get?_insert_of_ne _ _ _ _ h

theorem declare_eq (env : Environment) (space key : String) (v : Value) :
    env.declare space key v = (Setting.read space key v).map (Setting.apply env) := by
  unfold declare Setting.read Setting.spaceWord
  dsimp only
  by_cases hg : Text.lower (Text.trim space) = "global"
  · rw [if_pos hg, if_pos hg]
    rfl
  · rw [if_neg hg, if_neg hg]
    by_cases hx : Text.lower (Text.trim space) = "exchange"
    · rw [if_pos hx, if_pos hx]
      cases codes key with
      | error e => rfl
      | ok p =>
        cases v with
        | number r =>
          show ite _ _ _ = Except.map _ (ite _ _ _)
          split <;> rfl
        | _ => rfl
    · rw [if_neg hx, if_neg hx]
      rfl

end Environment
end Reckoner
