import Reckoner.Proofs.Decimal.Same
import Reckoner.Proofs.Environment.RateTable
import Reckoner.Proofs.Environment.Setting
import Reckoner.Proofs.Evaluation.Outcome
/-!
Which declarations are accepted and what they change. Main statement: a declaration sets the name
that its key spells, or the rate between the two codes that its key names, and nothing besides; any
other fails by the first of its checks that it does not pass, and changes nothing.
-/
namespace Reckoner

namespace Environment

/-- A key names two codes: without the blanks at its ends, it is two texts that are not empty with
the only underscore between them. -/
structure NamesPair (key source target : String) : Prop where
  trim_eq : Text.trim key = source ++ "_" ++ target
  source_ne : source ≠ ""
  target_ne : target ≠ ""
  source_plain : '_' ∉ source.toList
  target_plain : '_' ∉ target.toList

variable {key source target : String}

theorem NamesPair.partsOf_eq (h : NamesPair key source target) :
    partsOf (Text.trimChars key.toList) = [source.toList, target.toList] := by
  have hchars := congrArg String.toList h.trim_eq
  rw [Text.trim, String.toList_ofList] at hchars
  refine partsOf_eq_pair_iff.mpr ⟨?_, h.source_plain, h.target_plain⟩
  simpa using hchars

theorem NamesPair.codes_eq (h : NamesPair key source target) :
    codes key = .ok (source, target) := by
  have hempty : (source.toList.isEmpty || target.toList.isEmpty) = false := by
    simp [h.source_ne, h.target_ne]
  rw [codes, h.partsOf_eq]
  simp [hempty]

theorem codes_of_not_namesPair (h : ∀ source target, ¬NamesPair key source target) :
    codes key = .error (.malformedExchangeKey key) := by
  unfold codes
  split
  · next source target hparts =>
    apply if_pos
    obtain ⟨hkey, hsource, htarget⟩ := partsOf_eq_pair_iff.mp hparts
    by_contra hempty
    simp only [Bool.or_eq_true, List.isEmpty_iff, not_or] at hempty
    refine h (String.ofList source) (String.ofList target) ⟨?_, ?_, ?_, ?_, ?_⟩
    · apply String.toList_inj.mp
      simp [Text.trim, hkey]
    · simpa using hempty.1
    · simpa using hempty.2
    · simpa using hsource
    · simpa using htarget
  · rfl

end Environment

namespace Setting

open Environment (NamesPair)

/-- The change that a valid declaration makes. -/
inductive Declared (space key : String) : Value → Setting → Prop
  | name (v : Value) (hspace : spaceWord space = "global") :
      Declared space key v (.name (Text.trim key) v)
  | rate {source target : String} {r : Decimal} (hspace : spaceWord space = "exchange")
      (hkey : NamesPair key source target) (hr : 0 < r.toRat) :
      Declared space key (.number r) (.rate source target r)

/-- What a declaration fails with: each check is reached if those before it are passed. -/
inductive Refused (space key : String) : Value → Error → Prop
  | space (v : Value) (hglobal : spaceWord space ≠ "global")
      (hexchange : spaceWord space ≠ "exchange") :
      Refused space key v
        (.unknownKeyword "frontmatter namespace" (spaceWord space) ["global", "exchange"])
  | key (v : Value) (hspace : spaceWord space = "exchange")
      (hkey : ∀ source target, ¬NamesPair key source target) :
      Refused space key v (.malformedExchangeKey key)
  | type {v : Value} {source target : String} (hspace : spaceWord space = "exchange")
      (hkey : NamesPair key source target) (hv : ∀ r, v ≠ .number r) :
      Refused space key v (.wrongArgumentType ("exchange." ++ key) 1 "a number" v.describe)
  | sign {r : Decimal} {source target : String} (hspace : spaceWord space = "exchange")
      (hkey : NamesPair key source target) (hr : r.toRat ≤ 0) :
      Refused space key (.number r) (.outOfRange ("exchange rate " ++ key) r .positive)

variable {space key : String} {v : Value} {s : Setting} {e : Error}

theorem read_of_exchange (hspace : spaceWord space = "exchange") {source target : String}
    (hkey : NamesPair key source target) :
    read space key v =
      match v with
      | .number r =>
        if Decimal.zero.lt r then .ok (rate source target r)
        else .error (.outOfRange ("exchange rate " ++ key) r .positive)
      | v => .error (.wrongArgumentType ("exchange." ++ key) 1 "a number" v.describe) := by
  have hglobal : spaceWord space ≠ "global" := by rw [hspace]; decide
  rw [read, if_neg hglobal, if_pos hspace, hkey.codes_eq]
  rfl

theorem Declared.read_eq (h : Declared space key v s) : read space key v = .ok s := by
  cases h with
  | name v hspace => exact if_pos hspace
  | rate hspace hkey hr =>
    rw [read_of_exchange hspace hkey]
    apply if_pos
    rwa [Decimal.lt_iff, Decimal.toRat_zero]

theorem Refused.read_eq (h : Refused space key v e) : read space key v = .error e := by
  cases h with
  | space v hglobal hexchange => rw [read, if_neg hglobal, if_neg hexchange]; rfl
  | key v hspace hkey =>
    have hglobal : spaceWord space ≠ "global" := by rw [hspace]; decide
    rw [read, if_neg hglobal, if_pos hspace, Environment.codes_of_not_namesPair hkey]
    rfl
  | type hspace hkey hv =>
    rw [read_of_exchange hspace hkey]
    cases v with
    | number r => exact absurd rfl (hv r)
    | _ => rfl
  | sign hspace hkey hr =>
    rw [read_of_exchange hspace hkey]
    apply if_neg
    rwa [Decimal.lt_iff, Decimal.toRat_zero, not_lt]

/-- One check after the other is passed or not. -/
theorem declared_or_refused (space key : String) (v : Value) :
    (∃ s, Declared space key v s) ∨ ∃ e, Refused space key v e := by
  by_cases hglobal : spaceWord space = "global"
  · exact Or.inl ⟨_, .name v hglobal⟩
  · by_cases hexchange : spaceWord space = "exchange"
    · by_cases hkey : ∃ source target, NamesPair key source target
      · obtain ⟨source, target, hkey⟩ := hkey
        by_cases hv : ∃ r, v = .number r
        · obtain ⟨r, rfl⟩ := hv
          rcases lt_or_ge 0 r.toRat with hr | hr
          · exact Or.inl ⟨_, .rate hexchange hkey hr⟩
          · exact Or.inr ⟨_, .sign hexchange hkey hr⟩
        · exact Or.inr ⟨_, .type hexchange hkey (not_exists.mp hv)⟩
      · push Not at hkey
        exact Or.inr ⟨_, .key v hexchange hkey⟩
    · exact Or.inr ⟨_, .space v hglobal hexchange⟩

theorem read_eq_ok_iff : read space key v = .ok s ↔ Declared space key v s := by
  refine ⟨fun h => ?_, Declared.read_eq⟩
  rcases declared_or_refused space key v with ⟨t, ht⟩ | ⟨e, he⟩
  · cases h.symm.trans ht.read_eq
    exact ht
  · cases h.symm.trans he.read_eq

theorem read_eq_error_iff : read space key v = .error e ↔ Refused space key v e := by
  refine ⟨fun h => ?_, Refused.read_eq⟩
  rcases declared_or_refused space key v with ⟨t, ht⟩ | ⟨e', he⟩
  · cases h.symm.trans ht.read_eq
  · cases h.symm.trans he.read_eq
    exact he

theorem exists_declared_iff : (∃ s, Declared space key v s) ↔
    spaceWord space = "global" ∨ spaceWord space = "exchange" ∧
      (∃ source target, NamesPair key source target) ∧ ∃ r, v = .number r ∧ 0 < r.toRat := by
  constructor
  · rintro ⟨s, h⟩
    cases h with
    | name _ hspace => exact Or.inl hspace
    | rate hspace hkey hr => exact Or.inr ⟨hspace, ⟨_, _, hkey⟩, _, rfl, hr⟩
  · rintro (hspace | ⟨hspace, ⟨source, target, hkey⟩, r, rfl, hr⟩)
    · exact ⟨_, .name v hspace⟩
    · exact ⟨_, .rate hspace hkey hr⟩

end Setting

namespace Environment

open Evaluation (outcome)

/-- One name is bound to a value, and all else is as it was. -/
structure Binds (env env' : Environment) (name : String) (v : Value) : Prop where
  bound : env'.get? name = some v
  others : ∀ key ≠ name, env'.get? key = env.get? key
  rates : env'.rates = env.rates

/-- One pair of codes has a rate, in whatever case and with whatever blanks around them it is asked
for, and all else is as it was. -/
structure Quotes (env env' : Environment) (source target : String) (r : Decimal) : Prop where
  quoted : ∀ s t, currencies s t = currencies source target → env'.rate? s t = some r
  others : ∀ s t, currencies s t ≠ currencies source target → env'.rate? s t = env.rate? s t
  bindings : env'.bindings = env.bindings

theorem binds_bind (env : Environment) (name : String) (v : Value) :
    Binds env (env.bind name v) name v where
  bound := env.get?_bind_self name v
  others _ h := env.get?_bind_of_ne h v
  rates := rfl

/-- No other pair has the key of two codes without underscores. -/
theorem NamesPair.quotes_setRate {key source target : String} (h : NamesPair key source target)
    (env : Environment) (r : Decimal) : Quotes env (env.setRate source target r) source target r :=
  have hkey (s t : String) : rateKey source target = rateKey s t ↔
      currencies s t = currencies source target := by
    rw [eq_comm]
    exact rateKey_eq_iff h.source_plain h.target_plain s t
  { quoted := fun s t hst => by rw [rate?_setRate, if_pos ((hkey s t).mpr hst)]
    others := fun s t hst => by rw [rate?_setRate, if_neg (mt (hkey s t).mp hst)]
    bindings := rfl }

variable {space key : String} {v : Value} {env : Environment}

theorem declare_eq_ok_iff {env' : Environment} : env.declare space key v = .ok env' ↔
    ∃ s, Setting.Declared space key v s ∧ s.apply env = env' := by
  simp only [← Setting.read_eq_ok_iff]
  rw [declare_eq]
  cases Setting.read space key v with
  | ok s => simp [Except.map]
  | error e => simp [Except.map]

theorem declare_eq_error_iff {e : Error} :
    env.declare space key v = .error e ↔ Setting.Refused space key v e := by
  rw [← Setting.read_eq_error_iff, declare_eq]
  cases Setting.read space key v with
  | ok s => simp [Except.map]
  | error e => simp [Except.map]

theorem exists_declare_eq_ok_iff : (∃ env', env.declare space key v = .ok env') ↔
    ∃ s, Setting.Declared space key v s := by
  simp only [declare_eq_ok_iff]
  constructor
  · rintro ⟨env', s, hs, -⟩
    exact ⟨s, hs⟩
  · rintro ⟨s, hs⟩
    exact ⟨_, s, hs, rfl⟩

section Action

variable {c : Context} {e : Error}

theorem outcome_declare (c : Context) : outcome (Reckoner.declare space key v) c =
    outcome (Evaluation.result (c.environment.declare space key v) >>= fun env =>
      Evaluation.setEnvironment env >>= fun _ => pure v) c := by
  have henvironment : outcome Evaluation.environment c = (.ok c.environment, c) := rfl
  exact Evaluation.outcome_bind_of_ok henvironment _

theorem outcome_declare_of_ok (h : c.environment.declare space key v = .ok env) :
    outcome (Reckoner.declare space key v) c = (.ok v, { c with environment := env }) := by
  rw [outcome_declare, h, Evaluation.outcome_bind_of_ok (Evaluation.outcome_result _ c)]
  rfl

theorem outcome_declare_of_error (h : c.environment.declare space key v = .error e) :
    outcome (Reckoner.declare space key v) c = (.error e, c) := by
  rw [outcome_declare, h, Evaluation.outcome_bind_of_error (Evaluation.outcome_result _ c)]

end Action

/-- A declaration is accepted exactly if it is one of a name or one of a rate above zero between two
codes. It then changes that name or that rate only. Otherwise it fails by the first check that it
does not pass, and the environment is what it was. -/
theorem declare_accepts_iff (env : Environment) (space key : String) (v : Value) :
    ((∃ env', env.declare space key v = .ok env') ↔
      Setting.spaceWord space = "global" ∨ Setting.spaceWord space = "exchange" ∧
        (∃ source target, NamesPair key source target) ∧ ∃ r, v = .number r ∧ 0 < r.toRat) ∧
    (∀ env', env.declare space key v = .ok env' →
      ((Setting.spaceWord space = "global" ∧ Binds env env' (Text.trim key) v) ∨
        Setting.spaceWord space = "exchange" ∧ ∃ source target r,
          NamesPair key source target ∧ v = .number r ∧ Quotes env env' source target r) ∧
      ∀ depth, outcome (Reckoner.declare space key v) ⟨env, depth⟩ = (.ok v, ⟨env', depth⟩)) ∧
    ∀ e, (env.declare space key v = .error e ↔ Setting.Refused space key v e) ∧
      (env.declare space key v = .error e →
        ∀ depth, outcome (Reckoner.declare space key v) ⟨env, depth⟩ = (.error e, ⟨env, depth⟩)) := by
  refine ⟨exists_declare_eq_ok_iff.trans Setting.exists_declared_iff,
    fun env' h => ⟨?_, fun depth => outcome_declare_of_ok h⟩,
    fun e => ⟨declare_eq_error_iff, fun h depth => outcome_declare_of_error h⟩⟩
  obtain ⟨s, hs, rfl⟩ := declare_eq_ok_iff.mp h
  cases hs with
  | name _ hspace => exact Or.inl ⟨hspace, binds_bind env _ v⟩
  | rate hspace hkey _ => exact Or.inr ⟨hspace, _, _, _, hkey, rfl, hkey.quotes_setRate env _⟩

end Environment
end Reckoner
