import Reckoner.Proofs.Environment.Setting
import Reckoner.Proofs.Evaluation.Strict
/-!
Which names an evaluation depends on. Main statement: an evaluation comes to the same under
environments that agree on the names that the expression reads, and a bare word that a function
takes as it stands is none of them.
-/
namespace Reckoner

/-- Two environments with the same exchange rates agree on some names. -/
structure AgreesOn (names : String → Prop) (env env' : Environment) : Prop where
  get?_eq : ∀ name, names name → env.get? name = env'.get? name
  rates_eq : ∀ key, env.rates.get? key = env'.rates.get? key

namespace AgreesOn

variable {names names' : String → Prop} {env env' : Environment}

theorem mono (h : AgreesOn names env env') (hsub : ∀ name, names' name → names name) :
    AgreesOn names' env env' :=
  ⟨fun name hname => h.get?_eq name (hsub name hname), h.rates_eq⟩

theorem bind (h : AgreesOn names env env') (name : String) (v : Value) :
    AgreesOn names (env.bind name v) (env'.bind name v) := by
  refine ⟨?_, h.rates_eq⟩
  intro key hkey
  by_cases hk : key = name
  · subst hk
    simp
  · rw [env.get?_bind_of_ne hk, env'.get?_bind_of_ne hk]
    exact h.get?_eq key hkey

theorem setRate (h : AgreesOn names env env') (source target : String) (r : Decimal) :
    AgreesOn names (env.setRate source target r) (env'.setRate source target r) := by
  refine ⟨h.get?_eq, ?_⟩
  intro key
  by_cases hk : key = Environment.rateKey source target
  · subst hk
    simp [Environment.setRate]
  · simpa [Environment.setRate, Dictionary.get?_insert_of_ne _ _ _ _ hk] using h.rates_eq key

theorem apply (h : AgreesOn names env env') (s : Setting) :
    AgreesOn names (s.apply env) (s.apply env') := by
  cases s with
  | name n v => exact h.bind n v
  | rate source target r => exact h.setRate source target r

theorem exchangeRate?_eq (h : AgreesOn names env env') (source target : String) :
    env.exchangeRate? source target = env'.exchangeRate? source target := by
  simp only [Environment.exchangeRate?, Environment.rate?, h.rates_eq]

theorem resolve_eq (h : AgreesOn names env env') {name : String} (hname : names name) :
    env.resolve name = env'.resolve name := by
  simp only [Environment.resolve, h.get?_eq name hname]

end AgreesOn

/-- Binding one name leaves all others as they are. -/
theorem agreesOn_bind (env : Environment) (name : String) (v : Value) :
    AgreesOn (· ≠ name) (env.bind name v) env :=
  ⟨fun _ h => env.get?_bind_of_ne h v, fun _ => rfl⟩

namespace Expression

variable {limits : Limits} {e : Expression}

theorem mem_reads_of_mem_reached {name : String} (h : identifier name ∈ e.reached) :
    name ∈ e.reads :=
  List.mem_filterMap.mpr ⟨identifier name, h, rfl⟩

/-- Agreement on the names that are read is enough, and agreement on more names is kept. -/
theorem respects_agreesOn (limits : Limits) {names : String → Prop}
    (hnames : ∀ name ∈ e.reads, names name) :
    (Pairing.strict (AgreesOn names)).Respects limits limits (· ∈ e.reached) := by
  apply Pairing.respects_strict
  · intro env env' h
    exact h.exchangeRate?_eq
  · intro env env' name hmem h
    exact h.resolve_eq (hnames name (mem_reads_of_mem_reached hmem))
  · intro env env' name value v _ h
    exact h.bind name v
  · intro env env' space key value v _ h
    rw [Environment.declare_eq, Environment.declare_eq]
    -- What is set does not depend on the environment, so both runs set it or both fail.
    cases Setting.read space key v with
    | ok s => exact Or.inr (.ok (h.apply s))
    | error x => exact Or.inr (.error rfl)

theorem value_agreesOn {names : String → Prop} {env env' : Environment}
    (hnames : ∀ name ∈ e.reads, names name) (h : AgreesOn names env env') :
    (value limits e env).1 = (value limits e env').1 ∧
      AgreesOn names (value limits e env).2 (value limits e env').2 := by
  have hrun := (respects_agreesOn limits hnames).evaluate e (fun _ hp => hp) 0 (.start env)
    (.start env') ⟨rfl, rfl, h⟩
  exact ⟨hrun.same.1, hrun.same.2.environments⟩

/-- Under environments that agree on the names it reads, an expression comes to the same, and
afterwards the environments differ only where they did before. A name that it does not read may be
bound to anything. -/
theorem value_depends_on_reads (limits : Limits) (e : Expression) (env : Environment) :
    (∀ env', AgreesOn (· ∈ e.reads) env env' →
      (value limits e env).1 = (value limits e env').1 ∧
        AgreesOn (fun name => env.get? name = env'.get? name) (value limits e env).2
          (value limits e env').2) ∧
    ∀ name v, name ∉ e.reads →
      (value limits e (env.bind name v)).1 = (value limits e env).1 ∧
        AgreesOn (· ≠ name) (value limits e (env.bind name v)).2 (value limits e env).2 := by
  constructor
  · intro env' h
    exact value_agreesOn h.get?_eq ⟨fun _ hname => hname, h.rates_eq⟩
  · intro name v hname
    apply value_agreesOn _ (agreesOn_bind env name v)
    rintro read hread rfl
    exact hname hread

/-- A day is a day, whatever the name is bound to. -/
theorem value_downtime_of_day_bound :
    let e : Expression := .assignment "b" (.call "downtime" [.identifier "a", .identifier "day"])
    let env : Environment := Environment.initial.bind "a" (.number .zero)
    let env' : Environment := env.bind "day" (.number .one)
    "day" ∉ e.reads ∧ AgreesOn (· ∈ e.reads) env' env ∧
      (value .standard e env').1 = .ok (.duration ⟨.ofLiteral 24 0, .hour⟩) ∧
      (value .standard e env').2.get? "b" = (value .standard e env).2.get? "b" := by
  intro e env env'
  have hreads : "day" ∉ e.reads := by decide +kernel
  have hagree : AgreesOn (· ∈ e.reads) env' env := by
    apply (agreesOn_bind env "day" _).mono
    rintro name hname rfl
    exact hreads hname
  have hvalue : (value .standard e env).1 = .ok (.duration ⟨.ofLiteral 24 0, .hour⟩) :=
    eq_ok_of_toOption (by decide +kernel)
  obtain ⟨heq, -⟩ := (value_depends_on_reads .standard e env').1 env hagree
  obtain ⟨-, hother⟩ := (value_depends_on_reads .standard e env).2 "day" _ hreads
  exact ⟨hreads, hagree, heq.trans hvalue, hother.get?_eq "b" (by decide)⟩

end Expression
end Reckoner
