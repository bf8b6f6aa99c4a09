import Reckoner.Proofs.Gives
import Reckoner.Proofs.Value.Congruence
/-!
Functions of equal values: roundings, sums and extremes, capacities and estimates. Main statement:
the results are equal, or fail for one cause, except where a size or a rate of data is converted in
binary floating point.
-/
namespace Reckoner

section Magnitude

variable {v w : Value}

theorem Value.Same.magnitudeOr (h : v.Same w) {x y : Error} (hxy : x.SameCause y) :
    SameResult (fun a b => v.magnitude?.isSome = true ∧ a.Same b) (orError v.magnitude? x)
      (orError w.magnitude? y) := by
  have hmagnitude := h.magnitude
  generalize v.magnitude? = o at hmagnitude
  generalize w.magnitude? = p at hmagnitude
  cases hmagnitude with
  | some hab => exact .ok ⟨rfl, hab⟩
  | none => exact .error hxy

theorem Napkin.sameResult_round {a b : Decimal} (h : a.Same b) (figures : Nat) :
    SameResult Decimal.Same (round a figures) (round b figures) := by
  refine alike_ite .rfl (fun _ => .error ⟨rfl, rfl⟩) fun _ => ?_
  refine alike_ite (by rw [h.isZero_eq]) (fun _ => .ok (.refl _)) fun ha => ?_
  have hrounded := h.roundFigures (by simpa using ha) figures
  exact alike_orError (Decimal.rel_map hrounded fun _ _ hr => hr.normalize) ⟨rfl, rfl⟩

theorem Value.Same.roundValue (h : v.Same w) (figures : Nat) :
    SameResult Value.Same (Napkin.roundValue v figures) (Napkin.roundValue w figures) := by
  refine (h.magnitudeOr (.wrongArgumentType _ _ _ _ _ _ _ _)).bind fun a b hab => ?_
  refine (Napkin.sameResult_round hab.2 figures).bind fun _ _ hr => ?_
  exact h.withMagnitude hab.1 hr

theorem Value.Same.mapMagnitude (h : v.Same w) (word : String) {f : Decimal → Decimal}
    (hf : ∀ a b, a.Same b → (f a).Same (f b)) :
    SameResult Value.Same (v.mapMagnitude word f) (w.mapMagnitude word f) := by
  refine (h.magnitudeOr (.wrongArgumentType _ _ _ _ _ _ _ _)).bind fun a b hab => ?_
  exact h.withMagnitude hab.1 (hf a b hab.2)

end Magnitude

section Aggregate

namespace Decimal

variable {as bs : List Decimal}

theorem sameResult_sumFrom (h : List.Forall₂ Same as bs) {a b : Decimal} (hab : a.Same b) :
    SameResult Same (sumFrom a as) (sumFrom b bs) := by
  induction h generalizing a b with
  | nil => exact .ok hab
  | cons h _ ih => exact (alike_orError (hab.add h) ⟨rfl, rfl⟩).bind fun _ _ hs => ih hs

theorem sameResult_sum (h : List.Forall₂ Same as bs) : SameResult Same (sum as) (sum bs) :=
  sameResult_sumFrom h (.refl zero)

theorem sameResult_mean (h : List.Forall₂ Same as bs) : SameResult Same (mean as) (mean bs) := by
  refine (sameResult_sum h).bind fun s t hs => ?_
  rw [h.length_eq]
  refine alike_orError (rel_bind (rel_same_refl (ofNat? bs.length)) fun c d hc => ?_) ⟨rfl, rfl⟩
  exact hs.div hc

/-- Picking numbers off a list one after another, by a choice that does not tell numbers apart. -/
theorem same_foldl {f : Decimal → Decimal → Decimal}
    (hf : ∀ {a a' b b'}, Same a a' → Same b b' → Same (f a b) (f a' b'))
    (h : List.Forall₂ Same as bs) {a b : Decimal} (hab : a.Same b) :
    Same (as.foldl f a) (bs.foldl f b) := by
  induction h generalizing a b with
  | nil => exact hab
  | cons h _ ih => exact ih (hf hab h)

theorem sameResult_least (h : List.Forall₂ Same as bs) (hne : as ≠ []) :
    SameResult Same (least as) (least bs) := by
  cases h with
  | nil => exact absurd rfl hne
  | cons h hrest =>
    refine .ok (same_foldl (fun {m m' b b'} hm hb => ?_) hrest h)
    rw [hb.lt_eq hm]
    split
    · exact hb
    · exact hm

theorem sameResult_greatest (h : List.Forall₂ Same as bs) (hne : as ≠ []) :
    SameResult Same (greatest as) (greatest bs) := by
  cases h with
  | nil => exact absurd rfl hne
  | cons h hrest =>
    refine .ok (same_foldl (fun {m m' b b'} hm hb => ?_) hrest h)
    rw [hb.lt_eq hm]
    split
    · exact hm
    · exact hb

end Decimal

namespace Value

variable {vs ws : List Value}

theorem sameResult_numbers (h : List.Forall₂ Value.Same vs ws) (word : String) (position : Nat) :
    SameResult (List.Forall₂ Decimal.Same) (numbers word position vs)
      (numbers word position ws) := by
  induction h generalizing position with
  | nil => exact .ok .nil
  | cons h _ ih =>
    cases h with
    | number h => exact (ih _).bind fun _ _ hrest => .ok (.cons h hrest)
    | _ => exact .error (.wrongArgumentType _ _ _ _ _ _ _ _)

theorem sameResult_amounts (h : List.Forall₂ Value.Same vs ws) (word code : String)
    (position : Nat) :
    SameResult (List.Forall₂ Decimal.Same) (amounts word code position vs)
      (amounts word code position ws) := by
  induction h generalizing position with
  | nil => exact .ok .nil
  | cons h _ ih =>
    cases h with
    | money h =>
      obtain ⟨h⟩ := h
      exact alike_ite .rfl (fun _ => (ih _).bind fun _ _ hrest => .ok (.cons h hrest))
        fun _ => .error ⟨rfl, rfl⟩
    | _ => exact .error (.wrongArgumentType _ _ _ _ _ _ _ _)

/-- A list that begins with a number has a number to fold. -/
theorem gives_numbers_ne_nil {v : Value} (word : String) (position : Nat) :
    Gives (numbers word position (v :: vs)) (· ≠ []) := by
  cases v with
  | number n => exact gives_after fun ns => gives_ok (List.cons_ne_nil n ns)
  | _ => exact gives_error _

theorem gives_amounts_ne_nil {v : Value} (word code : String) (position : Nat) :
    Gives (amounts word code position (v :: vs)) (· ≠ []) := by
  cases v with
  | money m =>
    exact gives_ite (fun _ => gives_after fun ns => gives_ok (List.cons_ne_nil m.amount ns))
      fun _ => gives_error _
  | _ => exact gives_error _

theorem sameResult_aggregate (h : List.Forall₂ Value.Same vs ws) (word : String)
    {fold : List Decimal → Except Error Decimal}
    (hfold : ∀ {as bs}, List.Forall₂ Decimal.Same as bs → as ≠ [] →
      SameResult Decimal.Same (fold as) (fold bs)) :
    SameResult Value.Same (aggregate word fold vs) (aggregate word fold ws) := by
  cases h with
  | nil => exact .error ⟨rfl, rfl⟩
  | cons hv hrest =>
    have hall := List.Forall₂.cons hv hrest
    cases hv with
    | number hv =>
      refine (sameResult_numbers hall word 1).and_eq.bind fun ns ns' hns => ?_
      obtain ⟨hn, -, hns⟩ := hns
      exact (hfold hns (gives_numbers_ne_nil word 1 ns hn)).bind fun _ _ hs => .ok (.number hs)
    | money hv =>
      obtain ⟨hv⟩ := hv
      refine (sameResult_amounts hall word _ 1).and_eq.bind fun ns ns' hns => ?_
      obtain ⟨hn, -, hns⟩ := hns
      refine (hfold hns (gives_amounts_ne_nil word _ 1 ns hn)).bind fun _ _ hs => ?_
      exact .ok (.money (.intro hs))
    | _ => exact .error (.wrongArgumentType _ _ _ _ _ _ _ _)

end Value

end Aggregate

section Capacity

namespace Capacity

/-- Two numbers of load and capacity beside two others. -/
def SamePair (p q : Decimal × Decimal) : Prop := p.1.Same q.1 ∧ p.2.Same q.2

/-- Bringing load and capacity to one unit does not tell them from another load and capacity. -/
def ComparesAlike : (load capacity load' capacity' : Value) → Prop
  | .quantity l, .quantity c, _, .quantity c' =>
    Decimal.ConvertsAlike c.unit l.unit c.value c'.value
  | .rate l, .rate c, _, .rate c' =>
    Decimal.ConvertsAlike c.amount.unit l.amount.unit c.amount.value c'.amount.value
  | .rate r, .quantity q, .rate r', .quantity q' =>
    KnownUnit.isThroughput q.unit = true →
      Decimal.BasesAlike r.amount.unit r.amount.value r'.amount.value ∧
        Decimal.BasesAlike q.unit q.value q'.value
  | .quantity q, .rate r, .quantity q', .rate r' =>
    KnownUnit.isThroughput q.unit = true →
      Decimal.BasesAlike r.amount.unit r.amount.value r'.amount.value ∧
        Decimal.BasesAlike q.unit q.value q'.value
  | _, _, _, _ => True

theorem comparesAlike_refl (load capacity : Value) :
    ComparesAlike load capacity load capacity := by
  cases load with
  | quantity p =>
    cases capacity with
    | quantity q => exact .refl _ _ _
    | rate r => exact fun _ => ⟨.refl _ _, .refl _ _⟩
    | _ => exact True.intro
  | rate r =>
    cases capacity with
    | quantity q => exact fun _ => ⟨.refl _ _, .refl _ _⟩
    | rate s => exact .refl _ _ _
    | _ => exact True.intro
  | _ => exact True.intro

variable {l l' c c' : Value} {a a' b b' n n' : Decimal}

theorem sameResult_bareNumber (h : c.Same c') (position : Nat) :
    SameResult Decimal.Same (bareNumber c position) (bareNumber c' position) := by
  cases h with
  | quantity h => cases h with | intro h => exact .ok h
  | rate h => exact .ok h.amount
  | money h => cases h with | intro h => exact .ok h
  | _ => exact .error (.wrongArgumentType _ _ _ _ _ _ _ _)

theorem sameResult_bitsPerSecond {r s : Rate} (h : r.Same s)
    (hb : Decimal.BasesAlike r.amount.unit r.amount.value s.amount.value) :
    SameResult Decimal.Same (bitsPerSecond r) (bitsPerSecond s) := by
  have hbits : SameResult Decimal.Same (r.amount.value.toBaseUnit r.amount.unit)
      (s.amount.value.toBaseUnit s.amount.unit) := by
    rw [← h.unit_eq]
    exact hb
  exact hbits.bind fun x y hxy => h.perSeconds.bind fun t t' ht => .ok (hxy.dividedBy ht)

theorem sameCause_mismatch (hl : l.Same l') (c c' : Value) :
    (mismatch l c).SameCause (mismatch l' c') := by
  cases hl <;> exact .wrongArgumentType _ _ _ _ _ _ _ _

section Data

variable {r s : Rate} {p q : Quantity}

theorem sameResult_rates {r' s' : Rate} (hr : r.Same r') (hs : s.Same s')
    (h : Decimal.ConvertsAlike s.amount.unit r.amount.unit s.amount.value s'.amount.value) :
    SameResult SamePair (comparable (.rate r) (.rate s)) (comparable (.rate r') (.rate s')) := by
  have hamount : SameResult Decimal.Same
      (s.amount.value.convertUnit s.amount.unit r.amount.unit)
      (s'.amount.value.convertUnit s'.amount.unit r'.amount.unit) := by
    rw [← hr.unit_eq, ← hs.unit_eq]
    exact h
  refine hamount.bind fun x x' hx => hr.perSeconds.bind fun t t' ht => ?_
  refine hs.perSeconds.bind fun u u' hu => .ok ?_
  exact ⟨hr.amount.dividedBy ht, hx.dividedBy hu⟩

/-- The bits a second of a rate and of a quantity of data a second, if it is one. -/
theorem sameResult_bits (hr : r.Same s) (hq : p.Same q)
    (h : KnownUnit.isThroughput p.unit = true →
      Decimal.BasesAlike r.amount.unit r.amount.value s.amount.value ∧
        Decimal.BasesAlike p.unit p.value q.value) :
    SameResult SamePair (comparable (.rate r) (.quantity p)) (comparable (.rate s) (.quantity q)) ∧
    SameResult SamePair (comparable (.quantity p) (.rate r))
      (comparable (.quantity q) (.rate s)) := by
  obtain ⟨-⟩ := hq
  simp only [comparable]
  generalize KnownUnit.isThroughput _ = throughput at h ⊢
  constructor
  · refine alike_ite .rfl (fun ht => ?_) fun _ => .error ⟨rfl, rfl⟩
    refine (sameResult_bitsPerSecond hr (h ht).1).bind fun x y hxy => ?_
    exact Alike.bind (h ht).2 fun u v huv => .ok ⟨hxy, huv⟩
  · refine alike_ite .rfl (fun ht => ?_) fun _ => .error ⟨rfl, rfl⟩
    refine Alike.bind (h ht).2 fun u v huv => ?_
    exact (sameResult_bitsPerSecond hr (h ht).1).bind fun x y hxy => .ok ⟨huv, hxy⟩

end Data

theorem sameResult_comparable (hl : l.Same l') (hc : c.Same c')
    (h : ComparesAlike l c l' c') : SameResult SamePair (comparable l c) (comparable l' c') := by
  have hmismatch := sameCause_mismatch hl c c'
  have hload := sameResult_bareNumber hl 1
  have hcapacity := sameResult_bareNumber hc 2
  cases hl with
  | number hl =>
    cases hc with
    | number hc => exact .ok ⟨hl, hc⟩
    | _ => exact hcapacity.bind fun _ _ hn => .ok ⟨hl, hn⟩
  | quantity hl =>
    cases hc with
    | number hc => exact hload.bind fun _ _ hn => .ok ⟨hn, hc⟩
    | quantity hc =>
      obtain ⟨hl⟩ := hl
      obtain ⟨-⟩ := hc
      exact Alike.bind h fun _ _ hn => .ok ⟨hl, hn⟩
    | rate hc => exact (sameResult_bits hc hl h).2
    | _ => exact .error hmismatch
  | rate hl =>
    cases hc with
    | number hc => exact hload.bind fun _ _ hn => .ok ⟨hn, hc⟩
    | quantity hc => exact (sameResult_bits hl hc h).1
    | rate hc => exact sameResult_rates hl hc h
    | _ => exact .error hmismatch
  | money hl =>
    cases hc with
    | number hc => exact hload.bind fun _ _ hn => .ok ⟨hn, hc⟩
    | money hc =>
      obtain ⟨hl⟩ := hl
      obtain ⟨hc⟩ := hc
      exact alike_ite .rfl (fun _ => .ok ⟨hl, hc⟩) fun _ => .error ⟨rfl, rfl⟩
    | _ => exact .error hmismatch
  | _ =>
    cases hc with
    | number hc => exact hload.bind fun _ _ hn => .ok ⟨hn, hc⟩
    | _ => exact .error hmismatch

theorem rel_count (hl : a.Same a') (hc : b.Same b') (hn : n.Same n') :
    Option.Rel Decimal.Same (count a b n) (count a' b' n') := by
  refine Decimal.rel_bind (Decimal.Same.add (.refl _) hn) fun x y hxy => ?_
  refine Decimal.rel_bind (hl.mul hxy) fun x y hxy => ?_
  exact Decimal.rel_bind (hxy.div hc) fun x y hxy => .some hxy.ceil.normalize

theorem sameResult_requires (hl : l.Same l') (hc : c.Same c') {o o' : Option Decimal}
    (ho : Option.Rel Decimal.Same o o')
    (h : (o.getD .zero).isBelowZero = false → ComparesAlike l c l' c') :
    SameResult Decimal.Same (requires l c o) (requires l' c' o') := by
  have hbuffer : (o.getD .zero).Same (o'.getD .zero) := by
    cases ho with
    | some hab => exact hab
    | none => exact .refl _
  unfold requires
  generalize o.getD .zero = n at hbuffer h
  generalize o'.getD .zero = n' at hbuffer
  -- The buffer is checked before load and capacity are looked at.
  refine alike_ite (by rw [hbuffer.isBelowZero_eq]) (fun _ => .error ⟨rfl, rfl⟩) fun hn => ?_
  refine (sameResult_comparable hl hc (h (by simpa using hn))).bind ?_
  rintro ⟨x, y⟩ ⟨x', y'⟩ ⟨hx, hy⟩
  refine alike_ite (by rw [hy.le_eq (.refl _)]) (fun _ => .error ⟨rfl, rfl⟩) fun _ => ?_
  refine alike_ite (by rw [hx.isBelowZero_eq]) (fun _ => .error ⟨rfl, rfl⟩) fun _ => ?_
  exact alike_orError (rel_count hx hy hbuffer) ⟨rfl, rfl⟩

theorem sameResult_capacityAt (hl : l.Same l') (hc : c.Same c') (unit : String)
    {o o' : Option Decimal} (ho : Option.Rel Decimal.Same o o')
    (h : (o.getD .zero).isBelowZero = false → ComparesAlike l c l' c') :
    SameResult Quantity.Same (capacityAt l c unit o) (capacityAt l' c' unit o') :=
  (sameResult_requires hl hc ho h).bind fun _ _ hn => .ok (.intro hn)

end Capacity

end Capacity

section Estimate

namespace Estimate

theorem sameResult_downtime {a b : Decimal} (h : a.Same b) {p q : Duration} (hp : p.Same q) :
    SameResult Duration.Same (downtime a p) (downtime b q) := by
  refine alike_ite ?_ (fun _ => .error ⟨rfl, rfl⟩) fun _ => ?_
  · rw [h.lt_eq (.refl _), Decimal.Same.lt_eq (.refl _) h]
  refine hp.seconds.bind fun s t hs => ?_
  have hdown := Decimal.rel_bind (Decimal.Same.sub (.refl .one) h) fun x y hxy => hxy.mul hs
  refine (alike_orError hdown ⟨rfl, rfl⟩).bind fun x y hxy => ?_
  -- The unit is chosen by comparisons with a minute and an hour.
  have hunit : downtimeUnit x = downtimeUnit y := by
    rw [downtimeUnit, downtimeUnit, hxy.lt_eq (.refl _), hxy.lt_eq (.refl _)]
  rw [hunit]
  exact .ok (Duration.same_ofSeconds hxy.normalize _)

theorem same_secondsOrMinutes {a b : Decimal} (h : a.Same b) :
    (secondsOrMinutes a).Same (secondsOrMinutes b) := by
  rw [secondsOrMinutes, secondsOrMinutes, h.lt_eq (.refl _)]
  exact Duration.same_ofSeconds h _

/-- Bringing a size to megabytes does not tell it from another one. -/
def SizesAlike (p q : Quantity) : Prop :=
  p.value.isBelowZero = false → Decimal.ConvertsAlike p.unit "MB" p.value q.value

variable {p q : Quantity} (h : p.Same q)

include h

theorem sameResult_megabytes (hs : SizesAlike p q) (word : String) :
    SameResult Decimal.Same (megabytes word p) (megabytes word q) := by
  unfold SizesAlike at hs
  obtain ⟨hn⟩ := h
  refine alike_ite (by rw [hn.isBelowZero_eq]) (fun _ => .error ⟨rfl, rfl⟩) fun hbelow => ?_
  exact hs (by simpa using hbelow)

theorem sameResult_transferTime (hs : SizesAlike p q) (scope : Scope) (link : Link) :
    SameResult Duration.Same (transferTime p scope link) (transferTime q scope link) := by
  refine (sameResult_megabytes h hs _).bind fun x y hxy => ?_
  have hwire := Decimal.rel_bind (hxy.div (.refl link.throughput)) fun x y hxy =>
    hxy.add (.refl scope.roundTrip)
  exact (alike_orError hwire ⟨rfl, rfl⟩).bind fun _ _ ht => .ok (same_secondsOrMinutes ht)

theorem sameResult_readTime (hs : SizesAlike p q) (drive : Drive) :
    SameResult Duration.Same (readTime p drive) (readTime q drive) := by
  refine (sameResult_megabytes h hs _).bind fun x y hxy => ?_
  refine (alike_orError (hxy.div (.refl drive.throughput)) ⟨rfl, rfl⟩).bind fun _ _ ht => ?_
  exact .ok (same_secondsOrMinutes ht)

omit h

theorem sameResult_compress {v w : Value} (h : v.Same w) (compression : Compression) :
    SameResult Value.Same (compress v compression) (compress w compression) := by
  have hsize : SameResult (fun a b => v.magnitude?.isSome = true ∧ a.Same b) (sizeNumber v)
      (sizeNumber w) := by
    cases h with
    | number h => exact .ok ⟨rfl, h⟩
    | quantity h => cases h with | intro h => exact .ok ⟨rfl, h⟩
    | _ => exact .error (.wrongArgumentType _ _ _ _ _ _ _ _)
  refine hsize.bind fun a b hab => ?_
  refine alike_ite (by rw [hab.2.isBelowZero_eq]) (fun _ => .error ⟨rfl, rfl⟩) fun _ => ?_
  refine (alike_orError (hab.2.div (.refl compression.ratio)) ⟨rfl, rfl⟩).bind fun _ _ hs => ?_
  exact h.withMagnitude hab.1 hs

end Estimate

end Estimate
end Reckoner
