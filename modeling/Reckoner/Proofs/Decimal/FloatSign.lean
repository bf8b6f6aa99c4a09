import Mathlib
import Reckoner.Proofs.Decimal.Number
import Reckoner.Proofs.Gives
import Reckoner.Unit.Convert
/-!
Signs of binary floating-point numbers. Main statement: what is not below zero is not below zero
after a conversion between units that are multiples of one another.
-/
namespace Reckoner

open Float.Model (UnpackedFloat Format)
open Float.Model.UnpackedFloat (Sign Accuracy packComponents unpackSign roundWithAccuracy)

section Unpacked

/-- Floats without a minus sign. What is no number has none. -/
inductive IsUnsigned : UnpackedFloat → Prop
  | notANumber : IsUnsigned .notANumber
  | infinity : IsUnsigned (.infinity .positive)
  | zero : IsUnsigned (.zero .positive)
  | finite (m : ℕ) (e : ℤ) (hm : 0 < m) : IsUnsigned (.finite .positive m e hm)

variable {spec : Format} {x y : UnpackedFloat}

theorem isUnsigned_roundWithAccuracy (spec : Format) (m : ℕ) (e : ℤ) (accuracy : Accuracy) :
    IsUnsigned (roundWithAccuracy spec .positive m e accuracy) := by
  unfold roundWithAccuracy
  dsimp only
  split
  · exact .zero
  · exact .finite _ _ _

theorem isUnsigned_normalize (spec : Format) {m : ℤ} (hm : 0 ≤ m) (e : ℤ) :
    IsUnsigned (UnpackedFloat.normalize spec m e .positive) := by
  unfold UnpackedFloat.normalize
  split
  · next h => exact absurd (Int.compare_eq_lt.mp h) (not_lt.mpr hm)
  · exact .zero
  · exact isUnsigned_roundWithAccuracy _ _ _ _

namespace IsUnsigned

theorem add (hx : IsUnsigned x) (hy : IsUnsigned y) : IsUnsigned (UnpackedFloat.add spec x y) := by
  cases hx with
  | finite m e hm =>
    cases hy with
    | finite m' e' hm' =>
      -- The sum of two mantissas without signs is not below zero.
      refine isUnsigned_normalize spec (Int.add_nonneg ?_ ?_) _
      · exact Int.natCast_nonneg _
      · exact Int.natCast_nonneg _
    | _ => constructor
  | _ => cases hy <;> constructor

theorem mul (hx : IsUnsigned x) (hy : IsUnsigned y) : IsUnsigned (UnpackedFloat.mul spec x y) := by
  cases hx with
  | finite m e hm =>
    cases hy with
    | finite m' e' hm' => exact isUnsigned_roundWithAccuracy _ _ _ _
    | _ => constructor
  | _ => cases hy <;> constructor

theorem div (hx : IsUnsigned x) (hy : IsUnsigned y) : IsUnsigned (UnpackedFloat.div spec x y) := by
  cases hx with
  | finite m e hm =>
    cases hy with
    | finite m' e' hm' => exact isUnsigned_roundWithAccuracy _ _ _ _
    | _ => constructor
  | _ => cases hy <;> constructor

theorem ofScientific (spec : Format) (m : ℕ) (e : ℤ) :
    IsUnsigned (UnpackedFloat.ofScientific spec m e) := by
  unfold UnpackedFloat.ofScientific
  split
  · exact .zero
  · split
    · exact .infinity
    · split
      · exact .zero
      · split
        · exact (finite _ _ _).mul (.finite _ _ _)
        · exact (finite _ _ _).div (.finite _ _ _)

/-- A zero with a minus sign stays one, or nothing is left that is a number. -/
theorem zero_mul (hy : IsUnsigned y) : IsUnsigned (UnpackedFloat.mul spec (.zero .negative) y) ∨
    UnpackedFloat.mul spec (.zero .negative) y = .zero .negative := by
  cases hy with
  | notANumber => exact .inl .notANumber
  | infinity => exact .inl .notANumber
  | zero => exact .inr rfl
  | finite m e hm => exact .inr rfl

theorem zero_div (hy : IsUnsigned y) : IsUnsigned (UnpackedFloat.div spec (.zero .negative) y) ∨
    UnpackedFloat.div spec (.zero .negative) y = .zero .negative := by
  cases hy with
  | notANumber => exact .inl .notANumber
  | infinity => exact .inr rfl
  | zero => exact .inl .notANumber
  | finite m e hm => exact .inr rfl

end IsUnsigned

end Unpacked

section Bits

/-- The sign bit of a packed float comes first. -/
theorem toNat_packComponents_lt (e : BitVec 11) (m : BitVec 52) :
    (packComponents .binary64 .positive e m).toNat < 2 ^ 63 := by
  have htop : ((0#1 : BitVec 1) ++ e).toNat < 2 ^ 11 := by
    rw [BitVec.toNat_append]
    simpa using e.isLt
  show (((0#1 : BitVec 1) ++ e) ++ m).toNat < 2 ^ 63
  rw [BitVec.toNat_append, ← Nat.shiftLeft_add_eq_or_of_lt m.isLt, Nat.shiftLeft_eq]
  have hm := m.isLt
  omega

theorem toNat_pack_lt {x : UnpackedFloat} (hx : IsUnsigned x) :
    (UnpackedFloat.pack .binary64 x).toNat < 2 ^ 63 := by
  cases hx with
  | notANumber => exact toNat_packComponents_lt _ _
  | infinity => exact toNat_packComponents_lt _ _
  | zero => exact toNat_packComponents_lt _ _
  | finite m e hm =>
    unfold UnpackedFloat.pack
    dsimp only
    split
    · exact toNat_packComponents_lt _ _
    · split
      · exact toNat_packComponents_lt _ _
      · exact toNat_packComponents_lt _ _

theorem isUnsigned_unpack {b : BitVec Format.binary64.numBits} (hb : b.toNat < 2 ^ 63) :
    IsUnsigned (UnpackedFloat.unpack .binary64 b) := by
  have hsign : Sign.ofBitVec (unpackSign b) = .positive := by
    have hzero : unpackSign b = 0#1 := by
      apply BitVec.eq_of_toNat_eq
      -- The sign is the first of the sixty-four bits.
      show (BitVec.extractLsb 63 63 b).toNat = 0
      rw [BitVec.extractLsb_toNat, Nat.shiftRight_eq_div_pow, Nat.div_eq_of_lt hb]
    rw [hzero]
    rfl
  unfold UnpackedFloat.unpack
  dsimp only
  rw [hsign]
  split
  · split
    · exact .infinity
    · exact .notANumber
  · split
    · split
      · exact .zero
      · exact .finite _ _ _
    · exact .finite _ _ _

end Bits

section Floats

/-- The sign bit of a float is clear. -/
def Unsigned (x : Float) : Prop := x.toBits.toNat < 2 ^ 63

/-- The sign bit of a float is clear, or no other bit is set. -/
def NotBelowZero (x : Float) : Prop := x.toBits.toNat ≤ 2 ^ 63

instance (x : Float) : Decidable (Unsigned x) := inferInstanceAs (Decidable (_ < _))

instance (x : Float) : Decidable (NotBelowZero x) := inferInstanceAs (Decidable (_ ≤ _))

variable {x y : Float}

namespace Unsigned

theorem notBelowZero (hx : Unsigned x) : NotBelowZero x := le_of_lt hx

theorem add (hx : Unsigned x) (hy : Unsigned y) : Unsigned (x + y) :=
  toNat_pack_lt ((isUnsigned_unpack hx).add (isUnsigned_unpack hy))

theorem mul (hx : Unsigned x) (hy : Unsigned y) : Unsigned (x * y) :=
  toNat_pack_lt ((isUnsigned_unpack hx).mul (isUnsigned_unpack hy))

theorem div (hx : Unsigned x) (hy : Unsigned y) : Unsigned (x / y) :=
  toNat_pack_lt ((isUnsigned_unpack hx).div (isUnsigned_unpack hy))

end Unsigned

theorem unsigned_toFloat_uint64 (n : UInt64) : Unsigned n.toFloat :=
  toNat_pack_lt (isUnsigned_normalize _ (Int.natCast_nonneg _) _)

theorem unsigned_toFloat (n : ℕ) : Unsigned n.toFloat := by
  unfold Nat.toFloat Float.ofNat OfScientific.ofScientific instOfScientificFloat Float.ofScientific
  dsimp only
  split
  · have hone : Unsigned (Float.ofBits 0x3FF0000000000000) := by decide +kernel
    exact (unsigned_toFloat_uint64 _).mul hone
  · exact toNat_pack_lt (.ofScientific _ _ _)

theorem isUnsigned_or_zero (hx : NotBelowZero x) :
    IsUnsigned x.toModel.unpack ∨ x.toModel.unpack = .zero .negative := by
  rcases Nat.lt_or_eq_of_le hx with hlt | heq
  · exact .inl (isUnsigned_unpack hlt)
  · right
    have hbits : x.toModel.toBits.toBitVec = BitVec.ofNat 64 (2 ^ 63) := BitVec.eq_of_toNat_eq heq
    show UnpackedFloat.unpack .binary64 x.toModel.toBits.toBitVec = _
    rw [hbits]
    rfl

theorem notBelowZero_of_pack {u : UnpackedFloat} (hu : IsUnsigned u ∨ u = .zero .negative) :
    NotBelowZero (.ofModel (Float.Model.pack u)) := by
  rcases hu with hu | rfl
  · exact (toNat_pack_lt hu).le
  · show (UnpackedFloat.pack .binary64 (.zero .negative)).toNat ≤ 2 ^ 63
    decide +kernel

namespace NotBelowZero

theorem mul (hx : NotBelowZero x) (hy : Unsigned y) : NotBelowZero (x * y) := by
  apply notBelowZero_of_pack
  have hy' := isUnsigned_unpack hy
  rcases isUnsigned_or_zero hx with hx' | hx'
  · exact .inl (hx'.mul hy')
  · rw [hx']
    exact hy'.zero_mul

theorem div (hx : NotBelowZero x) (hy : Unsigned y) : NotBelowZero (x / y) := by
  apply notBelowZero_of_pack
  have hy' := isUnsigned_unpack hy
  rcases isUnsigned_or_zero hx with hx' | hx'
  · exact .inl (hx'.div hy')
  · rw [hx']
    exact hy'.zero_div

end NotBelowZero

end Floats

namespace Decimal

section Sign

variable {a d : Decimal} {x : Float}

theorem unsigned_roundFloat (hx : Unsigned x) : Unsigned (roundFloat x) := by
  unfold roundFloat
  split
  · dsimp only
    split
    · exact unsigned_toFloat_uint64 _
    · exact (unsigned_toFloat_uint64 _).add (unsigned_toFloat 1)
  · exact hx

/-- Zero has no fraction in any number of places. -/
theorem zero_fraction_beq : ∀ s < 29, ((0 : ℕ).toFloat / (10 ^ s : ℕ).toFloat == 0) = true := by
  decide +kernel

theorem notBelowZero_neg_zero : NotBelowZero (-(0 : ℕ).toFloat) := by decide +kernel

theorem notBelowZero_toFloat (ha : a.isBelowZero = false) : NotBelowZero a.toFloat := by
  unfold toFloat
  split
  · dsimp only
    split
    · next h =>
      -- A zero is read without its sign.
      exact absurd ha (by rw [Bool.not_eq_false]; exact h)
    · exact (unsigned_toFloat _).notBelowZero
  · dsimp only
    cases hneg : a.negative with
    | false =>
      rw [if_neg Bool.false_ne_true]
      -- Whole part, fraction and power of ten have no signs, and so has nothing made of them.
      have hten := unsigned_toFloat (10 ^ a.scale)
      have hwhole := unsigned_toFloat a.wholePart
      apply Unsigned.notBelowZero
      split
      · exact hwhole
      · have hsum := hwhole.add ((unsigned_toFloat a.fraction).div hten)
        exact (unsigned_roundFloat (hsum.mul hten)).div hten
    | true =>
      -- Only a zero may have a sign here, and its fraction is skipped.
      have hzero : a.coefficient = 0 := by
        rw [isBelowZero, hneg, isZero] at ha
        simpa using ha
      have hwhole : a.wholePart = 0 := by rw [wholePart, hzero, Nat.zero_div]
      have hfraction : a.fraction = 0 := by rw [fraction, hzero, Nat.zero_mod]
      have hs := a.scale_le
      rw [if_pos rfl, hwhole, hfraction, if_pos (zero_fraction_beq a.scale (by omega))]
      exact notBelowZero_neg_zero

theorem negative_of_toDecimal? {negative : Bool} {s : Approach}
    (h : s.toDecimal? negative = some d) : d.negative = negative := by
  have hclose (s : Approach) (h : s.close negative = some d) : d.negative = negative := by
    unfold Approach.close at h
    dsimp only at h
    split at h
    · rw [← Option.some.inj h]
    · cases h
  unfold Approach.toDecimal? at h
  split at h
  · exact hclose _ h
  · dsimp only at h
    split at h
    · exact hclose _ h
    · cases h

theorem toRat_nonneg_of_not_negative (h : d.negative = false) : 0 ≤ d.toRat := by
  rw [← isBelowZero_eq_false_iff, isBelowZero, h, Bool.false_and]

/-- A sign that stands in front of other bits than those of zero is that of the decimal. -/
theorem toRat_nonneg_of_ofFloat? (hx : NotBelowZero x) (h : ofFloat? x = some d) : 0 ≤ d.toRat := by
  unfold ofFloat? at h
  split at h
  · cases h
  · dsimp only at h
    split at h
    · next hzero =>
      have hd := (isZero_iff d).mp (by rw [← Option.some.inj h]; rfl)
      exact hd.ge
    · next hnonzero =>
      have hbits : ¬2 ^ 63 ≤ x.toBits.toNat := by
        intro hle
        rw [le_antisymm hx hle] at hnonzero
        exact hnonzero (by decide)
      rw [decide_eq_false hbits] at h
      exact toRat_nonneg_of_not_negative (negative_of_toDecimal? h)

end Sign

end Decimal

section Conversion

/-- Multiplying by a factor that is not below zero, and dividing by it on the way back. -/
def Conversion.isMultiple : Conversion → Bool
  | .linear factor => decide (Unsigned factor)
  | .affine _ _ => false

variable {c c' : Conversion} {x : Float} {source target : String} {value d : Decimal}

theorem notBelowZero_toBase (hc : c.isMultiple = true) (hx : NotBelowZero x) :
    NotBelowZero (c.toBase x) := by
  cases c with
  | linear factor => exact hx.mul (of_decide_eq_true hc)
  | affine scale offset => cases hc

theorem notBelowZero_ofBase (hc : c.isMultiple = true) (hx : NotBelowZero x) :
    NotBelowZero (c.ofBase x) := by
  cases c with
  | linear factor => exact hx.div (of_decide_eq_true hc)
  | affine scale offset => cases hc

/-- Only a temperature may begin anywhere else than at zero. -/
theorem isMultiple_of_lookup {u : KnownUnit} (h : KnownUnit.lookup source = some u)
    (hu : u.category ≠ .temperature) : u.conversion.isMultiple = true := by
  have hall : (KnownUnit.spellings.all fun p =>
      p.2.category == .temperature || p.2.conversion.isMultiple) = true := by decide +kernel
  unfold KnownUnit.lookup at h
  obtain ⟨p, hp, rfl⟩ := Option.map_eq_some_iff.mp h
  have hmultiple := List.all_eq_true.mp hall p (List.mem_of_find?_eq_some hp)
  rw [Bool.or_eq_true, beq_iff_eq] at hmultiple
  exact hmultiple.resolve_left hu

/-- A conversion within any category but that of temperatures keeps to one side of zero. -/
theorem gives_convertUnit_nonneg {v : KnownUnit} (htarget : KnownUnit.lookup target = some v)
    (hv : v.category ≠ .temperature) (hvalue : value.isBelowZero = false) :
    Gives (value.convertUnit source target) fun d => 0 ≤ d.toRat := by
  have hself := (Decimal.isBelowZero_eq_false_iff value).mp hvalue
  refine gives_ite (fun _ => gives_ok hself) fun _ => ?_
  rw [htarget]
  cases hsource : KnownUnit.lookup source with
  | none => exact gives_error _
  | some u =>
    refine gives_ite (fun _ => gives_error _) fun hsame => ?_
    refine gives_ite (fun _ => gives_ok hself) fun _ => gives_orError fun d hd => ?_
    have hu : u.category ≠ .temperature := by rwa [not_not.mp hsame]
    have hbase := notBelowZero_toBase (isMultiple_of_lookup hsource hu)
      (Decimal.notBelowZero_toFloat hvalue)
    exact Decimal.toRat_nonneg_of_ofFloat?
      (notBelowZero_ofBase (isMultiple_of_lookup htarget hv) hbase) hd

end Conversion

end Reckoner
