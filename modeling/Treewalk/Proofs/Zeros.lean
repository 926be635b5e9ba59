/-
This file proves that a number is zero if and only if it is zero as a float.

An integer that is taken as a float is rounded, but not to zero: rounding may drop bits at the end
of a mantissa, and never its first one (`shiftToTargetExponent_keeps`). What comes of it is packed
into 64 bits, where a float other than zero is not lost as long as its mantissa has no more than 53
bits and its exponent is not below the least one (`pack_ne_packedZero`). Floats that are rounded or
unpacked are like that (`lasts_roundWithAccuracy`, `lasts_unpack`), so an integer other than zero
goes through all the steps by which it becomes a float without getting lost (`lasts_float_ofNat`).
-/
import Mathlib
import Treewalk.Number

namespace Treewalk

open Float.Model (Format UnpackedFloat)
open Float.Model.UnpackedFloat

/-- Whether a float is not zero and does not become zero when it is packed. -/
def Lasts : UnpackedFloat → Prop
  | .zero _ => False
  | .finite _ mantissa exponent _ => mantissa < 2 ^ 53 ∧ -1074 ≤ exponent
  | .infinity _ | .notANumber => True

theorem Lasts.neg {real : UnpackedFloat} (lasts : Lasts real) : Lasts real.neg := by
  cases real <;> exact lasts

/-! ### First bits -/

theorem log2_bounds {mantissa : Nat} (positive : 0 < mantissa) :
    2 ^ mantissa.log2 ≤ mantissa ∧ mantissa < 2 ^ (mantissa.log2 + 1) :=
  (Nat.log2_eq_iff (Nat.ne_of_gt positive)).mp rfl

theorem log2_mul_two_pow {mantissa : Nat} (positive : 0 < mantissa) (amount : Nat) :
    0 < mantissa * 2 ^ amount ∧ (mantissa * 2 ^ amount).log2 = mantissa.log2 + amount := by
  obtain ⟨least, greatest⟩ := log2_bounds positive
  have some : 0 < mantissa * 2 ^ amount := Nat.mul_pos positive (Nat.two_pow_pos amount)
  refine ⟨some, (Nat.log2_eq_iff (Nat.ne_of_gt some)).mpr ⟨?_, ?_⟩⟩
  · rw [Nat.pow_add]
    exact Nat.mul_le_mul_right _ least
  · rw [Nat.add_right_comm, Nat.pow_add]
    exact Nat.mul_lt_mul_of_pos_right greatest (Nat.two_pow_pos amount)

/-- Something is left of a mantissa if no more bits are dropped than follow the first one. -/
theorem log2_div_two_pow {mantissa amount : Nat} (positive : 0 < mantissa)
    (few : amount ≤ mantissa.log2) :
    0 < mantissa / 2 ^ amount ∧ (mantissa / 2 ^ amount).log2 = mantissa.log2 - amount := by
  obtain ⟨least, greatest⟩ := log2_bounds positive
  have front : 2 ^ (mantissa.log2 - amount) * 2 ^ amount = 2 ^ mantissa.log2 := by
    rw [← Nat.pow_add, Nat.sub_add_cancel few]
  have least : 2 ^ (mantissa.log2 - amount) ≤ mantissa / 2 ^ amount := by
    rw [Nat.le_div_iff_mul_le (Nat.two_pow_pos amount), front]
    exact least
  have greatest : mantissa / 2 ^ amount < 2 ^ (mantissa.log2 - amount + 1) := by
    rw [Nat.div_lt_iff_lt_mul (Nat.two_pow_pos amount), Nat.pow_succ, Nat.mul_right_comm, front,
      ← Nat.pow_succ]
    exact greatest
  have some : 0 < mantissa / 2 ^ amount := Nat.lt_of_lt_of_le (Nat.two_pow_pos _) least
  exact ⟨some, (Nat.log2_eq_iff (Nat.ne_of_gt some)).mpr ⟨least, greatest⟩⟩

/-! ### Rounding -/

theorem mantissa_shiftRight (extended : ExtendedMantissa) (amount : Nat) :
    (extended >>> amount).mantissa = extended.mantissa / 2 ^ amount := by
  show (Nat.repeat ExtendedMantissa.shiftRightOne amount extended).mantissa = _
  induction amount with
  | zero => exact (Nat.div_one _).symm
  | succ amount inductionHypothesis =>
    show (Nat.repeat ExtendedMantissa.shiftRightOne amount extended).mantissa / 2 = _
    rw [inductionHypothesis, Nat.div_div_eq_div_mul, Nat.pow_succ]

theorem mantissa_le_roundedMantissa (extended : ExtendedMantissa) :
    extended.mantissa ≤ extended.roundedMantissa := by
  obtain ⟨mantissa, _ | _, _ | _⟩ := extended
  · exact Nat.le_refl _
  · exact Nat.le_refl _
  · exact Nat.le_add_right ..
  · exact Nat.le_succ _

/-- A mantissa is shifted to at most 53 bits, and its first bit keeps its value. -/
theorem shiftToTargetExponent_keeps {mantissa : Nat} {exponent : Int} (positive : 0 < mantissa)
    (large : -1074 ≤ mantissa.log2 + exponent) :
    let shifted := shiftToTargetExponent Format.binary64 mantissa exponent .exact
    0 < shifted.1.mantissa ∧ shifted.1.mantissa.log2 + shifted.2 = mantissa.log2 + exponent ∧
      shifted.1.mantissa < 2 ^ 53 ∧ -1074 ≤ shifted.2 := by
  intro shifted
  obtain ⟨amount, known⟩ : ∃ amount,
      amount = (max ((mantissa.log2 : Int) + 1 + exponent - 53) (-1074) - exponent).toNat :=
    ⟨_, rfl⟩
  have contents : shifted.1.mantissa = mantissa / 2 ^ amount := by
    rw [known]
    exact mantissa_shiftRight ..
  have place : shifted.2 = exponent + amount := by
    rw [known]
    rfl
  obtain ⟨some, first⟩ := log2_div_two_pow positive (by omega : amount ≤ mantissa.log2)
  rw [contents, place, first, ← Nat.log2_lt (Nat.ne_of_gt some), first]
  exact ⟨some, by omega, by omega, by omega⟩

/-- What is not below the least float is not rounded to zero. -/
theorem lasts_roundWithAccuracy {sign : Sign} {mantissa : Nat} {exponent : Int}
    (positive : 0 < mantissa) (large : -1074 ≤ mantissa.log2 + exponent) :
    Lasts (roundWithAccuracy Format.binary64 sign mantissa exponent .exact) := by
  obtain ⟨some, place, -, -⟩ := shiftToTargetExponent_keeps positive large
  have more := mantissa_le_roundedMantissa
    (shiftToTargetExponent Format.binary64 mantissa exponent .exact).1
  have some := Nat.lt_of_lt_of_le some more
  have first := (Nat.le_log2 (Nat.ne_of_gt some)).mpr
    (Nat.le_trans (log2_bounds (by omega)).1 more)
  have large : -1074 ≤ _ + (shiftToTargetExponent Format.binary64 mantissa exponent .exact).2 :=
    Int.le_trans (place ▸ large) (Int.add_le_add_right (Int.ofNat_le.mpr first) _)
  -- A mantissa that was rounded up may have one bit too many, so there is a second shift.
  obtain ⟨some, -, bits, least⟩ := shiftToTargetExponent_keeps some large
  unfold roundWithAccuracy
  dsimp only
  rw [dif_neg (Nat.ne_of_gt some)]
  exact ⟨bits, least⟩

/-- A product with one, written as a power of two over itself, is the other factor, rounded. -/
theorem lasts_mul_one {sign : Sign} {mantissa : Nat} {exponent : Int} {positive : 0 < mantissa}
    (large : -1074 ≤ mantissa.log2 + exponent) (place : Nat) :
    Lasts (UnpackedFloat.mul Format.binary64 (.finite sign mantissa exponent positive)
      (.finite .positive (2 ^ place) (-place) (Nat.two_pow_pos place))) := by
  obtain ⟨some, first⟩ := log2_mul_two_pow positive place
  exact lasts_roundWithAccuracy some (by omega)

/-! ### Packing -/

theorem lasts_unpack {bits : BitVec Format.binary64.numBits}
    (different : ∀ sign, UnpackedFloat.unpack Format.binary64 bits ≠ .zero sign) :
    Lasts (UnpackedFloat.unpack Format.binary64 bits) := by
  have mantissa : (unpackMantissa bits).toNat < 2 ^ 52 := (unpackMantissa bits).isLt
  have bias : Format.binary64.exponentBias = 1023 := rfl
  unfold UnpackedFloat.unpack at different ⊢
  dsimp only at different ⊢
  split
  · split <;> trivial
  next ordinary =>
    rw [if_neg ordinary] at different
    split
    next small =>
      rw [if_pos small] at different
      split
      next none => exact absurd (dif_pos none) (different _)
      next => exact ⟨by omega, by rw [small, bias]; decide⟩
    next normal =>
      have some : (unpackExponent bits).toNat ≠ 0 := fun zero => normal (BitVec.eq_of_toNat_eq zero)
      refine ⟨(1#1 ++ unpackMantissa bits).isLt, ?_⟩
      rw [bias]
      show (-1074 : Int) ≤ (unpackExponent bits).toNat - (1023 + 52 : Int)
      omega

theorem pack_ne_packedZero {real : UnpackedFloat} (lasts : Lasts real) (sign : Sign) :
    UnpackedFloat.pack Format.binary64 real ≠ packedZero Format.binary64 sign := by
  intro same
  have exponent := congrArg unpackExponent same
  have mantissa := congrArg unpackMantissa same
  unfold packedZero at exponent mantissa
  rw [unpackExponent_packComponents] at exponent
  rw [unpackMantissa_packComponents] at mantissa
  cases real with
  | zero => exact lasts
  | notANumber =>
    change unpackExponent (packedNaN _) = _ at exponent
    unfold packedNaN at exponent
    rw [unpackExponent_packComponents] at exponent
    cases exponent
  | infinity =>
    change unpackExponent (packedInfinity _ _) = _ at exponent
    unfold packedInfinity at exponent
    rw [unpackExponent_packComponents] at exponent
    cases exponent
  | finite sign bits place positive =>
    obtain ⟨few, least⟩ := lasts
    have number : (place + Format.binary64.exponentBias +
        Format.binary64.mantissaBitsWithoutImplicit : Int).toNat = (place + 1075).toNat :=
      congrArg Int.toNat (Int.add_assoc ..)
    unfold UnpackedFloat.pack at exponent mantissa
    dsimp only at exponent mantissa
    rw [number] at exponent mantissa
    split at exponent
    next =>
      unfold packedInfinity at exponent
      rw [unpackExponent_packComponents] at exponent
      cases exponent
    next fits =>
      rw [if_neg fits] at mantissa
      have fits : (place + 1075).toNat + 1 < 2 ^ 11 := Nat.not_le.mp fits
      split at exponent
      next =>
        -- The exponent of a full mantissa is not the one of zero.
        rw [unpackExponent_packComponents] at exponent
        have zero : (place + 1075).toNat % 2 ^ 11 = 0 := congrArg BitVec.toNat exponent
        omega
      next small =>
        rw [if_neg small, unpackMantissa_packComponents] at mantissa
        have zero : bits % 2 ^ 52 = 0 := congrArg BitVec.toNat mantissa
        have fewer : bits < 2 ^ 52 := by
          rw [← Nat.log2_lt (Nat.ne_of_gt positive)] at few ⊢
          change bits.log2 + 1 ≠ 53 at small
          omega
        omega

/-- What is packed can be unpacked as something that lasts. -/
theorem Lasts.unpack_pack {real : UnpackedFloat} (lasts : Lasts real) :
    Lasts (Float.Model.pack real).unpack :=
  lasts_unpack fun sign zero => pack_ne_packedZero lasts sign
    ((unpack_eq_zero_iff_of_valid (Float.Model.pack real).valid).mp zero)

/-! ### Integers as floats -/

theorem lasts_ofNat {number : Nat} (positive : 0 < number) :
    Lasts (UnpackedFloat.ofNat Format.binary64 number) := by
  unfold UnpackedFloat.ofNat UnpackedFloat.ofInt UnpackedFloat.normalize
  rw [Int.compare_eq_gt.mpr (by omega)]
  show Lasts (UnpackedFloat.round _ _ number 0)
  unfold UnpackedFloat.round decreaseExponent
  dsimp only
  rw [Nat.shiftLeft_eq]
  obtain ⟨some, first⟩ := log2_mul_two_pow positive
    (0 - Format.binary64.targetExponent (Float.Model.totalExponent number 0)).toNat
  exact lasts_roundWithAccuracy some (by omega)

/-- A small number becomes a float as a word, and a large one as a decimal without an exponent. -/
theorem lasts_float_ofNat {number : Nat} (positive : 0 < number) :
    Lasts (Float.ofNat number).toModel.unpack := by
  show Lasts (Float.ofScientific number false 0).toModel.unpack
  unfold Float.ofScientific
  split
  next small =>
    show Lasts (number.toUInt64.toFloat * Float.exactlyRepresentablePowersOfTen[0]).toModel.unpack
    have one : (Float.exactlyRepresentablePowersOfTen[0]).toModel.unpack =
        .finite .positive (2 ^ 52) (-(52 : Nat)) (Nat.two_pow_pos 52) := rfl
    have product : (number.toUInt64.toFloat * Float.exactlyRepresentablePowersOfTen[0]).toModel =
      Float.Model.pack (UnpackedFloat.mul Format.binary64 number.toUInt64.toFloat.toModel.unpack
        (Float.exactlyRepresentablePowersOfTen[0]).toModel.unpack) := rfl
    have word : number.toUInt64.toNat = number :=
      UInt64.toNat_ofNat_of_lt' (Nat.lt_trans small.1 (by decide))
    have lasts : Lasts number.toUInt64.toFloat.toModel.unpack :=
      (lasts_ofNat (word.symm ▸ positive)).unpack_pack
    rw [product, one]
    refine Lasts.unpack_pack ?_
    generalize number.toUInt64.toFloat.toModel.unpack = real at lasts ⊢
    cases real with
    | zero => exact lasts.elim
    | infinity | notANumber => trivial
    | finite =>
      have least := lasts.2
      exact lasts_mul_one (by omega) 52
  next =>
    show Lasts (Float.Model.pack (UnpackedFloat.ofScientific Format.binary64 number 0)).unpack
    refine Lasts.unpack_pack ?_
    have bits : (number <<< 53).log2 = number.log2 + 53 := by
      rw [Nat.shiftLeft_eq]
      exact (log2_mul_two_pow positive 53).2
    have range : ¬(0 : Int) < -(2 ^ Format.binary64.exponentBits + number.log2) := by
      change ¬(0 : Int) < -(2 ^ 11 + number.log2)
      omega
    unfold UnpackedFloat.ofScientific
    rw [dif_neg (Nat.ne_of_gt positive), if_neg (by decide), if_neg range, if_pos (by decide)]
    refine lasts_mul_one ?_ 0
    change (-1074 : Int) ≤ (number <<< 53).log2 + -53
    omega

/-! ### Zeros -/

theorem float_eq_of_unpack_eq {real real' : Float}
    (same : real.toModel.unpack = real'.toModel.unpack) : real = real' := by
  have bits := (unpack_inj_of_valid real.toModel.valid real'.toModel.valid).mp same
  obtain ⟨⟨⟨_⟩, _⟩⟩ := real
  obtain ⟨⟨⟨_⟩, _⟩⟩ := real'
  subst bits
  rfl

theorem float_beq_zero_iff_unpack {real : Float} :
    (real == 0.0) = true ↔ ∃ sign, real.toModel.unpack = .zero sign := by
  show real.toModel.unpack.beq (.zero .positive) = true ↔ _
  rw [beq_iff_ne_notANumber_and_eq]
  constructor
  · rintro ⟨-, -, same | ⟨same, -⟩ | ⟨same, -⟩⟩ <;> exact ⟨_, same⟩
  · rintro ⟨_ | _, same⟩ <;> rw [same] <;> simp

/-- There are two floats that equal zero. -/
theorem float_beq_zero_iff {real : Float} : (real == 0.0) = true ↔ real = 0.0 ∨ real = -0.0 := by
  constructor
  · intro zero
    obtain ⟨_ | _, same⟩ := float_beq_zero_iff_unpack.mp zero
    · exact .inr (float_eq_of_unpack_eq (same.trans rfl))
    · exact .inl (float_eq_of_unpack_eq (same.trans rfl))
  · rintro (rfl | rfl) <;> decide

/-- An integer is zero if and only if it is zero as a float. -/
theorem float_ofInt_beq_zero_iff {exact : Int} : (Float.ofInt exact == 0.0) = true ↔ exact = 0 := by
  constructor
  · intro zero
    obtain ⟨sign, zero⟩ := float_beq_zero_iff_unpack.mp zero
    refine Decidable.by_contra fun different => ?_
    have lasts : Lasts (Float.ofInt exact).toModel.unpack := by
      cases exact with
      | ofNat number =>
        exact lasts_float_ofNat (Nat.pos_of_ne_zero fun none => different (congrArg _ none))
      | negSucc number => exact (lasts_float_ofNat number.succ_pos).neg.unpack_pack
    rw [zero] at lasts
    exact lasts
  · rintro rfl
    decide

namespace Number

/-- Whether a number is one of the three that are zero: the integer and two floats. -/
def Vanishes (value : Number) : Prop := value = int 0 ∨ value = float 0.0 ∨ value = float (-0.0)

theorem isZero_iff {value : Number} : value.isZero = true ↔ value.Vanishes := by
  unfold Vanishes
  cases value with
  | int word => simp only [isZero_int, beq_iff_eq, int.injEq, reduceCtorEq, or_false]
  | float real =>
    simp only [float.injEq, reduceCtorEq, false_or]
    exact float_beq_zero_iff

/-- Whether a number is zero may as well be asked of it as a float. -/
theorem toFloat_beq_zero (value : Number) : (value.toFloat == 0.0) = value.isZero := by
  cases value with
  | int word =>
    refine Bool.eq_iff_iff.mpr (float_ofInt_beq_zero_iff.trans ?_)
    rw [isZero_int, beq_iff_eq]
    exact Int64.toInt_inj (y := 0)
  | float real => rfl

end Number

end Treewalk
