/-
This file proves that the arithmetic of integers is exact or else a fault.

What an operator makes of two integers is the integer that unbounded arithmetic makes of them if
there is a word for it, and otherwise the fault that names the operation (`IsExact`). For sums,
differences and products this is how they are defined. Powers are not computed where they are known
or too large beforehand. That is exact, too: a base of zero, one or minus one has only two different
powers, and the powers of any other base have outgrown the words at an exponent of 64
(`power_eq_exactly`).
-/
import Treewalk.Apply

namespace Treewalk

/-- Whether a result is exact: an integer if there is a word for it, and a fault if there is not. -/
structure IsExact (operation : String) (exact : Int) (result : Except Fault Value) : Prop where
  fits : -Int.pow 2 63 ≤ exact → exact < Int.pow 2 63 →
    ∃ word : Int64, word.toInt = exact ∧ result = .ok (.int word)
  overflows : exact < -Int.pow 2 63 ∨ Int.pow 2 63 ≤ exact →
    result = .error (.integerOverflow operation)

theorem toInt_minValue : Int64.minValue.toInt = -Int.pow 2 63 := by decide

theorem toInt_maxValue : Int64.maxValue.toInt = Int.pow 2 63 - 1 := by decide

/-- There is a word for what exact arithmetic comes to if it comes to a value. -/
theorem exactly_eq_ok_iff {operation : String} {exact : Int} {value : Value} :
    (exactly operation exact).map Value.number = .ok value ↔
      ∃ word : Int64, word.toInt = exact ∧ value = .int word := by
  unfold exactly
  cases narrowed : narrow? exact with
  | some word =>
    have same := narrow?_eq_some_iff.mp narrowed
    constructor
    · intro result
      cases result
      exact ⟨word, same, rfl⟩
    · rintro ⟨word', same', rfl⟩
      rw [Int64.toInt_inj.mp (same'.trans same.symm)]
      rfl
  | none =>
    constructor
    · intro result
      cases result
    · rintro ⟨word, rfl, rfl⟩
      rw [narrow?_toInt] at narrowed
      cases narrowed

/-- There is no word for what exact arithmetic comes to if it comes to a fault. -/
theorem exactly_eq_error_iff {operation : String} {exact : Int} {fault : Fault} :
    (exactly operation exact).map Value.number = .error fault ↔
      (exact < -Int.pow 2 63 ∨ Int.pow 2 63 ≤ exact) ∧ fault = .integerOverflow operation := by
  unfold exactly
  cases narrowed : narrow? exact with
  | some word =>
    have least := word.minValue_le_toInt
    have greatest := word.toInt_le
    rw [toInt_minValue, narrow?_eq_some_iff.mp narrowed] at least
    rw [toInt_maxValue, narrow?_eq_some_iff.mp narrowed] at greatest
    constructor
    · intro result
      cases result
    · rintro ⟨outside, -⟩
      omega
  | none =>
    have outside := narrow?_eq_none_iff.mp narrowed
    rw [toInt_minValue, toInt_maxValue] at outside
    constructor
    · intro result
      cases result
      exact ⟨by omega, rfl⟩
    · rintro ⟨-, rfl⟩
      rfl

theorem isExact_exactly (operation : String) (exact : Int) :
    IsExact operation exact ((exactly operation exact).map .number) where
  fits least greatest := by
    cases result : (exactly operation exact).map Value.number with
    | ok value =>
      obtain ⟨word, same, rfl⟩ := exactly_eq_ok_iff.mp result
      exact ⟨word, same, rfl⟩
    | error fault =>
      obtain ⟨outside, -⟩ := exactly_eq_error_iff.mp result
      omega
  overflows outside := exactly_eq_error_iff.mpr ⟨outside, rfl⟩

/-! ### Powers -/

theorem mul_mul_self_of_natAbs_le_one {base : Int} (small : base.natAbs ≤ 1) :
    base * base * base = base := by
  obtain rfl | rfl | rfl : base = -1 ∨ base = 0 ∨ base = 1 := by omega
  all_goals rfl

/-- The powers of a small base come in turns. -/
theorem pow_of_natAbs_le_one {base : Int} (small : base.natAbs ≤ 1) (exponent : Nat) :
    base.pow exponent =
      if exponent = 0 then 1 else if exponent % 2 = 0 then base * base else base := by
  induction exponent with
  | zero => exact Int.pow_zero base
  | succ exponent inductionHypothesis =>
    have next : base.pow (exponent + 1) = base.pow exponent * base := Int.pow_succ ..
    rw [next, inductionHypothesis, if_neg exponent.succ_ne_zero]
    by_cases first : exponent = 0
    · rw [first, if_pos rfl, Int.one_mul]
      rfl
    rw [if_neg first]
    by_cases even : exponent % 2 = 0
    · rw [if_pos even, if_neg (by omega), mul_mul_self_of_natAbs_le_one small]
    · rw [if_neg even, if_pos (by omega)]

/-- A power of a base that is not small is at least as far from zero as that of two. -/
theorem pow_two_le_natAbs_pow {base : Int} (large : 2 ≤ base.natAbs) (exponent : Nat) :
    Nat.pow 2 exponent ≤ (base.pow exponent).natAbs := by
  induction exponent with
  | zero =>
    have one : base.pow 0 = 1 := Int.pow_zero base
    rw [one]
    exact Nat.le_refl _
  | succ exponent inductionHypothesis =>
    have next : base.pow (exponent + 1) = base.pow exponent * base := Int.pow_succ ..
    rw [next, Int.natAbs_mul]
    exact Nat.mul_le_mul inductionHypothesis large

/-- A power is the exact one, also where it is not computed. -/
theorem power_eq_exactly (base : Int) (exponent : Nat) :
    power base exponent = exactly "exponentiation" (base.pow exponent) := by
  unfold power
  by_cases small : base.natAbs ≤ 1
  · rw [if_pos small, pow_of_natAbs_le_one small]
  rw [if_neg small]
  by_cases few : exponent < 64
  · rw [if_pos few]
  rw [if_neg few]
  have far : Nat.pow 2 64 ≤ (base.pow exponent).natAbs :=
    Nat.le_trans (Nat.pow_le_pow_right Nat.two_pos (Nat.not_lt.mp few))
      (pow_two_le_natAbs_pow (by omega) exponent)
  have outside : narrow? (base.pow exponent) = none := by
    rw [narrow?_eq_none_iff, toInt_minValue, toInt_maxValue]
    have size : Nat.pow 2 64 = 2 * (Int.pow 2 63).toNat := rfl
    omega
  rw [exactly, outside]

example : power 0 0 = .ok (.int 1) := rfl

example : power (-1) 4294967297 = .ok (.int (-1)) := rfl

/-! ### Operators -/

/-- The arithmetic of integers is exact. A sum, a difference, a product and a power with a natural
exponent are those of unbounded arithmetic if there is a word for them, and otherwise the fault that
names the operation. To negate an integer is to multiply it by minus one, which is not possible for
the least integer only. -/
theorem integer_arithmetic_is_exact (object : Nat) (left right : Int64) :
    IsExact "addition" (left.toInt + right.toInt)
      (BinaryOperator.add.apply object (.int left) (.int right)) ∧
    IsExact "subtraction" (left.toInt - right.toInt)
      (BinaryOperator.subtract.apply object (.int left) (.int right)) ∧
    IsExact "multiplication" (left.toInt * right.toInt)
      (BinaryOperator.multiply.apply object (.int left) (.int right)) ∧
    (0 ≤ right.toInt →
      IsExact "exponentiation" (left.toInt.pow right.toInt.toNat)
        (BinaryOperator.power.apply object (.int left) (.int right))) ∧
    (∀ value, UnaryOperator.negate.apply (.int left) = .ok value ↔
      BinaryOperator.multiply.apply object (.int left) (.int (-1)) = .ok value) ∧
    ∀ fault, UnaryOperator.negate.apply (.int left) = .error fault ↔
      left = Int64.minValue ∧ fault = .integerOverflow "negation" := by
  refine ⟨isExact_exactly .., isExact_exactly .., isExact_exactly .., fun natural => ?_,
    fun value => ?_, fun fault => ?_⟩
  · have raised : BinaryOperator.power.apply object (.int left) (.int right) =
        (power left.toInt right.toInt.toNat).map .number :=
      congrArg (Except.map Value.number) (if_pos natural)
    rw [raised, power_eq_exactly]
    exact isExact_exactly ..
  · have product : left.toInt * (-1 : Int64).toInt = -left.toInt := by
      have minusOne : (-1 : Int64).toInt = -1 := rfl
      rw [minusOne]
      omega
    have multiplied : BinaryOperator.multiply.apply object (.int left) (.int (-1)) =
        (exactly "multiplication" (left.toInt * (-1 : Int64).toInt)).map .number := rfl
    rw [multiplied, product, exactly_eq_ok_iff]
    exact exactly_eq_ok_iff
  · have least := left.minValue_le_toInt
    have greatest := left.toInt_le
    rw [toInt_minValue] at least
    rw [toInt_maxValue] at greatest
    rw [← Int64.toInt_inj, toInt_minValue]
    refine exactly_eq_error_iff.trans (and_congr_left' ?_)
    omega

/-- The least integer is a power of minus two, and it has no counterpart. -/
theorem least_integer_is_power :
    0 ≤ (63 : Int64).toInt ∧
    BinaryOperator.power.apply 0 (.int (-2)) (.int 63) = .ok (.int Int64.minValue) ∧
    UnaryOperator.negate.apply (.int Int64.minValue) = .error (.integerOverflow "negation") := by
  have natural : 0 ≤ (63 : Int64).toInt := by decide
  obtain ⟨_, _, _, powers, _, _⟩ := integer_arithmetic_is_exact 0 (-2) 63
  obtain ⟨_, _, _, _, _, negation⟩ := integer_arithmetic_is_exact 0 Int64.minValue 0
  obtain ⟨word, same, result⟩ := (powers natural).fits (by decide) (by decide)
  obtain rfl : word = Int64.minValue := Int64.toInt_inj.mp (same.trans (by decide))
  exact ⟨natural, result, (negation _).mpr ⟨rfl, rfl⟩⟩

end Treewalk
