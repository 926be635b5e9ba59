/-
This file proves that the table of binary operators is complete: any two values are combined by an
operator, or else there is one fault that says why not.

The table is given as two relations. `Combines` has the operands that an operator combines: a list
with an item to append, two strings to join or to compare, and any two numbers, unless the divisor
is zero or the integer result has no word. `Refuses` has the fault for all others. Every row of the
two is what the operator does (`apply_of_combines`, `apply_of_refuses`), and there is a row for
every pair of values (`combines_or_refuses`), so the rows say all that an operator does.

Operators other than the exact ones take their operands as floats. That is nothing to the truth of a
number and to a division by zero, since a number is zero if and only if it is zero as a float.
-/
import Treewalk.Proofs.Exactness
import Treewalk.Proofs.Zeros

namespace Treewalk

namespace BinaryOperator

/-- The integer that an operator makes of two integers in unbounded arithmetic, and the name of the
operation, if the operator keeps to integers. -/
def integer? (op : BinaryOperator) (left right : Int) : Option (String × Int) :=
  match op with
  | add => some ("addition", left + right)
  | subtract => some ("subtraction", left - right)
  | multiply => some ("multiplication", left * right)
  | power => if 0 ≤ right then some ("exponentiation", left.pow right.toNat) else none
  | _ => none

/-- Whether an operation comes to an integer for which there is no word. -/
inductive Overflows (op : BinaryOperator) (operation : String) : Number → Number → Prop
  | intro {left right : Int64} {exact : Int}
      (computed : op.integer? left.toInt right.toInt = some (operation, exact))
      (outside : exact < -Int.pow 2 63 ∨ Int.pow 2 63 ≤ exact) :
      Overflows op operation (.int left) (.int right)

/-- The operands that an operator combines. -/
inductive Combines (op : BinaryOperator) : Value → Value → Prop
  | item {object : Nat} {latest : List Value} {right : Value} (appends : op = append) :
      Combines op (.array object latest) right
  | strings {left right : String} (joins : op = add ∨ op = equal ∨ op = notEqual) :
      Combines op (.string left) (.string right)
  | numbers {left right : Number} (numeric : op ≠ append)
      (divides : ¬(op = divide ∧ right.Vanishes))
      (fits : ∀ operation, ¬op.Overflows operation left right) :
      Combines op (.number left) (.number right)

/-- The fault that an operator comes to with operands that it does not combine. -/
inductive Refuses (op : BinaryOperator) : Value → Value → Fault → Prop
  | array {object : Nat} {latest : List Value} {right : Value} (other : op ≠ append) :
      Refuses op (.array object latest) right (.invalidBinary "array" op)
  | zero {left right : Number} (divides : op = divide) (vanishes : right.Vanishes) :
      Refuses op (.number left) (.number right) .divisionByZero
  | overflow {left right : Number} {operation : String}
      (overflows : op.Overflows operation left right) :
      Refuses op (.number left) (.number right) (.integerOverflow operation)
  | strings {left right : String} (other : ¬(op = add ∨ op = equal ∨ op = notEqual)) :
      Refuses op (.string left) (.string right) (.invalidBinary "string" op)
  | integers {left right : Int64} (appends : op = append) :
      Refuses op (.int left) (.int right) (.invalidBinary "int" op)
  | floats {left right : Number} (appends : op = append)
      (mixed : ¬∃ word word', left = .int word ∧ right = .int word') :
      Refuses op (.number left) (.number right) (.invalidBinary "float" op)
  | mismatch {left right : Value} (notArray : ∀ object latest, left ≠ .array object latest)
      (notNumbers : ¬∃ value value', left = .number value ∧ right = .number value')
      (notStrings : ¬∃ value value', left = .string value ∧ right = .string value') :
      Refuses op left right (.typeMismatch left.typeName right.typeName op)

/-! ### The rows -/

variable {op : BinaryOperator} {object : Nat}

/-- Where an operator keeps to integers, its result is exact. -/
theorem apply_of_integer? {left right : Int64} {operation : String} {exact : Int}
    (computed : op.integer? left.toInt right.toInt = some (operation, exact)) :
    op.apply object (.int left) (.int right) = (exactly operation exact).map .number := by
  cases op
  case add | subtract | multiply =>
    cases computed
    rfl
  case power =>
    obtain ⟨natural, same⟩ := Option.ite_none_right_eq_some.mp computed
    cases same
    rw [← power_eq_exactly]
    exact congrArg (Except.map Value.number) (if_pos natural)
  all_goals cases computed

/-- Two integers are combined if their result is a float or has a word. -/
theorem exists_apply_integers {left right : Int64} (numeric : op ≠ append) (other : op ≠ divide)
    (fits : ∀ operation, ¬op.Overflows operation (.int left) (.int right)) :
    ∃ value, op.apply object (.int left) (.int right) = .ok value := by
  cases computed : op.integer? left.toInt right.toInt with
  | some result =>
    rw [apply_of_integer? computed]
    cases comes : (exactly result.1 result.2).map Value.number with
    | ok value => exact ⟨value, rfl⟩
    | error fault => exact absurd ⟨computed, (exactly_eq_error_iff.mp comes).1⟩ (fits result.1)
  | none =>
    cases op
    case append => exact absurd rfl numeric
    case divide => exact absurd rfl other
    case add | subtract | multiply => cases computed
    case power =>
      have negative : ¬0 ≤ right.toInt := fun natural => by
        rw [integer?, if_pos natural] at computed
        cases computed
      exact ⟨_, congrArg (Except.map Value.number) (if_neg negative)⟩
    all_goals exact ⟨_, rfl⟩

/-- Two numbers that are not both integers are combined as floats. -/
theorem exists_apply_floats {left right : Number} (numeric : op ≠ append) (other : op ≠ divide)
    (mixed : ¬∃ word word', left = .int word ∧ right = .int word') :
    ∃ value, op.apply object (.number left) (.number right) = .ok value := by
  cases op
  case append => exact absurd rfl numeric
  case divide => exact absurd rfl other
  all_goals
    cases left <;> cases right
    case int.int word word' => exact absurd ⟨word, word', rfl, rfl⟩ mixed
    all_goals exact ⟨_, rfl⟩

theorem exists_apply_divide {left right : Number} (divisor : ¬right.Vanishes) :
    ∃ value, divide.apply object (.number left) (.number right) = .ok value := by
  have nonzero : ¬right.isZero = true := fun zero => divisor (Number.isZero_iff.mp zero)
  exact ⟨_, congrArg (Except.map Value.number) (if_neg nonzero)⟩

theorem apply_of_combines {left right : Value} (combines : op.Combines left right) :
    ∃ value, op.apply object left right = .ok value := by
  cases combines with
  | item appends =>
    subst appends
    exact ⟨_, rfl⟩
  | strings joins =>
    rcases joins with rfl | rfl | rfl
    all_goals exact ⟨_, rfl⟩
  | @numbers left right numeric divides fits =>
    by_cases quotient : op = divide
    · subst quotient
      exact exists_apply_divide fun vanishes => divides ⟨rfl, vanishes⟩
    by_cases integers : ∃ word word', left = .int word ∧ right = .int word'
    · obtain ⟨word, word', rfl, rfl⟩ := integers
      exact exists_apply_integers numeric quotient fits
    · exact exists_apply_floats numeric quotient integers

theorem apply_of_refuses {left right : Value} {fault : Fault}
    (refuses : op.Refuses left right fault) : op.apply object left right = .error fault := by
  cases refuses with
  | array other =>
    cases op
    case append => exact absurd rfl other
    all_goals rfl
  | zero divides vanishes =>
    subst divides
    exact congrArg (Except.map Value.number) (if_pos (Number.isZero_iff.mpr vanishes))
  | overflow overflows =>
    obtain ⟨computed, outside⟩ := overflows
    rw [apply_of_integer? computed]
    exact exactly_eq_error_iff.mpr ⟨outside, rfl⟩
  | strings other =>
    cases op
    case add => exact absurd (.inl rfl) other
    case equal => exact absurd (.inr (.inl rfl)) other
    case notEqual => exact absurd (.inr (.inr rfl)) other
    all_goals rfl
  | integers appends =>
    subst appends
    rfl
  | @floats left right appends mixed =>
    subst appends
    cases left <;> cases right
    case int.int word word' => exact absurd ⟨word, word', rfl, rfl⟩ mixed
    all_goals rfl
  | mismatch notArray notNumbers notStrings =>
    cases left with
    | array object latest => exact absurd rfl (notArray object latest)
    | number value =>
      cases right
      case number value' => exact absurd ⟨value, value', rfl, rfl⟩ notNumbers
      all_goals rfl
    | string value =>
      cases right
      case string value' => exact absurd ⟨value, value', rfl, rfl⟩ notStrings
      all_goals rfl
    | function | void => rfl

/-- There is a row for any two values. -/
theorem combines_or_refuses (op : BinaryOperator) (left right : Value) :
    op.Combines left right ∨ ∃ fault, op.Refuses left right fault := by
  by_cases array : ∃ object latest, left = .array object latest
  · obtain ⟨object, latest, rfl⟩ := array
    by_cases appends : op = append
    · exact .inl (.item appends)
    · exact .inr ⟨_, .array appends⟩
  by_cases strings : ∃ value value', left = .string value ∧ right = .string value'
  · obtain ⟨value, value', rfl, rfl⟩ := strings
    by_cases joins : op = add ∨ op = equal ∨ op = notEqual
    · exact .inl (.strings joins)
    · exact .inr ⟨_, .strings joins⟩
  by_cases numbers : ∃ value value', left = .number value ∧ right = .number value'
  · obtain ⟨value, value', rfl, rfl⟩ := numbers
    by_cases appends : op = append
    · by_cases integers : ∃ word word', value = .int word ∧ value' = .int word'
      · obtain ⟨word, word', rfl, rfl⟩ := integers
        exact .inr ⟨_, .integers appends⟩
      · exact .inr ⟨_, .floats appends integers⟩
    by_cases divides : op = divide ∧ value'.Vanishes
    · exact .inr ⟨_, .zero divides.1 divides.2⟩
    by_cases overflows : ∃ operation, op.Overflows operation value value'
    · exact .inr ⟨_, .overflow overflows.choose_spec⟩
    · exact .inl (.numbers appends divides (not_exists.mp overflows))
  · have notArray : ∀ object latest, left ≠ .array object latest := fun object latest same =>
      array ⟨object, latest, same⟩
    exact .inr ⟨_, .mismatch notArray numbers strings⟩

theorem apply_eq_ok_iff {left right : Value} :
    (∃ value, op.apply object left right = .ok value) ↔ op.Combines left right := by
  refine ⟨fun ⟨value, result⟩ => ?_, apply_of_combines⟩
  refine (combines_or_refuses op left right).resolve_right fun ⟨fault, refuses⟩ => ?_
  cases result.symm.trans (apply_of_refuses refuses)

theorem apply_eq_error_iff {left right : Value} {fault : Fault} :
    op.apply object left right = .error fault ↔ op.Refuses left right fault := by
  refine ⟨fun result => ?_, apply_of_refuses⟩
  rcases combines_or_refuses op left right with combines | ⟨fault', refuses⟩
  · obtain ⟨value, result'⟩ := apply_eq_ok_iff.mpr combines
    cases result.symm.trans result'
  · cases result.symm.trans (apply_of_refuses refuses)
    exact refuses

/-- What is not combined is refused for one reason. -/
theorem not_combines_iff {left right : Value} :
    ¬op.Combines left right ↔ ∃! fault, op.Refuses left right fault := by
  constructor
  · intro other
    obtain ⟨fault, refuses⟩ := (op.combines_or_refuses left right).resolve_left other
    refine ⟨fault, refuses, fun fault' refuses' => ?_⟩
    have result : op.apply 0 left right = .error fault := apply_of_refuses refuses
    cases result.symm.trans (apply_of_refuses refuses')
    rfl
  · rintro ⟨fault, refuses, -⟩ combines
    have result : op.apply 0 left right = .error fault := apply_of_refuses refuses
    obtain ⟨value, result'⟩ := apply_eq_ok_iff.mpr combines
    cases result.symm.trans result'

/-- The operators that answer with a truth. -/
def tests : List BinaryOperator :=
  [equal, notEqual, less, greater, atMost, atLeast, and, or]

/-- A test of two numbers is answered with one or zero. -/
theorem apply_of_mem_tests (member : op ∈ tests) (left right : Number) :
    op.apply object (.number left) (.number right) = .ok (.int 0) ∨
      op.apply object (.number left) (.number right) = .ok (.int 1) := by
  have truth : ∃ truth, op.apply object (.number left) (.number right) =
      .ok (.number (.ofBool truth)) := by
    cases op
    case add | subtract | multiply | divide | power | append => exact absurd member (by decide)
    case and | or => exact ⟨_, rfl⟩
    all_goals cases left <;> cases right <;> exact ⟨_, rfl⟩
  obtain ⟨_ | _, result⟩ := truth
  · exact .inl result
  · exact .inr result

end BinaryOperator

/-- A number counts as true if it is not zero as a float. -/
theorem Value.isTruthy_number (value : Number) :
    (Value.number value).isTruthy = (value.toFloat != 0.0) := by
  rw [bne, Number.toFloat_beq_zero]
  rfl

/-- The table of binary operators is complete. An operator comes to a value with the operands that
it combines and with no others, and for all others there is one fault that it comes to. An item is
appended behind the items of a list. A test of two numbers is answered with one or zero, and a
conjunction or disjunction of them is one of their truths. To take a number as a float changes
neither its truth nor whether it may be a divisor. -/
theorem operator_table_is_complete (op : BinaryOperator) (object : Nat) (left right : Value) :
    ((∃ value, op.apply object left right = .ok value) ↔ op.Combines left right) ∧
    (∀ fault, op.apply object left right = .error fault ↔ op.Refuses left right fault) ∧
    (¬op.Combines left right ↔ ∃! fault, op.Refuses left right fault) ∧
    (∀ items, left.items? = some items → ∃ array,
      BinaryOperator.append.apply object left right = .ok array ∧
        array.items? = some (items ++ [right])) ∧
    ∀ number number' : Number,
      (∀ test ∈ BinaryOperator.tests,
        test.apply object (.number number) (.number number') = .ok (.int 0) ∨
          test.apply object (.number number) (.number number') = .ok (.int 1)) ∧
      BinaryOperator.and.apply object (.number number) (.number number') =
        .ok (.number (.ofBool
          ((Value.number number).isTruthy && (Value.number number').isTruthy))) ∧
      BinaryOperator.or.apply object (.number number) (.number number') =
        .ok (.number (.ofBool
          ((Value.number number).isTruthy || (Value.number number').isTruthy))) ∧
      (Value.number number).isTruthy = (number.toFloat != 0.0) ∧
      (number.Vanishes ↔ (number.toFloat == 0.0) = true) := by
  refine ⟨BinaryOperator.apply_eq_ok_iff, fun fault => BinaryOperator.apply_eq_error_iff,
    BinaryOperator.not_combines_iff, fun items known => ?_, fun number number' => ?_⟩
  · cases left with
    | array other latest =>
      cases known
      exact ⟨_, rfl, Value.items?_array_cons object right latest⟩
    | number | string | function | void => cases known
  · refine ⟨fun test member => BinaryOperator.apply_of_mem_tests member _ _, rfl, rfl,
      Value.isTruthy_number number, ?_⟩
    rw [Number.toFloat_beq_zero]
    exact Number.isZero_iff.symm

/-- A division by the negative zero, which counts as false, too, and can be appended. -/
theorem quotient_by_negative_zero_is_refused :
    let divisor := Value.float (-0.0)
    BinaryOperator.divide.apply 0 (.int 1) divisor = .error .divisionByZero ∧
    (¬∃ value, BinaryOperator.divide.apply 0 (.int 1) divisor = .ok value) ∧
    BinaryOperator.and.apply 0 (.int 1) divisor = .ok (.int 0) ∧
    ∃ array, BinaryOperator.append.apply 1 (.ofItems 0 [.int 1]) divisor = .ok array ∧
      array.items? = some [.int 1, divisor] := by
  intro divisor
  obtain ⟨ok, error, once, -, numbers⟩ := operator_table_is_complete .divide 0 (.int 1) divisor
  obtain ⟨-, -, -, appended, -⟩ :=
    operator_table_is_complete .divide 1 (.ofItems 0 [.int 1]) divisor
  obtain ⟨-, conjunction, -, -, -⟩ := numbers (.int 1) (.float (-0.0))
  have refuses : BinaryOperator.divide.Refuses (.int 1) divisor .divisionByZero :=
    .zero rfl (.inr (.inr rfl))
  have result := (error .divisionByZero).mpr refuses
  have falsity : (Value.number (.float (-0.0))).isTruthy = false := by decide
  refine ⟨result, fun combined => ?_, ?_, appended [.int 1] rfl⟩
  · refine once.mpr ⟨_, refuses, fun fault refuses' => ?_⟩ (ok.mp combined)
    cases result.symm.trans ((error fault).mpr refuses')
    rfl
  · rw [falsity] at conjunction
    exact conjunction

end Treewalk
