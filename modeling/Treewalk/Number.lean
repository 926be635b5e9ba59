/-
Numbers of the language: 64-bit integers and binary floating-point numbers.

The two kinds stay apart. An integer becomes a float only where an operation asks for it
(`toFloat`), and an exact integer result becomes a number of the language only when it fits
(`narrow?`). Whether a number is zero is asked of the number itself, never of its image as a
float, so that the answer for an integer is a fact about that integer.
-/

namespace Treewalk

/-- The 64-bit integer equal to `exact`, if there is one. -/
def narrow? (exact : Int) : Option Int64 :=
  if Int64.minValue.toInt ≤ exact ∧ exact ≤ Int64.maxValue.toInt then some (Int64.ofInt exact)
  else none

theorem toInt_ofInt {exact : Int} (least : Int64.minValue.toInt ≤ exact)
    (greatest : exact ≤ Int64.maxValue.toInt) : (Int64.ofInt exact).toInt = exact := by
  rw [Int64.toInt_minValue] at least
  rw [Int64.toInt_maxValue] at greatest
  exact Int64.toInt_ofInt_of_le least (by omega)

theorem narrow?_eq_some_iff {exact : Int} {word : Int64} :
    narrow? exact = some word ↔ word.toInt = exact := by
  unfold narrow?
  constructor
  · intro fits
    split at fits
    · rename_i bounds
      rw [← Option.some.inj fits, toInt_ofInt bounds.1 bounds.2]
    · cases fits
  · intro same
    subst same
    rw [if_pos ⟨word.minValue_le_toInt, word.toInt_le⟩, Int64.ofInt_toInt]

theorem narrow?_toInt (word : Int64) : narrow? word.toInt = some word :=
  narrow?_eq_some_iff.mpr rfl

theorem narrow?_eq_none_iff {exact : Int} :
    narrow? exact = none ↔ exact < Int64.minValue.toInt ∨ Int64.maxValue.toInt < exact := by
  unfold narrow?
  split <;> simp only [reduceCtorEq, false_iff, true_iff] <;> omega

/-- A number of the language. -/
inductive Number
  | int (word : Int64)
  | float (real : Float)
deriving Inhabited

namespace Number

/-- The number as a float: an integer is rounded to the nearest one, a tie to the even one. -/
def toFloat : Number → Float
  | int word => Float.ofInt word.toInt
  | float real => real

/-- Whether the number is zero; a float zero of either sign is. -/
def isZero : Number → Bool
  | int word => word == 0
  | float real => real == 0.0

/-- The name of the kind of number in messages. -/
def typeName : Number → String
  | int _ => "int"
  | float _ => "float"

/-- The language has no truth values: one stands for true and zero for false. -/
def ofBool (truth : Bool) : Number := int (if truth then 1 else 0)

/-- Equality within a kind; floats compare as numbers, so that a NaN differs from itself. -/
def same : Number → Number → Bool
  | int left, int right => left == right
  | float left, float right => left == right
  | _, _ => false

@[simp] theorem isZero_int (word : Int64) : (int word).isZero = (word == 0) := rfl

@[simp] theorem isZero_ofBool (truth : Bool) : (ofBool truth).isZero = !truth := by
  cases truth <;> rfl

theorem same_int_iff {left right : Int64} :
    same (int left) (int right) = true ↔ left = right := by
  simp [same]

end Number

end Treewalk
