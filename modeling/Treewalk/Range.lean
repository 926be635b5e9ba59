/-
The numbers that a loop runs through: an arithmetic progression given by its start, its end and its
step. The end is not part of it. A step that is not negative goes up, any other goes down.

A range of integers whose next number would not fit has no next number. A range in which one of
the three is a float is a range of floats, and each number is the sum of the one before and the
step, rounded.
-/
import Treewalk.Fault
import Treewalk.Value

namespace Treewalk

/-- What is left of a range. -/
inductive Range
  /-- A range of integers; there is no current one after the last that fits. -/
  | int (current : Option Int64) (stop step : Int64)
  | float (current stop step : Float)
deriving Inhabited

namespace Range

/-- A bound as a float, or the fault that it is not a number. -/
def realBound (bound : String) (value : Value) : Except Fault Float :=
  match value.toFloat? with
  | some real => .ok real
  | none => .error (.boundNotNumber bound value.typeName)

/-- The range with the given bounds; the step is one when none is given. -/
def ofBounds (start stop : Value) (step : Option Value) : Except Fault Range :=
  match start, stop, step.getD (.int 1) with
  | .int start, .int stop, .int step => .ok (int (some start) stop step)
  | start, stop, step =>
    match realBound "start" start, realBound "end" stop, realBound "step" step with
    | .ok start, .ok stop, .ok step => .ok (float start stop step)
    | .error fault, _, _ => .error fault
    | _, .error fault, _ => .error fault
    | _, _, .error fault => .error fault

/-- Whether an integer comes before the end in the direction of the step. -/
def intBefore (current stop step : Int64) : Bool :=
  if 0 ≤ step.toInt then decide (current.toInt < stop.toInt)
  else decide (stop.toInt < current.toInt)

/-- Whether a float comes before the end in the direction of the step. -/
def floatBefore (current stop step : Float) : Bool :=
  if 0.0 ≤ step then decide (current < stop) else decide (stop < current)

/-- The next number, if there is one, and what is left. A range that has ended stays as it is. -/
def next : Range → Option Number × Range
  | int none stop step => (none, int none stop step)
  | int (some current) stop step =>
    if intBefore current stop step then
      (some (.int current), int (narrow? (current.toInt + step.toInt)) stop step)
    else
      (none, int (some current) stop step)
  | float current stop step =>
    if floatBefore current stop step then
      (some (.float current), float (current + step) stop step)
    else
      (none, float current stop step)

/-- A range that has ended is left as it was, so that it has ended for good. -/
theorem snd_next_of_fst_eq_none {range : Range} (ended : range.next.1 = none) :
    range.next.2 = range := by
  unfold next at ended ⊢
  split <;> (try split) <;> simp_all

end Range

end Treewalk
