/-
Values as text, in two ways: `display` is what a user is shown, `listing` shows the structure.
-/
import Treewalk.Expr.Listing
import Treewalk.Value

namespace Treewalk

open Text (Form quoted)

/-- A number as a user is shown it. -/
def Number.display : Number → String
  | int word => toString word.toInt
  | float real => FloatLayout.plain.write real

/-- A function as a form. -/
def Function.form (function : Function) : Form :=
  .tuple "Function" [.record "FunctionValue"
    [("name", Expr.nameForm function.name), ("params", Expr.namesForm function.params),
      ("body", function.body.form)]]

namespace Value

mutual

/-- Writes a value behind the text that is already there. -/
def writeAfter (before : String) : Value → String
  | number value => before ++ value.display
  | string value => before ++ value
  | array _ latest => writeItems (before ++ "[") latest ++ "]"
  | function value => before ++ "<function " ++ value.displayName ++ ">"
  | void => before ++ "void"

/-- Writes the items of an array with commas between them. -/
def writeItems (before : String) : List Value → String
  | [] => before
  | item :: earlier =>
    writeAfter (writeItems before earlier ++ Form.separator earlier.isEmpty) item

end

/-- A value as a user is shown it. Strings stand for themselves, also inside an array. -/
def display (value : Value) : String := writeAfter "" value

mutual

/-- A value as a form. -/
def form : Value → Form
  | number value => value.form
  | string value => .tuple "Str" [.atom (quoted value)]
  | array _ latest => .tuple "Array" [.list (formsBefore [] latest)]
  | function value => value.form
  | void => .atom "Void"

/-- The items of an array as forms, in front of forms that are already there. -/
def formsBefore (after : List Form) : List Value → List Form
  | [] => after
  | item :: earlier => formsBefore (form item :: after) earlier

end

/-- The listing of a value. -/
def listing (value : Value) : String := value.form.display

end Value

end Treewalk
