/-
Forms are what listings are made of. A listing shows a piece of data by its structure: the name
of the case, and its parts in parentheses, its fields in braces, or its items in brackets. A form
is that structure; how it is written is said once, here.
-/
import Treewalk.Span

namespace Treewalk.Text

/-- A piece of data, as a listing shows it. -/
inductive Form
  /-- Something that is written as it stands. -/
  | atom (text : String)
  /-- A case with parts that have no names. -/
  | tuple (head : String) (parts : List Form)
  /-- A case with named fields. -/
  | record (head : String) (fields : List (String × Form))
  /-- A sequence of items. -/
  | list (items : List Form)
  /-- A form that was read from a stretch of source text. -/
  | located (form : Form) (span : Span)
deriving Inhabited

namespace Form

/-- Something that may be absent. -/
def ofOption : Option Form → Form
  | none => atom "None"
  | some form => tuple "Some" [form]

/-- What separates the parts of a form: nothing in front of the first. -/
def separator (isFirst : Bool) : String := if isFirst then "" else ", "

mutual

/-- Writes a form behind the text that is already there. -/
def writeAfter (before : String) : Form → String
  | atom text => before ++ text
  | tuple head parts => writeParts (before ++ head ++ "(") true parts ++ ")"
  | record head fields => writeFields (before ++ head ++ " \x7b ") true fields ++ " \x7d"
  | list items => writeParts (before ++ "[") true items ++ "]"
  | located form span => writeAfter before form ++ " @ " ++ span.display

/-- Writes forms with commas between them. -/
def writeParts (before : String) (isFirst : Bool) : List Form → String
  | [] => before
  | part :: rest => writeParts (writeAfter (before ++ separator isFirst) part) false rest

/-- Writes named forms with commas between them. -/
def writeFields (before : String) (isFirst : Bool) : List (String × Form) → String
  | [] => before
  | (name, field) :: rest =>
    writeFields (writeAfter (before ++ separator isFirst ++ name ++ ": ") field) false rest

end

/-- The text of a form. -/
def display (form : Form) : String := writeAfter "" form

example : display (record "Sum" [("left", atom "1"), ("right", list [atom "2", atom "3"])]) =
    "Sum \x7b left: 1, right: [2, 3] \x7d" := by decide

end Form

end Treewalk.Text
