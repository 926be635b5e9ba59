/-
What programs compute with. An array value is a handle to an array object: it knows the object's
number and what the object holds. Two handles with one number are handles to one object. Copying a
value copies handles, so that copies share their objects until one of them is written to.

Functions do not capture anything: a function is the definition it was made by.
-/
import Treewalk.Expr

namespace Treewalk

/-- A function: what a definition says. -/
structure Function where
  name : Option String
  params : List String
  /-- The site of the definition; functions of one site share their body. -/
  site : Nat
  body : Expr
deriving Inhabited

namespace Function

/-- The name of a function in messages and tracebacks. -/
def displayName (function : Function) : String := function.name.getD "<anonymous>"

/-- How many arguments a call has to supply. -/
def arity (function : Function) : Nat := function.params.length

/-- Functions are the same when they come from one site and go by the same names. -/
def same (left right : Function) : Bool :=
  left.site == right.site && left.name == right.name && left.params == right.params

end Function

/-- A value. -/
inductive Value
  | number (value : Number)
  | string (value : String)
  /-- A handle to the array object of a given number. The items stand in reverse, the one appended
  last in front, so that an item can be appended without a copy of the others. -/
  | array (object : Nat) (latest : List Value)
  | function (value : Function)
  /-- The value of a conditional in which no case applies. -/
  | void
deriving Inhabited

namespace Value

/-- An integer value. -/
@[match_pattern] abbrev int (word : Int64) : Value := number (.int word)

/-- A float value. -/
@[match_pattern] abbrev float (real : Float) : Value := number (.float real)

/-- The name of the value's type in messages. -/
def typeName : Value → String
  | number value => value.typeName
  | string _ => "string"
  | array .. => "array"
  | function _ => "function"
  | void => "void"

/-- Whether the value counts as true in a condition. -/
def isTruthy : Value → Bool
  | number value => !value.isZero
  | string value => !value.isEmpty
  | array _ latest => !latest.isEmpty
  | function _ => true
  | void => false

/-- The value as a float, if it is a number. -/
def toFloat? : Value → Option Float
  | number value => some value.toFloat
  | _ => none

/-- A handle to an array object that holds some items. -/
def ofItems (object : Nat) (items : List Value) : Value := array object items.reverse

/-- What the array holds, if the value is one. -/
def items? : Value → Option (List Value)
  | array _ latest => some latest.reverse
  | _ => none

/-- The function, if the value is one. -/
def function? : Value → Option Function
  | function value => some value
  | _ => none

@[simp] theorem items?_ofItems (object : Nat) (items : List Value) :
    (ofItems object items).items? = some items :=
  congrArg some items.reverse_reverse

/-- An item in front of the others is one behind them for those who look at the array. -/
@[simp] theorem items?_array_cons (object : Nat) (item : Value) (latest : List Value) :
    (array object (item :: latest)).items? =
      (array object latest).items?.map (· ++ [item]) :=
  congrArg some List.reverse_cons

end Value

end Treewalk
