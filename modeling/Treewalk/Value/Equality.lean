/-
Structural equality of values, as a host asks for it. It is stricter than the comparison operators
of the language: an integer never equals a float. Two handles to one array object are equal without
a look at the items, which makes an array with a NaN in it equal to its copies but not to an array
that was built separately.
-/
import Treewalk.Value

namespace Treewalk.Value

mutual

/-- Whether two values are structurally equal. -/
def same : Value → Value → Bool
  | number left, number right => left.same right
  | string left, string right => left == right
  | array object latest, array object' latest' =>
    object == object' || (latest.length == latest'.length && sameItems latest latest')
  | function left, function right => left.same right
  | void, void => true
  | _, _ => false

/-- Whether two lists of values are structurally equal, item by item. The items behind are looked at
before the one in front, since they are the earlier ones. -/
def sameItems : List Value → List Value → Bool
  | [], [] => true
  | item :: earlier, item' :: earlier' => sameItems earlier earlier' && same item item'
  | _, _ => false

end

/-- Whether two values that may be absent are both absent or structurally equal. -/
def sameOptional : Option Value → Option Value → Bool
  | none, none => true
  | some left, some right => same left right
  | _, _ => false

end Treewalk.Value
