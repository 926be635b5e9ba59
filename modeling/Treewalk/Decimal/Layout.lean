/-
The written form of a float: the digits come from `Dyadic.shortest`, the rest is a matter of
layout. A layout says when the point is written out and when an exponent is used instead, and
whether a whole number shows a fraction.
-/
import Treewalk.Decimal.Shortest

namespace Treewalk

/-- How the digits of a float are laid out. -/
structure FloatLayout where
  /-- Whether a whole number is written with a fraction of zero. -/
  wholeFraction : Bool
  /-- The powers of ten of a leading digit that are written without an exponent; all, when
  absent. -/
  positional : Option (Int × Int)

namespace FloatLayout

/-- The digits with a decimal point after the first `before` of them, and zeros where the point
falls outside the digits. -/
def pointed (layout : FloatLayout) (digits : List Char) (before : Int) : List Char :=
  if before ≤ 0 then
    '0' :: '.' :: (List.replicate (-before).toNat '0' ++ digits)
  else if digits.length ≤ before.toNat then
    digits ++ List.replicate (before.toNat - digits.length) '0' ++
      (if layout.wholeFraction then ['.', '0'] else [])
  else
    digits.take before.toNat ++ '.' :: digits.drop before.toNat

/-- The digits with the point after the first one, and an exponent. -/
def scientific (digits : List Char) (exponent : Int) : List Char :=
  (match digits with
    | [] => []
    | [digit] => [digit]
    | digit :: rest => digit :: '.' :: rest) ++ 'e' :: (toString exponent).toList

/-- A decimal as the layout has it. Zeros at the end of the coefficient are no digits of it. -/
def decimal (layout : FloatLayout) (number : Decimal) : List Char :=
  let written := Nat.toDigits 10 number.coefficient
  let digits := (written.reverse.dropWhile (· == '0')).reverse
  let before := number.place + written.length
  match layout.positional with
  | none => layout.pointed digits before
  | some (least, greatest) =>
    if least ≤ before - 1 ∧ before - 1 ≤ greatest then layout.pointed digits before
    else scientific digits (before - 1)

/-- A sign in front of a written magnitude. -/
def signed (negative : Bool) (magnitude : List Char) : List Char :=
  if negative then '-' :: magnitude else magnitude

/-- A float as the layout has it. -/
def write (layout : FloatLayout) (real : Float) : String :=
  String.ofList <| match FloatParts.ofFloat real with
    | .notANumber => ['N', 'a', 'N']
    | .infinite negative => signed negative ['i', 'n', 'f']
    | .zero negative => signed negative (layout.pointed ['0'] 1)
    | .finite negative magnitude => signed negative (layout.decimal magnitude.shortest)

/-- Floats in running text are never written with an exponent, and a whole number has no
fraction. -/
def plain : FloatLayout := ⟨false, none⟩

/-- Floats in listings always show that they are floats: a whole number has a fraction of zero,
and an exponent is used from `10 ^ 16` on and below `10 ^ (-4)`. -/
def listed : FloatLayout := ⟨true, some (-4, 15)⟩

end FloatLayout

end Treewalk
