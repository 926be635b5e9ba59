/-
The faults that operators and ranges come to are faults of the program. None of them says that a
limit was reached: limits are looked at in calls and in rounds of loops alone, and a host that is
told of a limit can tell from that alone that its program did nothing wrong.
-/
import Treewalk.Apply
import Treewalk.Range

namespace Treewalk

variable {Result Image : Type}

/-- Whether a computation fails for the program only, and never for a limit. -/
def BlamesProgram (computed : Except Fault Result) : Prop :=
  ∀ fault, computed = .error fault → fault.isLimit = false

namespace BlamesProgram

theorem ok (result : Result) : BlamesProgram (.ok result) := by
  intro fault failed
  cases failed

theorem error {fault : Fault} (program : fault.isLimit = false) :
    BlamesProgram (.error fault : Except Fault Result) := by
  intro other failed
  cases failed
  exact program

theorem map (image : Result → Image) {computed : Except Fault Result}
    (blames : BlamesProgram computed) : BlamesProgram (computed.map image) := by
  cases computed with
  | ok result => exact ok (image result)
  | error fault => exact error (blames fault rfl)

/-! ### Numbers -/

theorem exactly (operation : String) (exact : Int) :
    BlamesProgram (Treewalk.exactly operation exact) := by
  unfold Treewalk.exactly
  split
  · exact ok _
  · exact error rfl

theorem power (base : Int) (exponent : Nat) : BlamesProgram (Treewalk.power base exponent) := by
  unfold Treewalk.power
  split
  · exact exactly _ _
  · split
    · exact exactly _ _
    · exact error rfl

theorem combine (operation : String) (exact : Int → Int → Int) (real : Float → Float → Float)
    (left right : Number) : BlamesProgram (Number.combine operation exact real left right) := by
  unfold Number.combine
  split
  · exact exactly _ _
  · exact ok _

theorem compare (exact : Int → Int → Bool) (real : Float → Float → Bool) (left right : Number) :
    BlamesProgram (Number.compare exact real left right) := by
  unfold Number.compare
  split <;> exact ok _

theorem raise (base exponent : Number) : BlamesProgram (Number.raise base exponent) := by
  unfold Number.raise
  split
  · split
    · exact power _ _
    · exact ok _
  · exact ok _

theorem arithmetic (op : BinaryOperator) (left right : Number) :
    BlamesProgram (Number.apply op left right) := by
  cases op with
  | add | subtract | multiply => exact combine _ _ _ _ _
  | divide =>
    unfold Number.apply
    dsimp only
    split
    · exact error rfl
    · exact ok _
  | power => exact raise _ _
  | equal | notEqual | less | greater | atMost | atLeast =>
    unfold Number.apply
    exact compare _ _ _ _
  | and | or => exact ok _
  | append =>
    unfold Number.apply
    dsimp only
    split <;> exact error rfl

/-! ### Operators and ranges -/

theorem strings (op : BinaryOperator) (left right : String) :
    BlamesProgram (applyStrings op left right) := by
  unfold applyStrings
  split
  · exact ok _
  · exact ok _
  · exact ok _
  · exact error rfl

theorem binary (op : BinaryOperator) (object : Nat) (left right : Value) :
    BlamesProgram (op.apply object left right) := by
  unfold BinaryOperator.apply
  split
  · split
    · exact ok _
    · exact error rfl
  · exact (arithmetic op _ _).map _
  · exact strings op _ _
  · exact error rfl

theorem unary (op : UnaryOperator) (operand : Value) : BlamesProgram (op.apply operand) := by
  unfold UnaryOperator.apply
  split
  · refine map _ ?_
    unfold Number.negate
    split
    · exact exactly _ _
    · exact ok _
  · exact ok _
  · exact error rfl

theorem realBound (bound : String) (value : Value) :
    BlamesProgram (Range.realBound bound value) := by
  unfold Range.realBound
  split
  · exact ok _
  · exact error rfl

theorem range (start stop : Value) (step : Option Value) :
    BlamesProgram (Range.ofBounds start stop step) := by
  unfold Range.ofBounds
  split
  · exact ok _
  · split
    · exact ok _
    · exact error (realBound "start" _ _ ‹_›)
    · exact error (realBound "end" _ _ ‹_›)
    · exact error (realBound "step" _ _ ‹_›)

end BlamesProgram

end Treewalk
