/-
This file proves that structural equality is as good an equality as NaNs allow.

Two arrays are equal if their handles are handles to one object, or else if their items are equal
one by one. The two ways disagree on an array with a NaN in it, which equals itself the first way
and nothing the second way. Equality is symmetric all the same, and it is transitive where all
handles to one object show the same items, since one of them may then be put for another
(`Value.same_trans`). The values that a host has at hand share a memory whatever it has done before,
so equality among them is a partial equivalence. As long as there is no NaN in them, the look at the
objects does nothing but spare the look at the items (`equality_is_partial_equivalence`).
-/
import Treewalk.Proofs.Operations
import Treewalk.Value.Equality

namespace Treewalk

/-! ### Floats and numbers -/

section Floats

open Float.Model (UnpackedFloat)

/-- What a float is compared by. A NaN is not comparable, and the two zeros are one number. -/
def comparand? : UnpackedFloat → Option UnpackedFloat
  | .notANumber => none
  | .zero _ => some (.zero .positive)
  | real => some real

theorem comparand?_ne_none_iff {real : UnpackedFloat} :
    comparand? real ≠ none ↔ real.isNaN = false := by
  cases real with
  | notANumber => exact iff_of_false (fun comparable => comparable rfl) nofun
  | infinity | zero | finite => exact iff_of_true nofun rfl

theorem compare_sign_iff {sign sign' : UnpackedFloat.Sign} :
    compare sign sign' = .eq ↔ sign = sign' := by
  cases sign <;> cases sign'
  case negative.negative | positive.positive => exact iff_of_true rfl rfl
  all_goals exact iff_of_false nofun nofun

theorem compare_magnitude_iff {mantissa mantissa' : Nat} {exponent exponent' : Int} :
    (compare exponent exponent').then (compare mantissa mantissa') = .eq ↔
      mantissa = mantissa' ∧ exponent = exponent' := by
  rw [Ordering.then_eq_eq, Int.compare_eq_eq, Nat.compare_eq_eq, and_comm]

/-- Floats are equal if they are compared by the same. -/
theorem beq_iff_comparand?_eq {left right : UnpackedFloat} :
    left.beq right = true ↔ comparand? left = comparand? right ∧ comparand? left ≠ none := by
  show (left.compare right == some .eq) = true ↔ _
  rw [beq_iff_eq]
  cases left with
  | notANumber => exact iff_of_false nofun fun same => same.2 rfl
  | zero sign =>
    rcases right with ⟨_ | _⟩ | _ | _ | ⟨_ | _⟩
    case zero => exact iff_of_true rfl ⟨rfl, nofun⟩
    all_goals exact iff_of_false nofun fun same => nomatch same.1
  | infinity sign =>
    cases right with
    | infinity sign' =>
      refine Option.some_inj.trans (compare_sign_iff.trans (Iff.trans ?_ (and_iff_left nofun).symm))
      exact (Option.some_inj.trans (.of_eq (UnpackedFloat.infinity.injEq ..))).symm
    | notANumber | zero | finite =>
      cases sign <;> exact iff_of_false nofun fun same => nomatch same.1
  | finite sign mantissa exponent positive =>
    cases right with
    | finite sign' mantissa' exponent' positive' =>
      have components : comparand? (.finite sign mantissa exponent positive) =
          comparand? (.finite sign' mantissa' exponent' positive') ↔
            sign = sign' ∧ mantissa = mantissa' ∧ exponent = exponent' :=
        Option.some_inj.trans (.of_eq (UnpackedFloat.finite.injEq ..))
      rw [and_iff_left nofun, components]
      cases sign <;> cases sign'
      case negative.negative =>
        refine Option.some_inj.trans (Ordering.swap_eq_eq.trans ?_)
        exact compare_magnitude_iff.trans (and_iff_right rfl).symm
      case positive.positive =>
        exact Option.some_inj.trans (compare_magnitude_iff.trans (and_iff_right rfl).symm)
      all_goals exact iff_of_false nofun fun same => nomatch same.1
    | notANumber | zero => cases sign <;> exact iff_of_false nofun fun same => nomatch same.1
    | infinity sign' =>
      cases sign <;> cases sign' <;> exact iff_of_false nofun fun same => nomatch same.1

theorem float_beq_iff {left right : Float} :
    (left == right) = true ↔
      comparand? left.toModel.unpack = comparand? right.toModel.unpack ∧
        comparand? left.toModel.unpack ≠ none :=
  beq_iff_comparand?_eq

theorem float_beq_comm (left right : Float) : (left == right) = (right == left) := by
  rw [Bool.eq_iff_iff, float_beq_iff, float_beq_iff]
  constructor <;> exact fun ⟨same, comparable⟩ => ⟨same.symm, same ▸ comparable⟩

theorem float_beq_trans {left middle right : Float} (first : (left == middle) = true)
    (second : (middle == right) = true) : (left == right) = true := by
  rw [float_beq_iff] at *
  exact ⟨first.1.trans second.1, first.2⟩

theorem float_beq_self_iff {real : Float} : (real == real) = true ↔ real.isNaN = false :=
  float_beq_iff.trans ((and_iff_right rfl).trans comparand?_ne_none_iff)

end Floats

namespace Number

theorem same_comm (left right : Number) : left.same right = right.same left := by
  cases left with
  | int word =>
    cases right with
    | int word' => exact Bool.beq_comm
    | float => rfl
  | float real =>
    cases right with
    | int => rfl
    | float real' => exact float_beq_comm real real'

theorem same_trans {left middle right : Number} (first : left.same middle = true)
    (second : middle.same right = true) : left.same right = true := by
  cases middle with
  | int word =>
    cases left with
    | int =>
      rw [same_int_iff] at first
      rwa [first]
    | float => cases first
  | float real =>
    cases left with
    | int => cases first
    | float =>
      cases right with
      | int => cases second
      | float => exact float_beq_trans first second

end Number

theorem Function.same_iff {left right : Function} :
    left.same right = true ↔
      left.site = right.site ∧ left.name = right.name ∧ left.params = right.params := by
  unfold same
  rw [Bool.and_eq_true, Bool.and_eq_true, beq_iff_eq, beq_iff_eq, beq_iff_eq, and_assoc]

/-! ### Equality of values -/

namespace Value

theorem length_eq_of_sameItems {latest latest' : List Value}
    (same : sameItems latest latest' = true) : latest.length = latest'.length := by
  induction latest generalizing latest' with
  | nil =>
    cases latest' with
    | nil => rfl
    | cons => cases same
  | cons item earlier inductionHypothesis =>
    cases latest' with
    | nil => cases same
    | cons item' earlier' =>
      rw [sameItems, Bool.and_eq_true] at same
      exact congrArg Nat.succ (inductionHypothesis same.1)

/-- Arrays are equal by their objects or by their items. That the items are counted first decides
nothing. -/
theorem same_array_iff {object object' : Nat} {latest latest' : List Value} :
    (array object latest).same (array object' latest') = true ↔
      object = object' ∨ sameItems latest latest' = true := by
  rw [same, Bool.or_eq_true, Bool.and_eq_true, beq_iff_eq, beq_iff_eq]
  exact or_congr_right (and_iff_right_of_imp length_eq_of_sameItems)

theorem sameItems_self {latest : List Value} (items : ∀ item ∈ latest, item.same item = true) :
    sameItems latest latest = true := by
  induction latest with
  | nil => rfl
  | cons item earlier inductionHypothesis =>
    rw [sameItems, Bool.and_eq_true]
    exact ⟨inductionHypothesis fun other member => items other (List.mem_cons_of_mem _ member),
      items item List.mem_cons_self⟩

/-- A value equals itself unless it is a NaN, also if there are NaNs in it. -/
theorem same_self_iff {value : Value} :
    value.same value = true ↔ ∀ real, value = .float real → real.isNaN = false := by
  cases value with
  | number number =>
    cases number with
    | int word => exact iff_of_true (beq_self_eq_true word) fun _ same => nomatch same
    | float real =>
      exact float_beq_self_iff.trans
        ⟨fun comparable _ same => Number.float.inj (Value.number.inj same) ▸ comparable,
          fun comparable => comparable real rfl⟩
  | string text => exact iff_of_true (beq_self_eq_true text) fun _ same => nomatch same
  | array object latest =>
    exact iff_of_true (same_array_iff.mpr (.inl rfl)) fun _ same => nomatch same
  | function function =>
    exact iff_of_true (Function.same_iff.mpr ⟨rfl, rfl, rfl⟩) fun _ same => nomatch same
  | void => exact iff_of_true rfl fun _ same => nomatch same

theorem sameItems_symm {latest latest' : List Value}
    (items : ∀ item ∈ latest, ∀ other, item.same other = true → other.same item = true)
    (same : sameItems latest latest' = true) : sameItems latest' latest = true := by
  induction latest generalizing latest' with
  | nil =>
    cases latest' with
    | nil => rfl
    | cons => cases same
  | cons item earlier inductionHypothesis =>
    cases latest' with
    | nil => cases same
    | cons item' earlier' =>
      rw [sameItems, Bool.and_eq_true] at same ⊢
      exact ⟨inductionHypothesis (fun other member => items other (List.mem_cons_of_mem _ member))
        same.1, items item List.mem_cons_self item' same.2⟩

theorem same_symm {left right : Value} (same : left.same right = true) :
    right.same left = true := by
  induction left using itemInduction generalizing right with
  | array object latest inductionHypothesis =>
    cases right with
    | array object' latest' =>
      rw [same_array_iff] at same ⊢
      exact same.imp Eq.symm
        (sameItems_symm fun item member other => inductionHypothesis item member)
    | number | string | function | void => cases same
  | number number =>
    cases right with
    | number number' => exact (number.same_comm number').symm.trans same
    | string | array | function | void => cases same
  | string text =>
    cases right with
    | string text' => exact beq_iff_eq.mpr (beq_iff_eq.mp same).symm
    | number | array | function | void => cases same
  | function function =>
    cases right with
    | function function' =>
      obtain ⟨site, name, params⟩ := Function.same_iff.mp same
      exact Function.same_iff.mpr ⟨site.symm, name.symm, params.symm⟩
    | number | string | array | void => cases same
  | void =>
    cases right with
    | void => rfl
    | number | string | array | function => cases same

/-! ### One object, one content -/

section Memory

variable {memory : Memory}

/-- Handles to one object show the same items. -/
theorem Fits.latest_eq {object : Nat} {latest latest' : List Value}
    (fits : (Value.array object latest).Fits memory)
    (fits' : (Value.array object latest').Fits memory) : latest = latest' := by
  cases fits with
  | array _ holds _ =>
    cases fits' with
    | array _ holds' _ => exact holds.symm.trans holds'

theorem Fits.of_mem_latest {object : Nat} {latest : List Value}
    (fits : (Value.array object latest).Fits memory) {item : Value} (member : item ∈ latest) :
    item.Fits memory := by
  cases fits with
  | array _ _ items => exact items item member

theorem sameItems_trans {first second third : List Value}
    (items : ∀ item ∈ second, ∀ before ∈ first, ∀ after ∈ third,
      before.same item = true → item.same after = true → before.same after = true)
    (same : sameItems first second = true) (same' : sameItems second third = true) :
    sameItems first third = true := by
  induction second generalizing first third with
  | nil =>
    cases first with
    | nil => exact same'
    | cons => cases same
  | cons item earlier inductionHypothesis =>
    cases first with
    | nil => cases same
    | cons before beforeEarlier =>
      cases third with
      | nil => cases same'
      | cons after afterEarlier =>
        rw [sameItems, Bool.and_eq_true] at same same' ⊢
        refine ⟨inductionHypothesis (fun item member before member' after member'' =>
          items item (List.mem_cons_of_mem _ member) before (List.mem_cons_of_mem _ member')
            after (List.mem_cons_of_mem _ member'')) same.1 same'.1, ?_⟩
        exact items item List.mem_cons_self before List.mem_cons_self after List.mem_cons_self
          same.2 same'.2

/-- Where handles to one object show the same items, equality is transitive. If one of the two steps
is by the objects, the handle on its far side can be put for the one in the middle. -/
theorem same_trans {left middle right : Value} (fitsLeft : left.Fits memory)
    (fitsMiddle : middle.Fits memory) (fitsRight : right.Fits memory)
    (first : left.same middle = true) (second : middle.same right = true) :
    left.same right = true := by
  induction middle using itemInduction generalizing left right with
  | array object latest inductionHypothesis =>
    cases left with
    | array before latestBefore =>
      cases right with
      | array after latestAfter =>
        rcases same_array_iff.mp first with rfl | itemsFirst
        · rwa [fitsLeft.latest_eq fitsMiddle]
        rcases same_array_iff.mp second with rfl | itemsSecond
        · rwa [← fitsMiddle.latest_eq fitsRight]
        refine same_array_iff.mpr (.inr (sameItems_trans ?_ itemsFirst itemsSecond))
        exact fun item member itemBefore memberBefore itemAfter memberAfter =>
          inductionHypothesis item member (fitsLeft.of_mem_latest memberBefore)
            (fitsMiddle.of_mem_latest member) (fitsRight.of_mem_latest memberAfter)
      | number | string | function | void => cases second
    | number | string | function | void => cases first
  | number number =>
    cases left with
    | number =>
      cases right with
      | number => exact Number.same_trans first second
      | string | array | function | void => cases second
    | string | array | function | void => cases first
  | string text =>
    cases left with
    | string => rwa [beq_iff_eq.mp first]
    | number | array | function | void => cases first
  | function function =>
    cases left with
    | function =>
      cases right with
      | function =>
        obtain ⟨site, name, params⟩ := Function.same_iff.mp first
        obtain ⟨site', name', params'⟩ := Function.same_iff.mp second
        exact Function.same_iff.mpr ⟨site.trans site', name.trans name', params.trans params'⟩
      | number | string | array | void => cases second
    | number | string | array | void => cases first
  | void =>
    cases left with
    | void => exact second
    | number | string | array | function => cases first

end Memory

end Value

/-! ### Equality of trees -/

namespace Tree

mutual

/-- Whether two trees are equal. There are no objects to be looked at. -/
def same : Tree → Tree → Bool
  | number left, number right => left.same right
  | string left, string right => left == right
  | array items, array items' => sameAll items items'
  | function left, function right => left.same right
  | void, void => true
  | _, _ => false

/-- Whether two lists of trees are equal, item by item. -/
def sameAll : List Tree → List Tree → Bool
  | [], [] => true
  | item :: rest, item' :: rest' => same item item' && sameAll rest rest'
  | _, _ => false

end

theorem sameAll_concat (items items' : List Tree) (item item' : Tree) :
    sameAll (items ++ [item]) (items' ++ [item']) = (sameAll items items' && item.same item') := by
  induction items generalizing items' with
  | nil =>
    cases items' with
    | nil => exact Bool.and_comm ..
    | cons first rest =>
      show (item.same first && sameAll [] (rest ++ [item'])) = false
      cases rest <;> exact Bool.and_false _
  | cons first rest inductionHypothesis =>
    cases items' with
    | nil =>
      show (first.same item' && sameAll (rest ++ [item]) []) = false
      cases rest <;> exact Bool.and_false _
    | cons first' rest' =>
      show (first.same first' && sameAll (rest ++ [item]) (rest' ++ [item'])) =
        (first.same first' && sameAll rest rest' && item.same item')
      rw [inductionHypothesis, Bool.and_assoc]

end Tree

namespace Value

/-- Whether a value is a NaN or has one in it, at any depth. -/
inductive HasNaN : Value → Prop
  | float {real : Float} (nan : real.isNaN = true) : HasNaN (.float real)
  | item {object : Nat} {latest : List Value} {item : Value} (member : item ∈ latest)
    (inside : HasNaN item) : HasNaN (.array object latest)

theorem same_self_of_not_hasNaN {value : Value} (comparable : ¬value.HasNaN) :
    value.same value = true := by
  refine same_self_iff.mpr fun real same => ?_
  subst same
  exact Bool.eq_false_iff.mpr fun nan => comparable (.float nan)

/-- Items stand in reverse in a value and in order in a tree. -/
theorem sameItems_eq_sameAll {latest latest' : List Value}
    (items : ∀ item ∈ latest, ∀ item' ∈ latest', item.same item' = item.tree.same item'.tree) :
    sameItems latest latest' =
      Tree.sameAll (latest.reverse.map tree) (latest'.reverse.map tree) := by
  induction latest generalizing latest' with
  | nil =>
    cases latest' with
    | nil => rfl
    | cons item' earlier' =>
      rw [List.reverse_cons, List.map_append]
      cases earlier'.reverse.map tree <;> rfl
  | cons item earlier inductionHypothesis =>
    rw [List.reverse_cons, List.map_append]
    cases latest' with
    | nil => cases earlier.reverse.map tree <;> rfl
    | cons item' earlier' =>
      have front := items item List.mem_cons_self item' List.mem_cons_self
      have behind := inductionHypothesis fun item member item' member' =>
        items item (List.mem_cons_of_mem _ member) item' (List.mem_cons_of_mem _ member')
      rw [List.reverse_cons, List.map_append, sameItems, behind, front]
      exact (Tree.sameAll_concat ..).symm

/-- Where handles to one object show the same items, it does not matter that the objects are looked
at, unless there is a NaN in both values. -/
theorem same_eq_same_tree {memory : Memory} {left right : Value} (fitsLeft : left.Fits memory)
    (fitsRight : right.Fits memory) (comparable : ¬(left.HasNaN ∧ right.HasNaN)) :
    left.same right = left.tree.same right.tree := by
  induction left using itemInduction generalizing right with
  | array object latest inductionHypothesis =>
    cases right with
    | array object' latest' =>
      have items : sameItems latest latest' =
          Tree.sameAll (latest.reverse.map tree) (latest'.reverse.map tree) :=
        sameItems_eq_sameAll fun item member item' member' =>
          inductionHypothesis item member (fitsLeft.of_mem_latest member)
            (fitsRight.of_mem_latest member')
            fun ⟨nan, nan'⟩ => comparable ⟨.item member nan, .item member' nan'⟩
      rw [tree_array, tree_array, Tree.same, ← items, Bool.eq_iff_iff, same_array_iff]
      refine or_iff_right_of_imp fun same => ?_
      subst same
      obtain rfl := fitsLeft.latest_eq fitsRight
      exact sameItems_self fun item member =>
        same_self_of_not_hasNaN fun nan => comparable ⟨.item member nan, .item member nan⟩
    | number | string | function | void => rfl
  | number | string | function | void => cases right <;> rfl

end Value

/-! ### Values at hand -/

/-- What a host has at hand, given what it has been told: what is bound in an active frame, the
value that it was told last, and whatever is in these. The values that it was told before are not
kept up to date when it appends, so they are not at hand. -/
inductive State.AtHand (state : State) (answers : List (Answer Value)) : Value → Prop
  | bound {value : Value} (member : value ∈ state.context.values) : AtHand state answers value
  | told {value : Value} (last : answers.getLast? = some (.value value)) :
    AtHand state answers value
  | item {object : Nat} {latest : List Value} {item : Value}
    (outer : AtHand state answers (.array object latest)) (member : item ∈ latest) :
    AtHand state answers item

theorem State.AtHand.fits {memory : Memory} {state : State} {answers : List (Answer Value)}
    (agrees : state.Fits memory)
    (told : ∀ answer, answers.getLast? = some answer → answer.Fits memory) {value : Value}
    (atHand : state.AtHand answers value) : value.Fits memory := by
  induction atHand with
  | bound member => exact agrees.values _ member
  | told last => exact told _ last _ rfl
  | item _ member inductionHypothesis => exact inductionHypothesis.of_mem_latest member

/-- Whatever a host does, structural equality is a partial equivalence on the values that it has at
hand. Handles to one object show the same items, and a value equals itself unless it is a NaN.
Unless there is a NaN in both of two values, they are equal if their trees are, for which there are
no objects. Functions are equal if they come from one definition and go by the same names. -/
theorem equality_is_partial_equivalence (fuel : Nat) (root : String)
    (operations : List Operation) (answers : List (Answer Value)) (state : State)
    (performed :
      State.performAll fuel operations (.initial (.root root)) = some (answers, state)) :
    (∀ object latest latest', state.AtHand answers (.array object latest) →
      state.AtHand answers (.array object latest') → latest = latest') ∧
    (∀ left right, state.AtHand answers left → state.AtHand answers right →
      left.same right = right.same left) ∧
    (∀ left middle right, state.AtHand answers left → state.AtHand answers middle →
      state.AtHand answers right → left.same middle = true → middle.same right = true →
        left.same right = true) ∧
    (∀ value, state.AtHand answers value →
      (value.same value = true ↔ ∀ real, value = .float real → real.isNaN = false)) ∧
    (∀ left right, state.AtHand answers left → state.AtHand answers right →
      ¬(left.HasNaN ∧ right.HasNaN) → left.same right = left.tree.same right.tree) ∧
    ∀ left right, state.AtHand answers (.function left) → state.AtHand answers (.function right) →
      ((Value.function left).same (.function right) = true ↔
        left.site = right.site ∧ left.name = right.name ∧ left.params = right.params) := by
  obtain ⟨memory, agrees, told⟩ :=
    State.performAll_last_fits (State.initial_fits root) performed
  have fits {value : Value} (atHand : state.AtHand answers value) : value.Fits memory :=
    atHand.fits agrees told
  refine ⟨fun object latest latest' atHand atHand' => (fits atHand).latest_eq (fits atHand'),
    fun left right _ _ => ?_, fun left middle right atHand atHand' atHand'' => ?_,
    fun value _ => Value.same_self_iff, fun left right atHand atHand' => ?_,
    fun left right _ _ => Function.same_iff⟩
  · exact Bool.eq_iff_iff.mpr ⟨Value.same_symm, Value.same_symm⟩
  · exact Value.same_trans (fits atHand) (fits atHand') (fits atHand'')
  · exact Value.same_eq_same_tree (fits atHand) (fits atHand')

/-- An array of a NaN equals its copies, one of which the host is told, but not another array of a
NaN. As a tree it does not even equal itself. -/
theorem array_of_nan_equals_copies :
    let nan : Value := .float (0.0 / 0.0)
    let operations : List Operation :=
      [.set "x" (.ofItems 0 [nan]), .set "y" (.ofItems 0 [nan]), .copy "x" "z",
        .evaluate (.ofLimits .standard) (.lookup ⟨0, 1⟩ "z")]
    ∃ answers state,
      State.performAll 1 operations (.initial (.root "main")) = some (answers, state) ∧
      ∃ x y z told, state.context.get? "x" = some x ∧ state.context.get? "y" = some y ∧
        state.context.get? "z" = some z ∧ answers.getLast? = some (.value told) ∧
        x.same z = true ∧ z.same told = true ∧ x.same told = true ∧
        x.same y = false ∧ x.tree.same x.tree = false := by
  intro nan operations
  refine ⟨_, _, rfl, _, _, _, _, rfl, rfl, rfl, rfl, rfl, rfl, ?_, by decide, by decide⟩
  obtain ⟨_, _, transitive, _⟩ := equality_is_partial_equivalence 1 "main" operations _ _ rfl
  exact transitive _ (.array 0 [nan]) _ (.bound (@Context.mem_values_of_get? _ "x" _ rfl))
    (.bound (@Context.mem_values_of_get? _ "z" _ rfl)) (.told rfl) rfl rfl

end Treewalk
