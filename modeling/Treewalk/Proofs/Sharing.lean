/-
What it means that an object is not shared.

Everything that is held is listed once: the bindings of all frames, and the items of every object
that can be reached from them. An object with no more than one handle in that list is written to in
place, which changes every value that reaches it. There is just one way to reach it, though: through
whatever holds the one handle. So writing to the object comes to the same as letting its holder hold
a handle that shows the new items (`Context.overwrite_eq_put`), and seen from the binding at the
other end of the way that is to bind its name to another value.
-/
import Treewalk.Proofs.Overwrite

namespace Treewalk

open Std (HashMap)

namespace Value

/-- A value that reaches an object is a handle to it, or reaches one that holds such a handle. -/
theorem Reaches.handle {memory : Memory} {value : Value} {object : Nat}
    (reaches : value.Reaches object) (fits : value.Fits memory) :
    value.isHandleTo object = true ∨ ∃ owner, value.Reaches owner ∧
      ∃ item ∈ memory.latest owner, item.isHandleTo object = true := by
  induction reaches with
  | here latest => exact .inl (beq_self_eq_true object)
  | @inside other latest item member _ inductionHypothesis =>
    cases fits with
    | array _ holds items =>
      right
      rcases inductionHypothesis (items item member) with handle | ⟨owner, below, found⟩
      · exact ⟨other, .here latest, item, holds ▸ member, handle⟩
      · exact ⟨owner, .inside other member below, found⟩

/-! ### The objects that are found -/

/-- Whether looking into values leads from what was found before to what is found then. Objects that
are found now are looked into at once, so what they hold is found, too. -/
structure Explored (memory : Memory) (values : List Value)
    (before after : HashMap Nat (List Value)) : Prop where
  keeps : ∀ (object : Nat) (latest : List Value), before[object]? = some latest →
    after[object]? = some latest
  sound : ∀ (object : Nat) (latest : List Value), after[object]? = some latest →
    before[object]? = some latest ∨
      memory.latest object = latest ∧ ∃ value ∈ values, value.Reaches object
  heads : ∀ value ∈ values, ∀ object : Nat, value.isHandleTo object = true →
    ∃ latest : List Value, after[object]? = some latest
  closed : ∀ (object : Nat) (latest : List Value), after[object]? = some latest →
    before[object]? = none → ∀ item ∈ latest, ∀ other : Nat, item.isHandleTo other = true →
      ∃ latest : List Value, after[other]? = some latest

namespace Explored

variable {memory : Memory} {before middle after : HashMap Nat (List Value)}

/-- Nothing is to be done for values whose objects were found before. -/
theorem refl {memory : Memory} {values : List Value} {found : HashMap Nat (List Value)}
    (heads : ∀ value ∈ values, ∀ object : Nat, value.isHandleTo object = true →
      ∃ latest : List Value, found[object]? = some latest) :
    Explored memory values found found where
  keeps _ _ old := old
  sound _ _ old := .inl old
  heads := heads
  closed _ _ old new := by
    rw [old] at new
    cases new

theorem cons {value : Value} {rest : List Value} (first : Explored memory [value] before middle)
    (second : Explored memory rest middle after) :
    Explored memory (value :: rest) before after where
  keeps object latest old := second.keeps object latest (first.keeps object latest old)
  sound object latest found := by
    rcases second.sound object latest found with earlier | ⟨holds, other, member, reaches⟩
    · rcases first.sound object latest earlier with old | ⟨holds, other, member, reaches⟩
      · exact .inl old
      · rw [List.mem_singleton.mp member] at reaches
        exact .inr ⟨holds, value, List.mem_cons_self, reaches⟩
    · exact .inr ⟨holds, other, List.mem_cons_of_mem value member, reaches⟩
  heads other member object handle := by
    rcases List.mem_cons.mp member with rfl | behind
    · obtain ⟨latest, found⟩ := first.heads other (List.mem_singleton_self other) object handle
      exact ⟨latest, second.keeps object latest found⟩
    · exact second.heads other behind object handle
  closed object latest found new item member other handle := by
    cases earlier : middle[object]? with
    | none => exact second.closed object latest found earlier item member other handle
    | some latest' =>
      have same := second.keeps object latest' earlier
      rw [found] at same
      cases same
      obtain ⟨latest'', found'⟩ := first.closed object latest earlier new item member other handle
      exact ⟨latest'', second.keeps other latest'' found'⟩

/-- An object that was not found before is found with everything it holds. -/
theorem array {object : Nat} {latest : List Value} (new : before[object]? = none)
    (holds : memory.latest object = latest)
    (inside : Explored memory latest (before.insert object latest) after) :
    Explored memory [.array object latest] before after := by
  have here : after[object]? = some latest :=
    inside.keeps object latest HashMap.getElem?_insert_self
  have elsewhere : ∀ other, other ≠ object →
      (before.insert object latest)[other]? = before[other]? := fun other different => by
    rw [HashMap.getElem?_insert, beq_false_of_ne different.symm, if_neg Bool.false_ne_true]
  refine ⟨fun other old found => ?_, fun other old found => ?_, fun value member other handle => ?_,
    fun other old found unknown item member third handle => ?_⟩
  · have different : other ≠ object := by
      rintro rfl
      rw [new] at found
      cases found
    exact inside.keeps other old ((elsewhere other different).trans found)
  · by_cases same : other = object
    · subst same
      rw [here] at found
      cases found
      exact .inr ⟨holds, _, List.mem_singleton_self _, .here latest⟩
    · rcases inside.sound other old found with earlier | ⟨holds', item, member, reaches⟩
      · rw [elsewhere other same] at earlier
        exact .inl earlier
      · exact .inr ⟨holds', _, List.mem_singleton_self _, .inside object member reaches⟩
  · rw [List.mem_singleton.mp member] at handle
    have same : object = other := eq_of_beq handle
    exact ⟨latest, same ▸ here⟩
  · by_cases same : other = object
    · subst same
      rw [here] at found
      cases found
      exact inside.heads item member third handle
    · exact inside.closed other old found ((elsewhere other same).trans unknown) item member third
        handle

end Explored

theorem objectsFrom_explored {memory : Memory} {value : Value} (fits : value.Fits memory)
    (found : HashMap Nat (List Value)) :
    Explored memory [value] found (objectsFrom value found) := by
  induction fits generalizing found with
  | @array object latest known holds _ inductionHypothesis =>
    have items : ∀ (values : List Value) (found : HashMap Nat (List Value)),
        (∀ item ∈ values, item ∈ latest) →
        Explored memory values found (objectsFromAll values found) := by
      intro values
      induction values with
      | nil => exact fun found _ => .refl fun _ member => absurd member List.not_mem_nil
      | cons item rest restHypothesis =>
        intro found within
        exact .cons (inductionHypothesis item (within item List.mem_cons_self) found)
          (restHypothesis _ fun other member => within other (List.mem_cons_of_mem item member))
    rw [objectsFrom]
    by_cases old : found.contains object = true
    · rw [if_pos old]
      refine .refl fun value member other handle => ?_
      rw [List.mem_singleton.mp member] at handle
      have here : object = other := eq_of_beq handle
      have found' : (found[object]?).isSome = true := by
        rw [← HashMap.contains_eq_isSome_getElem?]
        exact old
      exact Option.isSome_iff_exists.mp (here ▸ found')
    · rw [if_neg old]
      have new : found[object]? = none :=
        HashMap.getElem?_eq_none_of_contains_eq_false (eq_false_of_ne_true old)
      exact .array new holds (items latest _ fun _ member => member)
  | number | string | function | void =>
    refine .refl fun value member other handle => ?_
    rw [List.mem_singleton.mp member] at handle
    cases handle

/-- All objects that can be reached are found, and no others, each with what it holds. -/
theorem objectsFromAll_eq_some_iff {memory : Memory} {values : List Value}
    (fit : memory.Fit values) {object : Nat} {latest : List Value} :
    (objectsFromAll values HashMap.emptyWithCapacity)[object]? = some latest ↔
      memory.latest object = latest ∧ ∃ value ∈ values, value.Reaches object := by
  have explored : ∀ found, Explored memory values found (objectsFromAll values found) := by
    induction values with
    | nil => exact fun found => .refl fun _ member => absurd member List.not_mem_nil
    | cons value rest inductionHypothesis =>
      intro found
      exact .cons (objectsFrom_explored (fit value List.mem_cons_self) found)
        (inductionHypothesis (fun other member => fit other (List.mem_cons_of_mem value member)) _)
  have all := explored HashMap.emptyWithCapacity
  generalize objectsFromAll values HashMap.emptyWithCapacity = found at all
  have sound : ∀ (object : Nat) (latest : List Value), found[object]? = some latest →
      memory.latest object = latest ∧ ∃ value ∈ values, value.Reaches object := by
    intro object latest known
    refine (all.sound object latest known).resolve_left fun old => ?_
    rw [HashMap.getElem?_emptyWithCapacity] at old
    cases old
  have complete : ∀ value : Value, value.Fits memory → value.Reaches object →
      (∀ other : Nat, value.isHandleTo other = true →
        ∃ latest : List Value, found[other]? = some latest) →
      ∃ latest : List Value, found[object]? = some latest := by
    intro value fits reaches
    induction reaches with
    | here latest => exact fun head => head object (beq_self_eq_true object)
    | @inside other latest item member _ inductionHypothesis =>
      intro head
      obtain ⟨latest', known⟩ := head other (beq_self_eq_true other)
      cases fits with
      | array _ holds items =>
        have same : latest' = latest := (sound other latest' known).1.symm.trans holds
        subst same
        exact inductionHypothesis (items item member)
          (all.closed other latest' known HashMap.getElem?_emptyWithCapacity item member)
  constructor
  · exact sound object latest
  · rintro ⟨holds, value, member, reaches⟩
    obtain ⟨latest', known⟩ :=
      complete value (fit value member) reaches (all.heads value member)
    have holds' := (sound object latest' known).1
    rw [known, ← holds', holds]

end Value

/-! ### Counting handles -/

theorem one_le_countP {values : List Value} {good : Value → Bool} {value : Value}
    (member : value ∈ values) (is : good value = true) : 1 ≤ values.countP good :=
  List.countP_pos_iff.mpr ⟨value, member, is⟩

/-- What two parts of a list have is counted twice. -/
theorem two_le_countP_flatMap {Part : Type} {parts : List Part} {values : Part → List Value}
    {good : Value → Bool} {first second : Part} (member : first ∈ parts) (member' : second ∈ parts)
    (different : first ≠ second) (one : 1 ≤ (values first).countP good)
    (one' : 1 ≤ (values second).countP good) : 2 ≤ (parts.flatMap values).countP good := by
  have within : ∀ {part : Part} {parts : List Part}, part ∈ parts →
      1 ≤ (values part).countP good → 1 ≤ (parts.flatMap values).countP good := by
    intro part parts member one
    obtain ⟨value, inside, is⟩ := List.countP_pos_iff.mp one
    exact one_le_countP (List.mem_flatMap.mpr ⟨part, member, inside⟩) is
  induction parts with
  | nil => exact absurd member List.not_mem_nil
  | cons head rest inductionHypothesis =>
    rw [List.flatMap_cons, List.countP_append]
    rcases List.mem_cons.mp member with rfl | behind
    · rcases List.mem_cons.mp member' with rfl | behind'
      · exact absurd rfl different
      · have more := within behind' one'
        omega
    · rcases List.mem_cons.mp member' with rfl | behind'
      · have more := within behind one
        omega
      · have both := inductionHypothesis behind behind'
        omega

/-- What two places of a list have is counted twice. -/
theorem two_le_countP_getElem? {values : List Value} {good : Value → Bool} {first second : Nat}
    {value value' : Value} (found : values[first]? = some value)
    (found' : values[second]? = some value') (different : first ≠ second)
    (is : good value = true) (is' : good value' = true) : 2 ≤ values.countP good := by
  induction values generalizing first second with
  | nil => cases found
  | cons head rest inductionHypothesis =>
    rw [List.countP_cons]
    cases first with
    | zero =>
      cases second with
      | zero => exact absurd rfl different
      | succ second =>
        cases found
        have behind : rest[second]? = some value' := found'
        have more := one_le_countP (List.mem_of_getElem? behind) is'
        rw [if_pos is]
        omega
    | succ first =>
      cases second with
      | zero =>
        cases found'
        have behind : rest[first]? = some value := found
        have more := one_le_countP (List.mem_of_getElem? behind) is
        rw [if_pos is']
        omega
      | succ second =>
        have both := inductionHypothesis found found' fun same => different (congrArg _ same)
        omega

/-! ### What holds the only handle -/

/-- Whether an object can be reached from what is bound. -/
def Context.Reaches (context : Context) (object : Nat) : Prop :=
  ∃ value ∈ context.values, value.Reaches object

/-- Whether a holder holds a value. -/
def Holder.Holds (memory : Memory) (context : Context) (value : Value) : Holder → Prop
  | binding name => context.get? name = some value
  | item owner latest index =>
    context.Reaches owner ∧ memory.latest owner = latest ∧
      Value.itemAt? latest index = some value

namespace Context

variable {memory : Memory} {context : Context} {object : Nat} {latest : List Value}

theorem countP_held_le (alone : isShared object context.held = false) :
    context.values.countP (Value.isHandleTo object) +
      (((Value.objectsFromAll context.values HashMap.emptyWithCapacity).toList.flatMap
        Prod.snd).countP (Value.isHandleTo object)) ≤ 1 := by
  rw [← List.countP_append]
  exact Nat.not_lt.mp (of_decide_eq_false alone)

theorem mem_found_iff (fit : memory.Fit context.values) {owner : Nat} :
    (owner, latest) ∈ (Value.objectsFromAll context.values HashMap.emptyWithCapacity).toList ↔
      memory.latest owner = latest ∧ context.Reaches owner := by
  rw [HashMap.mem_toList_iff_getElem?_eq_some, Value.objectsFromAll_eq_some_iff fit]
  rfl

theorem one_le_countP_found (fit : memory.Fit context.values) {owner : Nat}
    (reached : context.Reaches owner) {item : Value} (member : item ∈ memory.latest owner)
    (handle : item.isHandleTo object = true) :
    1 ≤ ((Value.objectsFromAll context.values HashMap.emptyWithCapacity).toList.flatMap
      Prod.snd).countP (Value.isHandleTo object) := by
  have known := (mem_found_iff fit).mpr ⟨rfl, reached⟩
  exact one_le_countP (List.mem_flatMap.mpr ⟨_, known, member⟩) handle

/-- If a name is bound to the only handle to an object, nothing else that is bound reaches it. -/
theorem not_reaches_of_binding (fit : memory.Fit context.values) {name : String}
    (bound : context.get? name = some (.array object latest))
    (alone : isShared object context.held = false) :
    (∀ binding ∈ context.frame.scope.bindings, binding.1 ≠ name → ¬ binding.2.Reaches object) ∧
      ∀ frame ∈ context.callers, ∀ value ∈ frame.scope.values, ¬ value.Reaches object := by
  have few := countP_held_le alone
  have isHandle : (Value.array object latest).isHandleTo object = true := beq_self_eq_true object
  have inFrame : Value.array object latest ∈ context.frame.scope.values :=
    Scope.mem_values_of_get? bound
  have split : context.values.countP (Value.isHandleTo object) =
      context.frame.scope.values.countP (Value.isHandleTo object) +
        (context.callers.flatMap fun frame => frame.scope.values).countP
          (Value.isHandleTo object) := List.countP_append
  have inObject : ∀ value ∈ context.values, value.Reaches object →
      value.isHandleTo object = true := by
    intro value member reaches
    rcases reaches.handle (fit value member) with handle | ⟨owner, below, item, inside, handle⟩
    · exact handle
    · have one := one_le_countP inFrame isHandle
      have one' := one_le_countP_found fit ⟨value, member, below⟩ inside handle
      omega
  constructor
  · intro binding inside different reaches
    have member : binding.2 ∈ context.values :=
      List.mem_append_left _ (List.mem_map.mpr ⟨binding, inside, rfl⟩)
    have both : 2 ≤ context.frame.scope.values.countP (Value.isHandleTo object) := by
      have parts : context.frame.scope.values =
          context.frame.scope.bindings.flatMap fun binding => [binding.2] := List.map_eq_flatMap
      rw [parts]
      exact two_le_countP_flatMap inside (Scope.mem_bindings_of_get? bound)
        (fun same => different (congrArg Prod.fst same))
        (one_le_countP (List.mem_singleton_self _) (inObject _ member reaches))
        (one_le_countP (List.mem_singleton_self _) isHandle)
    omega
  · intro frame member value inside reaches
    have below : value ∈ context.callers.flatMap fun frame => frame.scope.values :=
      List.mem_flatMap.mpr ⟨frame, member, inside⟩
    have one := one_le_countP inFrame isHandle
    have one' := one_le_countP below (inObject value (List.mem_append_right _ below) reaches)
    omega

/-- If an item is the only handle to an object, then nothing that is bound is a handle to it, nor
does any object hold another one. -/
theorem not_handle_of_item (fit : memory.Fit context.values) {owner index : Nat}
    (reached : context.Reaches owner)
    (found : Value.itemAt? (memory.latest owner) index = some (.array object latest))
    (alone : isShared object context.held = false) :
    (∀ value ∈ context.values, value.isHandleTo object = false) ∧
    (∀ other, context.Reaches other → other ≠ owner → ∀ item ∈ memory.latest other,
      item.isHandleTo object = false) ∧
    ∀ place item, place ≠ index → Value.itemAt? (memory.latest owner) place = some item →
      item.isHandleTo object = false := by
  have few := countP_held_le alone
  have isHandle : (Value.array object latest).isHandleTo object = true := beq_self_eq_true object
  have inOwner : Value.array object latest ∈ memory.latest owner :=
    List.mem_reverse.mp (List.mem_of_getElem? found)
  have known := (mem_found_iff fit).mpr ⟨rfl, reached⟩
  refine ⟨fun value member => ?_, fun other reached' different item member => ?_,
    fun place item different found' => ?_⟩ <;> refine eq_false_of_ne_true fun handle => ?_
  · have one := one_le_countP member handle
    have one' := one_le_countP_found fit reached inOwner isHandle
    omega
  · have known' := (mem_found_iff fit).mpr ⟨rfl, reached'⟩
    have both : 2 ≤ ((Value.objectsFromAll context.values HashMap.emptyWithCapacity).toList.flatMap
        Prod.snd).countP (Value.isHandleTo object) :=
      two_le_countP_flatMap known' known (fun same => different (congrArg Prod.fst same))
        (one_le_countP member handle) (one_le_countP inOwner isHandle)
    omega
  · have both := two_le_countP_getElem? found' found different handle isHandle
    rw [List.countP_reverse] at both
    obtain ⟨before, after, split⟩ := List.append_of_mem known
    rw [split, List.flatMap_append, List.flatMap_cons, List.countP_append, List.countP_append]
      at few
    dsimp only at few
    omega

end Context

/-! ### Writing to an object that is not shared -/

/-- To change a single item is to put the new one in its place. -/
theorem Value.map_eq_withItemAt {change : Value → Value} {latest : List Value} {index : Nat}
    {old : Value} (found : itemAt? latest index = some old)
    (still : ∀ position item, position ≠ index → itemAt? latest position = some item →
      change item = item) : latest.map change = withItemAt latest index (change old) := by
  have forwards : latest.reverse.map change = latest.reverse.set index (change old) := by
    refine List.ext_getElem? fun position => ?_
    rw [List.getElem?_map]
    by_cases same : index = position
    · subst same
      have inside : index < latest.reverse.length := (List.getElem?_eq_some_iff.mp found).1
      rw [List.getElem?_set_self inside]
      exact congrArg (Option.map change) found
    · rw [List.getElem?_set_ne same]
      cases found' : latest.reverse[position]? with
      | none => rfl
      | some item => exact congrArg some (still position item (Ne.symm same) found')
  rw [withItemAt, ← forwards, List.map_reverse, List.reverse_reverse]

namespace Scope

theorem eq_of_bindings {scope other : Scope} (same : scope.bindings = other.bindings) :
    scope = other := by
  cases scope
  cases other
  cases same
  rfl

theorem mapValues_eq_self {scope : Scope} {change : Value → Value}
    (still : ∀ value ∈ scope.values, change value = value) : scope.mapValues change = scope := by
  apply eq_of_bindings
  have same : scope.bindings.map (fun binding => (binding.1, change binding.2)) =
      scope.bindings.map id :=
    List.map_congr_left fun binding member =>
      congrArg (Prod.mk binding.1) (still binding.2 (List.mem_map.mpr ⟨binding, member, rfl⟩))
  exact same.trans (List.map_id _)

theorem map_eq_rebind {bindings : List (String × Value)} {change : Value → Value} {name : String}
    {old : Value} (distinct : (bindings.map Prod.fst).Nodup) (member : (name, old) ∈ bindings)
    (still : ∀ binding ∈ bindings, binding.1 ≠ name → change binding.2 = binding.2) :
    bindings.map (fun (name, value) => (name, change value)) =
      rebind name (change old) bindings := by
  induction bindings with
  | nil => exact absurd member List.not_mem_nil
  | cons head rest inductionHypothesis =>
    obtain ⟨first, value⟩ := head
    obtain ⟨new, distinct⟩ := List.nodup_cons.mp distinct
    by_cases same : first = name
    · subst same
      have here : old = value := by
        rcases List.mem_cons.mp member with here | behind
        · exact congrArg Prod.snd here
        · exact absurd (List.mem_map.mpr ⟨_, behind, rfl⟩) new
      have unchanged : rest.map (fun (name, value) => (name, change value)) = rest.map id := by
        refine List.map_congr_left fun binding inside => ?_
        have other : binding.1 ≠ first := fun same =>
          new (same ▸ List.mem_map.mpr ⟨binding, inside, rfl⟩)
        exact congrArg (Prod.mk binding.1)
          (still binding (List.mem_cons_of_mem _ inside) other)
      rw [rebind, if_pos rfl, List.map_cons, unchanged, List.map_id, here]
    · have behind : (name, old) ∈ rest := by
        rcases List.mem_cons.mp member with here | behind
        · exact absurd (congrArg Prod.fst here).symm same
        · exact behind
      have unchanged := still (first, value) List.mem_cons_self same
      have later := inductionHypothesis distinct behind fun binding inside =>
        still binding (List.mem_cons_of_mem _ inside)
      rw [rebind, if_neg same, List.map_cons, later]
      exact congrArg (· :: _) (congrArg (Prod.mk first) unchanged)

/-- To change the value of a single name is to bind that name to the new value. -/
theorem mapValues_eq_set {scope : Scope} {change : Value → Value} {name : String} {old : Value}
    (bound : scope.get? name = some old)
    (still : ∀ binding ∈ scope.bindings, binding.1 ≠ name → change binding.2 = binding.2) :
    scope.mapValues change = scope.set name (change old) :=
  eq_of_bindings (map_eq_rebind scope.distinct (mem_bindings_of_get? bound) still)

end Scope

theorem Frame.mapValues_eq_self {frame : Frame} {change : Value → Value}
    (still : ∀ value ∈ frame.scope.values, change value = value) :
    frame.mapValues change = frame := by
  unfold Frame.mapValues
  rw [Scope.mapValues_eq_self still]

namespace Context

variable {memory : Memory} {context : Context}

/-- Binding a name to what it is bound to changes nothing. -/
theorem set_get {name : String} {value : Value} (bound : context.get? name = some value) :
    context.set name value = context := by
  have same : context.frame.scope.mapValues id = context.frame.scope.set name value :=
    Scope.mapValues_eq_set bound fun _ _ _ => rfl
  have still : context.frame.scope.mapValues id = context.frame.scope :=
    Scope.mapValues_eq_self fun _ _ => rfl
  unfold Context.set
  rw [← same, still]

theorem overwrite_congr {object owner : Nat} {now now' : List Value}
    (same : ∀ value ∈ context.values, value.overwrite object now = value.overwrite owner now') :
    context.overwrite object now = context.overwrite owner now' := by
  have frames : ∀ frame ∈ context.frames, frame.mapValues (Value.overwrite object now) =
      frame.mapValues (Value.overwrite owner now') := by
    intro frame member
    have scopes : frame.scope.mapValues (Value.overwrite object now) =
        frame.scope.mapValues (Value.overwrite owner now') := by
      refine Scope.eq_of_bindings (List.map_congr_left fun binding inside => ?_)
      exact congrArg (Prod.mk binding.1) (same binding.2
        (List.mem_flatMap.mpr ⟨frame, member, List.mem_map.mpr ⟨binding, inside, rfl⟩⟩))
    unfold Frame.mapValues
    rw [scopes]
  unfold overwrite
  rw [frames context.frame List.mem_cons_self, List.map_congr_left fun frame member =>
    frames frame (List.mem_cons_of_mem _ member)]

/-- Nothing changes when an object is given the items that it has. -/
theorem overwrite_latest (fit : memory.Fit context.values) (object : Nat) :
    context.overwrite object (memory.latest object) = context := by
  have still : ∀ value ∈ context.values,
      value.overwrite object (memory.latest object) = value := fun value member =>
    (Value.overwrite_eq_replaced (fit value member) object _).trans
      (fit value member).replaced_latest
  have frames : ∀ frame ∈ context.frames,
      frame.mapValues (Value.overwrite object (memory.latest object)) = frame :=
    fun frame member => Frame.mapValues_eq_self fun value inside =>
      still value (List.mem_flatMap.mpr ⟨frame, member, inside⟩)
  have callers : context.callers.map
      (Frame.mapValues (Value.overwrite object (memory.latest object))) =
      context.callers.map id :=
    List.map_congr_left fun frame member => frames frame (List.mem_cons_of_mem _ member)
  unfold overwrite
  rw [frames context.frame List.mem_cons_self, callers, List.map_id]

/-- Where one of the items of an object is the only handle to another object, to replace the inner
one is to replace the outer one. -/
theorem replaced_eq_of_item (fit : memory.Fit context.values) {object owner index : Nat}
    {latest : List Value} (reached : context.Reaches owner)
    (found : Value.itemAt? (memory.latest owner) index = some (.array object latest))
    (alone : isShared object context.held = false) (now : List Value) {value : Value}
    (fits : value.Fits memory) (other : value.isHandleTo object = false)
    (within : ∀ below, value.Reaches below → context.Reaches below) :
    value.replaced object now = value.replaced owner
      (Value.withItemAt (memory.latest owner) index (.array object now)) := by
  obtain ⟨_, elsewhere, beside⟩ := not_handle_of_item fit reached found alone
  induction fits with
  | @array place items known holds fitItems inductionHypothesis =>
    have different : place ≠ object := ne_of_beq_false other
    rw [Value.replaced_array different]
    by_cases same : place = owner
    · subst same
      have apart : ∀ position item, position ≠ index →
          Value.itemAt? (memory.latest place) position = some item → ¬ item.Reaches object := by
        intro position item different found' reaches
        have member : item ∈ items := holds ▸ List.mem_reverse.mp (List.mem_of_getElem? found')
        have fitsOwner : (Value.array place items).Fits memory := .array known holds fitItems
        rcases reaches.handle (fitItems item member) with handle | ⟨inner, below, held⟩
        · rw [beside position item different found'] at handle
          cases handle
        · have notOwner : inner ≠ place := by
            rintro rfl
            exact fitsOwner.not_reaches member below
          obtain ⟨item', inside, handle⟩ := held
          rw [elsewhere inner (within inner (.inside place member below)) notOwner item' inside]
            at handle
          cases handle
      have written := Value.map_eq_withItemAt found fun position item different found' =>
        Value.replaced_of_not_reaches (apart position item different found') now
      rw [Value.replaced_self, ← holds, written, Value.replaced_self]
    · rw [Value.replaced_array same]
      refine congrArg (Value.array place) (List.map_congr_left fun item member => ?_)
      exact inductionHypothesis item member
        (elsewhere place (within place (.here items)) same item (holds ▸ member))
        fun below reaches => within below (.inside place member reaches)
  | number | string | function | void => rfl

/-- To write to an object that is not shared is to let the holder of its handle hold another one. -/
theorem overwrite_eq_put (fit : memory.Fit context.values) {object : Nat} {latest : List Value}
    {holder : Holder} (holds : holder.Holds memory context (.array object latest))
    (alone : isShared object context.held = false) (now : List Value) :
    context.overwrite object now = holder.put (.array object now) context := by
  cases holder with
  | binding name =>
    have bound : context.get? name = some (.array object latest) := holds
    obtain ⟨inFrame, inCallers⟩ := not_reaches_of_binding fit bound alone
    have fits := fit _ (mem_values_of_get? bound)
    have changed : Value.overwrite object now (.array object latest) = .array object now :=
      (Value.overwrite_eq_replaced fits object now).trans (Value.replaced_self object now latest)
    have still : ∀ value ∈ context.values, ¬ value.Reaches object →
        value.overwrite object now = value := fun value member apart =>
      (Value.overwrite_eq_replaced (fit value member) object now).trans
        (Value.replaced_of_not_reaches apart now)
    have scope : context.frame.scope.mapValues (Value.overwrite object now) =
        context.frame.scope.set name (.array object now) := by
      rw [← changed]
      refine Scope.mapValues_eq_set bound fun binding inside different => ?_
      exact still binding.2 (List.mem_append_left _ (List.mem_map.mpr ⟨binding, inside, rfl⟩))
        (inFrame binding inside different)
    have callers : context.callers.map (Frame.mapValues (Value.overwrite object now)) =
        context.callers.map id := by
      refine List.map_congr_left fun frame member => Frame.mapValues_eq_self fun value inside => ?_
      exact still value (List.mem_append_right _ (List.mem_flatMap.mpr ⟨frame, member, inside⟩))
        (inCallers frame member value inside)
    unfold overwrite Frame.mapValues at *
    rw [scope, callers, List.map_id]
    rfl
  | item owner items index =>
    obtain ⟨reached, rfl, found⟩ := holds
    refine overwrite_congr fun value member => ?_
    have other := (not_handle_of_item fit reached found alone).1 value member
    rw [Value.overwrite_eq_replaced (fit value member),
      Value.overwrite_eq_replaced (fit value member)]
    exact replaced_eq_of_item fit reached found alone now (fit value member) other
      fun below reaches => ⟨value, member, reaches⟩

end Context

end Treewalk
