/-
What an append in place does.

On its way along the path an append writes to an object in place, or gives a binding or an item an
object of its own, whichever the handles ask for. Whatever it does, one binding is all that changes:
it is bound to another value, and that is a value that can be told from the one before, the path and
the item (`State.append_eq`). As a tree, it is the one before with the item appended at the end of
the path (`Value.appendsAs_appendHeld`), and all values agree with a memory afterwards if they did
before (`State.append_fits`).
-/
import Treewalk.Proofs.Sharing

namespace Treewalk

/-! ### The value that is bound afterwards -/

/-- What is held in the place of a value after an item was appended along a path of indexes: an
object that is not shared stays the same object, and a shared one is copied. -/
def Value.appendHeld (held : List Value) (reached item : Value) (path : List Nat) (next : Nat) :
    Except Refusal Unit × Value × Nat :=
  match reached with
  | .array object latest =>
    if isShared object held then (Value.array object latest).appendToCopy item path next
    else
      match path with
      | [] => (.ok (), .array object (item :: latest), next)
      | index :: rest =>
        match Value.itemAt? latest index with
        | none => (.error .pastEnd, .array object latest, next)
        | some inner =>
          let (outcome, inner, after) := inner.appendHeld held item rest next
          (outcome, .array object (Value.withItemAt latest index inner), after)
  | value => (.error .notArray, value, next)
termination_by structural path

namespace Holder

variable {memory : Memory} {context : Context} {holder : Holder}

theorem Holds.fits {value : Value} (fit : memory.Fit context.values)
    (holds : holder.Holds memory context value) : value.Fits memory := by
  cases holder with
  | binding name => exact fit value (Context.mem_values_of_get? holds)
  | item owner latest index =>
    obtain ⟨⟨other, member, reaches⟩, rfl, found⟩ := holds
    cases reaches.fit (fit other member) with
    | array _ _ items => exact items value (List.mem_reverse.mp (List.mem_of_getElem? found))

theorem Holds.reaches {value : Value} (fit : memory.Fit context.values)
    (holds : holder.Holds memory context value) {object : Nat} (reaches : value.Reaches object) :
    context.Reaches object := by
  cases holder with
  | binding name => exact ⟨value, Context.mem_values_of_get? holds, reaches⟩
  | item owner latest index =>
    obtain ⟨⟨other, member, reaches'⟩, rfl, found⟩ := holds
    have inside : value ∈ memory.latest owner :=
      List.mem_reverse.mp (List.mem_of_getElem? found)
    exact ⟨other, member, reaches'.trans (fit other member) inside reaches⟩

/-- What an object holds that is held is held by that object. -/
theorem Holds.item {object index : Nat} {latest : List Value} {inner : Value}
    (fit : memory.Fit context.values) (holds : holder.Holds memory context (.array object latest))
    (found : Value.itemAt? latest index = some inner) :
    Holds memory context inner (.item object latest index) := by
  cases holds.fits fit with
  | array _ same _ => exact ⟨holds.reaches fit (.here latest), same, found⟩

theorem Holds.mono {later : Memory} {value : Value} (fit : memory.Fit context.values)
    (holds : holder.Holds memory context value) (within : memory.Within later) :
    holder.Holds later context value := by
  cases holder with
  | binding name => exact holds
  | item owner latest index =>
    obtain ⟨⟨other, member, reaches⟩, same, found⟩ := holds
    have known := reaches.lt_size (fit other member)
    exact ⟨⟨other, member, reaches⟩, (within.latest owner known).trans same, found⟩

/-- Nothing changes when a holder is given what it holds. -/
theorem Holds.put {value : Value} (fit : memory.Fit context.values)
    (holds : holder.Holds memory context value) : holder.put value context = context := by
  cases holder with
  | binding name => exact Context.set_get holds
  | item owner latest index =>
    obtain ⟨_, rfl, found⟩ := holds
    have same : (memory.latest owner).map id =
        Value.withItemAt (memory.latest owner) index value :=
      Value.map_eq_withItemAt found fun _ _ _ _ => rfl
    rw [List.map_id] at same
    show context.overwrite owner (Value.withItemAt (memory.latest owner) index value) = context
    rw [← same]
    exact Context.overwrite_latest fit owner

end Holder

namespace State

variable {memory : Memory}

/-- An append along a path comes to the same as giving its holder another value. -/
theorem appendFrom_eq {state : State} (fit : memory.Fit state.context.values) (item : Value)
    {holder : Holder} {reached : Value} (holds : holder.Holds memory state.context reached)
    (path : List Nat) :
    state.appendFrom item state.context.held holder reached path =
      ((reached.appendHeld state.context.held item path state.nextObject).1, { state with
        context := holder.put
          (reached.appendHeld state.context.held item path state.nextObject).2.1 state.context
        nextObject :=
          (reached.appendHeld state.context.held item path state.nextObject).2.2 }) := by
  induction path generalizing holder reached with
  | nil =>
    cases reached with
    | array object latest =>
      rw [appendFrom, Value.appendHeld]
      by_cases shared : isShared object state.context.held = true
      · rw [if_pos shared, if_pos shared]
      · have alone := eq_false_of_ne_true shared
        rw [if_neg shared, if_neg shared]
        dsimp only
        rw [Context.overwrite_eq_put fit holds alone]
    | number | string | function | void =>
      exact congrArg (fun context => (Except.error Refusal.notArray, { state with context }))
        (holds.put fit).symm
  | cons index rest inductionHypothesis =>
    cases reached with
    | array object latest =>
      rw [appendFrom, Value.appendHeld]
      by_cases shared : isShared object state.context.held = true
      · rw [if_pos shared, if_pos shared]
      · have alone := eq_false_of_ne_true shared
        rw [if_neg shared, if_neg shared]
        dsimp only
        cases found : Value.itemAt? latest index with
        | none =>
          dsimp only
          rw [holds.put fit]
        | some inner =>
          dsimp only
          rw [inductionHypothesis (holds.item fit found),
            ← Context.overwrite_eq_put fit holds alone]
          rfl
    | number | string | function | void =>
      exact congrArg (fun context => (Except.error Refusal.notArray, { state with context }))
        (holds.put fit).symm

end State

/-! ### The tree that is bound afterwards -/

namespace Value

/-- Whether an append to a value had the outcome that an append to its tree has, and whether the
tree of the value afterwards is the one that came of it. -/
def AppendsAs (reached item : Value) (path : List Nat) (outcome : Except Refusal Unit)
    (value : Value) : Prop :=
  match reached.tree.appendAt path item.tree with
  | .ok tree => outcome = .ok () ∧ value.tree = tree
  | .error refusal => outcome = .error refusal ∧ value.tree = reached.tree

theorem appendsAs_nil (object other : Nat) (latest : List Value) (item : Value) :
    AppendsAs (array object latest) item [] (.ok ()) (array other (item :: latest)) := by
  unfold AppendsAs
  rw [tree_array, tree_array_cons]
  exact ⟨rfl, rfl⟩

theorem appendsAs_pastEnd {object index : Nat} {latest : List Value} (item : Value)
    (rest : List Nat) (past : itemAt? latest index = none) :
    AppendsAs (array object latest) item (index :: rest) (.error .pastEnd)
      (array object latest) := by
  have past' : (latest.reverse.map tree)[index]? = none :=
    List.getElem?_map.trans (congrArg (Option.map tree) past)
  unfold AppendsAs
  rw [tree_array, Tree.appendAt, past']
  exact ⟨rfl, rfl⟩

/-- What is done to an item of an array is done to the array. -/
theorem AppendsAs.cons {object index : Nat} {latest : List Value} {inner inner' item : Value}
    {rest : List Nat} {outcome : Except Refusal Unit} (other : Nat)
    (found : itemAt? latest index = some inner)
    (appends : AppendsAs inner item rest outcome inner') :
    AppendsAs (array object latest) item (index :: rest) outcome
      (array other (withItemAt latest index inner')) := by
  have found' : (latest.reverse.map tree)[index]? = some inner.tree :=
    List.getElem?_map.trans (congrArg (Option.map tree) found)
  unfold AppendsAs at appends ⊢
  rw [tree_array, Tree.appendAt, found']
  dsimp only
  cases ending : inner.tree.appendAt rest item.tree with
  | ok tree =>
    rw [ending] at appends
    refine ⟨appends.1, ?_⟩
    rw [tree_array_withItemAt, appends.2]
  | error refusal =>
    rw [ending] at appends
    refine ⟨appends.1, ?_⟩
    rw [tree_array_withItemAt, appends.2]
    obtain ⟨inside, same⟩ := List.getElem?_eq_some_iff.mp found'
    rw [← same, List.set_getElem_self]

theorem appendsAs_appendToCopy (reached item : Value) (path : List Nat) (next : Nat) :
    AppendsAs reached item path (reached.appendToCopy item path next).1
      (reached.appendToCopy item path next).2.1 := by
  induction path generalizing reached next with
  | nil =>
    cases reached with
    | array object latest => exact appendsAs_nil object next latest item
    | number | string | function | void => exact ⟨rfl, rfl⟩
  | cons index rest inductionHypothesis =>
    cases reached with
    | array object latest =>
      rw [appendToCopy]
      cases found : itemAt? latest index with
      | none => exact appendsAs_pastEnd item rest found
      | some inner => exact (inductionHypothesis inner (next + 1)).cons next found
    | number | string | function | void => exact ⟨rfl, rfl⟩

theorem appendsAs_appendHeld (held : List Value) (reached item : Value) (path : List Nat)
    (next : Nat) :
    AppendsAs reached item path (reached.appendHeld held item path next).1
      (reached.appendHeld held item path next).2.1 := by
  induction path generalizing reached with
  | nil =>
    cases reached with
    | array object latest =>
      rw [appendHeld]
      split
      · exact appendsAs_appendToCopy _ _ _ _
      · exact appendsAs_nil object object latest item
    | number | string | function | void => exact ⟨rfl, rfl⟩
  | cons index rest inductionHypothesis =>
    cases reached with
    | array object latest =>
      rw [appendHeld]
      split
      · exact appendsAs_appendToCopy _ _ _ _
      · cases found : itemAt? latest index with
        | none => exact appendsAs_pastEnd item rest found
        | some inner => exact (inductionHypothesis inner).cons object found
    | number | string | function | void => exact ⟨rfl, rfl⟩

/-! ### Values with new objects -/

/-- Whether values are the same trees as others, and all their objects are ones that a memory did
not have and a later one has. -/
structure Renewed (memory later : Memory) (values renewed : List Value) : Prop where
  within : memory.Within later
  fit : later.Fit renewed
  fresh : ∀ value ∈ renewed, ∀ object, value.Reaches object → memory.size ≤ object
  trees : renewed.map tree = values.map tree

theorem Renewed.refl {memory : Memory} {value : Value} (fits : value.Fits memory)
    (plain : ∀ object, ¬ value.Reaches object) : Renewed memory memory [value] [value] where
  within := .refl memory
  fit := .cons fits memory.fit_nil
  fresh other member object reaches := by
    rw [List.mem_singleton.mp member] at reaches
    exact absurd reaches (plain object)
  trees := rfl

theorem Renewed.cons {memory middle later : Memory} {value new : Value} {values news : List Value}
    (first : Renewed memory middle [value] [new]) (second : Renewed middle later values news) :
    Renewed memory later (value :: values) (new :: news) where
  within := first.within.trans second.within
  fit := .cons ((first.fit new (List.mem_singleton_self new)).mono second.within) second.fit
  fresh other member object reaches := by
    rcases List.mem_cons.mp member with rfl | behind
    · exact first.fresh other (List.mem_singleton_self other) object reaches
    · exact Nat.le_trans first.within.size (second.fresh other behind object reaches)
  trees := by
    have head := List.head_eq_of_cons_eq first.trees
    rw [List.map_cons, List.map_cons, head, second.trees]

theorem Renewed.array {memory later : Memory} {latest renewed : List Value} (object : Nat)
    (items : Renewed memory later latest renewed) :
    Renewed memory (later.add renewed) [.array object latest] [.array later.size renewed] where
  within := items.within.trans (later.within_add renewed)
  fit := .cons items.fit.add (Memory.fit_nil _)
  fresh value member other reaches := by
    rw [List.mem_singleton.mp member] at reaches
    cases reaches with
    | here => exact items.within.size
    | inside _ member reaches => exact items.fresh _ member other reaches
  trees := by
    have same : renewed.reverse.map tree = latest.reverse.map tree := by
      rw [List.map_reverse, List.map_reverse, items.trees]
    rw [List.map_singleton, List.map_singleton, tree_array, tree_array, same]

theorem withNewObjectsIn_renewed_of {values : List Value}
    (each : ∀ value ∈ values, ∀ memory : Memory,
      ∃ later, later.size = (value.withNewObjects memory.size).2 ∧
        Renewed memory later [value] [(value.withNewObjects memory.size).1]) (memory : Memory) :
    ∃ later, later.size = (withNewObjectsIn memory.size values).2 ∧
      Renewed memory later values (withNewObjectsIn memory.size values).1 := by
  induction values generalizing memory with
  | nil => exact ⟨memory, rfl, .refl memory, memory.fit_nil, nofun, rfl⟩
  | cons value rest inductionHypothesis =>
    obtain ⟨middle, size, first⟩ := each value List.mem_cons_self memory
    obtain ⟨later, size', second⟩ := inductionHypothesis
      (fun other member => each other (List.mem_cons_of_mem value member)) middle
    rw [withNewObjectsIn]
    generalize value.withNewObjects memory.size = renewed at size first ⊢
    obtain ⟨new, next⟩ := renewed
    subst size
    exact ⟨later, size', first.cons second⟩

theorem withNewObjects_renewed (value : Value) (memory : Memory) :
    ∃ later, later.size = (value.withNewObjects memory.size).2 ∧
      Renewed memory later [value] [(value.withNewObjects memory.size).1] := by
  induction value using itemInduction generalizing memory with
  | array object latest inductionHypothesis =>
    obtain ⟨later, size, items⟩ := withNewObjectsIn_renewed_of inductionHypothesis memory
    rw [withNewObjects]
    generalize withNewObjectsIn memory.size latest = renewed at size items ⊢
    obtain ⟨news, next⟩ := renewed
    subst size
    exact ⟨later.add news, rfl, items.array object⟩
  | number value => exact ⟨memory, rfl, .refl (.number value) nofun⟩
  | string value => exact ⟨memory, rfl, .refl (.string value) nofun⟩
  | function value => exact ⟨memory, rfl, .refl (.function value) nofun⟩
  | void => exact ⟨memory, rfl, .refl .void nofun⟩

theorem withNewObjectsIn_renewed (values : List Value) (memory : Memory) :
    ∃ later, later.size = (withNewObjectsIn memory.size values).2 ∧
      Renewed memory later values (withNewObjectsIn memory.size values).1 :=
  withNewObjectsIn_renewed_of (fun value _ => value.withNewObjects_renewed) memory

/-! ### Copies -/

theorem mem_withItemAt {latest : List Value} {index : Nat} {item value : Value}
    (member : value ∈ withItemAt latest index item) : value = item ∨ value ∈ latest := by
  rcases List.mem_or_eq_of_mem_set (List.mem_reverse.mp member) with old | new
  · exact .inr (List.mem_reverse.mp old)
  · exact .inl new

theorem mem_of_itemAt? {latest : List Value} {index : Nat} {item : Value}
    (found : itemAt? latest index = some item) : item ∈ latest :=
  List.mem_reverse.mp (List.mem_of_getElem? found)

/-- A copy agrees with a memory that has its objects in addition, and what it reaches is new or was
reached before. -/
theorem appendToCopy_fits {memory : Memory} {reached item : Value} (fits : reached.Fits memory)
    (fitsItem : item.Fits memory) (path : List Nat) :
    ∃ later, memory.Within later ∧
      later.size = (reached.appendToCopy item path memory.size).2.2 ∧
      (reached.appendToCopy item path memory.size).2.1.Fits later ∧
      ∀ object, (reached.appendToCopy item path memory.size).2.1.Reaches object →
        memory.size ≤ object ∨ reached.Reaches object ∨ item.Reaches object := by
  induction path generalizing reached memory with
  | nil =>
    cases fits with
    | @array object latest known holds items =>
      refine ⟨memory.add (item :: latest), memory.within_add _, rfl,
        Memory.Fit.add (.cons fitsItem items), fun other reaches => ?_⟩
      cases reaches with
      | here => exact .inl (Nat.le_refl _)
      | inside _ member reaches =>
        rcases List.mem_cons.mp member with rfl | old
        · exact .inr (.inr reaches)
        · exact .inr (.inl (.inside object old reaches))
    | number value => exact ⟨memory, .refl memory, rfl, .number value, nofun⟩
    | string value => exact ⟨memory, .refl memory, rfl, .string value, nofun⟩
    | function value => exact ⟨memory, .refl memory, rfl, .function value, nofun⟩
    | void => exact ⟨memory, .refl memory, rfl, .void, nofun⟩
  | cons index rest inductionHypothesis =>
    cases fits with
    | @array object latest known holds items =>
      rw [appendToCopy]
      cases found : itemAt? latest index with
      | none =>
        exact ⟨memory, .refl memory, rfl, .array known holds items, fun _ reaches =>
          .inr (.inl reaches)⟩
      | some inner =>
        have inside := mem_of_itemAt? found
        -- The copy holds what is only made after it, so its place in the memory comes first.
        let copy := inner.appendToCopy item rest (memory.size + 1)
        let contents := withItemAt latest index copy.2.1
        have started := memory.within_add contents
        obtain ⟨later, within, size, fitsCopy, reachesCopy⟩ :=
          inductionHypothesis ((items inner inside).mono started) (fitsItem.mono started)
        have holds' : later.latest memory.size = contents :=
          (within.latest memory.size (Nat.lt_succ_self _)).trans (if_pos rfl)
        refine ⟨later, started.trans within, size, .array within.size holds' fun value member => ?_,
          fun other reaches => ?_⟩
        · rcases mem_withItemAt member with rfl | old
          · exact fitsCopy
          · exact ((items value old).mono started).mono within
        · cases reaches with
          | here => exact .inl (Nat.le_refl _)
          | inside _ member reaches =>
            rcases mem_withItemAt member with rfl | old
            · rcases reachesCopy other reaches with new | before | before
              · exact .inl (Nat.le_of_succ_le new)
              · exact .inr (.inl (.inside object inside before))
              · exact .inr (.inr before)
            · exact .inr (.inl (.inside object old reaches))
    | number value => exact ⟨memory, .refl memory, rfl, .number value, nofun⟩
    | string value => exact ⟨memory, .refl memory, rfl, .string value, nofun⟩
    | function value => exact ⟨memory, .refl memory, rfl, .function value, nofun⟩
    | void => exact ⟨memory, .refl memory, rfl, .void, nofun⟩

end Value

/-! ### The memory afterwards -/

theorem Context.mem_values_overwrite {context : Context} {object : Nat} {now : List Value}
    {value : Value} (member : value ∈ (context.overwrite object now).values) :
    ∃ old ∈ context.values, value = old.overwrite object now := by
  obtain ⟨frame, inFrames, inside⟩ := List.mem_flatMap.mp member
  have frames : (context.overwrite object now).frames =
      context.frames.map (Frame.mapValues (Value.overwrite object now)) := rfl
  rw [frames] at inFrames
  obtain ⟨before, inFrames', rfl⟩ := List.mem_map.mp inFrames
  obtain ⟨binding, inside', rfl⟩ := List.mem_map.mp inside
  obtain ⟨pair, inPairs, rfl⟩ := List.mem_map.mp inside'
  exact ⟨pair.2, List.mem_flatMap.mpr ⟨before, inFrames', List.mem_map.mpr ⟨pair, inPairs, rfl⟩⟩,
    rfl⟩

namespace State

variable {memory : Memory} {state : State}

/-- Writing to an object leaves the values in agreement if what is written does not reach the
object. -/
theorem Fits.overwrite (agrees : state.Fits memory) {object : Nat} {now : List Value}
    (fit : memory.Fit now) (apart : ∀ item ∈ now, ¬ item.Reaches object) :
    State.Fits (memory.write object now)
      { state with context := state.context.overwrite object now } where
  size := agrees.size
  values value member := by
    obtain ⟨old, member', rfl⟩ := Context.mem_values_overwrite member
    have fits := agrees.values old member'
    rw [Value.overwrite_eq_replaced fits]
    exact fits.replaced fit apart

/-- Giving a holder a value leaves the values in agreement if the value does not reach the object
whose item it becomes. -/
theorem Fits.put (agrees : state.Fits memory) {holder : Holder} {old value : Value}
    (holds : holder.Holds memory state.context old) (fits : value.Fits memory)
    (apart : ∀ object, value.Reaches object → state.context.Reaches object →
      old.Reaches object) :
    ∃ later, State.Fits later { state with context := holder.put value state.context } := by
  cases holder with
  | binding name => exact ⟨memory, agrees.set fits⟩
  | item owner latest index =>
    obtain ⟨reached, rfl, found⟩ := holds
    have inside := Value.mem_of_itemAt? found
    obtain ⟨other, member, reaches⟩ := reached
    have fitsOwner := reaches.fit (agrees.values other member)
    refine ⟨_, agrees.overwrite (fun item member => ?_) fun item member reaches' => ?_⟩
    · rcases Value.mem_withItemAt member with rfl | old
      · exact fits
      · cases fitsOwner with
        | array _ _ items => exact items item old
    · rcases Value.mem_withItemAt member with rfl | old
      · exact fitsOwner.not_reaches inside (apart owner reaches' ⟨other, ‹_›, reaches⟩)
      · exact fitsOwner.not_reaches old reaches'

/-- A copy that a holder is given leaves the values in agreement. -/
theorem Fits.putCopy (agrees : state.Fits memory) {item : Value} (fitsItem : item.Fits memory)
    (apart : ∀ object, item.Reaches object → ¬ state.context.Reaches object) {holder : Holder}
    {reached : Value} (holds : holder.Holds memory state.context reached) (path : List Nat) :
    ∃ later, State.Fits later { state with
      context := holder.put (reached.appendToCopy item path state.nextObject).2.1 state.context
      nextObject := (reached.appendToCopy item path state.nextObject).2.2 } := by
  obtain ⟨later, within, size, fitsCopy, reachesCopy⟩ :=
    Value.appendToCopy_fits (holds.fits agrees.values) fitsItem path
  rw [agrees.size, ← size]
  have agrees' : State.Fits later { state with nextObject := later.size } :=
    ⟨rfl, agrees.values.mono within⟩
  refine agrees'.put (holds.mono agrees.values within) fitsCopy fun object reaches known => ?_
  rcases reachesCopy object reaches with new | before | inItem
  · obtain ⟨value, member, reaches'⟩ := known
    have old := reaches'.lt_size (agrees.values value member)
    omega
  · exact before
  · exact absurd known (apart object inItem)

/-- An append leaves the values in agreement if the item has no object in common with them. -/
theorem appendFrom_fits (agrees : state.Fits memory) {item : Value} (fitsItem : item.Fits memory)
    (apart : ∀ object, item.Reaches object → ¬ state.context.Reaches object) (held : List Value)
    {holder : Holder} {reached : Value} (holds : holder.Holds memory state.context reached)
    (path : List Nat) :
    ∃ later, State.Fits later (state.appendFrom item held holder reached path).2 := by
  induction path generalizing holder reached with
  | nil =>
    cases reached with
    | array object latest =>
      rw [appendFrom]
      split
      · exact agrees.putCopy fitsItem apart holds []
      · have fits := holds.fits agrees.values
        refine ⟨_, agrees.overwrite ?_ fun value member => ?_⟩
        · cases fits with
          | array _ _ items => exact .cons fitsItem items
        · rcases List.mem_cons.mp member with rfl | old
          · exact fun reaches => apart object reaches (holds.reaches agrees.values (.here latest))
          · exact fits.not_reaches old
    | number | string | function | void => exact ⟨memory, agrees⟩
  | cons index rest inductionHypothesis =>
    cases reached with
    | array object latest =>
      rw [appendFrom]
      split
      · exact agrees.putCopy fitsItem apart holds (index :: rest)
      · cases found : Value.itemAt? latest index with
        | none => exact ⟨memory, agrees⟩
        | some inner => exact inductionHypothesis (holds.item agrees.values found)
    | number | string | function | void => exact ⟨memory, agrees⟩

/-- An append in place binds the name to another value, and does nothing else. -/
theorem append_eq (agrees : state.Fits memory) {name : String} {reached : Value}
    (bound : state.context.get? name = some reached) (path : List Nat) (item : Value) :
    let new := item.withNewObjects state.nextObject
    let appended := reached.appendHeld state.context.held new.1 path new.2
    state.append name path item = (appended.1, { state with
      context := state.context.set name appended.2.1
      nextObject := appended.2.2 }) := by
  have holds : Holder.Holds memory state.context reached (.binding name) := bound
  rw [append, bound]
  have fit : memory.Fit (state.adopt item).2.context.values := agrees.values
  exact appendFrom_eq fit (state.adopt item).1 holds path

/-- A value that is taken in has no object in common with what is bound. -/
theorem adopt_renewed (agrees : state.Fits memory) (value : Value) :
    ∃ later, (state.adopt value).2.Fits later ∧
      Value.Renewed memory later [value] [(state.adopt value).1] := by
  obtain ⟨later, size, renewed⟩ := value.withNewObjects_renewed memory
  have number : (value.withNewObjects state.nextObject).2 = later.size := by
    rw [agrees.size, size]
  refine ⟨later, ⟨number, agrees.values.mono renewed.within⟩, ?_⟩
  show Value.Renewed memory later [value] [(value.withNewObjects state.nextObject).1]
  rw [agrees.size]
  exact renewed

theorem adoptAll_renewed (agrees : state.Fits memory) (values : List Value) :
    ∃ later, (state.adoptAll values).2.Fits later ∧
      Value.Renewed memory later values (state.adoptAll values).1 := by
  obtain ⟨later, size, renewed⟩ := Value.withNewObjectsIn_renewed values memory
  have number : (Value.withNewObjectsIn state.nextObject values).2 = later.size := by
    rw [agrees.size, size]
  refine ⟨later, ⟨number, agrees.values.mono renewed.within⟩, ?_⟩
  show Value.Renewed memory later values (Value.withNewObjectsIn state.nextObject values).1
  rw [agrees.size]
  exact renewed

/-- An append in place leaves the values in agreement. -/
theorem append_fits (agrees : state.Fits memory) (name : String) (path : List Nat) (item : Value) :
    ∃ later, State.Fits later (state.append name path item).2 := by
  rw [append]
  cases bound : state.context.get? name with
  | none => exact ⟨memory, agrees⟩
  | some reached =>
    obtain ⟨later, agrees', renewed⟩ := adopt_renewed agrees item
    have apart : ∀ object, (state.adopt item).1.Reaches object →
        ¬ (state.adopt item).2.context.Reaches object := by
      rintro object reaches ⟨value, member, reaches'⟩
      have old := reaches'.lt_size (agrees.values value member)
      have new := renewed.fresh _ (List.mem_singleton_self _) object reaches
      omega
    have holds : Holder.Holds later (state.adopt item).2.context reached (.binding name) := bound
    exact appendFrom_fits agrees' (renewed.fit _ (List.mem_singleton_self _)) apart _ holds path

end State

end Treewalk
