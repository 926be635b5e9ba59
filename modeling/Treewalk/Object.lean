/-
Array objects and their handles, and what a host does with them: it takes in values, binds them,
and appends to arrays in place.

A handle is an array value; it is held by a binding or by an item of another array object. All
handles of one object show the same items, so writing to an object changes what every one of its
handles shows (`overwrite`). A host that appends through one binding must not be seen through
another one, so every object on the way is written to only when there is a single handle to it in
all the active frames; when there are more, the handle at hand first gets an object of its own with
the same items (`appendToCopy`). An index is looked at before that: an object that it does not fit
stays shared.

A value from outside shares no object with what is held. A host that keeps a handle for itself and
binds it to two names, or that still has it when it appends, is not described as such: two bindings
come to share an object when one of them is copied from the other, and handles outside of all frames
are not counted.

A value of few objects may hold one of them in very many places. What is done with all the objects
of a value therefore keeps a table of those it has dealt with.
-/
import Std.Data.HashMap
import Treewalk.Evaluation.Run

namespace Treewalk

open Std (HashMap)

namespace Value

mutual

/-- A value with every array in it made an object of its own, the objects being numbered from
`next` on; the number that comes after them is given along with it. -/
def withNewObjects (next : Nat) : Value → Value × Nat
  | array _ latest =>
    let (latest, next) := withNewObjectsIn next latest
    (array next latest, next + 1)
  | value => (value, next)

/-- Some values with every array in them made an object of its own. -/
def withNewObjectsIn (next : Nat) : List Value → List Value × Nat
  | [] => ([], next)
  | item :: rest =>
    let (item, next) := withNewObjects next item
    let (rest, next) := withNewObjectsIn next rest
    (item :: rest, next)

end

/-- Whether a value is a handle to an object. -/
def isHandleTo (object : Nat) : Value → Bool
  | array other _ => other == object
  | _ => false

mutual

/-- Adds the array objects that can be reached from a value, and what they hold, to those that were
found before. An object that was found is not looked into again, so that the work is bounded by the
number of objects and not by the number of ways to them. -/
def objectsFrom : Value → HashMap Nat (List Value) → HashMap Nat (List Value)
  | array object latest, found =>
    if found.contains object then found else objectsFromAll latest (found.insert object latest)
  | _, found => found

/-- Adds the array objects that can be reached from some values to those that were found before. -/
def objectsFromAll : List Value → HashMap Nat (List Value) → HashMap Nat (List Value)
  | [], found => found
  | item :: rest, found => objectsFromAll rest (objectsFrom item found)

end

mutual

/-- Brings a value up to date with what objects hold by now. `now` has the objects that were written
to, and every object that was brought up to date on the way is added to it. -/
def refresh : Value → HashMap Nat (List Value) → Value × HashMap Nat (List Value)
  | array object old, now =>
    match now[object]? with
    | some latest => (array object latest, now)
    | none =>
      let (latest, now) := refreshAll old now
      (array object latest, now.insert object latest)
  | value, now => (value, now)

/-- Brings some values up to date with what objects hold by now. -/
def refreshAll : List Value → HashMap Nat (List Value) → List Value × HashMap Nat (List Value)
  | [], now => ([], now)
  | item :: rest, now =>
    let (item, now) := refresh item now
    let (rest, now) := refreshAll rest now
    (item :: rest, now)

end

/-- A value after the items of an object have been replaced. -/
def overwrite (object : Nat) (latest : List Value) (value : Value) : Value :=
  (value.refresh (HashMap.emptyWithCapacity.insert object latest)).1

/-- The item at an index, counted from the first one, of items that stand in reverse. -/
def itemAt? (latest : List Value) (index : Nat) : Option Value := latest.reverse[index]?

/-- Items that stand in reverse, with another one at an index. -/
def withItemAt (latest : List Value) (index : Nat) (item : Value) : List Value :=
  (latest.reverse.set index item).reverse

theorem items?_array_withItemAt (object : Nat) (latest : List Value) (index : Nat) (item : Value) :
    (array object (withItemAt latest index item)).items? =
      (array object latest).items?.map (·.set index item) :=
  congrArg some (List.reverse_reverse _)

end Value

namespace Frame

/-- Changes every value that is bound in a frame. -/
def mapValues (change : Value → Value) (frame : Frame) : Frame :=
  { frame with scope := frame.scope.mapValues change }

end Frame

namespace Context

/-- The values that are bound in the active frames. -/
def values (context : Context) : List Value :=
  context.frames.flatMap fun frame => frame.scope.values

/-- Everything that is held: by a binding, or as an item of an array object that can be reached. -/
def held (context : Context) : List Value :=
  context.values ++
    ((Value.objectsFromAll context.values HashMap.emptyWithCapacity).toList.flatMap Prod.snd)

/-- The context after the items of an object have been replaced. -/
def overwrite (context : Context) (object : Nat) (latest : List Value) : Context :=
  ⟨context.frame.mapValues (Value.overwrite object latest),
    context.callers.map (Frame.mapValues (Value.overwrite object latest))⟩

end Context

/-- What holds a handle: a binding of the current frame, or an item of an array object. -/
inductive Holder
  | binding (name : String)
  | item (object : Nat) (latest : List Value) (index : Nat)

/-- Lets a holder hold another value. -/
def Holder.put (holder : Holder) (value : Value) (context : Context) : Context :=
  match holder with
  | binding name => context.set name value
  | item object latest index =>
    context.overwrite object (Value.withItemAt latest index value)

/-- Why nothing could be appended. -/
inductive Refusal
  /-- The name is not bound. -/
  | unbound
  /-- Something on the way is not an array. -/
  | notArray
  /-- An index on the way is past the end. -/
  | pastEnd
deriving DecidableEq

/-- Whether there is more than one handle to an object among everything that is held. -/
def isShared (object : Nat) (held : List Value) : Bool := 1 < held.countP (·.isHandleTo object)

/-- Appends an item along a path of indexes to an array whose object is shared, and gives the array
that is to be held in its place. The objects on the way get copies, numbered from `next` on: as soon
as an object has a copy, whatever it holds is held by both of them and so is shared, too. An object
in which the path comes to a bad index gets none. -/
def Value.appendToCopy (reached item : Value) (path : List Nat) (next : Nat) :
    Except Refusal Unit × Value × Nat :=
  match reached with
  | .array object latest =>
    match path with
    | [] => (.ok (), .array next (item :: latest), next + 1)
    | index :: rest =>
      match Value.itemAt? latest index with
      | none => (.error .pastEnd, .array object latest, next)
      | some inner =>
        let (outcome, inner, after) := inner.appendToCopy item rest (next + 1)
        (outcome, .array next (Value.withItemAt latest index inner), after)
  | value => (.error .notArray, value, next)
termination_by structural path

namespace State

/-- Takes in a value from outside. No other handle has any of its array objects. -/
def adopt (state : State) (value : Value) : Value × State :=
  let (value, next) := value.withNewObjects state.nextObject
  (value, { state with nextObject := next })

/-- Takes in some values from outside. -/
def adoptAll (state : State) (values : List Value) : List Value × State :=
  let (values, next) := Value.withNewObjectsIn state.nextObject values
  (values, { state with nextObject := next })

/-- Binds a name of the current frame to a value from outside. -/
def set (state : State) (name : String) (value : Value) : State :=
  let (value, state) := state.adopt value
  { state with context := state.context.set name value }

/-- Appends an item to the array that is reached from a held value along a path of indexes; `held`
is everything that is held. -/
def appendFrom (item : Value) (held : List Value) (holder : Holder) (reached : Value)
    (path : List Nat) (state : State) : Except Refusal Unit × State :=
  match reached with
  | .array object latest =>
    if isShared object held then
      let (outcome, copy, next) := reached.appendToCopy item path state.nextObject
      (outcome, { state with context := holder.put copy state.context, nextObject := next })
    else
      match path with
      | [] =>
        (.ok (), { state with context := state.context.overwrite object (item :: latest) })
      | index :: rest =>
        match Value.itemAt? latest index with
        | none => (.error .pastEnd, state)
        | some inner => state.appendFrom item held (.item object latest index) inner rest
  | _ => (.error .notArray, state)
termination_by structural path

/-- Appends an item from outside, in place, to the array that is reached from a name along a path of
indexes. What is bound to other names is not changed by it. -/
def append (state : State) (name : String) (path : List Nat) (item : Value) :
    Except Refusal Unit × State :=
  match state.context.get? name with
  | none => (.error .unbound, state)
  | some reached =>
    let (item, state) := state.adopt item
    state.appendFrom item state.context.held (.binding name) reached path

end State

end Treewalk
