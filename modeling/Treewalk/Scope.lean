/-
A scope binds names to values. Every name is bound at most once, and a name that is bound anew
keeps its place. What a scope is, for its users, is the function `get?`: `get?_set_self` and
`get?_set_of_ne` say how binding a name changes it.
-/
import Treewalk.Value

namespace Treewalk

/-- The bindings of one frame, in the order in which the names were first bound. -/
structure Scope where
  bindings : List (String × Value)
  distinct : (bindings.map Prod.fst).Nodup

namespace Scope

/-- A scope that binds nothing. -/
def empty : Scope := ⟨[], List.nodup_nil⟩

/-- The value that a name has in a list of bindings. -/
def find (name : String) : List (String × Value) → Option Value
  | [] => none
  | (other, value) :: rest => if other = name then some value else find name rest

/-- The value that a name is bound to. -/
def get? (scope : Scope) (name : String) : Option Value := find name scope.bindings

/-- The bindings with a name bound to a value: in its place if it has one, else at the end. -/
def rebind (name : String) (value : Value) : List (String × Value) → List (String × Value)
  | [] => [(name, value)]
  | (other, old) :: rest =>
    if other = name then (name, value) :: rest else (other, old) :: rebind name value rest

theorem fst_mem_rebind {name : String} {value : Value} {bindings : List (String × Value)}
    {other : String} (member : other ∈ (rebind name value bindings).map Prod.fst) :
    other = name ∨ other ∈ bindings.map Prod.fst := by
  induction bindings with
  | nil => simp [rebind] at member; exact .inl member
  | cons head rest inductionHypothesis =>
    obtain ⟨first, old⟩ := head
    unfold rebind at member
    split at member <;> simp only [List.map_cons, List.mem_cons] at member ⊢
    · rcases member with same | later
      · exact .inl same
      · exact .inr (.inr later)
    · rcases member with same | later
      · exact .inr (.inl same)
      · rcases inductionHypothesis later with same | older
        · exact .inl same
        · exact .inr (.inr older)

theorem nodup_rebind (name : String) (value : Value) {bindings : List (String × Value)}
    (distinct : (bindings.map Prod.fst).Nodup) :
    ((rebind name value bindings).map Prod.fst).Nodup := by
  induction bindings with
  | nil => simp [rebind]
  | cons head rest inductionHypothesis =>
    obtain ⟨first, old⟩ := head
    rw [List.map_cons, List.nodup_cons] at distinct
    unfold rebind
    split
    · rename_i same
      subst same
      exact List.nodup_cons.mpr distinct
    · rename_i different
      refine List.nodup_cons.mpr ⟨fun member => ?_, inductionHypothesis distinct.2⟩
      rcases fst_mem_rebind member with same | older
      · exact different same
      · exact distinct.1 older

/-- Binds a name to a value, whether or not it was bound before. -/
def set (scope : Scope) (name : String) (value : Value) : Scope :=
  ⟨rebind name value scope.bindings, nodup_rebind name value scope.distinct⟩

/-- How many names are bound. -/
def size (scope : Scope) : Nat := scope.bindings.length

/-- Changes every value and no name. -/
def mapValues (change : Value → Value) (scope : Scope) : Scope :=
  ⟨scope.bindings.map fun (name, value) => (name, change value), by
    simpa [List.map_map, Function.comp_def] using scope.distinct⟩

/-- The bound values. -/
def values (scope : Scope) : List Value := scope.bindings.map Prod.snd

@[simp] theorem get?_empty (name : String) : empty.get? name = none := rfl

theorem find_rebind_self (name : String) (value : Value) (bindings : List (String × Value)) :
    find name (rebind name value bindings) = some value := by
  induction bindings with
  | nil => simp [rebind, find]
  | cons head rest inductionHypothesis =>
    obtain ⟨first, old⟩ := head
    by_cases same : first = name <;> simp [rebind, find, same, inductionHypothesis]

theorem find_rebind_of_ne {name other : String} (different : other ≠ name) (value : Value)
    (bindings : List (String × Value)) :
    find other (rebind name value bindings) = find other bindings := by
  induction bindings with
  | nil => simp [rebind, find, different.symm]
  | cons head rest inductionHypothesis =>
    obtain ⟨first, old⟩ := head
    by_cases same : first = name
    · subst same
      simp [rebind, find, different.symm]
    · simp [rebind, find, same, inductionHypothesis]

theorem find_map (change : Value → Value) (name : String) (bindings : List (String × Value)) :
    find name (bindings.map fun (name, value) => (name, change value)) =
      (find name bindings).map change := by
  induction bindings with
  | nil => rfl
  | cons head rest inductionHypothesis =>
    obtain ⟨first, old⟩ := head
    by_cases same : first = name <;> simp_all [find]

@[simp] theorem get?_set_self (scope : Scope) (name : String) (value : Value) :
    (scope.set name value).get? name = some value :=
  find_rebind_self name value scope.bindings

theorem get?_set_of_ne (scope : Scope) {name other : String} (different : other ≠ name)
    (value : Value) : (scope.set name value).get? other = scope.get? other :=
  find_rebind_of_ne different value scope.bindings

theorem get?_mapValues (change : Value → Value) (scope : Scope) (name : String) :
    (scope.mapValues change).get? name = (scope.get? name).map change :=
  find_map change name scope.bindings

end Scope

end Treewalk
