/-
This file proves that bindings are copies.

Values share their array objects as much as they can: to bind a name to what another one is bound
to, to pass an argument and to put an array into another one are to make one more handle. A host may
write to an object that way, and yet no other binding ever changes. What a host gets to see is what
the reference has, whose stores hold trees and where there is nothing to be shared
(`copies_are_independent`): an append in place changes one array at one place of one binding, and
the append operator of the language changes none.

The proof has two halves, which meet in what an operation does to a single binding. Evaluations read
as the evaluations of the reference whatever is shared, and an append in place binds its name to the
value with the item appended, provided that all handles to an object show the same items. That is
why every operation has to keep them in agreement.
-/
import Treewalk.Proofs.Isolation
import Treewalk.Proofs.Operations
import Treewalk.Proofs.Reading

namespace Treewalk

/-! ### What a host does to a store -/

/-- A store that binds nothing. -/
def Store.initial : Store := ⟨fun _ => none, [], 0⟩

/-- What a host is told, with trees for values and without the frames of backtraces. -/
def Answer.read : Answer Value → Answer Tree
  | done => .done
  | refused reason => .refused reason
  | noFunction => .noFunction
  | value image => .value image.tree
  | failed failure => .failed failure.bare

/-- The answer to a computation with trees, if it came to its end. -/
def Plain.answer : Option (Except Failure Tree × Store) → Option (Answer Tree × Store)
  | some (.ok tree, after) => some (.value tree, after)
  | some (.error failure, after) => some (.failed failure, after)
  | none => none

namespace Store

/-- Does to a store what a host asks for. -/
def perform (fuel : Nat) (store : Store) : Operation → Option (Answer Tree × Store)
  | .set name value => some (.done, store.set name value.tree)
  | .copy source name =>
    match store.bindings source with
    | none => some (.refused .unbound, store)
    | some tree => some (.done, store.set name tree)
  | .evaluate interpreter program =>
    Plain.answer (Plain.eval interpreter fuel program { store with steps := 0 })
  | .execute interpreter name args _ =>
    match store.bindings name with
    | some (.function function) =>
      Plain.answer (Plain.callFunction interpreter (Plain.eval interpreter fuel) function
        (args.map Value.tree) { store with steps := 0 })
    | _ => some (.noFunction, store)
  | .append name path item =>
    match store.bindings name with
    | none => some (.refused .unbound, store)
    | some tree =>
      match tree.appendAt path item.tree with
      | .ok tree => some (.done, store.set name tree)
      | .error reason => some (.refused reason, store)
  | .enter _ _ => some (.done, store.child fun _ => none)
  | .leave =>
    match store.callers with
    | [] => some (.done, store)
    | bindings :: callers => some (.done, { store with bindings, callers })

/-- Does one thing after the other. -/
def performAll (fuel : Nat) : List Operation → Store → Option (List (Answer Tree) × Store)
  | [], store => some ([], store)
  | operation :: rest, store => do
    let (answer, store) ← store.perform fuel operation
    let (answers, store) ← performAll fuel rest store
    some (answer :: answers, store)

theorem set_get {store : Store} {name : String} {tree : Tree}
    (bound : store.bindings name = some tree) : store.set name tree = store := by
  have same : (fun other => if other = name then some tree else store.bindings other) =
      store.bindings := by
    funext other
    split
    · rename_i here
      rw [here, bound]
    · rfl
  unfold set
  rw [same]

end Store

/-! ### Operations on states are operations on stores -/

namespace State

variable {memory : Memory} {state : State}

/-- What a state and the answer that comes with it look like. -/
abbrev look : Answer Value × State → Answer Tree × Store := Prod.map Answer.read State.store

theorem answer_read (outcome : Outcome Value) :
    outcome.answer.map look = Plain.answer (outcome.read Value.tree) := by
  cases outcome <;> rfl

theorem store_initial (name : String) : (State.initial (.root name)).store = .initial := rfl

theorem bindings_store (state : State) (name : String) :
    state.store.bindings name = (state.context.get? name).map Value.tree := rfl

theorem store_child (state : State) (name : String) (entry : Span) :
    State.store { state with context := state.context.child name entry } =
      state.store.child fun _ => none := by
  have empty : Frame.trees ⟨name, .empty, some entry⟩ = fun _ => none := by
    funext other
    rfl
  show Store.mk (Frame.trees ⟨name, .empty, some entry⟩) _ _ = _
  rw [empty]
  rfl

theorem copy_reads (state : State) (fuel : Nat) (source name : String) :
    (state.perform fuel (.copy source name)).map look =
      state.store.perform fuel (.copy source name) := by
  rw [perform, Store.perform, Context.copy?, bindings_store]
  cases state.context.get? source with
  | none => rfl
  | some value =>
    show some (Answer.done, _) = some (Answer.done, _)
    rw [store_set]

theorem evaluate_reads (state : State) (fuel : Nat) (interpreter : Interpreter) (program : Expr) :
    (state.perform fuel (.evaluate interpreter program)).map look =
      state.store.perform fuel (.evaluate interpreter program) :=
  (answer_read _).trans (congrArg Plain.answer
    (program.eval_reads interpreter fuel { state with steps := 0 }).symm)

theorem execute_reads (agrees : state.Fits memory) (fuel : Nat) (interpreter : Interpreter)
    (name : String) (args : List Value) (span : Span) :
    (state.perform fuel (.execute interpreter name args span)).map look =
      state.store.perform fuel (.execute interpreter name args span) := by
  rw [perform, Store.perform, bindings_store]
  cases bound : state.context.get? name with
  | none => rfl
  | some value =>
    cases value with
    | function function =>
      obtain ⟨_, _, renewed⟩ := adoptAll_renewed agrees args
      have called := Run.Reads.callFunction interpreter (Expr.eval_reads interpreter fuel) function
        (state.adoptAll args).1 span { (state.adoptAll args).2 with steps := 0 }
      rw [renewed.trees] at called
      exact (answer_read _).trans (congrArg Plain.answer called.symm)
    | number | string | array | void => rfl

theorem adopt_tree (agrees : state.Fits memory) (value : Value) :
    (state.adopt value).1.tree = value.tree := by
  obtain ⟨_, _, renewed⟩ := adopt_renewed agrees value
  exact List.head_eq_of_cons_eq renewed.trees

/-- An append in place binds its name to another value, whose tree has the item appended, and does
nothing else. -/
theorem append_bound (agrees : state.Fits memory) {name : String} {reached : Value}
    (bound : state.context.get? name = some reached) (path : List Nat) (item : Value) :
    ∃ outcome value next, reached.AppendsAs item path outcome value ∧
      state.append name path item =
        (outcome, { state with context := state.context.set name value, nextObject := next }) := by
  have appends := Value.appendsAs_appendHeld state.context.held reached (state.adopt item).1 path
    (state.adopt item).2.nextObject
  unfold Value.AppendsAs at appends ⊢
  rw [adopt_tree agrees] at appends
  exact ⟨_, _, _, appends, append_eq agrees bound path item⟩

theorem append_reads (agrees : state.Fits memory) (fuel : Nat) (name : String) (path : List Nat)
    (item : Value) :
    (state.perform fuel (.append name path item)).map look =
      state.store.perform fuel (.append name path item) := by
  rw [perform, Store.perform, bindings_store]
  cases bound : state.context.get? name with
  | none =>
    rw [append, bound]
    rfl
  | some reached =>
    have before : state.store.bindings name = some reached.tree :=
      congrArg (Option.map Value.tree) bound
    obtain ⟨outcome, value, next, appends, same⟩ := append_bound agrees bound path item
    have after := store_set { state with nextObject := next } name value
    unfold Value.AppendsAs at appends
    rw [same, Option.map_some]
    dsimp only
    -- Either way the name is bound anew, if only to what it was bound to.
    cases expected : reached.tree.appendAt path item.tree with
    | ok tree =>
      rw [expected] at appends
      obtain ⟨rfl, rfl⟩ := appends
      exact congrArg (fun store => some (Answer.done, store)) after
    | error reason =>
      rw [expected] at appends
      obtain ⟨rfl, unchanged⟩ := appends
      rw [unchanged] at after
      exact congrArg (fun store => some (Answer.refused reason, store))
        (after.trans (Store.set_get before))

/-- What an operation does to a state is what it does to the store. -/
theorem perform_reads (agrees : state.Fits memory) (fuel : Nat) (operation : Operation) :
    (state.perform fuel operation).map look = state.store.perform fuel operation := by
  cases operation with
  | set name value =>
    have after := store_set (state.adopt value).2 name (state.adopt value).1
    rw [adopt_tree agrees] at after
    exact congrArg (fun store => some (Answer.done, store)) after
  | copy source name => exact state.copy_reads fuel source name
  | evaluate interpreter program => exact state.evaluate_reads fuel interpreter program
  | execute interpreter name args span => exact execute_reads agrees fuel interpreter name args span
  | append name path item => exact append_reads agrees fuel name path item
  | enter name entry =>
    show some (Answer.done, _) = some (Answer.done, _)
    rw [store_child]
  | leave =>
    obtain ⟨⟨frame, callers⟩, steps, next, journal⟩ := state
    cases callers <;> rfl

/-- However many operations follow one another, what they do to a state is what they do to the
store. -/
theorem performAll_reads (agrees : state.Fits memory) (fuel : Nat) (operations : List Operation) :
    (performAll fuel operations state).map (Prod.map (List.map Answer.read) store) =
      Store.performAll fuel operations state.store := by
  induction operations generalizing state memory with
  | nil => rfl
  | cons operation rest inductionHypothesis =>
    rw [performAll, Store.performAll, ← perform_reads agrees]
    cases performed : state.perform fuel operation with
    | none => rfl
    | some pair =>
      obtain ⟨answer, middle⟩ := pair
      obtain ⟨later, agrees', _⟩ := perform_fits agrees performed
      have following := inductionHypothesis agrees'
      show Option.map _ ((performAll fuel rest middle).bind _) =
        (Store.performAll fuel rest middle.store).bind _
      rw [← following]
      cases performAll fuel rest middle <;> rfl

end State

/-! ### Copies -/

/-- Whether an append in place changes one array at one place and nothing beside it. -/
structure State.AppendsAlone (state : State) (name : String) (path : List Nat) (item : Value) :
    Prop where
  others : ∀ other, other ≠ name →
    (state.append name path item).2.context.get? other = state.context.get? other
  callers : (state.append name path item).2.context.callers = state.context.callers
  /-- The array at the end of the path gets the item, and whatever is neither on the way to it nor
  in it stays as it was. -/
  done : ∀ tree items, state.store.bindings name = some tree →
    tree.at? path = some (.array items) →
      (state.append name path item).1 = .ok () ∧
      ∃ tree', (state.append name path item).2.store.bindings name = some tree' ∧
        tree'.at? path = some (.array (items ++ [item.tree])) ∧
        ∀ other, ¬ other <+: path → ¬ path <+: other → tree'.at? other = tree.at? other
  /-- Where there is no array, nothing happens. -/
  refused : (∀ tree items, state.store.bindings name = some tree →
      tree.at? path ≠ some (.array items)) →
    (state.append name path item).1 ≠ .ok () ∧
      (state.append name path item).2.store = state.store

theorem State.appendsAlone {memory : Memory} {state : State} (agrees : state.Fits memory)
    (name : String) (path : List Nat) (item : Value) : state.AppendsAlone name path item := by
  cases bound : state.context.get? name with
  | none =>
    have unbound : state.store.bindings name = none := congrArg (Option.map Value.tree) bound
    have same : state.append name path item = (.error .unbound, state) := by rw [append, bound]
    refine ⟨fun _ _ => by rw [same], by rw [same], fun tree items known => ?_, fun _ => ?_⟩
    · rw [unbound] at known
      cases known
    · rw [same]
      refine ⟨fun done => ?_, rfl⟩
      cases done
  | some reached =>
    have before : state.store.bindings name = some reached.tree :=
      congrArg (Option.map Value.tree) bound
    obtain ⟨outcome, value, next, appends, same⟩ := append_bound agrees bound path item
    unfold Value.AppendsAs at appends
    refine ⟨fun other different => ?_, by rw [same]; rfl, fun tree items known there => ?_,
      fun nowhere => ?_⟩
    · rw [same]
      exact state.context.get?_set_of_ne different value
    · obtain rfl : reached.tree = tree := Option.some.inj (before.symm.trans known)
      obtain ⟨tree', appended⟩ := Tree.appendAt_eq_ok_of_at? there item.tree
      rw [appended] at appends
      obtain ⟨rfl, rfl⟩ := appends
      obtain ⟨items', there', after⟩ := Tree.at?_appendAt_self appended
      obtain rfl : items = items' := by
        rw [there] at there'
        cases there'
        rfl
      rw [same]
      refine ⟨rfl, value.tree, ?_, after, fun other above below =>
        Tree.at?_appendAt_of_apart appended above below⟩
      exact congrArg (Option.map Value.tree) (state.context.get?_set_self name value)
    · cases expected : reached.tree.appendAt path item.tree with
      | ok tree =>
        obtain ⟨items, there, _⟩ := Tree.at?_appendAt_self expected
        exact absurd there (nowhere _ items before)
      | error reason =>
        rw [expected] at appends
        obtain ⟨rfl, unchanged⟩ := appends
        have after := store_set { state with nextObject := next } name value
        rw [unchanged] at after
        rw [same]
        refine ⟨fun done => ?_, after.trans (Store.set_get before)⟩
        cases done

/-- An operator leaves the context that its operands leave. -/
theorem Expr.context_binary (interpreter : Interpreter) (fuel : Nat) (span : Span)
    (op : BinaryOperator) (left right : Expr) {state after : State}
    (ended : (eval interpreter (fuel + 1) (.binary span op left right) state).after? = some after) :
    ∃ middle, ((eval interpreter fuel left >>= fun _ => eval interpreter fuel right)
        (state.record (.visited state.context (.binary span op left right)))).after? =
          some middle ∧
      after.context = middle.context := by
  rw [after?_eval] at ended
  have made : Run.newObject.KeepsContext := by
    intro state after left
    cases left
    rfl
  exact Run.KeepsContext.of_bind_bind
    (fun left right => .bind made fun object => .ofExcept (op.apply object left right)) ended

/-- Whatever a host does, what it is told and what is bound afterwards are the same, read as trees,
as in a store where nothing is shared. In every state that it can bring about, an append in place
changes one array at one place of one binding and nothing else, and the append operator changes no
binding beyond what its operands do. -/
theorem copies_are_independent (fuel : Nat) (root : String) (operations : List Operation) :
    (State.performAll fuel operations (.initial (.root root))).map
        (Prod.map (List.map Answer.read) State.store) =
      Store.performAll fuel operations .initial ∧
    ∀ answers state,
      State.performAll fuel operations (.initial (.root root)) = some (answers, state) →
        (∀ name path item, state.AppendsAlone name path item) ∧
        ∀ interpreter fuel span left right after,
          let node : Expr := .binary span .append left right
          (Expr.eval interpreter (fuel + 1) node state).after? = some after →
            ∃ middle, ((Expr.eval interpreter fuel left >>= fun _ =>
                Expr.eval interpreter fuel right)
                  (state.record (.visited state.context node))).after? = some middle ∧
              after.context = middle.context := by
  refine ⟨?_, fun answers state performed => ⟨fun name path item => ?_, ?_⟩⟩
  · rw [← State.store_initial root]
    exact State.performAll_reads (State.initial_fits root) fuel operations
  · obtain ⟨memory, agrees⟩ := State.performAll_fits (State.initial_fits root) performed
    exact State.appendsAlone agrees name path item
  · intro interpreter fuel span left right after node ended
    exact Expr.context_binary interpreter fuel span .append left right ended

/-- Two items of an array are the object that another name is bound to, and an append to the first
of them is an append to that one alone. -/
theorem shared_item_appended_alone :
    let elements : Expr := .array ⟨4, 10⟩ [.lookup ⟨5, 6⟩ "a", .lookup ⟨8, 9⟩ "a"]
    let operations : List Operation := [.set "a" (.ofItems 0 [.int 1]),
      .evaluate (.ofLimits .standard) (.assign ⟨0, 10⟩ "x" elements)]
    ∃ answers state,
      State.performAll 3 operations (.initial (.root "main")) = some (answers, state) ∧
      ∃ tree, (state.append "x" [0] (.int 2)).2.store.bindings "x" = some tree ∧
        tree.at? [0] = some (.array [.number (.int 1), .number (.int 2)]) ∧
        tree.at? [1] = some (.array [.number (.int 1)]) ∧
        (state.append "x" [0] (.int 2)).2.context.get? "a" = state.context.get? "a" := by
  intro elements operations
  have independent := copies_are_independent 3 "main" operations
  refine ⟨_, _, rfl, ?_⟩
  have alone := (independent.2 _ _ rfl).1 "x" [0] (.int 2)
  obtain ⟨_, tree, bound, there, beside⟩ :=
    alone.done (.array [.array [.number (.int 1)], .array [.number (.int 1)]])
      [.number (.int 1)] rfl rfl
  exact ⟨tree, bound, there, beside [1] (by decide) (by decide), alone.others "a" (by decide)⟩

end Treewalk
