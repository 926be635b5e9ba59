/-
What a host can do, and what is true of every state that it can bring about.

A host has one context at a time, in which it binds names, copies bindings, evaluates programs,
calls functions and appends to arrays in place, and from which it can go to a new frame and back.
However it does these things one after the other, all handles to one object show the same items
(`State.performAll_fits`), also those in the value that it was told last.
-/
import Treewalk.Proofs.InPlace

namespace Treewalk

/-- Something that a host does with a context. Values that it hands over come from outside, also
those that it was told before: it can bind two names to one object by `copy` alone. -/
inductive Operation
  | set (name : String) (value : Value)
  | copy (source name : String)
  | evaluate (interpreter : Interpreter) (program : Expr)
  | execute (interpreter : Interpreter) (name : String) (args : List Value) (span : Span)
  | append (name : String) (path : List Nat) (item : Value)
  | enter (name : String) (entry : Span)
  | leave

/-- What a host is told. -/
inductive Answer (Image : Type)
  | done
  | refused (reason : Refusal)
  | noFunction
  | value (image : Image)
  | failed (failure : Failure)

/-- Whether the value that a host is told, if it is told one, agrees with a memory. -/
def Answer.Fits (memory : Memory) (answer : Answer Value) : Prop :=
  ∀ result, answer = .value result → result.Fits memory

/-- The answer to an evaluation, if it came to its end. -/
def Outcome.answer : Outcome Value → Option (Answer Value × State)
  | value result after => some (.value result, after)
  | failure reason after => some (.failed reason, after)
  | unfinished => none

namespace State

/-- Does what a host asks for, with some fuel for evaluations. -/
def perform (fuel : Nat) (state : State) : Operation → Option (Answer Value × State)
  | .set name value => some (.done, state.set name value)
  | .copy source name =>
    match state.context.copy? source name with
    | none => some (.refused .unbound, state)
    | some context => some (.done, { state with context })
  | .evaluate interpreter program => (interpreter.evaluate fuel program state).answer
  | .execute interpreter name args span =>
    match (state.context.get? name).bind Value.function? with
    | none => some (.noFunction, state)
    | some function =>
      let (args, state) := state.adoptAll args
      (interpreter.execute fuel function args span state).answer
  | .append name path item =>
    match state.append name path item with
    | (.ok (), state) => some (.done, state)
    | (.error reason, state) => some (.refused reason, state)
  | .enter name entry => some (.done, { state with context := state.context.child name entry })
  | .leave => some (.done, { state with context := state.context.parent?.getD state.context })

/-- Does one thing after the other. -/
def performAll (fuel : Nat) : List Operation → State → Option (List (Answer Value) × State)
  | [], state => some ([], state)
  | operation :: rest, state => do
    let (answer, state) ← state.perform fuel operation
    let (answers, state) ← performAll fuel rest state
    some (answer :: answers, state)

variable {memory : Memory} {state : State}

theorem answer_fits {outcome : Outcome Value} (fits : outcome.Fits memory Value.Fits)
    {answer : Answer Value} {after : State} (answered : outcome.answer = some (answer, after)) :
    ∃ later, after.Fits later ∧ answer.Fits later := by
  cases outcome with
  | value result last =>
    obtain ⟨later, _, agrees, fitsResult⟩ := fits
    cases answered
    exact ⟨later, agrees, fun _ told => Answer.value.inj told ▸ fitsResult⟩
  | failure reason last =>
    obtain ⟨later, _, agrees⟩ := fits
    cases answered
    exact ⟨later, agrees, fun _ told => nomatch told⟩
  | unfinished => cases answered

/-- Whatever a host does, the values that are bound agree with a memory afterwards if they did
before, and so does the value that the host is told. -/
theorem perform_fits (agrees : state.Fits memory) {fuel : Nat} {operation : Operation}
    {answer : Answer Value} {after : State}
    (performed : state.perform fuel operation = some (answer, after)) :
    ∃ later, after.Fits later ∧ answer.Fits later := by
  cases operation with
  | set name value =>
    cases performed
    obtain ⟨later, agrees', renewed⟩ := adopt_renewed agrees value
    exact ⟨later, agrees'.set (renewed.fit _ (List.mem_singleton_self _)),
      fun _ told => nomatch told⟩
  | copy source name =>
    rw [perform, Context.copy?] at performed
    cases bound : state.context.get? source with
    | none =>
      rw [bound] at performed
      cases performed
      exact ⟨memory, agrees, fun _ told => nomatch told⟩
    | some value =>
      rw [bound] at performed
      cases performed
      exact ⟨memory, agrees.set (agrees.values value (Context.mem_values_of_get? bound)),
        fun _ told => nomatch told⟩
  | evaluate interpreter program =>
    have agrees' : State.Fits memory { state with steps := 0 } := ⟨agrees.size, agrees.values⟩
    exact answer_fits (program.eval_preserves interpreter fuel memory _ agrees') performed
  | execute interpreter name args span =>
    rw [perform] at performed
    cases known : (state.context.get? name).bind Value.function? with
    | none =>
      rw [known] at performed
      cases performed
      exact ⟨memory, agrees, fun _ told => nomatch told⟩
    | some function =>
      rw [known] at performed
      obtain ⟨later, agrees', renewed⟩ := adoptAll_renewed agrees args
      have started : State.Fits later { (state.adoptAll args).2 with steps := 0 } :=
        ⟨agrees'.size, agrees'.values⟩
      exact answer_fits (Run.Preserves.callFunction
        (fun memory node => node.eval_preserves interpreter fuel memory) interpreter function
        renewed.fit span _ started) performed
  | append name path item =>
    obtain ⟨later, agrees'⟩ := append_fits agrees name path item
    rw [perform] at performed
    generalize state.append name path item = appended at performed agrees'
    obtain ⟨_ | _, last⟩ := appended <;> cases performed <;>
      exact ⟨later, agrees', fun _ told => nomatch told⟩
  | enter name entry =>
    cases performed
    exact ⟨memory, ⟨agrees.size, agrees.values⟩, fun _ told => nomatch told⟩
  | leave =>
    cases performed
    refine ⟨memory, ⟨agrees.size, fun value member => agrees.values value ?_⟩,
      fun _ told => nomatch told⟩
    obtain ⟨⟨frame, callers⟩, steps, next, journal⟩ := state
    cases callers with
    | nil => exact member
    | cons caller callers => exact List.mem_append_right _ member

/-- In every state that a host can bring about, all handles to one object show the same items, and
those in the last answer do, too. -/
theorem performAll_last_fits (agrees : state.Fits memory) {fuel : Nat}
    {operations : List Operation} {answers : List (Answer Value)} {after : State}
    (performed : performAll fuel operations state = some (answers, after)) :
    ∃ later, after.Fits later ∧ ∀ answer, answers.getLast? = some answer → answer.Fits later := by
  induction operations generalizing state memory answers with
  | nil =>
    cases performed
    exact ⟨memory, agrees, fun _ last => nomatch last⟩
  | cons operation rest inductionHypothesis =>
    obtain ⟨⟨answer, middle⟩, first, performed⟩ := Option.bind_eq_some_iff.mp performed
    obtain ⟨⟨answers', last⟩, second, performed⟩ := Option.bind_eq_some_iff.mp performed
    cases performed
    obtain ⟨between, agrees', told⟩ := perform_fits agrees first
    obtain ⟨later, agreesLast, toldLast⟩ := inductionHypothesis agrees' second
    cases answers' with
    | nil =>
      -- The answer is the last one only if there is nothing else to do.
      cases rest with
      | nil =>
        cases second
        exact ⟨between, agrees', fun _ last => Option.some.inj last ▸ told⟩
      | cons operation' rest =>
        obtain ⟨_, _, second⟩ := Option.bind_eq_some_iff.mp second
        obtain ⟨_, _, second⟩ := Option.bind_eq_some_iff.mp second
        cases second
    | cons answer' answers => exact ⟨later, agreesLast, toldLast⟩

/-- In every state that a host can bring about, all handles to one object show the same items. -/
theorem performAll_fits (agrees : state.Fits memory) {fuel : Nat} {operations : List Operation}
    {answers : List (Answer Value)} {after : State}
    (performed : performAll fuel operations state = some (answers, after)) :
    ∃ later, after.Fits later := by
  obtain ⟨later, agrees', _⟩ := performAll_last_fits agrees performed
  exact ⟨later, agrees'⟩

theorem initial_fits (name : String) : (State.initial (.root name)).Fits ⟨fun _ => [], 0⟩ :=
  ⟨rfl, Memory.fit_nil _⟩

end State

end Treewalk
