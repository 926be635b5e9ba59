/-
Array objects hold something: in every state that is reached, all handles to one object show the
same items.

A handle brings its items along, so nothing in its type keeps two handles to one object from
telling different stories. What keeps them together is an invariant: there is a memory, which says
once and for all what every object holds, and every value that is bound anywhere agrees with it
(`State.Fits`). An evaluation makes objects and writes to none, so the memory afterwards only adds
to the memory before (`Expr.eval_preserves`), and the values at hand go on to agree with it. This is
said of one run, by a simulation that looks at its first side only and has memories for its worlds.
-/
import Treewalk.Proofs.Simulation
import Treewalk.Proofs.Tree

namespace Treewalk

variable {Result Other : Type}

/-! ### Memories -/

/-- What the array objects below `size` hold. -/
structure Memory where
  latest : Nat → List Value
  size : Nat

namespace Memory

/-- Whether a memory keeps everything that another one has. -/
structure Within (memory later : Memory) : Prop where
  size : memory.size ≤ later.size
  latest : ∀ object < memory.size, later.latest object = memory.latest object

theorem Within.refl (memory : Memory) : memory.Within memory :=
  ⟨Nat.le_refl _, fun _ _ => rfl⟩

theorem Within.trans {memory later last : Memory} (first : memory.Within later)
    (second : later.Within last) : memory.Within last where
  size := Nat.le_trans first.size second.size
  latest object known := by
    have known' : object < later.size := Nat.lt_of_lt_of_le known first.size
    rw [second.latest object known', first.latest object known]

/-- A memory with one more object. -/
def add (memory : Memory) (latest : List Value) : Memory where
  latest object := if object = memory.size then latest else memory.latest object
  size := memory.size + 1

theorem within_add (memory : Memory) (latest : List Value) :
    memory.Within (memory.add latest) where
  size := Nat.le_succ _
  latest _ known := if_neg (Nat.ne_of_lt known)

end Memory

/-- Whether all handles in a value show what a memory says that their objects hold. -/
inductive Value.Fits (memory : Memory) : Value → Prop
  | number (value : Number) : Fits memory (.number value)
  | string (value : String) : Fits memory (.string value)
  | array {object : Nat} {latest : List Value} (known : object < memory.size)
    (holds : memory.latest object = latest) (items : ∀ item ∈ latest, Fits memory item) :
    Fits memory (.array object latest)
  | function (value : Function) : Fits memory (.function value)
  | void : Fits memory .void

/-- Whether all handles in some values show what a memory says that their objects hold. -/
def Memory.Fit (memory : Memory) (values : List Value) : Prop := ∀ value ∈ values, value.Fits memory

theorem Value.Fits.mono {memory later : Memory} {value : Value} (fits : value.Fits memory)
    (within : memory.Within later) : value.Fits later := by
  induction fits with
  | number value => exact .number value
  | string value => exact .string value
  | @array object latest known holds _ inductionHypothesis =>
    have known' : object < later.size := Nat.lt_of_lt_of_le known within.size
    have holds' : later.latest object = latest := (within.latest object known).trans holds
    exact .array known' holds' inductionHypothesis
  | function value => exact .function value
  | void => exact .void

theorem Memory.Fit.mono {memory later : Memory} {values : List Value} (fit : memory.Fit values)
    (within : memory.Within later) : later.Fit values :=
  fun value member => (fit value member).mono within

theorem Memory.fit_nil (memory : Memory) : memory.Fit [] :=
  fun _ member => absurd member List.not_mem_nil

theorem Memory.Fit.cons {memory : Memory} {value : Value} {values : List Value}
    (fits : value.Fits memory) (fit : memory.Fit values) : memory.Fit (value :: values) := by
  intro other member
  rcases List.mem_cons.mp member with rfl | behind
  · exact fits
  · exact fit other behind

theorem Memory.Fit.reverse {memory : Memory} {values : List Value} (fit : memory.Fit values) :
    memory.Fit values.reverse := fun value member => fit value (List.mem_reverse.mp member)

/-- A new object fits when what it holds does. -/
theorem Memory.Fit.add {memory : Memory} {latest : List Value} (fit : memory.Fit latest) :
    (Value.array memory.size latest).Fits (memory.add latest) :=
  .array (Nat.lt_succ_self _) (if_pos rfl) (fit.mono (memory.within_add latest))

/-! ### States that agree with a memory -/

/-- Whether every value that is bound in a state agrees with a memory of all objects there are. -/
structure State.Fits (memory : Memory) (state : State) : Prop where
  size : state.nextObject = memory.size
  values : memory.Fit state.context.values

theorem Scope.mem_bindings_of_get? {scope : Scope} {name : String} {value : Value}
    (bound : scope.get? name = some value) : (name, value) ∈ scope.bindings := by
  obtain ⟨bindings, distinct⟩ := scope
  change find name bindings = some value at bound
  show (name, value) ∈ bindings
  clear distinct
  induction bindings with
  | nil => cases bound
  | cons head rest inductionHypothesis =>
    obtain ⟨other, old⟩ := head
    by_cases same : other = name
    · rw [find, if_pos same] at bound
      cases bound
      subst same
      exact List.mem_cons_self
    · rw [find, if_neg same] at bound
      exact List.mem_cons_of_mem _ (inductionHypothesis bound)

theorem Scope.mem_values_of_get? {scope : Scope} {name : String} {value : Value}
    (bound : scope.get? name = some value) : value ∈ scope.values :=
  List.mem_map.mpr ⟨(name, value), mem_bindings_of_get? bound, rfl⟩

theorem Scope.mem_values_set {scope : Scope} {name : String} {value other : Value}
    (member : other ∈ (scope.set name value).values) : other = value ∨ other ∈ scope.values := by
  obtain ⟨bindings, distinct⟩ := scope
  change other ∈ (rebind name value bindings).map Prod.snd at member
  show other = value ∨ other ∈ bindings.map Prod.snd
  clear distinct
  induction bindings with
  | nil => exact .inl (List.mem_singleton.mp member)
  | cons head rest inductionHypothesis =>
    obtain ⟨first, old⟩ := head
    by_cases same : first = name
    · rw [rebind, if_pos same] at member
      exact (List.mem_cons.mp member).imp_right (List.mem_cons_of_mem _)
    · rw [rebind, if_neg same] at member
      rcases List.mem_cons.mp member with here | later
      · exact .inr (List.mem_cons.mpr (.inl here))
      · exact (inductionHypothesis later).imp_right (List.mem_cons_of_mem _)

namespace Context

theorem mem_values_of_get? {context : Context} {name : String} {value : Value}
    (bound : context.get? name = some value) : value ∈ context.values :=
  List.mem_append_left _ (Scope.mem_values_of_get? bound)

theorem mem_values_set {context : Context} {name : String} {value other : Value}
    (member : other ∈ (context.set name value).values) :
    other = value ∨ other ∈ context.values := by
  rcases List.mem_append.mp member with here | below
  · exact (Scope.mem_values_set here).imp_right (List.mem_append_left _)
  · exact .inr (List.mem_append_right _ below)

end Context

theorem State.Fits.set {memory : Memory} {state : State} (fits : state.Fits memory) {name : String}
    {value : Value} (fitsValue : value.Fits memory) :
    State.Fits memory { state with context := state.context.set name value } where
  size := fits.size
  values other member := by
    rcases Context.mem_values_set member with rfl | old
    · exact fitsValue
    · exact fits.values other old

/-! ### Runs that agree with the memory before and after -/

/-- Whether a run came to an end that agrees with a memory that adds to a given one. -/
def Outcome.Fits (memory : Memory) (fits : Memory → Result → Prop) : Outcome Result → Prop
  | value result after => ∃ later, memory.Within later ∧ after.Fits later ∧ fits later result
  | failure _ after => ∃ later, memory.Within later ∧ after.Fits later
  | unfinished => True

/-- Whether a run ends in agreement with more memory wherever it starts in agreement with some. -/
def Run.Preserves (memory : Memory) (fits : Memory → Result → Prop) (run : Run Result) : Prop :=
  ∀ state, state.Fits memory → (run state).Fits memory fits

namespace Run.Preserves

variable {memory : Memory} {fits : Memory → Result → Prop} {fitsOther : Memory → Other → Prop}

theorem weaken {fits' : Memory → Result → Prop} {run : Run Result}
    (preserves : Preserves memory fits run)
    (weaker : ∀ later result, fits later result → fits' later result) :
    Preserves memory fits' run := by
  intro state agrees
  have ended := preserves state agrees
  generalize run state = ending at ended
  cases ending with
  | value result after =>
    obtain ⟨later, within, agrees', fit⟩ := ended
    exact ⟨later, within, agrees', weaker later result fit⟩
  | failure failure after => exact ended
  | unfinished => trivial

theorem pure {result : Result} (fit : fits memory result) :
    Preserves memory fits (Pure.pure result) :=
  fun _ agrees => ⟨memory, .refl memory, agrees, fit⟩

theorem raise (fault : Fault) : Preserves memory fits (Run.raise fault : Run Result) :=
  fun _ agrees => ⟨memory, .refl memory, agrees.size, agrees.values⟩

theorem unfinished : Preserves memory fits (Run.unfinished : Run Result) := fun _ _ => trivial

theorem record (event : Event) : Preserves memory (fun _ _ => True) (Run.record event) :=
  fun _ agrees => ⟨memory, .refl memory, ⟨agrees.size, agrees.values⟩, trivial⟩

theorem bind {first : Run Result} {next : Result → Run Other}
    (start : Preserves memory fits first)
    (rest : ∀ later result, memory.Within later → fits later result →
      Preserves later fitsOther (next result)) :
    Preserves memory fitsOther (first >>= next) := by
  intro state agrees
  have ended := start state agrees
  rw [bind_apply]
  cases ending : first state with
  | value result after =>
    rw [ending] at ended
    obtain ⟨later, within, agrees', fit⟩ := ended
    have ended' := rest later result within fit after agrees'
    dsimp only
    generalize next result after = last at ended'
    cases last with
    | value result' after' =>
      obtain ⟨last, within', fit'⟩ := ended'
      exact ⟨last, within.trans within', fit'⟩
    | failure failure after' =>
      obtain ⟨last, within', agrees''⟩ := ended'
      exact ⟨last, within.trans within', agrees''⟩
    | unfinished => trivial
  | failure failure after =>
    rw [ending] at ended
    exact ended
  | unfinished => trivial

theorem wrapped {inner : Run Result} {start : State → State} {mark : State → Failure → Failure}
    {finish : State → State → State} (inside : Preserves memory fits inner)
    (started : ∀ state, state.Fits memory → (start state).Fits memory)
    (finished : ∀ state last later, state.Fits memory → memory.Within later → last.Fits later →
      (finish state last).Fits later) :
    Preserves memory fits (Run.wrapped start mark finish inner) := by
  intro state agrees
  have ended := inside (start state) (started state agrees)
  rw [wrapped_apply]
  generalize inner (start state) = ending at ended
  cases ending with
  | value result last =>
    obtain ⟨later, within, agrees', fit⟩ := ended
    exact ⟨later, within, finished state last later agrees within agrees', fit⟩
  | failure failure last =>
    obtain ⟨later, within, agrees'⟩ := ended
    exact ⟨later, within, finished state last later agrees within agrees'⟩
  | unfinished => trivial

theorem ofExcept {result : Except Fault Result}
    (fit : ∀ value, result = .ok value → fits memory value) :
    Preserves memory fits (Run.ofExcept result) := by
  cases result with
  | ok value => exact pure (fit value rfl)
  | error fault => exact raise fault

theorem lookup (name : String) : Preserves memory Value.Fits (Run.lookup name) := by
  intro state agrees
  rw [Run.lookup_apply]
  cases bound : state.context.get? name with
  | none => exact raise _ state agrees
  | some value =>
    exact pure (agrees.values value (Context.mem_values_of_get? bound)) state agrees

theorem assign (name : String) {value : Value} (fit : value.Fits memory) :
    Preserves memory (fun _ _ => True) (Run.assign name value) := by
  intro state agrees
  have agrees' : State.Fits memory { state with context := state.context.set name value } :=
    agrees.set fit
  exact ⟨memory, .refl memory, ⟨agrees'.size, agrees'.values⟩, trivial⟩

theorem checkpoint (interpreter : Interpreter) :
    Preserves memory (fun _ _ => True) interpreter.checkpoint := by
  intro state agrees
  have counted : state.counted.Fits memory := ⟨agrees.size, agrees.values⟩
  have passed : Outcome.Fits memory (fun _ _ => True) (.value () state.counted) :=
    ⟨memory, .refl memory, counted, trivial⟩
  rw [Interpreter.checkpoint_apply]
  split
  · exact raise _ _ ⟨agrees.size, agrees.values⟩
  · cases interpreter.limits.budget with
    | none => exact passed
    | some budget =>
      dsimp only
      split
      · exact raise _ _ ⟨counted.size, counted.values⟩
      · exact passed

theorem descend (interpreter : Interpreter) {inner : Run Result}
    (inside : Preserves memory fits inner) :
    Preserves memory fits (interpreter.descend inner) := by
  intro state agrees
  rw [Interpreter.descend_apply]
  split
  · exact raise _ state agrees
  · exact inside state agrees

theorem stamped (span : Span) {inner : Run Result} (inside : Preserves memory fits inner) :
    Preserves memory fits (Run.stamped span inner) := by
  rw [stamped_eq]
  exact inside.wrapped (fun _ agrees => agrees) fun _ _ _ _ _ agrees => agrees

theorem between (before after : Event) {inner : Run Result}
    (inside : Preserves memory fits inner) :
    Preserves memory fits (Run.between before after inner) := by
  rw [between_eq]
  exact inside.wrapped (fun _ agrees => ⟨agrees.size, agrees.values⟩)
    fun _ _ _ _ _ agrees => ⟨agrees.size, agrees.values⟩

/-- A new frame binds nothing, and the frame that is there again afterwards was in agreement with
the memory before. -/
theorem inFrame (name : String) (entry : Span) {inner : Run Result}
    (inside : Preserves memory fits inner) :
    Preserves memory fits (Run.inFrame name entry inner) := by
  rw [inFrame_eq]
  refine inside.wrapped (fun state agrees => ⟨agrees.size, fun value member => ?_⟩)
    fun state last later agrees within agrees' => ⟨agrees'.size, agrees.values.mono within⟩
  exact agrees.values value member

theorem newArray {items : List Value} (fit : memory.Fit items) :
    Preserves memory Value.Fits (Run.newArray items) := by
  intro state agrees
  have within := memory.within_add items.reverse
  refine ⟨memory.add items.reverse, within, ⟨?_, agrees.values.mono within⟩, ?_⟩
  · exact congrArg (· + 1) agrees.size
  · rw [agrees.size]
    exact fit.reverse.add

end Run.Preserves

/-! ### Nodes -/

/-- What an operator gives holds the operands' items or is no array. -/
theorem BinaryOperator.apply_fits {op : BinaryOperator} {memory : Memory} {left right value : Value}
    (fitsLeft : left.Fits memory) (fitsRight : right.Fits memory)
    (applied : op.apply memory.size left right = .ok value) :
    ∃ latest, value.Fits (memory.add latest) := by
  cases fitsLeft with
  | @array object latest known holds items =>
    cases op with
    | append =>
      cases applied
      exact ⟨right :: latest, Memory.Fit.add (.cons fitsRight items)⟩
    | _ => cases applied
  | number left =>
    cases right with
    | number right =>
      change (Number.apply op left right).map .number = .ok value at applied
      cases known : Number.apply op left right with
      | error fault =>
        rw [known] at applied
        cases applied
      | ok number =>
        rw [known] at applied
        cases applied
        exact ⟨[], .number number⟩
    | string | array | function | void => cases applied
  | string left =>
    cases right with
    | string right =>
      cases op <;> cases applied
      · exact ⟨[], .string _⟩
      · exact ⟨[], .number _⟩
      · exact ⟨[], .number _⟩
    | number | array | function | void => cases applied
  | function | void => cases right <;> cases applied

theorem UnaryOperator.apply_fits {op : UnaryOperator} (memory : Memory) {operand value : Value}
    (applied : op.apply operand = .ok value) : value.Fits memory := by
  cases op with
  | negate =>
    cases operand with
    | number operand =>
      change operand.negate.map .number = .ok value at applied
      cases known : operand.negate with
      | error fault =>
        rw [known] at applied
        cases applied
      | ok number =>
        rw [known] at applied
        cases applied
        exact .number number
    | string | array | function | void => cases applied
  | not =>
    cases operand with
    | number operand =>
      cases applied
      exact .number _
    | string | array | function | void => cases applied

namespace Run.Preserves

variable {memory : Memory}

theorem applyBinary (op : BinaryOperator) {left right : Value} (fitsLeft : left.Fits memory)
    (fitsRight : right.Fits memory) :
    Preserves memory Value.Fits
      (Run.newObject >>= fun object => Run.ofExcept (op.apply object left right)) := by
  intro state agrees
  have next : ∀ latest, State.Fits (memory.add latest)
      { state with nextObject := memory.size + 1 } := fun latest =>
    ⟨rfl, agrees.values.mono (memory.within_add latest)⟩
  show (Run.ofExcept (op.apply state.nextObject left right) _).Fits memory Value.Fits
  rw [agrees.size]
  cases applied : op.apply memory.size left right with
  | error fault =>
    have agrees' := next []
    exact ⟨memory.add [], memory.within_add [], agrees'.size, agrees'.values⟩
  | ok value =>
    obtain ⟨latest, fit⟩ := BinaryOperator.apply_fits fitsLeft fitsRight applied
    exact ⟨memory.add latest, memory.within_add latest, next latest, fit⟩

/-- Whether two values are one, which fits. -/
def FitsAlike (memory : Memory) (value value' : Value) : Prop :=
  value = value' ∧ value.Fits memory

theorem fit_of_fitsAlike {values values' : List Value}
    (alike : List.Forall₂ (FitsAlike memory) values values') : memory.Fit values := by
  induction alike with
  | nil => exact memory.fit_nil
  | cons first _ inductionHypothesis => exact .cons first.2 inductionHypothesis

theorem fitsAlike_of_fit {values : List Value} (fit : memory.Fit values) :
    List.Forall₂ (FitsAlike memory) values values :=
  List.forall₂_same.mpr fun value member => ⟨rfl, fit value member⟩

/-- What is said of one run is said of it as the first of two. -/
theorem fitsAlike {run : Run Value} (preserves : Preserves memory Value.Fits run) :
    Preserves memory (fun later value => ∃ value', FitsAlike later value value') run :=
  preserves.weaken fun _ value fits => ⟨value, rfl, fits⟩

/-- The simulation that looks at one run only, and at the memory that it adds to. -/
def simulation : Simulation where
  World := Memory
  Later := Memory.Within
  related memory meets run _ :=
    Preserves memory (fun later result => ∃ result', meets later result result') run
  same := FitsAlike
  places _ _ := True
  done met := pure ⟨_, met⟩
  next start rest := start.bind fun later result within ⟨result', met⟩ =>
    rest later within result result' met
  raise fault _ := raise fault
  keep same within := ⟨same.1, same.2.mono within⟩
  number value := ⟨rfl, .number value⟩
  string value := ⟨rfl, .string value⟩
  void := ⟨rfl, .void⟩
  isTruthy_eq same := congrArg Value.isTruthy same.1
  typeName_eq same := congrArg Value.typeName same.1
  newArray alike := fitsAlike (newArray (fit_of_fitsAlike alike))
  binary op _ _ _ _ left right := fitsAlike (applyBinary op left.2 right.2)
  unary _ _ _ _ := fitsAlike (ofExcept fun _ applied => UnaryOperator.apply_fits _ applied)
  range_eq start stop step := by
    rw [start.1, stop.1]
    cases step with
    | none => rfl
    | some step => rw [step.1]

theorem anything {run : Run Unit} (preserves : Preserves memory (fun _ _ => True) run) :
    Preserves memory (fun _ _ => ∃ _ : Unit, True) run :=
  preserves.weaken fun _ _ _ => ⟨(), trivial⟩

theorem binds (name : String) : simulation.Binds name :=
  fun _ _ _ same => anything (assign name same.2)

variable {evaluate : Expr → Run Value}
  (nodes : ∀ memory node, Preserves memory Value.Fits (evaluate node))

include nodes

theorem callFunction (interpreter : Interpreter) (function : Function) {args : List Value}
    (fit : memory.Fit args) (span : Span) :
    Preserves memory Value.Fits (interpreter.callFunction evaluate function args span) := by
  rw [Interpreter.callFunction_eq]
  refine between _ _ (bind (checkpoint interpreter) fun later _ within _ =>
    descend interpreter ?_)
  unfold Interpreter.enterBody
  split
  · exact raise _
  · have bound := simulation.assignAll later binds function.params
      (fitsAlike_of_fit (fit.mono within))
    exact inFrame _ _ (bind bound fun _ _ _ _ => nodes _ _)

theorem evaluateNode (interpreter : Interpreter) (rounds : Nat) (node : Expr) :
    Preserves memory Value.Fits (Expr.evaluateNode interpreter rounds evaluate node) := by
  have alike : simulation.Corresponds evaluate evaluate node node :=
    .refl (fun child _ memory => fitsAlike (nodes memory child)) (fun _ _ => ⟨rfl, .function _⟩)
      (fun name _ _ => fitsAlike (lookup name)) (fun name _ => binds name) fun _ => trivial
  have loops : simulation.Loops interpreter interpreter rounds rounds evaluate evaluate :=
    Simulation.loops (fun _ => anything (checkpoint interpreter))
      (fun _ event => anything (record event)) (fun _ _ => unfinished) rounds
  have calls : simulation.Calls interpreter interpreter evaluate evaluate :=
    fun _ _ given => fitsAlike (callFunction nodes interpreter _ (fit_of_fitsAlike given) _)
  have ends : Preserves memory (fun later value => ∃ value', FitsAlike later value value')
      (Expr.evaluateNode interpreter rounds evaluate node) :=
    Simulation.evaluateNode alike loops (fun _ => calls) memory
  exact ends.weaken fun _ _ ⟨_, _, fits⟩ => fits

end Run.Preserves

/-- An evaluation that starts in agreement with a memory ends in agreement with one that adds to
it, and so does its value. -/
theorem Expr.eval_preserves (interpreter : Interpreter) (fuel : Nat) (memory : Memory)
    (node : Expr) : Run.Preserves memory Value.Fits (eval interpreter fuel node) := by
  induction fuel generalizing memory node with
  | zero => exact .unfinished
  | succ fuel inductionHypothesis =>
    rw [eval_succ, visit_eq]
    have entered : Run.Preserves memory (fun _ _ => True) (Run.enter node) :=
      fun _ agrees => ⟨memory, .refl memory, ⟨agrees.size, agrees.values⟩, trivial⟩
    exact .stamped _ (entered.bind fun _ _ _ _ =>
      .evaluateNode inductionHypothesis interpreter fuel node)

end Treewalk
