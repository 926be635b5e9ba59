/-
This file proves that the limit of depth alone makes tame programs return.

A program is tame when its only loops, those in function bodies included, run through integers that
are written down and have a step other than zero. Such a loop has an end of its own, so that calls
are all that could go on forever, and a body is entered in a frame that is one deeper than that of
the call. The measure is the depth that is left, and then the tree that is evaluated; inside a loop
it is the distance to the end of the range.

A program can only call functions that it has defined or was given, but it can pass them around and
put them into arrays. So that all bodies that are ever entered are tame is a property of values that
has to be kept along the way.
-/
import Treewalk.Proofs.Isolation
import Treewalk.Proofs.Termination

namespace Treewalk

/-! ### Tame programs -/

namespace Expr

/-- The integer, if the node is one that is written down. -/
def integer? : Expr → Option Int64
  | number _ (.int word) => some word
  | _ => none

/-- Whether a node, apart from what it holds, is no loop or a loop over integers that are written
down. -/
def loopsTamely : Expr → Bool
  | whileLoop .. => false
  | forLoop _ _ start stop step _ =>
    start.integer?.isSome && stop.integer?.isSome &&
      step.all fun node => node.integer?.any (· != 0)
  | _ => true

/-- The nodes that stand in a node: its children, or the body that it defines. -/
def parts : Expr → List Expr
  | define _ _ _ _ body => [body]
  | node => node.children

/-- The nodes in a node, however deep, itself and those in function bodies included. -/
inductive Inside : Expr → Expr → Prop
  | self (node : Expr) : Inside node node
  | part {inner part node : Expr} (member : part ∈ node.parts) (inside : Inside inner part) :
    Inside inner node

/-- Whether all loops in a program, those in function bodies included, are tame. -/
def Tame (program : Expr) : Prop := ∀ node : Expr, node.Inside program → node.loopsTamely = true

/-- A program is tame when it is no wild loop itself and its parts are tame. -/
theorem tame_iff {node : Expr} :
    node.Tame ↔ node.loopsTamely = true ∧ ∀ part ∈ node.parts, part.Tame := by
  constructor
  · intro tame
    exact ⟨tame node (.self node), fun part member inner inside => tame inner (.part member inside)⟩
  · rintro ⟨own, parts⟩ inner inside
    cases inside with
    | self => exact own
    | part member inside => exact parts _ member inner inside

theorem parts_of_mem_children {node child : Expr} (member : child ∈ node.children) :
    child ∈ node.parts := by
  cases node with
  | define => cases member
  | _ => exact member

end Expr

/-- Whether all functions that can be got from a value, also out of arrays, have tame bodies. -/
inductive Value.Tame : Value → Prop
  | number (value : Number) : Tame (.number value)
  | string (value : String) : Tame (.string value)
  | array {object : Nat} {latest : List Value} (items : ∀ item ∈ latest, Tame item) :
    Tame (.array object latest)
  | function {function : Function} (body : function.body.Tame) : Tame (.function function)
  | void : Tame .void

/-- Whether the values that are bound in the current frame are tame, and at most `spare` more frames
fit above it. -/
structure State.TameWithin (maxDepth spare : Nat) (state : State) : Prop where
  values : ∀ name value, state.context.get? name = some value → value.Tame
  depth : maxDepth ≤ state.context.depth + spare

theorem State.TameWithin.steady (maxDepth spare : Nat) :
    Steady Value.Tame (State.TameWithin maxDepth spare) where
  number := .number
  string := .string
  void := .void
  array object latest := ⟨fun tame => by cases tame; assumption, .array⟩
  record _ ready := ⟨ready.values, ready.depth⟩
  newObject ready := ⟨ready.values, ready.depth⟩
  set {state} name value tame ready := by
    refine ⟨fun other found bound => ?_, ready.depth⟩
    by_cases same : other = name
    · subst same
      rw [Context.get?_set_self] at bound
      cases bound
      exact tame
    · rw [Context.get?_set_of_ne state.context same] at bound
      exact ready.values other found bound
  get ready bound := ready.values _ _ bound

/-! ### Ranges of integers -/

namespace Range

/-- Whether the range is one of integers, and its step is not zero. -/
def counts : Range → Bool
  | int _ _ step => step != 0
  | float .. => false

/-- How far a range of integers is from its end. -/
def distance : Range → Nat
  | int (some current) stop step =>
    if 0 ≤ step.toInt then (stop.toInt - current.toInt).toNat
    else (current.toInt - stop.toInt).toNat
  | _ => 0

/-- The number after one that comes before the end is closer to it. One that does not fit is not
there at all. -/
theorem distance_narrow_lt {current stop step : Int64} (nonzero : step.toInt ≠ 0)
    (before : intBefore current stop step = true) :
    (int (narrow? (current.toInt + step.toInt)) stop step).distance <
      (int (some current) stop step).distance := by
  by_cases up : 0 ≤ step.toInt
  · have below : current.toInt < stop.toInt := by simpa [intBefore, up] using before
    cases fits : narrow? (current.toInt + step.toInt) with
    | none =>
      simp only [distance, if_pos up]
      omega
    | some word =>
      have sum : word.toInt = current.toInt + step.toInt := narrow?_eq_some_iff.mp fits
      simp only [distance, if_pos up]
      omega
  · have above : stop.toInt < current.toInt := by simpa [intBefore, up] using before
    cases fits : narrow? (current.toInt + step.toInt) with
    | none =>
      simp only [distance, if_neg up]
      omega
    | some word =>
      have sum : word.toInt = current.toInt + step.toInt := narrow?_eq_some_iff.mp fits
      simp only [distance, if_neg up]
      omega

/-- Every number that a range of integers gives brings it closer to its end. -/
theorem distance_next {range rest : Range} {number : Number} (counts : range.counts = true)
    (given : range.next = (some number, rest)) :
    rest.counts = true ∧ rest.distance < range.distance := by
  cases range with
  | float => cases counts
  | int current stop step =>
    cases current with
    | none => cases given
    | some current =>
      have nonzero : step.toInt ≠ 0 := fun zero =>
        bne_iff_ne.mp counts (Int64.toInt_inj.mp (zero.trans Int64.toInt_zero.symm))
      have looked : next (int (some current) stop step) =
          if intBefore current stop step then
            (some (.int current), int (narrow? (current.toInt + step.toInt)) stop step)
          else (none, int (some current) stop step) := rfl
      rw [looked] at given
      split at given
      · rename_i before
        cases given
        exact ⟨counts, distance_narrow_lt nonzero before⟩
      · cases given

/-- Whether a step is left out or an integer other than zero. -/
def Strides (step : Option Value) : Prop :=
  ∀ value, step = some value → ∃ word : Int64, word ≠ 0 ∧ value = .int word

theorem Strides.counts_ofBounds {start stop : Int64} {step : Option Value} {range : Range}
    (strides : Strides step) (bounded : ofBounds (.int start) (.int stop) step = .ok range) :
    range.counts = true := by
  cases step with
  | none =>
    cases bounded
    rfl
  | some value =>
    obtain ⟨word, nonzero, rfl⟩ := strides value rfl
    cases bounded
    exact bne_iff_ne.mpr nonzero

end Range

/-! ### Evaluation -/

namespace Tame

variable (interpreter : Interpreter) {spare : Nat}

/-- A checkpoint leaves the context alone. -/
theorem checkpoint_returns (state : State) :
    Returns (fun _ passed => passed.context = state.context) (fun _ => interpreter.checkpoint)
      state := by
  refine Returns.ofMeets ?_
  cases passed : interpreter.checkpoint state with
  | value _ after =>
    exact Run.KeepsContext.checkpoint interpreter state after (congrArg Outcome.after? passed)
  | failure => trivial
  | unfinished =>
    rw [Interpreter.checkpoint_apply] at passed
    repeat' split at passed
    all_goals cases passed

/-- The states from which a node is evaluated where calls may still be nested so deeply. -/
abbrev Ready (spare : Nat) : State → Prop := State.TameWithin interpreter.limits.maxDepth spare

/-- A node that is written as an integer has it as its value. -/
theorem integer_settles {node : Expr} {word : Int64} (written : node.integer? = some word) :
    node.Settles interpreter (fun value => value = .int word) (Ready interpreter spare) := by
  unfold Expr.integer? at written
  split at written
  · cases written
    exact (State.TameWithin.steady _ _).settles fun state ready => .ofMeets ⟨rfl, ready⟩
  · cases written

/-- A counting loop over integers returns if its body does. -/
theorem forRounds_returns (name : String) {body : Expr}
    (settles : body.Settles interpreter Value.Tame (Ready interpreter spare)) {range : Range}
    (counts : range.counts = true) {state : State} (ready : Ready interpreter spare state) :
    Returns (fun values after => (∀ value ∈ values, value.Tame) ∧ Ready interpreter spare after)
      (fun fuel => Run.iterate (Expr.forTurn interpreter (Expr.eval interpreter fuel) name body)
        fuel (range, [])) state := by
  have steady := State.TameWithin.steady interpreter.limits.maxDepth spare
  refine Returns.iterate (fun level loop state => loop.1.counts = true ∧ loop.1.distance = level ∧
      (∀ value ∈ loop.2, value.Tame) ∧ Ready interpreter spare state)
    (fun level loop state started => ?_) ⟨counts, rfl, (fun _ member => nomatch member), ready⟩
  obtain ⟨range, values⟩ := loop
  obtain ⟨counts, rfl, tame, ready⟩ := started
  dsimp only [Expr.forTurn]
  rcases next : range.next with ⟨_ | current, rest⟩
  · exact .ofMeets ⟨fun value member => tame value (List.mem_reverse.mp member), ready⟩
  · obtain ⟨counts', closer⟩ := Range.distance_next counts next
    refine .bind (checkpoint_returns interpreter state) fun _ passed same => ?_
    have ready' : Ready interpreter spare passed :=
      ⟨same ▸ ready.values, same ▸ ready.depth⟩
    refine (steady.assign name (.number current) ready').bind fun _ after assigned => ?_
    refine .bind (settles after assigned) fun value last given => ?_
    refine .ofMeets ⟨_, closer, counts', rfl, fun other member => ?_, given.2⟩
    rcases List.mem_cons.mp member with rfl | before
    · exact given.1
    · exact tame other before

variable (later : ∀ less, less < spare → ∀ node : Expr, node.Tame →
  node.Settles interpreter Value.Tame (Ready interpreter less))

include later

/-- A call returns if bodies do where one frame less fits. -/
theorem callFunction_returns (function : Function) (args : List Value) (span : Span)
    (body : function.body.Tame) (tame : ∀ arg ∈ args, arg.Tame) {state : State}
    (ready : Ready interpreter spare state) :
    Returns (fun value after => value.Tame ∧ Ready interpreter spare after)
      (fun fuel => interpreter.callFunction (Expr.eval interpreter fuel) function args span)
      state := by
  refine .callFunction interpreter function args span (checkpoint_returns interpreter _)
    fun passed same shallow => ?_
  have same : passed.context = state.context := same
  have room : interpreter.limits.maxDepth ≤ passed.context.depth + spare := same ▸ ready.depth
  -- The new frame binds nothing yet, and there was room for it since the call was not too deep.
  have opened : Ready interpreter (spare - 1)
      { passed with context := passed.context.child function.displayName span } := by
    refine ⟨(fun name value bound => by cases bound), ?_⟩
    show interpreter.limits.maxDepth ≤ passed.context.depth + 1 + (spare - 1)
    omega
  have steady := State.TameWithin.steady interpreter.limits.maxDepth (spare - 1)
  refine (steady.assignAll function.params tame opened).bind fun _ after assigned => ?_
  refine (later (spare - 1) (by omega) function.body body after assigned).weaken
    fun value last given => ⟨given.1, ?_⟩
  exact ⟨fun name value bound => ready.values name value (same ▸ bound), room⟩

/-- A tame node returns if its children do, and bodies where one frame less fits. -/
theorem evaluateNode_returns {node : Expr} (tame : node.Tame)
    (nodes : ∀ child ∈ node.children,
      child.Settles interpreter Value.Tame (Ready interpreter spare))
    {state : State} (ready : Ready interpreter spare state) :
    Returns (fun value after => value.Tame ∧ Ready interpreter spare after)
      (fun fuel => Expr.evaluateNode interpreter fuel (Expr.eval interpreter fuel) node) state := by
  have steady := State.TameWithin.steady interpreter.limits.maxDepth spare
  obtain ⟨own, parts⟩ := Expr.tame_iff.mp tame
  refine steady.evaluateNode nodes (fun loop state ready => ?_)
    (fun span name params site body same => .function ?_)
    (fun function args span state callable given ready => ?_) ready
  · cases node with
    | forLoop span name start stop step body =>
      simp only [Expr.loopsTamely, Bool.and_eq_true, Option.isSome_iff_exists,
        Option.all_eq_true] at own
      obtain ⟨⟨⟨first, writtenFirst⟩, last, writtenLast⟩, stride⟩ := own
      refine steady.forLoop Range.Strides (integer_settles interpreter writtenFirst)
        (integer_settles interpreter writtenLast) (fun _ => nofun) (fun child same => ?_)
        (fun start stop step range started stopped strides bounded state ready => ?_) ready
      · obtain ⟨word, written, nonzero⟩ := (Option.any_eq_true _ _).mp (stride child same)
        refine fun state ready => (integer_settles interpreter written state ready).weaken ?_
        rintro _ after ⟨rfl, ready⟩
        refine ⟨fun value given => ⟨word, bne_iff_ne.mp nonzero, ?_⟩, ready⟩
        exact (Option.some.inj given).symm
      · subst started stopped
        exact forRounds_returns interpreter name (nodes body (by simp [Expr.children]))
          (strides.counts_ofBounds bounded) ready
    | whileLoop => cases own
    | _ => cases loop
  · subst same
    exact parts body (List.mem_singleton_self body)
  · cases callable with
    | function body =>
      exact callFunction_returns interpreter later function args span body given ready

omit later in
/-- Tame nodes return. The first induction is on the frames that still fit, the second one on the
tree. -/
theorem settles (spare : Nat) (node : Expr) (tame : node.Tame) :
    node.Settles interpreter Value.Tame (Ready interpreter spare) := by
  induction spare using Nat.strongRecOn generalizing node with
  | _ spare later =>
    induction node using Expr.childInduction with
    | step node nodes =>
      exact (State.TameWithin.steady _ _).settles fun state ready =>
        evaluateNode_returns interpreter later tame
          (fun child member => nodes child member
            ((Expr.tame_iff.mp tame).2 child (Expr.parts_of_mem_children member))) ready

end Tame

/-- A program whose only loops run through integers that are written down, with a step other than
zero, and which can only get hold of functions whose bodies are like that, returns from every
context and under all limits, also without a budget: there is an end, a value or a failure, to which
it comes on all fuel from some amount on. Of the values that are bound, only those in the frame that
the program is evaluated in have to be tame. -/
theorem tame_programs_return (interpreter : Interpreter) {program : Expr} (tame : program.Tame)
    (state : State)
    (values : ∀ name value, state.context.get? name = some value → value.Tame) :
    ∃ ending, ending ≠ .unfinished ∧ ∃ enough, ∀ fuel, enough ≤ fuel →
      interpreter.evaluate fuel program state = ending :=
  (Tame.settles interpreter interpreter.limits.maxDepth program tame { state with steps := 0 }
    ⟨values, Nat.le_add_left _ _⟩).ends

/-- A function that calls itself from a loop, being given itself, returns without a budget. -/
theorem recursion_in_loop_returns :
    let body : Expr := .forLoop ⟨10, 32⟩ "i" (.number ⟨14, 15⟩ (.int 0)) (.number ⟨17, 18⟩ (.int 2))
      none (.call ⟨22, 26⟩ (.lookup ⟨22, 23⟩ "g") [.lookup ⟨24, 25⟩ "g"])
    let function : Value := .function ⟨some "f", ["g"], 0, body⟩
    let program : Expr := .call ⟨0, 4⟩ (.lookup ⟨0, 1⟩ "f") [.lookup ⟨2, 3⟩ "f"]
    let context : Context := (Context.root Context.programName).set "f" function
    program.Tame ∧ (∀ name value, context.get? name = some value → value.Tame) ∧
      ∃ ending, ending ≠ .unfinished ∧ ∃ enough, ∀ fuel, enough ≤ fuel →
        (Interpreter.ofLimits .standard).evaluate fuel program (.initial context) = ending := by
  intro body function program context
  have number (span : Span) (value : Number) : (Expr.number span value).Tame :=
    Expr.tame_iff.mpr ⟨rfl, fun _ member => nomatch member⟩
  have lookup (span : Span) (name : String) : (Expr.lookup span name).Tame :=
    Expr.tame_iff.mpr ⟨rfl, fun _ member => nomatch member⟩
  have call (span inner outer : Span) (name other : String) :
      (Expr.call span (.lookup inner name) [.lookup outer other]).Tame :=
    Expr.tame_iff.mpr ⟨rfl, by simp [Expr.parts, Expr.children, lookup]⟩
  have tame : body.Tame :=
    Expr.tame_iff.mpr ⟨by decide, by simp [body, Expr.parts, Expr.children, number, call]⟩
  have values : ∀ name value, context.get? name = some value → value.Tame := by
    intro name value bound
    by_cases same : name = "f"
    · subst same
      rw [Context.get?_set_self] at bound
      cases bound
      exact .function tame
    · rw [Context.get?_set_of_ne _ same] at bound
      cases bound
  exact ⟨call _ _ _ _ _, values,
    tame_programs_return (.ofLimits .standard) (call _ _ _ _ _) (.initial context) values⟩

end Treewalk
