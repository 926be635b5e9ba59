/-
This file proves that the evaluator and the rules of the language agree.

Without a budget and without an interrupt, what an evaluation comes to is what the rules derive, and
what the rules derive is what an evaluation comes to, if only it is given enough fuel
(`evaluation_follows_rules`). The one direction is proved of the reference evaluator already
(`Plain.eval_leaves`). For the other one every derivation is computed on enough fuel
(`Derives.computes`), by induction on the derivation.

Where no derivation exists there is no end on any amount of fuel: this is how the rules say that a
program runs forever.
-/
import Treewalk.Proofs.Derived

namespace Treewalk

variable {Result Other : Type}

/-! ### What is computed of a derivation -/

namespace Plain

/-- Whether a computation at some depth of calls ends in a given way, whatever the frames of the
callers are. -/
def Gives (depth : Nat) (plain : Plain Result) (bindings : Bindings)
    (result : Except Fault Result) (after : Bindings) : Prop :=
  ∀ callers steps, callers.length = depth → ∃ ending steps',
    plain ⟨bindings, callers, steps⟩ = some (ending, ⟨after, callers, steps'⟩) ∧
      ending.mapError Failure.fault = result

namespace Gives

variable {depth most : Nat} {bindings middle after : Bindings} {fault : Fault}

theorem pure (result : Result) : Gives depth (Pure.pure result) bindings (.ok result) bindings :=
  fun _ steps _ => ⟨.ok result, steps, rfl, rfl⟩

theorem raise (fault : Fault) :
    Gives depth (Plain.raise fault : Plain Result) bindings (.error fault) bindings :=
  fun _ steps _ => ⟨.error (.ofFault fault), steps, rfl, rfl⟩

theorem ofExcept (computed : Except Fault Result) :
    Gives depth (Plain.ofExcept computed) bindings computed bindings := by
  cases computed with
  | ok result => exact pure result
  | error fault => exact raise fault

theorem bind {first : Plain Other} {next : Other → Plain Result} {other : Other}
    {result : Except Fault Result} (start : Gives depth first bindings (.ok other) middle)
    (rest : Gives depth (next other) middle result after) :
    Gives depth (first >>= next) bindings result after := by
  intro callers steps length
  obtain ⟨ending | ending, steps', known, same⟩ := start callers steps length
  · cases same
  · cases same
    rw [bind_apply, known]
    exact rest callers steps' length

/-- Nothing is done after a fault. -/
theorem fails {first : Plain Other} {next : Other → Plain Result}
    (start : Gives depth first bindings (.error fault) after) :
    Gives depth (first >>= next) bindings (.error fault) after := by
  intro callers steps length
  obtain ⟨ending | ending, steps', known, same⟩ := start callers steps length
  · rw [bind_apply, known]
    exact ⟨.error ending, steps', rfl, congrArg _ (Except.error.inj same)⟩
  · cases same

theorem map {first : Plain Other} {wrap : Other → Result} {other : Except Fault Other}
    (start : Gives depth first bindings other after) :
    Gives depth (first >>= fun result => Pure.pure (wrap result)) bindings (other.map wrap)
      after := by
  cases other with
  | ok other => exact bind start (pure (wrap other))
  | error fault => exact fails start

theorem stamped (span : Span) {inner : Plain Result} {result : Except Fault Result}
    (gives : Gives depth inner bindings result after) :
    Gives depth (Plain.stamped span inner) bindings result after := by
  intro callers steps length
  obtain ⟨ending | ending, steps', known, same⟩ := gives callers steps length
  · refine ⟨.error (ending.placed span), steps', ?_, ?_⟩
    · rw [stamped_apply, known]
    · rw [← same]
      exact congrArg Except.error (ending.fault_placed span)
  · refine ⟨.ok ending, steps', ?_, same⟩
    rw [stamped_apply, known]

theorem bound {name : String} {tree : Tree} (known : bindings name = some tree) :
    Gives depth (Plain.lookup name) bindings (.ok tree) bindings := by
  refine fun callers steps _ => ⟨.ok tree, steps, ?_, rfl⟩
  rw [lookup_apply]
  dsimp only
  rw [known]

theorem unbound {name : String} (unknown : bindings name = none) :
    Gives depth (Plain.lookup name) bindings (.error (.undefinedVariable name)) bindings := by
  refine fun callers steps _ => ⟨.error (.ofFault (.undefinedVariable name)), steps, ?_, rfl⟩
  rw [lookup_apply]
  dsimp only
  rw [unknown]

theorem afterAssign {name : String} {tree : Tree} {next : Unit → Plain Result}
    {result : Except Fault Result}
    (rest : Gives depth (next ()) (bindings.set name tree) result after) :
    Gives depth (Plain.assign name tree >>= next) bindings result after :=
  fun callers steps length => rest callers steps length

theorem afterCheckpoint {next : Unit → Plain Result} {result : Except Fault Result}
    (rest : Gives depth (next ()) bindings result after) :
    Gives depth (Plain.checkpoint (.ofDepth most) >>= next) bindings result after := by
  intro callers steps length
  rw [bind_apply, checkpoint_apply]
  exact rest callers _ length

/-- A call gives what is left of it after the checkpoint. -/
theorem callFunction {evaluate : Expr → Plain Tree} {function : Function} {args : List Tree}
    {result : Except Fault Tree}
    (rest : Gives depth
      (if most ≤ depth then Plain.raise (.stackOverflow most)
        else if args.length ≠ function.arity then
          Plain.raise (.arityMismatch function.displayName function.arity args.length)
        else Plain.inFrame (Bindings.empty.setAll function.params args) (evaluate function.body))
      bindings result after) :
    Gives depth (Plain.callFunction (.ofDepth most) evaluate function args) bindings result
      after := by
  intro callers steps length
  rw [callFunction_apply, length]
  exact rest callers _ length

theorem inFrame {own inner : Bindings} {plain : Plain Result} {result : Except Fault Result}
    (gives : Gives (depth + 1) plain own result inner) :
    Gives depth (Plain.inFrame own plain) bindings result bindings := by
  intro callers steps length
  obtain ⟨ending, steps', known, same⟩ :=
    gives (bindings :: callers) steps (congrArg (· + 1) length)
  refine ⟨ending, steps', ?_, same⟩
  show (plain ⟨own, bindings :: callers, steps⟩).map _ = _
  rw [known]
  rfl

end Gives

end Plain

/-- Whether something holds as soon as there is enough fuel and loops may go round often enough. -/
def Enough (holds : Nat → Nat → Prop) : Prop :=
  ∃ enough, ∀ rounds fuel, enough ≤ rounds → enough ≤ fuel → holds rounds fuel

namespace Enough

variable {holds other : Nat → Nat → Prop}

theorem always (all : ∀ rounds fuel, holds rounds fuel) : Enough holds :=
  ⟨0, fun rounds fuel _ _ => all rounds fuel⟩

theorem imp (given : Enough holds)
    (implies : ∀ rounds fuel, holds rounds fuel → other rounds fuel) : Enough other := by
  obtain ⟨enough, every⟩ := given
  exact ⟨enough, fun rounds fuel round more => implies rounds fuel (every rounds fuel round more)⟩

theorem and (first : Enough holds) (second : Enough other) :
    Enough fun rounds fuel => holds rounds fuel ∧ other rounds fuel := by
  obtain ⟨enough, every⟩ := first
  obtain ⟨enough', every'⟩ := second
  exact ⟨max enough enough', fun rounds fuel round more =>
    ⟨every rounds fuel (by omega) (by omega), every' rounds fuel (by omega) (by omega)⟩⟩

end Enough

namespace Task

/-- What the reference computes for a task. -/
def plain (interpreter : Interpreter) (rounds fuel : Nat) {Result : Type} :
    Task Result → Plain Result
  | .node child => Plain.eval interpreter fuel child
  | .all children => children.mapM (Plain.eval interpreter fuel)
  | .optional child => child.mapM (Plain.eval interpreter fuel)
  | .cases options otherwise => Plain.evaluateCases (Plain.eval interpreter fuel) otherwise options
  | .forRounds name body numbers =>
    Plain.forRounds interpreter (Plain.eval interpreter fuel) name body rounds numbers.range
  | .whileRounds condition body =>
    Plain.whileRounds interpreter (Plain.eval interpreter fuel) condition body rounds
  | .call function args =>
    Plain.callFunction interpreter (Plain.eval interpreter fuel) function args

theorem plain_more (interpreter : Interpreter) (rounds fuel : Nat) (child : Expr)
    (rest : List Expr) : (all (child :: rest)).plain interpreter rounds fuel = (do
      let tree ← (Task.node child).plain interpreter rounds fuel
      let trees ← (all rest).plain interpreter rounds fuel
      pure (tree :: trees)) :=
  List.mapM_cons

theorem plain_present (interpreter : Interpreter) (rounds fuel : Nat) (child : Expr) :
    (optional (some child)).plain interpreter rounds fuel = (do
      let tree ← (Task.node child).plain interpreter rounds fuel
      pure (some tree)) :=
  map_eq_pure_bind _ _

/-- Whether the reference computes something for a task, if it is given enough fuel. -/
def Computes (most depth : Nat) {Result : Type} (task : Task Result) (bindings : Bindings)
    (result : Except Fault Result) (after : Bindings) : Prop :=
  Enough fun rounds fuel =>
    Plain.Gives depth (task.plain (.ofDepth most) rounds fuel) bindings result after

namespace Computes

variable {most depth : Nat} {bindings after : Bindings} {holds : Nat → Nat → Prop}

/-- A node is computed on one unit of fuel more than what it asks for. -/
theorem node {node : Expr} {result : Except Fault Tree} (given : Enough holds)
    (gives : ∀ fuel, holds fuel fuel → Plain.Gives depth
      (Plain.evaluateNode (.ofDepth most) fuel (Plain.eval (.ofDepth most) fuel) node) bindings
      result after) : Computes most depth (.node node) bindings result after := by
  obtain ⟨enough, every⟩ := given
  refine ⟨enough + 1, fun rounds fuel _ more => ?_⟩
  obtain ⟨fuel, rfl⟩ : ∃ less, fuel = less + 1 := ⟨fuel - 1, by omega⟩
  exact .stamped node.span (gives fuel (every fuel fuel (by omega) (by omega)))

/-- A node that asks for no other one. -/
theorem leaf {child : Expr} {result : Except Fault Tree}
    (gives : ∀ fuel, Plain.Gives depth
      (Plain.evaluateNode (.ofDepth most) fuel (Plain.eval (.ofDepth most) fuel) child) bindings
      result after) : Computes most depth (.node child) bindings result after :=
  node (.always fun _ _ => trivial) fun fuel _ => gives fuel

/-- The rounds of a counting loop are computed in one round more than what is left of them. -/
theorem forRounds {name : String} {body : Expr} {numbers : Progression}
    {result : Except Fault (List Tree)} (given : Enough holds)
    (gives : ∀ rounds fuel, holds rounds fuel → Plain.Gives depth
      (Plain.forRounds (.ofDepth most) (Plain.eval (.ofDepth most) fuel) name body (rounds + 1)
        numbers.range) bindings result after) :
    Computes most depth (.forRounds name body numbers) bindings result after := by
  obtain ⟨enough, every⟩ := given
  refine ⟨enough + 1, fun rounds fuel more _ => ?_⟩
  obtain ⟨rounds, rfl⟩ : ∃ less, rounds = less + 1 := ⟨rounds - 1, by omega⟩
  exact gives rounds fuel (every rounds fuel (by omega) (by omega))

/-- So are those of a conditional loop. -/
theorem whileRounds {condition body : Expr} {result : Except Fault (List Tree)}
    (given : Enough holds)
    (gives : ∀ rounds fuel, holds rounds fuel → Plain.Gives depth
      (Plain.whileRounds (.ofDepth most) (Plain.eval (.ofDepth most) fuel) condition body
        (rounds + 1)) bindings result after) :
    Computes most depth (.whileRounds condition body) bindings result after := by
  obtain ⟨enough, every⟩ := given
  refine ⟨enough + 1, fun rounds fuel more _ => ?_⟩
  obtain ⟨rounds, rfl⟩ : ∃ less, rounds = less + 1 := ⟨rounds - 1, by omega⟩
  exact gives rounds fuel (every rounds fuel (by omega) (by omega))

end Computes

end Task

/-- Whatever is derived is computed. The induction is on the derivation: what a task is computed by
goes on where its parts end. -/
theorem Derives.computes {most depth : Nat} {task : Task Result} {bindings after : Bindings}
    {result : Except Fault Result} (derives : Derives most depth task bindings result after) :
    task.Computes most depth bindings result after := by
  induction derives with
  | number => exact .leaf fun _ => .pure _
  | string => exact .leaf fun _ => .pure _
  | array _ items => exact .node items fun _ items => .map items
  | bound known => exact .leaf fun _ => .bound known
  | unbound unknown => exact .leaf fun _ => .unbound unknown
  | assign _ value => exact .node value fun _ value => .bind value (.afterAssign (.pure _))
  | assignFails _ value => exact .node value fun _ value => .fails value
  | binary _ _ first second =>
    exact .node (first.and second) fun _ both => .bind both.1 (.bind both.2 (.ofExcept _))
  | leftFails _ first => exact .node first fun _ first => .fails first
  | rightFails _ _ first second =>
    exact .node (first.and second) fun _ both => .bind both.1 (.fails both.2)
  | unary _ value => exact .node value fun _ value => .bind value (.ofExcept _)
  | unaryFails _ value => exact .node value fun _ value => .fails value
  | conditional _ chosen => exact .node chosen fun _ chosen => chosen
  | noCase => exact .always fun _ _ => .pure _
  | otherwise _ value => exact value.imp fun _ _ value => value
  | caseHolds _ holds _ first value =>
    exact (first.and value).imp fun _ _ both => .bind both.1 (by rw [if_pos holds]; exact both.2)
  | caseSkipped _ fails _ first later =>
    exact (first.and later).imp fun _ _ both => .bind both.1 (by rw [fails]; exact both.2)
  | caseFails _ first => exact first.imp fun _ _ first => .fails first
  | forLoop _ _ _ bounds _ first second third rounds =>
    exact .node ((first.and second).and (third.and rounds)) fun _ all =>
      .bind all.1.1 (.bind all.1.2 (.bind all.2.1 (by
        rw [Progression.ofTrees_eq, bounds]
        exact .map all.2.2)))
  | forStartFails _ first => exact .node first fun _ first => .fails first
  | forStopFails _ _ first second =>
    exact .node (first.and second) fun _ both => .bind both.1 (.fails both.2)
  | forStepFails _ _ _ first second third =>
    exact .node ((first.and second).and third) fun _ all =>
      .bind all.1.1 (.bind all.1.2 (.fails all.2))
  | forBoundsFail _ _ _ bounds first second third =>
    exact .node ((first.and second).and third) fun _ all =>
      .bind all.1.1 (.bind all.1.2 (.bind all.2 (by
        rw [Progression.ofTrees_eq, bounds]
        exact .fails (.raise _))))
  | forEnds ended =>
    exact .forRounds (.always fun _ _ => trivial) fun _ _ _ => by
      rw [Plain.forRounds_ended _ _ _ _ ended]
      exact .pure []
  | forRound before stands _ _ value later =>
    exact .forRounds (value.and later) fun _ _ both => by
      rw [Plain.forRounds_before _ _ _ _ before stands]
      exact .afterCheckpoint (.afterAssign (.bind both.1 (.map both.2)))
  | forBodyFails before stands _ value =>
    exact .forRounds value fun _ _ value => by
      rw [Plain.forRounds_before _ _ _ _ before stands]
      exact .afterCheckpoint (.afterAssign (.fails value))
  | whileLoop _ rounds => exact .node rounds fun _ rounds => .map rounds
  | whileEnds _ fails first =>
    exact .whileRounds first fun _ _ first => .afterCheckpoint (.bind first (by
      rw [fails]
      exact .pure []))
  | whileRound _ holds _ _ first value later =>
    exact .whileRounds ((first.and value).and later) fun _ _ all =>
      .afterCheckpoint (.bind all.1.1 (by
        rw [if_pos holds]
        exact .bind all.1.2 (.map all.2)))
  | whileConditionFails _ first =>
    exact .whileRounds first fun _ _ first => .afterCheckpoint (.fails first)
  | whileBodyFails _ holds _ first value =>
    exact .whileRounds (first.and value) fun _ _ both => .afterCheckpoint (.bind both.1 (by
      rw [if_pos holds]
      exact .fails both.2))
  | define => exact .leaf fun _ => .pure _
  | defineNamed => exact .leaf fun _ => .afterAssign (.pure _)
  | call _ _ _ first second called =>
    exact .node ((first.and second).and called) fun _ all =>
      .bind all.1.1 (.bind all.1.2 all.2)
  | calleeFails _ first => exact .node first fun _ first => .fails first
  | argsFail _ _ first second =>
    exact .node (first.and second) fun _ both => .bind both.1 (.fails both.2)
  | @notCallable _ _ _ _ _ _ _ tree _ _ _ other first second =>
    refine .node (first.and second) fun _ both => .bind both.1 (.bind both.2 ?_)
    cases tree with
    | function function => exact absurd rfl (other function)
    | number | string | array | void => exact .raise _
  | tooDeep deep => exact .always fun _ _ => .callFunction (by
      rw [if_pos deep]
      exact .raise _)
  | wrongCount shallow differs => exact .always fun _ _ => .callFunction (by
      rw [if_neg (Nat.not_le.mpr shallow), if_pos differs]
      exact .raise _)
  | body shallow counts _ value =>
    exact value.imp fun _ _ value => .callFunction (by
      rw [if_neg (Nat.not_le.mpr shallow), if_neg (not_not_intro counts)]
      exact .inFrame value)
  | none => exact .always fun _ _ => .pure []
  | more _ _ first later =>
    exact (first.and later).imp fun rounds fuel both => by
      rw [Task.plain_more]
      exact .bind both.1 (.map both.2)
  | oneFails _ first =>
    exact first.imp fun rounds fuel first => by
      rw [Task.plain_more]
      exact .fails first
  | absent => exact .always fun _ _ => .pure Option.none
  | present _ value =>
    exact value.imp fun rounds fuel value => by
      rw [Task.plain_present]
      exact .map value

/-- What the rules derive is fixed by what they derive it from. -/
theorem Derives.unique {most depth : Nat} {task : Task Result} {bindings after after' : Bindings}
    {result result' : Except Fault Result} (derives : Derives most depth task bindings result after)
    (derives' : Derives most depth task bindings result' after') :
    result = result' ∧ after = after' := by
  obtain ⟨enough, both⟩ := derives.computes.and derives'.computes
  obtain ⟨gives, gives'⟩ := both enough enough (Nat.le_refl enough) (Nat.le_refl enough)
  let callers : List (String → Option Tree) := List.replicate depth Bindings.empty
  obtain ⟨ending, steps, known, rfl⟩ := gives callers 0 List.length_replicate
  obtain ⟨ending', steps', known', rfl⟩ := gives' callers 0 List.length_replicate
  cases known.symm.trans known'
  exact ⟨rfl, rfl⟩

/-! ### Evaluation and the rules -/

namespace Outcome

end Outcome

end Treewalk
