/-
This file proves that nothing comes after a fault.

An evaluation that has its value has raised no fault at all, and one that fails has raised one: the
fault of its failure, which is told where it was raised, once, and is not touched again. Nothing is
done after it was raised. No node is visited, no name is bound in any frame, no step is counted and
no event is logged. (That a call is left is the end of the span around the call and no event of its
own: the spans of all calls that were being made are ended.) The log warns of a budget that was
exceeded and of an interrupt, just before the fault is raised, and of nothing else.

All of it is the course of an evaluation (`Expr.eval_follows`) under the condition that the journal
has been quiet since the beginning.
-/
import Treewalk.Proofs.Course

namespace Treewalk

/-! ### Quiet journals -/

namespace Event

/-- The fault that was raised, if the event is that. -/
def fault? : Event → Option Fault
  | raised fault => some fault
  | _ => none

/-- Whether the log warns of the event. -/
def Warns (event : Event) : Prop := ∃ text, event.line? = some ("WARN " ++ text)

/-- Whether the event is neither a fault nor a warning. -/
structure Quiet (event : Event) : Prop where
  fault : event.fault? = none
  warning : ¬ event.Warns

theorem warns_budgetSpent (budget : Nat) : (budgetSpent budget).Warns := by
  refine ⟨"evaluation budget exceeded budget=" ++ toString budget, congrArg some ?_⟩
  rw [← String.append_assoc]
  rfl

theorem warns_gaveIn (steps : Nat) : (gaveIn steps).Warns := by
  refine ⟨"evaluation interrupted steps=" ++ toString steps, congrArg some ?_⟩
  rw [← String.append_assoc]
  rfl

/-- A line that begins with another character is no warning. -/
theorem not_warns_of_line {event : Event} {line : String} (shown : event.line? = some line)
    (first : line.toList.head? ≠ some 'W') : ¬ event.Warns := by
  rintro ⟨text, warned⟩
  rw [shown] at warned
  obtain rfl := Option.some.inj warned
  rw [String.toList_append] at first
  exact first rfl

theorem quiet_visited (context : Context) (node : Expr) : (visited context node).Quiet :=
  ⟨rfl, not_warns_of_line rfl (by simp [String.toList_append])⟩

theorem quiet_bound (context : Context) (name : String) (value : Value) :
    (bound context name value).Quiet :=
  ⟨rfl, fun ⟨_, shown⟩ => nomatch shown⟩

theorem quiet_stepped (count : Nat) : (stepped count).Quiet :=
  ⟨rfl, fun ⟨_, shown⟩ => nomatch shown⟩

theorem quiet_of_isMark {event : Event} (marks : event.isMark = true) : event.Quiet := by
  cases event with
  | forFinished | whileFinished | callEntered | callLeft =>
    exact ⟨rfl, not_warns_of_line rfl (by simp [String.toList_append])⟩
  | visited | bound | stepped | raised | budgetSpent | gaveIn => cases marks

theorem not_warns_of_leavesCall {event : Event} (leaves : event.leavesCall = true) :
    ¬ event.Warns := by
  have marks : event.isMark = true := by
    cases event with
    | callLeft function args => rfl
    | _ => cases leaves
  exact (quiet_of_isMark marks).warning

theorem not_warns_raised (fault : Fault) : ¬ (raised fault).Warns :=
  fun ⟨_, shown⟩ => nomatch shown

end Event

namespace Journal

/-- The faults that were raised, the latest first. -/
def faults (journal : Journal) : List Fault := journal.filterMap Event.fault?

/-- Quiet events raise no fault. -/
theorem AddsOnly.faults_eq {earlier journal : Journal}
    (adds : earlier.AddsOnly Event.Quiet journal) : journal.faults = earlier.faults := by
  obtain ⟨added, rfl, quiet⟩ := adds
  have none : added.filterMap Event.fault? = [] :=
    List.filterMap_eq_nil_iff.mpr fun event member => (quiet event member).fault
  rw [faults, List.filterMap_append, none]
  rfl

end Journal

/-- As long as an evaluation goes on, its journal is quiet. -/
theorem Interpreter.invariant_quiet (interpreter : Interpreter) (start : State) :
    interpreter.Invariant fun state => start.journal.AddsOnly Event.Quiet state.journal where
  step step quiet := by
    cases step with
    | visit node => exact quiet.cons (Event.quiet_visited _ node)
    | assign name value => exact quiet.cons (Event.quiet_bound _ name value)
    | count => exact quiet.cons (Event.quiet_stepped _)
    | newObject => exact quiet
    | mark marks => exact quiet.cons (Event.quiet_of_isMark marks)
    | openFrame => exact quiet
  closeFrame _ quiet := quiet

/-! ### The end at a fault -/

/-- The warning that the log has for a fault, if it has one. -/
def Fault.warning? (steps : Nat) : Fault → Option Event
  | budgetExceeded budget => some (.budgetSpent budget)
  | interrupted => some (.gaveIn steps)
  | _ => none

/-- Whether a fault that was raised at some moment was the end: it was put into the journal, behind
its warning if there is one, and after that nothing was done but to leave calls. -/
structure State.EndsWith (moment : State) (fault : Fault) (after : State) : Prop where
  journal : Journal.AddsOnly
    (.raised fault :: ((fault.warning? moment.steps).toList ++ moment.journal))
    (fun event => event.leavesCall) after.journal
  steps : after.steps = moment.steps
  nextObject : after.nextObject = moment.nextObject
  frames : after.context.frames <:+ moment.context.frames

/-- The four ways to raise a fault differ in the warning only. -/
theorem Interpreter.Raises.endsWith {interpreter : Interpreter} {moment raised after : State}
    {fault : Fault} (raises : interpreter.Raises moment fault raised)
    (unwinds : raised.Unwinds after) : moment.EndsWith fault after := by
  have recorded : raised.journal =
        .raised fault :: ((fault.warning? moment.steps).toList ++ moment.journal) ∧
      raised.steps = moment.steps ∧ raised.nextObject = moment.nextObject ∧
      raised.context = moment.context := by
    cases raises with
    | program blames =>
      refine ⟨?_, rfl, rfl, rfl⟩
      cases fault with
      | budgetExceeded | interrupted => cases blames
      | _ => rfl
    | depth | budget | interrupt => exact ⟨rfl, rfl, rfl, rfl⟩
  obtain ⟨journal, steps, nextObject, context⟩ := recorded
  exact ⟨journal ▸ unwinds.journal, unwinds.steps.trans steps,
    unwinds.nextObject.trans nextObject, context ▸ unwinds.frames⟩

/-- There is a warning for a budget that was exceeded and for an interrupt alone. -/
theorem State.EndsWith.warns_iff {start moment after : State} {fault : Fault}
    (quiet : start.journal.AddsOnly Event.Quiet moment.journal)
    (ends : moment.EndsWith fault after) :
    (∃ added, after.journal = added ++ start.journal ∧ ∃ event ∈ added, event.Warns) ↔
      (∃ budget, fault = .budgetExceeded budget) ∨ fault = .interrupted := by
  obtain ⟨calm, before, calmly⟩ := quiet
  obtain ⟨left, journal, leaves⟩ := ends.journal
  have added : after.journal =
      (left ++ .raised fault :: ((fault.warning? moment.steps).toList ++ calm)) ++
        start.journal := by
    rw [journal, before]
    simp only [List.append_assoc, List.cons_append]
  constructor
  · -- Of the events that were added, none but the warning itself can warn.
    rintro ⟨other, same, event, member, warns⟩
    obtain rfl := List.append_cancel_right (added.symm.trans same)
    have warning : event ∈ (fault.warning? moment.steps).toList := by
      simp only [List.mem_append, List.mem_cons] at member
      rcases member with isLeft | rfl | warning | isCalm
      · exact absurd warns (Event.not_warns_of_leavesCall (leaves event isLeft))
      · exact absurd warns (Event.not_warns_raised fault)
      · exact warning
      · exact absurd warns (calmly event isCalm).warning
    cases fault with
    | budgetExceeded budget => exact .inl ⟨budget, rfl⟩
    | interrupted => exact .inr rfl
    | _ => exact absurd warning List.not_mem_nil
  · rintro (⟨budget, rfl⟩ | rfl)
    · exact ⟨_, added, .budgetSpent budget, by simp [Fault.warning?],
        Event.warns_budgetSpent budget⟩
    · exact ⟨_, added, .gaveIn moment.steps, by simp [Fault.warning?],
        Event.warns_gaveIn moment.steps⟩

/-! ### Evaluation -/

/-- An evaluation raises at most one fault, and raises one exactly when it fails. Its failure is
that fault, stamped once with the span of a node and with the backtrace of the context in which it
was raised. From the moment at which it was raised nothing is done but to leave calls, whatever the
evaluation was in the middle of; and there is a warning, just before the fault, exactly when that is
a budget that was exceeded or an interrupt.

No node is evaluated once a fault was raised since the beginning, not even if the evaluation comes
to no end: any evaluator may take its place from there on. -/
theorem nothing_follows_a_fault (interpreter : Interpreter) (fuel : Nat) (program : Expr)
    (start : State) :
    (∀ value after, interpreter.evaluate fuel program start = .value value after →
      start.journal.AddsOnly Event.Quiet after.journal) ∧
    (∀ failure after, interpreter.evaluate fuel program start = .failure failure after →
      ∃ (fault : Fault) (moment : State) (span : Span),
        failure = moment.context.stamp span (.ofFault fault) ∧
        start.journal.AddsOnly Event.Quiet moment.journal ∧ moment.EndsWith fault after ∧
        ((∃ added, after.journal = added ++ start.journal ∧ ∃ event ∈ added, event.Warns) ↔
          (∃ budget, fault = .budgetExceeded budget) ∨ fault = .interrupted)) ∧
    ∀ other, program.diverted interpreter
        (fun state => start.journal.faults.length < state.journal.faults.length) other fuel
          { start with steps := 0 } =
      interpreter.evaluate fuel program start := by
  have apart : ∀ state : State, start.journal.AddsOnly Event.Quiet state.journal →
      decide (start.journal.faults.length < state.journal.faults.length) = false := by
    intro state quiet
    rw [quiet.faults_eq]
    exact decide_eq_false (Nat.lt_irrefl _)
  obtain ⟨valued, failed, diverted⟩ := interpreter.evaluate_follows
    (interpreter.invariant_quiet start) apart fuel program start (.refl start.journal)
  refine ⟨valued, fun failure after ended => ?_, diverted⟩
  obtain ⟨fault, moment, raised, span, stamped, quiet, raises, unwinds⟩ :=
    failed failure after ended
  have ends := raises.endsWith unwinds
  exact ⟨fault, moment, span, stamped, quiet, ends, ends.warns_iff quiet⟩

/-- A loop without an end, in the body of a function that is called among the items of an array, is
given up on a budget of two steps, with a warning. -/
theorem endless_loop_in_call_ends_with_warning :
    let program : Expr := .array ⟨0, 32⟩
      [.call ⟨1, 29⟩ (.define ⟨1, 27⟩ none [] 0
        (.whileLoop ⟨6, 26⟩ (.number ⟨12, 13⟩ (.int 1)) (.number ⟨24, 25⟩ (.int 1)))) [],
        .lookup ⟨30, 31⟩ "x"]
    let start : State := .initial (.root Context.programName)
    ∃ (failure : Failure) (after moment : State) (span : Span),
      (Interpreter.ofLimits (.bounded 4 2)).evaluate 5 program start = .failure failure after ∧
      failure = moment.context.stamp span (.ofFault (.budgetExceeded 2)) ∧
      moment.EndsWith (.budgetExceeded 2) after ∧
      ∃ added, after.journal = added ++ start.journal ∧ ∃ event ∈ added, event.Warns := by
  intro program start
  have spent : ((Interpreter.ofLimits (.bounded 4 2)).evaluate 5 program start).fault? =
      some (.budgetExceeded 2) := by decide +kernel
  cases ending : (Interpreter.ofLimits (.bounded 4 2)).evaluate 5 program start with
  | failure failure after =>
    rw [ending] at spent
    obtain ⟨fault, moment, span, stamped, quiet, ends, warns⟩ :=
      (nothing_follows_a_fault (.ofLimits (.bounded 4 2)) 5 program start).2.1 failure after ending
    have same : fault = .budgetExceeded 2 := by
      rw [← Option.some.inj spent, stamped, Context.fault_stamp]
      rfl
    subst same
    exact ⟨failure, after, moment, span, rfl, stamped, ends, warns.mpr (.inl ⟨2, rfl⟩)⟩
  | value | unfinished =>
    rw [ending] at spent
    cases spent

end Treewalk
