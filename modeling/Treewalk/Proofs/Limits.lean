/-
This file proves that limits only ever cut an evaluation short, and never change what it comes to.

Two interpreters are compared, one of which allows at least as much as the other. They go the same
way, state by state, until the one that allows less runs into a limit. From then on nothing is
known of the other one but that it goes on from where the first one stopped: whatever it still does
is added to what both of them did. Visits of nodes and bindings of names are what counts as done
here (`Journal.acts`); the events that a failure leaves behind on its way out are not.

The step count is shared by all frames and is part of the state, so the two counts are the same as
long as the two go the same way.
-/
import Treewalk.Proofs.Fuel

namespace Treewalk

/-! ### What an evaluation did -/

namespace Event

/-- Whether the event is a visit of a node or a binding of a name. -/
def isAct : Event → Bool
  | visited .. | bound .. => true
  | _ => false

/-- The node that was visited. -/
def node? : Event → Option Expr
  | visited _ node => some node
  | _ => none

/-- The name and the value that were bound in a frame at a given depth. -/
def bindingAt? (depth : Nat) : Event → Option (String × Value)
  | bound context name value => if context.depth = depth then some (name, value) else none
  | _ => none

end Event

namespace Journal

/-- The visits and the bindings, the latest first. -/
def acts (journal : Journal) : Journal := journal.filter Event.isAct

/-- The visited nodes, the earliest first. -/
def nodes (journal : Journal) : List Expr := journal.reverse.filterMap Event.node?

/-- What was bound in frames at a given depth, the earliest first. -/
def bindingsAt (depth : Nat) (journal : Journal) : List (String × Value) :=
  journal.reverse.filterMap (Event.bindingAt? depth)

theorem filterMap_acts {Item : Type} (pick : Event → Option Item)
    (acting : ∀ event, event.isAct = false → pick event = none) (journal : Journal) :
    journal.acts.filterMap pick = journal.filterMap pick := by
  have same : (fun event => if event.isAct then pick event else none) = pick := by
    funext event
    cases act : event.isAct with
    | false => exact (acting event act).symm
    | true => rfl
  rw [acts, List.filterMap_filter, same]

/-- What is picked from among the acts of a journal comes first in a journal that adds to it. -/
theorem filterMap_prefix {Item : Type} (pick : Event → Option Item)
    (acting : ∀ event, event.isAct = false → pick event = none) {journal longer : Journal}
    (added : journal.acts <:+ longer.acts) :
    journal.reverse.filterMap pick <+: longer.reverse.filterMap pick := by
  have picked := added.filterMap pick
  rw [filterMap_acts pick acting, filterMap_acts pick acting] at picked
  rw [List.filterMap_reverse, List.filterMap_reverse]
  exact List.reverse_prefix.mpr picked

theorem nodes_prefix {journal longer : Journal} (added : journal.acts <:+ longer.acts) :
    journal.nodes <+: longer.nodes := by
  refine filterMap_prefix Event.node? (fun event still => ?_) added
  cases event <;> first | rfl | cases still

theorem bindingsAt_prefix (depth : Nat) {journal longer : Journal}
    (added : journal.acts <:+ longer.acts) :
    journal.bindingsAt depth <+: longer.bindingsAt depth := by
  refine filterMap_prefix (Event.bindingAt? depth) (fun event still => ?_) added
  cases event <;> first | rfl | cases still

end Journal

theorem State.acts_suffix_record (state : State) (event : Event) :
    state.journal.acts <:+ (state.record event).journal.acts := by
  show state.journal.acts <:+ Journal.acts (event :: state.journal)
  exact (List.suffix_cons event state.journal).filter Event.isAct

/-! ### Runs that go on where another one was cut short -/

namespace Limits

/-- Whether limits allow at most as much as others. -/
def Within (tight loose : Limits) : Prop :=
  tight.maxDepth ≤ loose.maxDepth ∧
    ∀ budget, loose.budget = some budget → ∃ less, tight.budget = some less ∧ less ≤ budget

end Limits

/-- Whether one run reached a limit and another one does all that it did, and maybe more. -/
def Outcome.CutShort {Result : Type} (longer shorter : Outcome Result) : Prop :=
  ∃ failure last, shorter = .failure failure last ∧ failure.isLimit = true ∧
    ∀ after, longer.after? = some after → last.journal.acts <:+ after.journal.acts

/-- Whether a run takes nothing back, and goes on where another one was cut short. -/
structure Run.Outlasts {Result : Type} (longer shorter : Run Result) : Prop where
  adds : ∀ state after, (longer state).after? = some after →
    state.journal.acts <:+ after.journal.acts
  follows : ∀ state, shorter state = .unfinished ∨ longer state = shorter state ∨
    (longer state).CutShort (shorter state)

namespace Run.Outlasts

variable {Result Other : Type}

/-- A run that is the same on both sides only has to take nothing back. -/
theorem ofAdds {run : Run Result}
    (adds : ∀ state after, (run state).after? = some after →
      state.journal.acts <:+ after.journal.acts) : Outlasts run run :=
  ⟨adds, fun _ => .inr (.inl rfl)⟩

theorem bind {longer shorter : Run Result} {next next' : Result → Run Other}
    (first : Outlasts longer shorter) (second : ∀ result, Outlasts (next result) (next' result)) :
    Outlasts (longer >>= next) (shorter >>= next') := by
  have adds : ∀ state after, ((longer >>= next) state).after? = some after →
      ∃ middle, (longer state).after? = some middle ∧
        middle.journal.acts <:+ after.journal.acts := by
    intro state after left
    rcases bind_leaves left with ⟨result, middle, given, left⟩ | ⟨failure, failed⟩
    · exact ⟨middle, congrArg Outcome.after? given, (second result).adds middle after left⟩
    · exact ⟨after, congrArg Outcome.after? failed, List.suffix_refl _⟩
  refine ⟨fun state after left => ?_, fun state => ?_⟩
  · obtain ⟨middle, reached, added⟩ := adds state after left
    exact (first.adds state middle reached).trans added
  · rcases first.follows state with stuck | same | ⟨failure, last, cut, limit, added⟩
    · rw [bind_apply shorter, stuck]
      exact .inl rfl
    · rw [bind_apply, bind_apply, same]
      cases shorter state with
      | value result middle => exact (second result).follows middle
      | failure failure middle => exact .inr (.inl rfl)
      | unfinished => exact .inl rfl
    · refine .inr (.inr ⟨failure, last, ?_, limit, fun after left => ?_⟩)
      · rw [bind_apply, cut]
      · obtain ⟨middle, reached, added'⟩ := adds state after left
        exact (added middle reached).trans added'

theorem wrapped {longer shorter : Run Result} (inner : Outlasts longer shorter)
    {start : State → State} {mark : State → Failure → Failure} {finish : State → State → State}
    (started : ∀ state, state.journal.acts <:+ (start state).journal.acts)
    (marked : ∀ last failure, (mark last failure).fault = failure.fault)
    (finished : ∀ state last, (finish state last).journal.acts = last.journal.acts) :
    Outlasts (Run.wrapped start mark finish longer) (Run.wrapped start mark finish shorter) := by
  have adds : ∀ state after, (Run.wrapped start mark finish longer state).after? = some after →
      ∃ last, (longer (start state)).after? = some last ∧
        last.journal.acts = after.journal.acts := by
    intro state after left
    obtain ⟨last, inside, rfl⟩ := wrapped_leaves left
    exact ⟨last, inside, (finished state last).symm⟩
  refine ⟨fun state after left => ?_, fun state => ?_⟩
  · obtain ⟨last, reached, same⟩ := adds state after left
    rw [← same]
    exact (started state).trans (inner.adds (start state) last reached)
  · rcases inner.follows (start state) with stuck | same | ⟨failure, last, cut, limit, added⟩
    · rw [wrapped_apply start mark finish shorter, stuck]
      exact .inl rfl
    · rw [wrapped_apply, wrapped_apply, same]
      exact .inr (.inl rfl)
    · refine .inr (.inr ⟨mark last failure, finish state last, ?_, ?_, fun after left => ?_⟩)
      · rw [wrapped_apply, cut]
      · rw [Failure.isLimit, marked]
        exact limit
      · obtain ⟨last', reached, same⟩ := adds state after left
        rw [finished, ← same]
        exact added last' reached

/-- A run that ends in one step of its own, with the journal that it found and maybe one event
more. -/
theorem ofRecord {run : Run Result} (recorded : ∀ state after, (run state).after? = some after →
      after.journal = state.journal ∨ ∃ event, after.journal = event :: state.journal) :
    Outlasts run run := by
  refine ofAdds fun state after left => ?_
  rcases recorded state after left with same | ⟨event, same⟩
  · exact ⟨[], congrArg Journal.acts same.symm⟩
  · rw [same]
    exact state.acts_suffix_record event

end Run.Outlasts

/-! ### Where limits are looked at -/

section

variable {tight loose : Limits}

theorem Outcome.CutShort.ofRaise {Result : Type} {longer : Outcome Result} {fault : Fault}
    {state : State} (limit : fault.isLimit = true)
    (added : ∀ after, longer.after? = some after → state.journal.acts <:+ after.journal.acts) :
    longer.CutShort (Run.raise fault state) :=
  ⟨.ofFault fault, state.record (.raised fault), rfl, limit, added⟩

theorem checkpoint_ofLimits (limits : Limits) (state : State) :
    (Interpreter.ofLimits limits).checkpoint state =
      match limits.budget with
      | none => .value () state.counted
      | some budget =>
        if budget < state.counted.steps then
          Run.raise (.budgetExceeded budget) (state.counted.record (.budgetSpent budget))
        else .value () state.counted := by
  rw [Interpreter.checkpoint_apply]
  rfl

/-- Where the tighter limits let a run pass, the looser ones do. -/
theorem checkpoint_outlasts (within : tight.Within loose) :
    Run.Outlasts (Interpreter.ofLimits loose).checkpoint
      (Interpreter.ofLimits tight).checkpoint := by
  have adds : ∀ state after, ((Interpreter.ofLimits loose).checkpoint state).after? = some after →
      state.journal.acts <:+ after.journal.acts := by
    intro state after left
    have same : after.journal.acts = state.journal.acts := by
      rw [checkpoint_ofLimits] at left
      split at left
      · cases left
        rfl
      · split at left <;> cases left <;> rfl
    exact ⟨[], same.symm⟩
  refine ⟨adds, fun state => ?_⟩
  rw [checkpoint_ofLimits tight]
  cases spent : tight.budget with
  | none =>
    have unbounded : loose.budget = none := by
      cases found : loose.budget with
      | none => rfl
      | some budget =>
        obtain ⟨less, bounded, _⟩ := within.2 budget found
        rw [spent] at bounded
        cases bounded
    rw [checkpoint_ofLimits, unbounded]
    exact .inr (.inl rfl)
  | some less =>
    dsimp only
    split
    · exact .inr (.inr (.ofRaise rfl (adds state)))
    · rename_i passed
      refine .inr (.inl ?_)
      rw [checkpoint_ofLimits]
      cases budget : loose.budget with
      | none => rfl
      | some more =>
        obtain ⟨other, bounded, fewer⟩ := within.2 more budget
        rw [spent] at bounded
        cases bounded
        exact if_neg (by omega)

theorem descend_outlasts {Result : Type} (within : tight.Within loose) {longer shorter : Run Result}
    (inner : Run.Outlasts longer shorter) :
    Run.Outlasts ((Interpreter.ofLimits loose).descend longer)
      ((Interpreter.ofLimits tight).descend shorter) := by
  have adds : ∀ state after,
      ((Interpreter.ofLimits loose).descend longer state).after? = some after →
        state.journal.acts <:+ after.journal.acts := by
    intro state after left
    rw [Interpreter.descend_apply] at left
    split at left
    · cases left
      exact state.acts_suffix_record _
    · exact inner.adds state after left
  refine ⟨adds, fun state => ?_⟩
  rw [Interpreter.descend_apply (Interpreter.ofLimits tight)]
  split
  · exact .inr (.inr (.ofRaise rfl (adds state)))
  · rename_i shallow
    have shallow' : ¬ (Interpreter.ofLimits loose).limits.maxDepth ≤ state.context.depth :=
      fun deep => shallow (Nat.le_trans within.1 deep)
    rw [Interpreter.descend_apply, if_neg shallow']
    exact inner.follows state

end

/-- Two interpreters that nobody has asked to stop, one of which allows at least as much. -/
def Comparison.limits {tight loose : Limits} (within : tight.Within loose) :
    Comparison (.ofLimits loose) (.ofLimits tight) where
  related := Run.Outlasts
  starve related := ⟨related.adds, fun _ => .inl rfl⟩
  unfinished := .ofAdds fun _ _ left => by cases left
  done _ := .ofRecord fun _ _ left => by cases left; exact .inl rfl
  next := .bind
  raise _ _ := .ofRecord fun _ _ left => by cases left; exact .inr ⟨_, rfl⟩
  record _ := .ofRecord fun _ _ left => by cases left; exact .inr ⟨_, rfl⟩
  enter _ := .ofRecord fun _ _ left => by cases left; exact .inr ⟨_, rfl⟩
  lookup name := .ofRecord fun state after left => by
    rw [Run.lookup_apply] at left
    split at left <;> cases left
    · exact .inl rfl
    · exact .inr ⟨_, rfl⟩
  assign _ _ := .ofRecord fun _ _ left => by cases left; exact .inr ⟨_, rfl⟩
  newObject := .ofRecord fun _ _ left => by cases left; exact .inl rfl
  checkpoint := checkpoint_outlasts within
  descend inner := descend_outlasts within inner
  stamped _ inner := inner.wrapped (fun _ => List.suffix_refl _)
    (fun last failure => last.context.fault_stamp _ failure) fun _ _ => rfl
  between _ _ inner := inner.wrapped (fun _ => List.suffix_refl _) (fun _ _ => rfl) fun _ _ => rfl
  inFrame _ _ inner := inner.wrapped (fun _ => List.suffix_refl _) (fun _ _ => rfl) fun _ _ => rfl

/-! ### Evaluation -/

/-- On the same fuel or on less, an evaluation under tighter limits is one that was cut short. -/
theorem Interpreter.evaluate_outlasts {tight loose : Limits} (within : tight.Within loose)
    {fuel fuel' : Nat} (enough : fuel' ≤ fuel) (program : Expr) :
    Run.Outlasts ((ofLimits loose).evaluate fuel program)
      ((ofLimits tight).evaluate fuel' program) :=
  .bind (.ofRecord fun _ _ left => by cases left; exact .inl rfl) fun _ =>
    (Comparison.limits within).eval enough program

/-- A run that was not cut short comes to the end of the one that outlasts it. -/
theorem Run.Outlasts.apply_eq {Result : Type} {longer shorter : Run Result}
    (outlasts : longer.Outlasts shorter) {state : State} (finished : shorter state ≠ .unfinished)
    (within : ∀ fault, (shorter state).fault? = some fault → fault.isLimit = false) :
    longer state = shorter state := by
  rcases outlasts.follows state with stuck | same | ⟨reason, last, cut, limit, -⟩
  · exact absurd stuck finished
  · exact same
  · have fault := within reason.fault (by rw [cut]; rfl)
    rw [Failure.isLimit, fault] at limit
    cases limit

/-- Limits only cut an evaluation short. What a program comes to under some limits, if these are
not the reason for its failure, it comes to under all looser limits: the same value or the same
failure, in the same state, which includes the bindings and the step count. And when it fails for
the limits, what it has bound in the frame that it started in and the nodes it has visited are what
comes first under looser limits, on whatever fuel that evaluation comes to its end. (The frame that
an evaluation starts in is the only one at its depth, since every call opens a deeper one.) -/
theorem limits_only_cut_short {tight loose : Limits} (within : tight.Within loose)
    (program : Expr) (state : State) (fuel : Nat) :
    (∀ value after, (Interpreter.ofLimits tight).evaluate fuel program state = .value value after →
      (Interpreter.ofLimits loose).evaluate fuel program state = .value value after) ∧
    (∀ failure after,
      (Interpreter.ofLimits tight).evaluate fuel program state = .failure failure after →
      failure.isLimit = false →
      (Interpreter.ofLimits loose).evaluate fuel program state = .failure failure after) ∧
    ∀ failure after,
      (Interpreter.ofLimits tight).evaluate fuel program state = .failure failure after →
      failure.isLimit = true → ∀ fuel' after',
      ((Interpreter.ofLimits loose).evaluate fuel' program state).after? = some after' →
      after.journal.bindingsAt state.context.depth <+:
          after'.journal.bindingsAt state.context.depth ∧
        after.journal.nodes <+: after'.journal.nodes := by
  have outlasts := Interpreter.evaluate_outlasts within (Nat.le_refl fuel) program
  refine ⟨fun value after ended => ?_, fun failure after ended blames => ?_,
    fun failure after ended limit fuel' after' ended' => ?_⟩
  · rw [← ended]
    refine outlasts.apply_eq ?_ ?_ <;> rw [ended] <;> exact nofun
  · rw [← ended]
    refine outlasts.apply_eq ?_ ?_ <;> rw [ended]
    · exact nofun
    · rintro fault ⟨⟩
      exact blames
  · have added : after.journal.acts <:+ after'.journal.acts := by
      have enough := Nat.le_max_left fuel fuel'
      have longer : (Interpreter.ofLimits loose).evaluate (max fuel fuel') program state =
          (Interpreter.ofLimits loose).evaluate fuel' program state := by
        refine (Interpreter.evaluate_extends _ (Nat.le_max_right fuel fuel') program
          state).resolve_left fun stuck => ?_
        rw [stuck] at ended'
        cases ended'
      rcases (Interpreter.evaluate_outlasts within enough program).follows state with
        stuck | same | ⟨failure', last, cut, _, added⟩
      · rw [ended] at stuck
        cases stuck
      · rw [← longer, same, ended] at ended'
        cases ended'
        exact List.suffix_refl _
      · rw [ended] at cut
        cases cut
        rw [longer] at added
        exact added after' ended'
    exact ⟨Journal.bindingsAt_prefix _ added, Journal.nodes_prefix added⟩

/-- A loop over three numbers that is cut short in its second round has bound what a loop without a
budget binds first. -/
theorem loop_cut_in_second_round :
    (Limits.bounded 8 1).Within .standard ∧
      ∀ fuel after, ((Interpreter.ofLimits .standard).evaluate fuel
        (.forLoop ⟨0, 25⟩ "i" (.number ⟨8, 9⟩ (.int 0)) (.number ⟨13, 14⟩ (.int 3)) none
          (.assign ⟨20, 25⟩ "x" (.lookup ⟨24, 25⟩ "i")))
        (.initial (.root Context.programName))).after? = some after →
      [("i", .int 0), ("x", .int 0)] <+: after.journal.bindingsAt 0 := by
  have within : (Limits.bounded 8 1).Within .standard :=
    ⟨by decide, fun budget none => by cases none⟩
  refine ⟨within, fun fuel after ended => ?_⟩
  have first := ((limits_only_cut_short within _ _ 5).2.2 _ _ rfl rfl fuel after ended).1
  exact first

end Treewalk
