/-
This file proves that a failure tells the truth about where it happened.

A failure comes out of a node either because the node has raised it, with everything that it asked
for having come to a value, or because it came out of a node that was asked for
(`Plan.Traced.failure`). Followed from the program down, this is a path (`Leads`), on which some of
the nodes are calls and the next one is the body that was called. The span of a failure is that of
the node at the end of the path, and its backtrace has a site for that node, a site for every call
on the path and, below these, the sites that the starting context was reached by
(`failure_tells_where`). What carries this is that a node is stamped with the frame it was evaluated
in, whatever was assigned there, and that stamps above the first one do nothing.
-/
import Treewalk.Proofs.Questions

namespace Treewalk

/-! ### Sites of a context -/

namespace Context

/-- The sites of the frames below the current one. The position in each of them is where the frame
above it was entered. -/
def ancestorSites (context : Context) : List Site :=
  List.zipWith (fun ancestor child => ⟨ancestor.name, child.entry⟩) context.callers context.frames

/-- Whether every frame was entered by a call, apart from the one at the bottom. -/
def Entered (context : Context) : Prop :=
  ∀ frame ∈ context.frames.dropLast, frame.entry.isSome

theorem entered_root (name : String) : (root name).Entered := fun _ member => by cases member

theorem Entered.child {context : Context} (entered : context.Entered) (name : String)
    (entry : Span) : (context.child name entry).Entered := by
  intro frame member
  rcases List.mem_cons.mp member with rfl | below
  · rfl
  · exact entered frame below

theorem sitesFrom_entry (frame : Frame) (callers : List Frame) :
    sitesFrom frame.entry callers =
      List.zipWith (fun ancestor child => ⟨ancestor.name, child.entry⟩) callers
        (frame :: callers) := by
  induction callers generalizing frame with
  | nil => rfl
  | cons caller rest inductionHypothesis =>
    exact congrArg (_ :: ·) (inductionHypothesis caller)

theorem sites_backtrace (context : Context) (span : Option Span) :
    (context.backtrace span).sites = ⟨context.frame.name, span⟩ :: context.ancestorSites :=
  congrArg (_ :: ·) (sitesFrom_entry context.frame context.callers)

theorem length_ancestorSites (context : Context) :
    context.ancestorSites.length = context.depth := by
  have all := context.length_backtrace none
  rw [sites_backtrace] at all
  exact Nat.succ.inj all

/-- Every ancestor's position is known when every frame above one was entered by a call. -/
theorem Entered.span_isSome {context : Context} (entered : context.Entered) :
    ∀ site ∈ context.ancestorSites, site.span.isSome := by
  obtain ⟨frame, callers⟩ := context
  unfold ancestorSites frames
  induction callers generalizing frame with
  | nil => exact fun _ member => by cases member
  | cons caller rest inductionHypothesis =>
    intro site member
    rcases List.mem_cons.mp member with rfl | below
    · exact entered frame (List.mem_cons_self ..)
    · exact inductionHypothesis caller
        (fun frame member => entered frame (List.mem_cons_of_mem _ member)) site below

namespace SameFrame

variable {context other : Context}

theorem ancestorSites_eq (same : context.SameFrame other) :
    context.ancestorSites = other.ancestorSites := by
  unfold ancestorSites frames
  rw [← sitesFrom_entry, ← sitesFrom_entry, same.entry, same.callers]

theorem backtrace_eq (same : context.SameFrame other) (span : Option Span) :
    context.backtrace span = ⟨⟨other.frame.name, span⟩ :: other.ancestorSites⟩ := by
  rw [← same.name, ← same.ancestorSites_eq, ← sites_backtrace]

end SameFrame

end Context

/-- A body is entered above the frames of the call, at the span of the call. -/
theorem State.StartsBody.ancestorSites_eq {start : State} {function : Function}
    {args : List Value} {span : Span} {caller : Context}
    (starts : start.StartsBody function args span caller) :
    start.context.ancestorSites = ⟨caller.frame.name, some span⟩ :: caller.ancestorSites := by
  rw [← Context.sites_backtrace]
  unfold Context.ancestorSites Context.frames
  rw [← Context.sitesFrom_entry, starts.entry, starts.callers]
  rfl

/-! ### The visit of a node -/

namespace Expr

variable (interpreter : Interpreter) (rounds : Nat) (evaluate : Expr → Run Value) (node : Expr)

theorem visit_apply (state : State) :
    visit interpreter rounds evaluate node state =
      match evaluateNode interpreter rounds evaluate node
        (state.record (.visited state.context node)) with
      | .value result last => .value result last
      | .failure failure last => .failure (last.context.stamp node.span failure) last
      | .unfinished => .unfinished := by
  have entered : (Run.enter node >>= fun _ => evaluateNode interpreter rounds evaluate node) state =
      evaluateNode interpreter rounds evaluate node
        (state.record (.visited state.context node)) := rfl
  rw [visit_eq, Run.stamped_eq, Run.wrapped_apply, id, entered]
  cases evaluateNode interpreter rounds evaluate node
    (state.record (.visited state.context node)) <;> rfl

/-- What the visit of a node asks for is what the node asks for. -/
theorem asks_visit_iff (state : State) (child : Expr) (start : State) :
    Plan.Asks (fun evaluate => visit interpreter rounds evaluate node) evaluate state child start ↔
      Plan.Asks (fun evaluate => evaluateNode interpreter rounds evaluate node) evaluate
        (state.record (.visited state.context node)) child start := by
  refine forall_congr' fun less => imp_congr_right fun _ => imp_congr_right fun _ => ?_
  dsimp only
  rw [visit_apply]
  cases evaluateNode interpreter rounds less node (state.record (.visited state.context node)) <;>
    simp

end Expr

/-! ### The way to a failure -/

/-- A node that is evaluated, the state that it is evaluated from, and the fuel there is for it. -/
structure Activation where
  fuel : Nat
  node : Expr
  state : State

namespace Activation

/-- What the node comes to. -/
def ending (interpreter : Interpreter) (activation : Activation) : Outcome Value :=
  activation.node.eval interpreter activation.fuel activation.state

/-- Whether the evaluation of one node starts that of another. -/
def Starts (interpreter : Interpreter) (outer inner : Activation) : Prop :=
  outer.fuel = inner.fuel + 1 ∧
    Plan.Asks (fun evaluate => Expr.visit interpreter inner.fuel evaluate outer.node)
      (Expr.eval interpreter inner.fuel) outer.state inner.node inner.state

/-- Whether a failure comes out of a node. -/
def FailsWith (interpreter : Interpreter) (failure : Failure) (activation : Activation) : Prop :=
  ∃ after, activation.ending interpreter = .failure failure after

/-- Whether a node has raised a failure itself: it fails, everything it has started came to a
value, and it fails in the same way when all that is known of other nodes is which values they come
to. -/
structure Raises (interpreter : Interpreter) (failure : Failure) (activation : Activation) :
    Prop where
  fails : activation.FailsWith interpreter failure
  started : ∀ inner, activation.Starts interpreter inner →
    ∃ value after, inner.ending interpreter = .value value after
  alone : ∃ fuel after, activation.fuel = fuel + 1 ∧
    Expr.visit interpreter fuel (fun node => (node.eval interpreter fuel).successes)
      activation.node activation.state = .failure failure after

/-- Whether one node is a call and the other one is the body of the function that it calls. -/
def Enters (interpreter : Interpreter) (outer inner : Activation) : Prop :=
  Expr.Enters (Expr.eval interpreter inner.fuel) outer.node
    (outer.state.record (.visited outer.state.context outer.node)) inner.node inner.state

/-- The site of a node in a backtrace. -/
def site (activation : Activation) : Site :=
  ⟨activation.state.context.frame.name, some activation.node.span⟩

end Activation

/-- The way from a node down to the one that has raised a failure, with the calls on it. From each
node on the way the failure comes out, and it goes on in the same frame or in the frame of the body
that the node calls. -/
inductive Leads (interpreter : Interpreter) (failure : Failure) :
    Activation → List Activation → Activation → Prop
  | here {last : Activation} (raises : last.Raises interpreter failure) :
      Leads interpreter failure last [] last
  | inFrame {outer inner last : Activation} {calls : List Activation}
      (fails : outer.FailsWith interpreter failure) (starts : outer.Starts interpreter inner)
      (same : inner.state.context.SameFrame outer.state.context)
      (rest : Leads interpreter failure inner calls last) :
      Leads interpreter failure outer calls last
  | inBody {outer inner last : Activation} {calls : List Activation}
      (fails : outer.FailsWith interpreter failure) (starts : outer.Starts interpreter inner)
      (enters : outer.Enters interpreter inner)
      (rest : Leads interpreter failure inner calls last) :
      Leads interpreter failure outer (outer :: calls) last

/-- The site of the node that a way ends at, and those of the calls on the way, the last call
first. -/
def Activation.trail (calls : List Activation) (last : Activation) : List Site :=
  last.site :: (calls.map site).reverse

theorem Activation.trail_cons (call : Activation) (calls : List Activation) (last : Activation)
    (sites : List Site) : trail (call :: calls) last ++ sites =
      trail calls last ++ call.site :: sites := by
  simp [trail]

/-- The frame of a body has the site of the call below it. -/
theorem Activation.Enters.ancestorSites_eq {interpreter : Interpreter} {outer inner : Activation}
    (enters : outer.Enters interpreter inner) :
    inner.state.context.ancestorSites = outer.site :: outer.state.context.ancestorSites := by
  obtain ⟨fuel, node, state⟩ := outer
  obtain ⟨fuel', body, start⟩ := inner
  cases enters with
  | @call span callee nodes function args _ middle last _ called given starts =>
    have evaluated : middle.context.SameFrame state.context :=
      Expr.eval_staysInFrame interpreter fuel' callee
        (state.record (.visited state.context (.call span callee nodes))) middle
        (congrArg Outcome.after? called)
    have argued : last.context.SameFrame middle.context :=
      Expr.evaluateAll_staysInFrame interpreter fuel' nodes middle last
        (congrArg Outcome.after? given)
    have same := argued.trans evaluated
    refine starts.ancestorSites_eq.trans ?_
    rw [same.name, same.ancestorSites_eq]
    rfl

/-- Whether a failure tells what has happened and where, given the way that leads to it. -/
structure Failure.HappensAt (failure : Failure) (start last : Activation)
    (calls : List Activation) : Prop where
  message : failure.message = failure.fault.message
  span : failure.span = some last.node.span
  backtrace : failure.backtrace =
    some ⟨Activation.trail calls last ++ start.state.context.ancestorSites⟩

/-- What a node raises itself is stamped at its span, in the frame that it is evaluated in. -/
theorem Activation.happensAt_stamp (activation : Activation) {context : Context}
    (same : context.SameFrame activation.state.context) (fault : Fault) :
    (context.stamp activation.node.span (.ofFault fault)).HappensAt activation activation [] :=
  ⟨rfl, rfl, congrArg some (same.backtrace_eq _)⟩

namespace Expr

variable {interpreter : Interpreter} {fuel : Nat} {node : Expr} {state after : State}

/-- One step of the way: a failure of a node is its own, or it is that of a node it has started. -/
theorem raises_or_starts {failure : Failure}
    (failed : eval interpreter (fuel + 1) node state = .failure failure after) :
    ((⟨fuel + 1, node, state⟩ : Activation).Raises interpreter failure ∧
      failure.HappensAt ⟨fuel + 1, node, state⟩ ⟨fuel + 1, node, state⟩ []) ∨
    ∃ (child : Expr) (start last : State) (inside : Failure),
      eval interpreter fuel child start = .failure inside last ∧
      failure = after.context.stamp node.span inside ∧
      (⟨fuel + 1, node, state⟩ : Activation).Starts interpreter ⟨fuel, child, start⟩ ∧
      (start.context.SameFrame state.context ∨
        (⟨fuel + 1, node, state⟩ : Activation).Enters interpreter ⟨fuel, child, start⟩) := by
  have traced := Plan.Traced.evaluateNode (eval_staysInFrame interpreter fuel) interpreter fuel
    node (state.record (.visited state.context node))
  rw [eval_succ, visit_apply] at failed
  cases ending : evaluateNode interpreter fuel (eval interpreter fuel) node
      (state.record (.visited state.context node)) with
  | failure inside last =>
    rw [ending] at failed
    cases failed
    rcases traced.failure inside after ending with
      ⟨⟨fault, rfl⟩, same, known⟩ | ⟨child, start, last, asks, answer, place⟩
    · refine .inl ⟨⟨⟨after, ?_⟩, fun inner starts => ?_, fuel, after, rfl, ?_⟩,
        Activation.happensAt_stamp ⟨fuel + 1, node, state⟩ same fault⟩
      · show eval interpreter (fuel + 1) node state = _
        rw [eval_succ, visit_apply, ending]
      · obtain ⟨fuel', child, start⟩ := inner
        obtain ⟨rfl, asks⟩ : fuel = fuel' ∧ _ := ⟨Nat.succ.inj starts.1, starts.2⟩
        refine ((asks_visit_iff ..).mp asks).value ?_
        rw [known]
        exact nofun
      · rw [visit_apply, known]
    · exact .inr ⟨child, start, last, inside, answer, rfl,
        ⟨rfl, (asks_visit_iff ..).mpr asks⟩, place⟩
  | value | unfinished =>
    rw [ending] at failed
    cases failed

/-- The way to the failure of a node. The induction is on the fuel, which gets less with every node
on the way. -/
theorem leads_of_failure {failure : Failure}
    (failed : eval interpreter fuel node state = .failure failure after) :
    ∃ calls last, Leads interpreter failure ⟨fuel, node, state⟩ calls last ∧
      failure.HappensAt ⟨fuel, node, state⟩ last calls := by
  induction fuel generalizing node state after failure with
  | zero => cases failed
  | succ fuel inductionHypothesis =>
    rcases raises_or_starts failed with
      ⟨raises, happens⟩ | ⟨child, start, last, inside, answer, rfl, starts, place⟩
    · exact ⟨[], _, .here raises, happens⟩
    · obtain ⟨calls, site, leads, happens⟩ := inductionHypothesis answer
      -- The failure has been stamped further down, so the stamp of this node does nothing.
      have stamped : after.context.stamp node.span inside = inside := by
        unfold Context.stamp
        rw [happens.backtrace]
      rw [stamped] at failed ⊢
      have fails : (⟨fuel + 1, node, state⟩ : Activation).FailsWith interpreter inside :=
        ⟨after, failed⟩
      rcases place with same | enters
      · refine ⟨calls, site, .inFrame fails starts same leads, happens.message, happens.span,
          ?_⟩
        rw [happens.backtrace, same.ancestorSites_eq]
      · refine ⟨_, site, .inBody fails starts enters leads, happens.message, happens.span,
          ?_⟩
        rw [happens.backtrace, enters.ancestorSites_eq, Activation.trail_cons]

/-- A failure that comes out of a node knows where it happened. -/
theorem located_of_failure {failure : Failure}
    (failed : eval interpreter fuel node state = .failure failure after) :
    failure.span.isSome ∧ failure.backtrace.isSome := by
  obtain ⟨calls, last, -, happens⟩ := leads_of_failure failed
  rw [happens.span, happens.backtrace]
  exact ⟨rfl, rfl⟩

end Expr

/-- A failure that knows where it happened goes through every node above as it is. -/
theorem Context.stamp_of_located (context : Context) (span : Span) {failure : Failure}
    (located : failure.backtrace.isSome) : context.stamp span failure = failure := by
  obtain ⟨backtrace, known⟩ := Option.isSome_iff_exists.mp located
  unfold stamp
  rw [known]

/-- A failure has the message of its fault, and there is a way from the program to a node that has
raised it: the failure has the span of that node, and its backtrace lists the frame of that node at
this span, then the frame of every call on the way at the span of the call, the last one first, and
then the frames below the starting one, each where the frame above it was entered. So it has one
frame more than there are calls on the way and frames below the starting one, and if these were
entered by calls, as every frame but a root is, then each site has a span. -/
theorem failure_tells_where (interpreter : Interpreter) (fuel : Nat) (program : Expr)
    (state after : State) (failure : Failure)
    (failed : interpreter.evaluate fuel program state = .failure failure after) :
    failure.message = failure.fault.message ∧
    ∃ calls last, Leads interpreter failure ⟨fuel, program, { state with steps := 0 }⟩ calls last ∧
      failure.span = some last.node.span ∧
      ∃ sites, failure.backtrace = some ⟨sites⟩ ∧
        sites = last.site :: (calls.map Activation.site).reverse ++ state.context.ancestorSites ∧
        sites.length = state.context.depth + calls.length + 1 ∧
        (state.context.Entered → ∀ site ∈ sites, site.span.isSome) := by
  obtain ⟨calls, last, leads, happens⟩ :=
    Expr.leads_of_failure failed
  refine ⟨happens.message, calls, last, leads, happens.span, _, happens.backtrace, rfl, ?_,
    fun entered site member => ?_⟩
  · simp [Activation.trail, Context.length_ancestorSites]
    omega
  · rcases List.mem_append.mp member with above | below
    · obtain rfl | ⟨call, _, rfl⟩ : site = last.site ∨ ∃ call ∈ calls, call.site = site := by
        simpa [Activation.trail] using above
      · rfl
      · rfl
    · exact entered.span_isSome site below

/-- A function that is called in a frame that was itself entered looks up a name that is bound in
neither. -/
theorem unbound_name_in_called_body :
    let program : Expr := .call ⟨0, 9⟩ (.define ⟨0, 5⟩ (some "f") [] 0 (.lookup ⟨3, 4⟩ "x")) []
    let state : State := .initial ((Context.root "main").child "g" ⟨20, 25⟩)
    let interpreter : Interpreter := .ofLimits (.bounded 5 5)
    let sites : List Site := [⟨"f", some ⟨3, 4⟩⟩, ⟨"g", some ⟨0, 9⟩⟩, ⟨"main", some ⟨20, 25⟩⟩]
    ∃ failure after, interpreter.evaluate 3 program state = .failure failure after ∧
      failure.message = (Fault.undefinedVariable "x").message ∧
      failure.backtrace = some ⟨sites⟩ ∧ (∀ site ∈ sites, site.span.isSome) ∧
      ∃ calls last, Leads interpreter failure ⟨3, program, state⟩ calls last ∧
        calls.length = 1 := by
  intro program state interpreter sites
  have told : (match interpreter.evaluate 3 program state with
      | .failure failure _ => some (failure.fault, failure.backtrace)
      | _ => none) = some (.undefinedVariable "x", some ⟨sites⟩) := by
    decide +kernel
  cases ending : interpreter.evaluate 3 program state with
  | failure failure after =>
    rw [ending] at told
    obtain ⟨fault, backtrace⟩ := Prod.mk.inj (Option.some.inj told)
    obtain ⟨message, calls, last, leads, _, found, same, _, length, spans⟩ :=
      failure_tells_where interpreter 3 program state after failure ending
    obtain rfl : found = sites := Backtrace.mk.inj (Option.some.inj (same.symm.trans backtrace))
    have three : 3 = 1 + calls.length + 1 := length
    exact ⟨failure, after, rfl, message.trans (congrArg Fault.message fault), backtrace,
      spans ((Context.entered_root "main").child "g" ⟨20, 25⟩), calls, last, leads, by omega⟩
  | value | unfinished =>
    rw [ending] at told
    cases told

end Treewalk
