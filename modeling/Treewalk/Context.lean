/-
Contexts: the frames that are active, each with its own scope. Names are looked up and bound in the
current frame alone. The frames below it are there so that the depth of calls can be read and so
that a failure can tell how it was reached.
-/
import Treewalk.Failure
import Treewalk.Scope

namespace Treewalk

/-- The scope of the program or of one call. -/
structure Frame where
  name : String
  scope : Scope
  /-- The span of the call that opened the frame; a root frame was opened by none. -/
  entry : Option Span

/-- The current frame and the frames it was reached from, the nearest first. -/
structure Context where
  frame : Frame
  callers : List Frame

namespace Context

/-- The name of the frame of a program. -/
def programName : String := "<program>"

/-- A context of one frame that binds nothing. -/
def root (name : String) : Context := ⟨⟨name, .empty, none⟩, []⟩

/-- Opens a frame that binds nothing, for a call at a given span. -/
def child (context : Context) (name : String) (entry : Span) : Context :=
  ⟨⟨name, .empty, some entry⟩, context.frame :: context.callers⟩

/-- Closes the current frame, unless it is the only one. -/
def parent? (context : Context) : Option Context :=
  match context.callers with
  | [] => none
  | frame :: callers => some ⟨frame, callers⟩

/-- How many frames there are below the current one. -/
def depth (context : Context) : Nat := context.callers.length

/-- All frames, the current one first. -/
def frames (context : Context) : List Frame := context.frame :: context.callers

/-- The value that a name is bound to in the current frame. -/
def get? (context : Context) (name : String) : Option Value := context.frame.scope.get? name

/-- Binds a name in the current frame. -/
def set (context : Context) (name : String) (value : Value) : Context :=
  { context with frame := { context.frame with scope := context.frame.scope.set name value } }

/-- Binds a name to the value of another one, if that is bound. -/
def copy? (context : Context) (source name : String) : Option Context :=
  (context.get? source).map (context.set name)

/-- How many names are bound in the current frame. -/
def size (context : Context) : Nat := context.frame.scope.size

/-- The sites of a chain of frames: the position in the first one is given, and the position in
each other one is where the frame above it was called. -/
def sitesFrom (span : Option Span) : List Frame → List Site
  | [] => []
  | frame :: callers => ⟨frame.name, span⟩ :: sitesFrom frame.entry callers

/-- The backtrace at a position of the current frame. -/
def backtrace (context : Context) (span : Option Span) : Backtrace :=
  ⟨sitesFrom span context.frames⟩

/-- Fills in where a failure happened. A failure with a backtrace has been here before and is left
alone, and so is a span that is already known. -/
def stamp (context : Context) (span : Span) (failure : Failure) : Failure :=
  match failure.backtrace with
  | some _ => failure
  | none =>
    let place := failure.span.getD span
    { failure with span := some place, backtrace := some (context.backtrace (some place)) }

@[simp] theorem get?_set_self (context : Context) (name : String) (value : Value) :
    (context.set name value).get? name = some value :=
  context.frame.scope.get?_set_self name value

theorem get?_set_of_ne (context : Context) {name other : String} (different : other ≠ name)
    (value : Value) : (context.set name value).get? other = context.get? other :=
  context.frame.scope.get?_set_of_ne different value

@[simp] theorem depth_set (context : Context) (name : String) (value : Value) :
    (context.set name value).depth = context.depth := rfl

@[simp] theorem depth_child (context : Context) (name : String) (entry : Span) :
    (context.child name entry).depth = context.depth + 1 := rfl

@[simp] theorem parent?_child (context : Context) (name : String) (entry : Span) :
    (context.child name entry).parent? = some context := rfl

@[simp] theorem backtrace_set (context : Context) (name : String) (value : Value)
    (span : Option Span) : (context.set name value).backtrace span = context.backtrace span := rfl

theorem length_sitesFrom (span : Option Span) (frames : List Frame) :
    (sitesFrom span frames).length = frames.length := by
  induction frames generalizing span with
  | nil => rfl
  | cons frame callers inductionHypothesis =>
    exact congrArg (· + 1) (inductionHypothesis frame.entry)

theorem names_sitesFrom (span : Option Span) (frames : List Frame) :
    (sitesFrom span frames).map Site.name = frames.map Frame.name := by
  induction frames generalizing span with
  | nil => rfl
  | cons frame callers inductionHypothesis =>
    exact congrArg (frame.name :: ·) (inductionHypothesis frame.entry)

/-- A backtrace has a site for every active frame. -/
theorem length_backtrace (context : Context) (span : Option Span) :
    (context.backtrace span).sites.length = context.depth + 1 :=
  length_sitesFrom span context.frames

/-- Only the first stamp counts. -/
theorem stamp_stamp (inner outer : Context) (innerSpan outerSpan : Span) (failure : Failure) :
    outer.stamp outerSpan (inner.stamp innerSpan failure) = inner.stamp innerSpan failure := by
  cases known : failure.backtrace <;> simp [stamp, known]

/-- A stamp says where, never what. -/
@[simp] theorem fault_stamp (context : Context) (span : Span) (failure : Failure) :
    (context.stamp span failure).fault = failure.fault := by
  cases known : failure.backtrace <;> simp [stamp, known]

/-- What a user is told is not changed by a stamp. -/
@[simp] theorem message_stamp (context : Context) (span : Span) (failure : Failure) :
    (context.stamp span failure).message = failure.message := by
  cases known : failure.backtrace <;> simp [stamp, known]

end Context

end Treewalk
