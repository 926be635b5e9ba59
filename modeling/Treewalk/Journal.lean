/-
The journal of an evaluation: everything that it did, one event after the other. Some events are
of interest to a host that watches the evaluation, and these have a line in the log (`line?`). The
others make the journal complete: no name is bound, no step is taken and no fault is raised
without an event, so that what an evaluation does and when can be read off its journal.
-/
import Treewalk.Context

namespace Treewalk

/-- Something that an evaluation did. A context in it is the one it happened in. -/
inductive Event
  /-- The evaluation of a node started. -/
  | visited (context : Context) (node : Expr)
  /-- A name was bound to a value. -/
  | bound (context : Context) (name : String) (value : Value)
  /-- A step was counted, and this is the new count. -/
  | stepped (count : Nat)
  /-- A fault was raised. -/
  | raised (fault : Fault)
  /-- A counting loop came to its end after this many rounds. -/
  | forFinished (name : String) (rounds : Nat)
  /-- A conditional loop came to its end after this many rounds. -/
  | whileFinished (rounds : Nat)
  /-- A call started. -/
  | callEntered (function : String) (args : Nat)
  /-- A call ended, with a value or with a failure. -/
  | callLeft (function : String) (args : Nat)
  /-- A step went beyond the budget. -/
  | budgetSpent (budget : Nat)
  /-- The evaluation gave in to an interrupt, after this many steps. -/
  | gaveIn (steps : Nat)

namespace Event

/-- The line of an event in the log, if the log shows it. -/
def line? : Event → Option String
  | visited _ node => some ("TRACE eval kind=" ++ node.kind ++ " span=" ++ node.span.display)
  | forFinished name rounds =>
    some ("DEBUG for loop finished var=" ++ name ++ " iterations=" ++ toString rounds)
  | whileFinished rounds => some ("DEBUG while loop finished iterations=" ++ toString rounds)
  | callEntered function args =>
    some ("> DEBUG call_function function=" ++ function ++ " args=" ++ toString args)
  | callLeft function args =>
    some ("< DEBUG call_function function=" ++ function ++ " args=" ++ toString args)
  | budgetSpent budget =>
    some ("WARN evaluation budget exceeded budget=" ++ toString budget)
  | gaveIn steps => some ("WARN evaluation interrupted steps=" ++ toString steps)
  | bound .. | stepped _ | raised _ => none

end Event

/-- Events, the latest first. -/
abbrev Journal := List Event

namespace Journal

/-- The log of a journal, the earliest line first. -/
def log (journal : Journal) : List String := journal.reverse.filterMap Event.line?

end Journal

end Treewalk
