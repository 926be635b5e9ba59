/-
Failures: a fault together with what a user is told of it and where it happened. The message is made
when the fault is raised. The place is the span of the node that failed and a backtrace, which lists
the active frames with the position inside each, the most recent one first. Both are filled in after
the fault was raised, by the context it was raised in.
-/
import Treewalk.Fault
import Treewalk.Span

namespace Treewalk

/-- A frame of a backtrace with the position inside it, where that is known. -/
structure Site where
  name : String
  span : Option Span
deriving DecidableEq

/-- The active frames, most recent first. -/
structure Backtrace where
  sites : List Site
deriving DecidableEq

namespace Backtrace

/-- The line of a site in a backtrace. -/
def line (number : Nat) (site : Site) : String :=
  "  " ++ toString number ++ ": " ++ site.name ++
    (match site.span with
      | none => ""
      | some span => " at " ++ span.display) ++ "\n"

/-- A backtrace as text: a heading and a numbered line for every site, and nothing at all when
there are no sites. -/
def display (backtrace : Backtrace) : String :=
  match backtrace.sites with
  | [] => ""
  | sites => "backtrace:\n" ++ String.join (sites.mapIdx line)

example : display ⟨[⟨"add", some ⟨4, 9⟩⟩, ⟨"<program>", none⟩]⟩ =
    "backtrace:\n  0: add at 4..9\n  1: <program>\n" := by decide

end Backtrace

/-- A fault, what a user is told of it, and where it happened. -/
structure Failure where
  fault : Fault
  message : String
  span : Option Span
  backtrace : Option Backtrace
deriving DecidableEq

namespace Failure

/-- A fault of which nobody knows where it happened. -/
def ofFault (fault : Fault) : Failure := ⟨fault, fault.message, none, none⟩

/-- Whether the evaluation only reached a limit. -/
def isLimit (failure : Failure) : Bool := failure.fault.isLimit

end Failure

end Treewalk
