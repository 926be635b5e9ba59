/-
Tracebacks: a failure as a user is shown it. First come the frames that led to it, the oldest
first and each with its line in the source, then the message, and then the source lines of the
node that failed with markers under it.
-/
import Treewalk.Failure
import Treewalk.Source.Marker

namespace Treewalk.Traceback

/-- The line of a frame, with its number in the source when its position is known. -/
def siteLine (table : Source.LineTable) (text : List Char) (file : String) (site : Site) :
    String :=
  match site.span with
  | some span =>
    "  File " ++ file ++ ", line " ++
      toString (table.locate text span.start).1.toNat ++ ", in " ++ site.name ++ "\n"
  | none => "  File " ++ file ++ ", in " ++ site.name ++ "\n"

/-- The traceback of a failure in a source that was read from a file. -/
def render (failure : Failure) (source file : String) : String :=
  let text := source.toList
  let table := Source.LineTable.ofText text
  let sites :=
    match failure.backtrace with
    | some backtrace => backtrace.sites.reverse
    | none => []
  let snippet :=
    match failure.span with
    | some span => "\n\n" ++ Source.underline source span
    | none => ""
  "Traceback (most recent call last):\n" ++
    String.join (sites.map (siteLine table text file)) ++
    "Runtime Error: " ++ failure.message ++ snippet

end Treewalk.Traceback
