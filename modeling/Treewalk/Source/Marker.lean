/-
Source snippets: the lines that a span touches, each with a line of markers under it. The markers
stand under the characters of the span. Even an empty span has one marker, and tabs are shown as
single spaces so that markers stay where they belong.
-/
import Treewalk.Source.LineTable
import Treewalk.Span

namespace Treewalk.Source

/-- The last byte that a span touches: the one before its end, or the one it starts at. -/
def lastByte (span : Span) : UInt32 :=
  max span.stop (UInt32.ofNatClamp (span.start.toNat + 1)) - 1

/-- A line as it is shown. -/
def shownLine (text : List Char) : List Char :=
  text.map fun character => if character = '\t' then ' ' else character

/-- Markers from column `start` up to column `stop`, columns counted from zero; at least one. -/
def markers (start stop : Nat) : List Char :=
  List.replicate start ' ' ++ List.replicate (max 1 (stop - start)) '^'

/-- The lines of a snippet from `line` on, `count` of them, each with its markers. The lines end
where the text has no more. -/
def markedLines (table : LineTable) (text : List Char) (first last : UInt32 × UInt32) :
    Nat → UInt32 → List (List Char)
  | 0, _ => []
  | count + 1, line =>
    match table.lineText? text line with
    | none => []
    | some characters =>
      let start := if line = first.1 then first.2.toNat - 1 else 0
      let stop := if line = last.1 then last.2.toNat else characters.length
      shownLine characters :: markers start stop ::
        markedLines table text first last count (line + 1)

/-- Lines joined by newlines. -/
def joinLines : List (List Char) → List Char
  | [] => []
  | [line] => line
  | line :: rest => line ++ '\n' :: joinLines rest

/-- The lines of the snippet that shows a span of a text. -/
def snippetLines (text : List Char) (span : Span) : List (List Char) :=
  let table := LineTable.ofText text
  let first := table.locate text span.start
  let last := table.locate text (lastByte span)
  markedLines table text first last (last.1.toNat + 1 - first.1.toNat) first.1

/-- The snippet that shows a span of a text. -/
def underline (source : String) (span : Span) : String :=
  String.ofList (joinLines (snippetLines source.toList span))

example : underline "x = 10 / 0" ⟨4, 10⟩ = "x = 10 / 0\n    ^^^^^^" := by decide +kernel

example : underline "while 1 then\n  x\nend" ⟨6, 16⟩ =
    "while 1 then\n      ^^^^^^\n  x\n^^^" := by decide +kernel

end Treewalk.Source
